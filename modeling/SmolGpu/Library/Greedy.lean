import Mathlib.Data.List.Nodup

/-!
# Servers that take from one queue

A loop over a list of servers lets each of them that is free take the head of a queue, and the next
one sees what is left of it. `Pass` says what one iteration does: a free server gets the head of the
queue, if there is one, the other servers leave the queue alone, and no iteration takes back what a
server before it got. Then the free servers and the queue are matched in order (`Pass.foldl`): the
`k`-th free server gets the `k`-th item of the queue as it was before the loop.
-/

namespace SmolGpu.Greedy

variable {σ α β : Type*}

/-- One iteration of the loop at the server `a`, in a state of which the invariant of the servers
that are left holds. `Got s a o` says that the server `a` has got `o` in the state `s`. -/
structure Pass (body : σ → α → σ) (free : α → Bool) (queue : σ → List β)
    (Got : σ → α → Option β → Prop) (Inv : List α → σ → Prop) : Prop where
  /-- The invariant goes over to the servers that are left. -/
  keep : ∀ {a l s}, Inv (a :: l) s → Inv l (body s a)
  /-- A free server takes the first item of the queue. -/
  queue_free : ∀ {a l s}, Inv (a :: l) s → free a = true → queue (body s a) = (queue s).tail
  /-- A busy server leaves the queue. -/
  queue_busy : ∀ {a l s}, Inv (a :: l) s → free a = false → queue (body s a) = queue s
  /-- A free server has got the first item of the queue. -/
  got : ∀ {a l s}, Inv (a :: l) s → free a = true → Got (body s a) a (queue s).head?
  /-- An iteration leaves what the other servers have got. -/
  frame : ∀ {a b l s o}, Inv (b :: l) s → a ≠ b → Got s a o → Got (body s b) a o

variable {body : σ → α → σ} {free : α → Bool} {queue : σ → List β} {Got : σ → α → Option β → Prop}
  {Inv : List α → σ → Prop} {l : List α} {s : σ}

/-- The other servers' iterations do not take back what a server has got. -/
theorem Pass.foldl_frame (h : Pass body free queue Got Inv) (hinv : Inv l s) {a : α} {o : Option β}
    (ha : a ∉ l) (hgot : Got s a o) : Got (l.foldl body s) a o := by
  induction l generalizing s with
  | nil => exact hgot
  | cons b l ih =>
    rw [List.mem_cons, not_or] at ha
    exact ih (h.keep hinv) ha.2 (h.frame hinv ha.1 hgot)

/-- The `k`-th free server gets the `k`-th item of the queue, and nothing if the queue is
shorter. -/
theorem Pass.foldl (h : Pass body free queue Got Inv) (hnodup : l.Nodup) (hinv : Inv l s) {k : ℕ}
    {a : α} (ha : (l.filter free)[k]? = some a) : Got (l.foldl body s) a (queue s)[k]? := by
  -- By induction on the servers: a busy one changes nothing for the others, and a free one takes
  -- the first item.
  induction l generalizing s k with
  | nil => simp at ha
  | cons b l ih =>
    obtain ⟨hb, hl⟩ := List.nodup_cons.mp hnodup
    rw [List.foldl_cons]
    cases hfree : free b with
    | false =>
      rw [List.filter_cons_of_neg (by simp [hfree])] at ha
      have hgot := ih hl (h.keep hinv) ha
      rwa [h.queue_busy hinv hfree] at hgot
    | true =>
      rw [List.filter_cons_of_pos hfree] at ha
      cases k with
      | zero =>
        obtain rfl : b = a := by simpa using ha
        rw [← List.head?_eq_getElem?]
        exact h.foldl_frame (h.keep hinv) hb (h.got hinv hfree)
      | succ k =>
        rw [List.getElem?_cons_succ] at ha
        have hgot := ih hl (h.keep hinv) ha
        rwa [h.queue_free hinv hfree, List.getElem?_tail] at hgot

/-- A predicate that holds of exactly the items in front of a position keeps these. -/
theorem filter_eq_take {p : α → Bool} {n : ℕ}
    (h : ∀ (k : ℕ) (a : α), l[k]? = some a → p a = decide (k < n)) : l.filter p = l.take n := by
  induction l generalizing n with
  | nil => simp
  | cons a l ih =>
    have hhead : p a = decide (0 < n) := h 0 a rfl
    cases n with
    | zero =>
      have htail : l.filter p = l.take 0 := ih fun k b hb => by simpa using h (k + 1) b hb
      rw [List.filter_cons_of_neg (by simp [hhead]), htail]
      rfl
    | succ n =>
      have htail : l.filter p = l.take n := ih fun k b hb => by simpa using h (k + 1) b hb
      rw [List.filter_cons_of_pos (by simp [hhead]), htail]
      rfl

/-- The free servers that get an item are the first ones, as many as there are both. -/
theorem Pass.filter_got (h : Pass body free queue Got Inv) (hnodup : l.Nodup) (hinv : Inv l s)
    {served : α → Bool} (hserved : ∀ a o, Got (l.foldl body s) a o → served a = o.isSome) :
    (l.filter free).filter served =
      (l.filter free).take (min (l.filter free).length (queue s).length) := by
  apply filter_eq_take
  intro k a ha
  have hlt : k < (l.filter free).length := (List.getElem?_eq_some_iff.mp ha).1
  have hqueue : (queue s)[k]?.isSome = decide (k < (queue s).length) := by
    rw [Bool.eq_iff_iff]
    simp
  rw [hserved a _ (h.foldl hnodup hinv ha), hqueue, decide_eq_decide]
  omega

end SmolGpu.Greedy
