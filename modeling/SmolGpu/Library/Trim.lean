import Mathlib.Data.List.DropRight

/-!
# Trimming

A list without the items of a kind at its front and its back. `Trims` says what this is, and
`trims_trim` and `Trims.trim_eq` that the two loops which remove such items, one from each end,
compute it and nothing else does.
-/

namespace SmolGpu.Trim

variable {α : Type} (p : α → Bool)

/-- Removes items from the front, and then from the back. -/
def trim (l : List α) : List α := (l.dropWhile p).rdropWhile p

/-- The list is `body` between items of the kind, and `body` neither begins nor ends with one. -/
structure Trims (l body : List α) : Prop where
  /-- The items around `body` are of the kind. -/
  form : ∃ front back, l = front ++ body ++ back ∧ (∀ x ∈ front, p x = true) ∧
    ∀ x ∈ back, p x = true
  /-- The first item of `body` is not. -/
  head : ∀ x, body.head? = some x → p x = false
  /-- The last item of `body` is not. -/
  last : ∀ x, body.getLast? = some x → p x = false

variable {p} {l body front back : List α}

/-- Items of the kind in front do not change what is trimmed. -/
theorem Trims.append_front (h : Trims p l body) (hfront : ∀ x ∈ front, p x = true) :
    Trims p (front ++ l) body := by
  obtain ⟨front', back, rfl, hfront', hback⟩ := h.form
  refine ⟨⟨front ++ front', back, by simp, fun x hx => ?_, hback⟩, h.head, h.last⟩
  rcases List.mem_append.mp hx with hx | hx
  · exact hfront x hx
  · exact hfront' x hx

/-- Items of the kind at the back do not change what is trimmed. -/
theorem Trims.append_back (h : Trims p l body) (hback : ∀ x ∈ back, p x = true) :
    Trims p (l ++ back) body := by
  obtain ⟨front, back', rfl, hfront, hback'⟩ := h.form
  refine ⟨⟨front, back' ++ back, by simp, hfront, fun x hx => ?_⟩, h.head, h.last⟩
  rcases List.mem_append.mp hx with hx | hx
  · exact hback' x hx
  · exact hback x hx

/-- Items of the kind at the front go. -/
theorem dropWhile_front (hfront : ∀ x ∈ front, p x = true)
    (hhead : ∀ x, body.head? = some x → p x = false) : (front ++ body).dropWhile p = body := by
  rw [List.dropWhile_append_of_pos hfront]
  cases body with
  | nil => rfl
  | cons x body => exact List.dropWhile_cons_of_neg (by simp [hhead x rfl])

/-- The loop from the back removes exactly the items of the kind there. -/
theorem rdropWhile_back (hback : ∀ x ∈ back, p x = true)
    (hlast : ∀ x, body.getLast? = some x → p x = false) : (body ++ back).rdropWhile p = body := by
  unfold List.rdropWhile
  rw [List.reverse_append, dropWhile_front, List.reverse_reverse]
  · intro x hx
    exact hback x (List.mem_reverse.mp hx)
  · intro x hx
    rw [List.head?_reverse] at hx
    exact hlast x hx

/-- The loop from the front stops at an item that is not of the kind. -/
theorem head?_dropWhile {x : α} (h : (l.dropWhile p).head? = some x) : p x = false := by
  have hnot := List.head?_dropWhile_not p l
  rw [h] at hnot
  exact hnot

/-- What is between items of the kind is what remains. -/
theorem Trims.trim_eq (h : Trims p l body) : trim p l = body := by
  obtain ⟨front, back, rfl, hfront, hback⟩ := h.form
  unfold trim
  cases body with
  | nil =>
    -- Everything is of the kind.
    have hall : ∀ x ∈ front ++ [] ++ back, p x = true := by
      intro x hx
      rw [List.append_nil] at hx
      rcases List.mem_append.mp hx with hx | hx
      · exact hfront x hx
      · exact hback x hx
    rw [List.dropWhile_eq_nil_iff.mpr hall]
    rfl
  | cons x body =>
    rw [List.append_assoc, dropWhile_front hfront, rdropWhile_back hback h.last]
    exact fun y hy => h.head y hy

/-- What remains is between items of the kind. -/
theorem trims_trim (l : List α) : Trims p l (trim p l) where
  form := by
    refine ⟨l.takeWhile p, (l.dropWhile p).rtakeWhile p, ?_, fun x hx => ?_, fun x hx => ?_⟩
    · rw [List.append_assoc, trim, List.rdropWhile_append_rtakeWhile,
        List.takeWhile_append_dropWhile]
    · exact List.all_eq_true.mp List.all_takeWhile x hx
    · exact List.mem_rtakeWhile_imp hx
  head := by
    intro x hx
    -- The front of what remains is that of what is left when the front is removed.
    obtain ⟨tail, htail⟩ : trim p l <+: l.dropWhile p := List.rdropWhile_prefix p _
    refine @head?_dropWhile α p l x ?_
    rw [← htail, List.head?_append, hx]
    rfl
  last := by
    intro x hx
    unfold trim List.rdropWhile at hx
    rw [List.getLast?_reverse] at hx
    exact head?_dropWhile hx

end SmolGpu.Trim
