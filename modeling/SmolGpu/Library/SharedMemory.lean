import Mathlib.Data.List.Induction
import Mathlib.Data.List.Nodup
import Mathlib.Logic.Function.Basic

/-!
# Memory without races

A memory that several agents read and write, one access at a time. A history is the list of the
accesses in the order in which the memory performed them. If no two agents touch a common address
with one of them writing, then what an agent reads is what it wrote there last itself, or what was
there from the start (`RaceFree.read`), and the memory in the end is determined by what each agent
wrote last (`RaceFree.after_congr`). Neither depends on how the accesses of the agents interleave.
-/

namespace SmolGpu.SharedMemory

variable {ι α β : Type*} [DecidableEq ι] [DecidableEq α]

/-- An access to memory. -/
inductive Access (α β : Type*)
  | read (address : α)
  | write (address : α) (data : β)
  deriving DecidableEq, Repr

namespace Access

/-- The address that is accessed. -/
def address : Access α β → α
  | read a => a
  | write a _ => a

/-- The access stores. -/
def Stores : Access α β → Prop
  | read _ => False
  | write _ _ => True

/-- Whether an access is a store is read off its kind. -/
instance : ∀ e : Access α β, Decidable e.Stores
  | read _ => inferInstanceAs (Decidable False)
  | write _ _ => inferInstanceAs (Decidable True)

/-- The memory after an access. -/
def perform (m : α → β) : Access α β → α → β
  | read _ => m
  | write a v => Function.update m a v

/-- The word an access returns: the one that is at its address afterwards. -/
def word (m : α → β) (e : Access α β) : β := e.perform m e.address

/-- What an agent has stored at each address, after an access of its own. -/
def record (own : α → Option β) : Access α β → α → Option β
  | read _ => own
  | write a v => Function.update own a (some v)

end Access

/-- The memory after a history. -/
def after (m : α → β) (h : List (ι × Access α β)) : α → β :=
  h.foldl (fun m e => e.2.perform m) m

/-- What agent `i` stored last at each address, in a history. -/
def own (h : List (ι × Access α β)) (i : ι) : α → Option β :=
  h.foldl (fun o e => if e.1 = i then e.2.record o else o) fun _ => none

/-- No two agents access a common address with one of them storing. -/
def RaceFree (h : List (ι × Access α β)) : Prop :=
  ∀ e ∈ h, ∀ f ∈ h, e.1 ≠ f.1 → e.2.address = f.2.address → ¬e.2.Stores ∧ ¬f.2.Stores

/-- Races of a finite history are found by looking at its pairs. -/
instance (h : List (ι × Access α β)) : Decidable (RaceFree h) :=
  inferInstanceAs (Decidable (∀ e ∈ h, ∀ f ∈ h,
    e.1 ≠ f.1 → e.2.address = f.2.address → ¬e.2.Stores ∧ ¬f.2.Stores))

section History

variable {m : α → β} {h h' : List (ι × Access α β)} {i j : ι} {e : Access α β} {x : α}

omit [DecidableEq ι] in
/-- The memory after one more access. -/
@[simp] theorem after_append_singleton :
    after m (h ++ [(i, e)]) = e.perform (after m h) := by
  simp [after]

/-- A thread's memory records its own accesses. -/
theorem own_append_self : own (h ++ [(i, e)]) i = e.record (own h i) := by
  simp [own]

/-- A thread's memory does not record the others' accesses. -/
theorem own_append_of_ne (hne : i ≠ j) : own (h ++ [(i, e)]) j = own h j := by
  simp [own, hne]

omit [DecidableEq ι] [DecidableEq α] in
/-- A part of a history without races has none. -/
theorem RaceFree.mono (hr : RaceFree h) (hsub : ∀ e ∈ h', e ∈ h) : RaceFree h' :=
  fun e he f hf => hr e (hsub e he) f (hsub f hf)

/-- What an agent has stored is in the history. -/
theorem exists_of_own {v : β} (hv : own h i x = some v) :
    ∃ e : Access α β, (i, e) ∈ h ∧ e.address = x ∧ e.Stores := by
  induction h using List.reverseRecOn with
  | nil => simp [own] at hv
  | append_singleton h f ih =>
    obtain ⟨j, f⟩ := f
    have hold (hv : own h i x = some v) :
        ∃ e : Access α β, (i, e) ∈ h ++ [(j, f)] ∧ e.address = x ∧ e.Stores := by
      obtain ⟨e, he, hx, hs⟩ := ih hv
      exact ⟨e, List.mem_append_left _ he, hx, hs⟩
    rcases eq_or_ne j i with rfl | hne
    · rw [own_append_self] at hv
      cases f with
      | read a => exact hold hv
      | write a d =>
        rcases eq_or_ne a x with rfl | hax
        · exact ⟨.write a d, by simp, rfl, trivial⟩
        · exact hold (by simpa [Access.record, Function.update_of_ne hax.symm] using hv)
    · rw [own_append_of_ne hne] at hv
      exact hold hv

/-- The memory without races: at each address the word of the one agent that stored there, or the
one that was there from the start. -/
theorem RaceFree.after_eq (hr : RaceFree h) (m : α → β) (x : α) :
    (∀ i v, own h i x = some v → after m h x = v) ∧
      ((∀ i, own h i x = none) → after m h x = m x) := by
  induction h using List.reverseRecOn with
  | nil => exact ⟨fun i v hv => by simp [own] at hv, fun _ => rfl⟩
  | append_singleton h f ih =>
    obtain ⟨j, f⟩ := f
    obtain ⟨hsome, hnone⟩ := ih (hr.mono fun e he => List.mem_append_left _ he)
    rw [after_append_singleton]
    cases f with
    | read a =>
      have hown (i : ι) : own (h ++ [(j, .read a)]) i = own h i := by
        rcases eq_or_ne j i with rfl | hne
        · exact own_append_self
        · exact own_append_of_ne hne
      simp only [hown]
      exact ⟨hsome, hnone⟩
    | write a d =>
      rcases eq_or_ne a x with rfl | hax
      · refine ⟨fun i v hv => ?_, fun hall => ?_⟩
        · rcases eq_or_ne j i with rfl | hne
          · rw [own_append_self] at hv
            simpa [Access.record, Access.perform] using hv
          · -- Another agent that stored there would race with this store.
            rw [own_append_of_ne hne] at hv
            obtain ⟨e, he, hx, -⟩ := exists_of_own hv
            have hno := hr (j, .write a d) (by simp) (i, e) (List.mem_append_left _ he) hne hx.symm
            exact absurd trivial hno.1
        · have hj := hall j
          rw [own_append_self] at hj
          simp [Access.record] at hj
      · have hown (i : ι) : own (h ++ [(j, .write a d)]) i x = own h i x := by
          rcases eq_or_ne j i with rfl | hne
          · rw [own_append_self]
            exact Function.update_of_ne hax.symm _ _
          · rw [own_append_of_ne hne]
        simp only [hown, Access.perform, Function.update_of_ne hax.symm]
        exact ⟨hsome, hnone⟩

/-- What an agent reads without races is what it stored last, or what was there from the start. -/
theorem RaceFree.read (hr : RaceFree (h ++ [(i, .read x)])) (m : α → β) :
    after m h x = (own h i x).getD (m x) := by
  obtain ⟨hsome, hnone⟩ := (hr.mono fun e he => List.mem_append_left _ he).after_eq m x
  rcases hi : own h i x with _ | v
  · refine hnone fun j => ?_
    rcases eq_or_ne j i with rfl | hne
    · exact hi
    · -- A store of another agent would race with this read.
      rcases hj : own h j x with _ | w
      · rfl
      · obtain ⟨e, he, hx, hs⟩ := exists_of_own hj
        have hno := hr (j, e) (List.mem_append_left _ he) (i, .read x) (by simp) hne hx
        exact absurd hs hno.1
  · exact hsome i v hi

/-- Two histories without races, in which each agent stored the same, leave the same memory. -/
theorem RaceFree.after_congr (hr : RaceFree h) (hr' : RaceFree h') (hown : ∀ i, own h i = own h' i)
    (m : α → β) : after m h = after m h' := by
  funext x
  obtain ⟨hsome, hnone⟩ := hr.after_eq m x
  obtain ⟨hsome', hnone'⟩ := hr'.after_eq m x
  by_cases hex : ∃ i v, own h i x = some v
  · obtain ⟨i, v, hv⟩ := hex
    rw [hsome i v hv, hsome' i v (hown i ▸ hv)]
  · have hall (i : ι) : own h i x = none := by
      rw [Option.eq_none_iff_forall_ne_some]
      exact fun v hv => hex ⟨i, v, hv⟩
    rw [hnone hall, hnone' fun i => hown i ▸ hall i]

end History

/-! ## Agents that do what they are known to do -/

/-- No two agents race that make the accesses `P` only. -/
def NoRace (P : ι → Access α β → Prop) : Prop :=
  ∀ i e j f, P i e → P j f → i ≠ j → e.address = f.address → ¬e.Stores ∧ ¬f.Stores

omit [DecidableEq ι] [DecidableEq α] in
/-- Where the accesses that may happen do not race, no history of them does. -/
theorem NoRace.raceFree {P : ι → Access α β → Prop} (hP : NoRace P) {h : List (ι × Access α β)}
    (hh : ∀ x ∈ h, P x.1 x.2) : RaceFree h :=
  fun x hx y hy => hP x.1 x.2 y.1 y.2 (hh x hx) (hh y hy)

/-! ## Groups of agents

Where the agents come in groups, the accesses of a group are a history of their own: `ofGroup`.
Without races a group does the same on its own as it does in the midst of the others. -/

section Group

variable {γ : Type*} [DecidableEq γ] {g g' : γ} {i : ι} {e : Access α β}
  {h h' : List ((γ × ι) × Access α β)}

/-- The accesses of the agents of group `g`. -/
def ofGroup (g : γ) (h : List ((γ × ι) × Access α β)) : List (ι × Access α β) :=
  h.filterMap fun e => if e.1.1 = g then some (e.1.2, e.2) else none

omit [DecidableEq ι] [DecidableEq α] in
/-- A group's history takes its own accesses. -/
theorem ofGroup_append_self : ofGroup g (h ++ [((g, i), e)]) = ofGroup g h ++ [(i, e)] := by
  simp [ofGroup]

omit [DecidableEq ι] [DecidableEq α] in
/-- A group's history leaves out the others' accesses. -/
theorem ofGroup_append_of_ne (hne : g' ≠ g) : ofGroup g (h ++ [((g', i), e)]) = ofGroup g h := by
  simp [ofGroup, hne]

omit [DecidableEq ι] [DecidableEq α] in
/-- A group's history has the accesses of its threads. -/
theorem mem_ofGroup : (i, e) ∈ ofGroup g h ↔ ((g, i), e) ∈ h := by
  unfold ofGroup
  rw [List.mem_filterMap]
  constructor
  · rintro ⟨⟨⟨g', j⟩, f⟩, hf, hsome⟩
    simp only [Option.ite_none_right_eq_some, Option.some.injEq, Prod.mk.injEq] at hsome
    obtain ⟨rfl, rfl, rfl⟩ := hsome
    exact hf
  · exact fun he => ⟨_, he, by simp⟩

/-- An agent stores the same in the history of its group. -/
theorem own_ofGroup : own (ofGroup g h) i = own h (g, i) := by
  induction h using List.reverseRecOn with
  | nil => rfl
  | append_singleton h f ih =>
    obtain ⟨⟨g', j⟩, f⟩ := f
    rcases eq_or_ne g' g with rfl | hne
    · rw [ofGroup_append_self]
      rcases eq_or_ne j i with rfl | hji
      · rw [own_append_self, own_append_self, ih]
      · rw [own_append_of_ne hji, own_append_of_ne (by simpa using hji), ih]
    · rw [ofGroup_append_of_ne hne, own_append_of_ne (by simp [hne]), ih]

omit [DecidableEq ι] [DecidableEq α] in
/-- A group's part of a history without races has none. -/
theorem RaceFree.ofGroup (hr : RaceFree h) (g : γ) : RaceFree (ofGroup g h) := by
  rintro ⟨i, e⟩ he ⟨j, f⟩ hf hne
  exact hr _ (mem_ofGroup.mp he) _ (mem_ofGroup.mp hf) (by simpa using hne)

/-- An access returns the same word as if only the agents of its group had been there. -/
theorem RaceFree.word_ofGroup (hr : RaceFree (h ++ [((g, i), e)])) (m : α → β) :
    e.word (after m (SharedMemory.ofGroup g h)) = e.word (after m h) := by
  cases e with
  | read x =>
    have hgroup := hr.ofGroup g
    rw [ofGroup_append_self] at hgroup
    show after m (SharedMemory.ofGroup g h) x = after m h x
    rw [hgroup.read m, hr.read m, own_ofGroup]
  | write x v =>
    simp [Access.word, Access.perform, Access.address]

end Group

/-! ## Answers -/

section Answers

variable {m : α → β} {es : List (ι × Access α β)} {i : ι} {e : Access α β}

omit [DecidableEq ι] [DecidableEq α] in
/-- The accesses that different agents ask for, if any, are those of different agents. -/
theorem nodup_asked {order : List ι} (h : order.Nodup) (access : ι → Option (Access α β)) :
    ((order.filterMap fun i => (access i).map (Prod.mk i)).map Prod.fst).Nodup := by
  have hkeys : (order.filterMap fun i => (access i).map (Prod.mk i)).map Prod.fst =
      order.filter fun i => (access i).isSome := by
    rw [List.map_filterMap, ← List.filterMap_eq_filter]
    refine List.filterMap_congr fun i _ => ?_
    cases hi : access i with
    | none => simp [Option.guard, hi]
    | some e => simp [Option.guard, hi]
  rw [hkeys]
  exact h.filter _

/-- The memory performs an access, and tells who asked for it the word that it returns. -/
def answerOne (s : (α → β) × (ι → Option β)) (e : ι × Access α β) : (α → β) × (ι → Option β) :=
  (e.2.perform s.1, Function.update s.2 e.1 (some (e.2.word s.1)))

/-- The words that a list of accesses returns, to those who asked for them. -/
def words (m : α → β) (es : List (ι × Access α β)) : ι → Option β :=
  (es.foldl answerOne (m, fun _ => none)).2

/-- The words after one more access. -/
theorem words_append_singleton : words m (es ++ [(i, e)]) =
    Function.update (words m es) i (some (e.word (after m es))) := by
  have hmem (w : ι → Option β) : (es.foldl answerOne (m, w)).1 = after m es := by
    unfold after
    induction es generalizing m w with
    | nil => rfl
    | cons e es ih => exact ih _
  unfold words
  rw [List.foldl_append]
  simp only [List.foldl_cons, List.foldl_nil, answerOne, hmem]

/-- Who asks for nothing is told nothing. -/
theorem words_eq_none (h : ∀ e ∈ es, e.1 ≠ i) : words m es i = none := by
  induction es using List.reverseRecOn with
  | nil => rfl
  | append_singleton es e ih =>
    obtain ⟨j, e⟩ := e
    have hne : j ≠ i := h (j, e) (by simp)
    rw [words_append_singleton, Function.update_of_ne hne.symm]
    exact ih fun e he => h e (List.mem_append_left _ he)

/-- Who asks for something is told something. -/
theorem words_isSome (h : ∃ e, (i, e) ∈ es) : (words m es i).isSome = true := by
  induction es using List.reverseRecOn with
  | nil => simp at h
  | append_singleton es e ih =>
    obtain ⟨j, e⟩ := e
    rw [words_append_singleton]
    rcases eq_or_ne j i with rfl | hne
    · rw [Function.update_self]
      rfl
    · rw [Function.update_of_ne hne.symm]
      refine ih (h.imp fun f hf => ?_)
      rw [List.mem_append, List.mem_singleton, Prod.mk.injEq] at hf
      exact hf.resolve_right fun heq => hne heq.1.symm

omit [DecidableEq ι] in
/-- Reads leave the memory as it is. -/
theorem after_append_reads {reads : List (ι × Access α β)} (h : ∀ e ∈ reads, ¬e.2.Stores) :
    after m (es ++ reads) = after m es := by
  induction reads using List.reverseRecOn with
  | nil => rw [List.append_nil]
  | append_singleton reads e ih =>
    obtain ⟨j, e⟩ := e
    rw [← List.append_assoc, after_append_singleton]
    have hold := ih fun e he => h e (List.mem_append_left _ he)
    cases e with
    | read a => exact hold
    | write a v => exact absurd trivial (h (j, .write a v) (by simp))

/-- Where the reads come last, and each from another agent, they return what the stores leave. -/
theorem words_append_reads {reads : List (ι × Access α β)} {x : α}
    (h : ∀ e ∈ reads, ¬e.2.Stores) (hnodup : (reads.map Prod.fst).Nodup)
    (hi : (i, .read x) ∈ reads) : words m (es ++ reads) i = some (after m es x) := by
  induction reads using List.reverseRecOn with
  | nil => simp at hi
  | append_singleton reads e ih =>
    obtain ⟨j, e⟩ := e
    have hreads : ∀ e ∈ reads, ¬e.2.Stores := fun e he => h e (List.mem_append_left _ he)
    rw [List.map_append, List.map_singleton, List.nodup_append_comm, List.singleton_append,
      List.nodup_cons] at hnodup
    rw [← List.append_assoc, words_append_singleton, after_append_reads hreads]
    rw [List.mem_append, List.mem_singleton] at hi
    rcases hi with hi | hi
    · have hne : i ≠ j := by
        rintro rfl
        exact hnodup.1 (List.mem_map.mpr ⟨_, hi, rfl⟩)
      rw [Function.update_of_ne hne]
      exact ih hreads hnodup.2 hi
    · obtain ⟨rfl, rfl⟩ := Prod.mk.inj hi
      rw [Function.update_self]
      rfl

section Rename

variable {κ : Type*} [DecidableEq κ] {f : ι → κ}

omit [DecidableEq ι] [DecidableEq κ] in
/-- The memory does not depend on who makes the accesses. -/
theorem after_rename : after m (es.map (Prod.map f id)) = after m es := by
  unfold after
  rw [List.foldl_map]
  rfl

/-- Each is told the same under another name that is its own. -/
theorem words_rename (h : ∀ e ∈ es, f e.1 = f i → e.1 = i) :
    words m (es.map (Prod.map f id)) (f i) = words m es i := by
  induction es using List.reverseRecOn with
  | nil => rfl
  | append_singleton es e ih =>
    obtain ⟨j, e⟩ := e
    have hold := ih fun e he => h e (List.mem_append_left _ he)
    have hj : f j = f i → j = i := h (j, e) (by simp)
    rw [List.map_append, List.map_singleton]
    show words m (es.map (Prod.map f id) ++ [(f j, e)]) (f i) = _
    rw [words_append_singleton, words_append_singleton, after_rename]
    rcases eq_or_ne j i with rfl | hne
    · rw [Function.update_self, Function.update_self]
    · have hne' : f i ≠ f j := fun heq => hne (hj heq.symm)
      rw [Function.update_of_ne hne', Function.update_of_ne hne.symm, hold]

end Rename

end Answers

/-! ## Stores in order -/

section Stores

variable {stores stores' : List (α × β)} {a b : α} {v : β}

/-- The word of the last one of the stores to an address. -/
def lastStore (stores : List (α × β)) (a : α) : Option β :=
  (stores.reverse.find? fun e => e.1 = a).map Prod.snd

/-- Without stores there is no last one. -/
@[simp] theorem lastStore_nil : lastStore ([] : List (α × β)) a = none := rfl

/-- The last store is the newest to the address. -/
theorem lastStore_append_singleton :
    lastStore (stores ++ [(b, v)]) a = if b = a then some v else lastStore stores a := by
  unfold lastStore
  rw [List.reverse_append, List.reverse_singleton, List.singleton_append, List.find?_cons]
  by_cases h : b = a
  · simp [h]
  · simp [h]

/-- An address that no store goes to. -/
theorem lastStore_eq_none (h : ∀ e ∈ stores, e.1 ≠ a) : lastStore stores a = none := by
  unfold lastStore
  rw [Option.map_eq_none_iff, List.find?_eq_none]
  intro e he
  simpa using h e (List.mem_reverse.mp he)

/-- Later stores win. -/
theorem lastStore_append :
    lastStore (stores ++ stores') a = (lastStore stores' a).or (lastStore stores a) := by
  unfold lastStore
  rw [List.reverse_append, List.find?_append, Option.map_or]

/-- The memory after some stores. -/
theorem after_writes {ι : Type*} (m : α → β) (es : List (ι × (α × β))) (a : α) :
    after m (es.map fun e => (e.1, .write e.2.1 e.2.2)) a =
      (lastStore (es.map Prod.snd) a).getD (m a) := by
  induction es using List.reverseRecOn with
  | nil => rfl
  | append_singleton es e ih =>
    obtain ⟨i, b, v⟩ := e
    rw [List.map_append, List.map_singleton, after_append_singleton, List.map_append,
      List.map_singleton, lastStore_append_singleton]
    by_cases hb : b = a
    · rw [if_pos hb, hb]
      exact Function.update_self _ _ _
    · rw [if_neg hb, ← ih]
      exact Function.update_of_ne (Ne.symm hb) _ _

end Stores

end SmolGpu.SharedMemory
