import Mathlib.Data.Fin.Basic
import Mathlib.Data.List.Basic
import Mathlib.Data.List.Forall2
import Mathlib.Logic.Function.Basic

/-!
# Bounded loops

A loop `for (int i = 0; i < n; i++)` over the registers of an array is `Fin.foldl n`. Its rule is
`foldl_induction`: an invariant indexed by the number of iterations done. `foldl_congr` replaces the
body by one that agrees with it on the states the loop goes through, which is how a loop of
nonblocking assignments, whose right-hand sides read the registers before the edge, becomes a
composition of steps that read the current state.

A loop `for (x : xs)` whose body may fail to return is `List.foldlM` in `Option`. Its rule is
`foldlM_induction`, with an invariant indexed by the items done. Where the body reports an error it
is `List.foldlM` in `Except`, and an item on which it always fails makes the loop fail. A loop that
fills an array with the values of a function that may fail is `List.mapM` in `Except`, and
`mapM_eq_ok` describes its result item by item.
-/

namespace SmolGpu.Loop

variable {σ : Type*} {n : ℕ}

/-- An invariant of the body, indexed by the number of iterations that are done, holds after the
loop with all of them done. -/
theorem foldl_induction (body : σ → Fin n → σ) (Inv : ℕ → σ → Prop) (x₀ : σ) (start : Inv 0 x₀)
    (iterate : ∀ (k : Fin n) (x : σ), Inv k x → Inv (k + 1) (body x k)) :
    Inv n (Fin.foldl n body x₀) := by
  induction n with
  | zero => exact start
  | succ n ih =>
    have hinit : Inv n (Fin.foldl n (fun x k => body x k.castSucc) x₀) :=
      ih (fun x k => body x k.castSucc) fun k => iterate k.castSucc
    rw [Fin.foldl_succ_last]
    exact iterate (Fin.last n) _ hinit

/-- Two bodies that agree on the states the first loop goes through, as described by an invariant
of it, run to the same state. -/
theorem foldl_congr (body body' : σ → Fin n → σ) (Inv : ℕ → σ → Prop) (x₀ : σ) (start : Inv 0 x₀)
    (iterate : ∀ (k : Fin n) (x : σ), Inv k x → Inv (k + 1) (body x k))
    (agree : ∀ (k : Fin n) (x : σ), Inv k x → body x k = body' x k) :
    Fin.foldl n body x₀ = Fin.foldl n body' x₀ := by
  induction n with
  | zero => rfl
  | succ n ih =>
    have hinit : Inv n (Fin.foldl n (fun x k => body x k.castSucc) x₀) :=
      foldl_induction (fun x k => body x k.castSucc) Inv x₀ start fun k => iterate k.castSucc
    have hsame := ih (fun x k => body x k.castSucc) (fun x k => body' x k.castSucc)
      (fun k => iterate k.castSucc) fun k => agree k.castSucc
    rw [Fin.foldl_succ_last, Fin.foldl_succ_last, ← hsame]
    exact agree (Fin.last n) _ hinit

/-! ## Loops over a list whose body may not return -/

section Lists

variable {α : Type*} {step : σ → α → Option σ} {s s' : σ} {done l : List α}

/-- An invariant of the body, indexed by the items that are done, holds after a loop that
returns. -/
theorem foldlM_induction (Inv : List α → σ → Prop)
    (iterate : ∀ done x s s', Inv done s → step s x = some s' → Inv (done ++ [x]) s')
    (start : Inv done s) (h : l.foldlM step s = some s') : Inv (done ++ l) s' := by
  induction l generalizing done s with
  | nil =>
    obtain rfl : s = s' := Option.some.inj h
    rwa [List.append_nil]
  | cons x l ih =>
    rw [List.foldlM_cons, Option.bind_eq_bind, Option.bind_eq_some_iff] at h
    obtain ⟨mid, hmid, hrest⟩ := h
    have hind := ih (iterate done x s mid start hmid) hrest
    rwa [List.append_assoc, List.singleton_append] at hind

/-- A loop whose body keeps the invariant and returns, in every state that the invariant holds of,
returns in such a state. -/
theorem foldlM_total (Inv : List α → σ → Prop)
    (iterate : ∀ done, ∀ x ∈ l, ∀ s, Inv done s → ∃ s', step s x = some s' ∧ Inv (done ++ [x]) s')
    (start : Inv done s) : ∃ s', l.foldlM step s = some s' ∧ Inv (done ++ l) s' := by
  induction l generalizing done s with
  | nil => exact ⟨s, rfl, by rwa [List.append_nil]⟩
  | cons x l ih =>
    obtain ⟨mid, hmid, hinv⟩ := iterate done x List.mem_cons_self s start
    obtain ⟨s', hrest, hinv'⟩ :=
      ih (fun done y hy => iterate done y (List.mem_cons_of_mem x hy)) hinv
    refine ⟨s', ?_, by rwa [List.append_assoc, List.singleton_append] at hinv'⟩
    rw [List.foldlM_cons, hmid]
    exact hrest

/-- A loop whose body returns on each item returns. -/
theorem foldlM_isSome (h : ∀ x ∈ l, ∀ s, ∃ s', step s x = some s') (s : σ) :
    ∃ s', l.foldlM step s = some s' := by
  induction l generalizing s with
  | nil => exact ⟨s, rfl⟩
  | cons x l ih =>
    obtain ⟨mid, hmid⟩ := h x List.mem_cons_self s
    obtain ⟨s', hrest⟩ := ih (fun y hy => h y (List.mem_cons_of_mem x hy)) mid
    exact ⟨s', by rw [List.foldlM_cons, hmid]; exact hrest⟩

/-- A loop that returns has returned from its body on each item. -/
theorem step_of_foldlM (h : l.foldlM step s = some s') {x : α} (hx : x ∈ l) :
    ∃ t t', step t x = some t' := by
  induction l generalizing s with
  | nil => simp at hx
  | cons y l ih =>
    rw [List.foldlM_cons, Option.bind_eq_bind, Option.bind_eq_some_iff] at h
    obtain ⟨mid, hmid, hrest⟩ := h
    rcases List.mem_cons.mp hx with rfl | hx
    · exact ⟨s, mid, hmid⟩
    · exact ih hrest hx

end Lists

/-- An invariant of a body that always returns, indexed by the items that are done. -/
theorem foldl_done_induction {α : Type*} {body : σ → α → σ} {s : σ} {done l : List α}
    (Inv : List α → σ → Prop)
    (iterate : ∀ done x s, Inv done s → Inv (done ++ [x]) (body s x)) (start : Inv done s) :
    Inv (done ++ l) (l.foldl body s) := by
  induction l generalizing done s with
  | nil => rwa [List.append_nil]
  | cons x l ih =>
    have hind := ih (iterate done x s start)
    rwa [List.append_assoc, List.singleton_append] at hind

/-- A loop whose body fails on one of its items, whatever the state, fails. -/
theorem foldlM_error {α ε : Type*} {step : σ → α → Except ε σ} {l : List α} {x : α}
    (h : ∀ s, ∃ e, step s x = .error e) (hx : x ∈ l) (s : σ) : ∃ e, l.foldlM step s = .error e := by
  induction l generalizing s with
  | nil => simp at hx
  | cons y l ih =>
    rw [List.foldlM_cons]
    cases hy : step s y with
    | error e => exact ⟨e, rfl⟩
    | ok s' =>
      -- The body has not failed here, so the item is one of the rest.
      rcases List.mem_cons.mp hx with rfl | hmem
      · obtain ⟨e, he⟩ := h s
        rw [he] at hy
        cases hy
      · exact ih hmem s'

/-! ## Loops that fill an array -/

section Maps

variable {α β ε : Type*} {f : α → Except ε β} {items : List α}

/-- A function that may fail maps a list to the values of its items. -/
theorem mapM_eq_ok {values : List β} :
    items.mapM f = .ok values ↔ List.Forall₂ (fun x v => f x = .ok v) items values := by
  induction items generalizing values with
  | nil =>
    rw [List.mapM_nil, List.forall₂_nil_left_iff]
    constructor
    · intro h
      exact (Except.ok.inj h).symm
    · rintro rfl
      rfl
  | cons x items ih =>
    have hcons : (x :: items).mapM f = f x >>= fun v => items.mapM f >>= fun vs => .ok (v :: vs) :=
      List.mapM_cons
    rw [hcons]
    constructor
    · intro h
      -- Neither the first item nor the rest has failed.
      cases hx : f x with
      | error e =>
        rw [hx] at h
        cases h
      | ok v =>
        cases hrest : items.mapM f with
        | error e =>
          rw [hx, hrest] at h
          cases h
        | ok vs =>
          rw [hx, hrest] at h
          obtain rfl := Except.ok.inj h
          exact .cons hx (ih.mp hrest)
    · intro h
      cases h with
      | cons hv hvs =>
        rw [hv, ih.mpr hvs]
        rfl

/-- It maps the list if and only if it maps each item. -/
theorem exists_mapM_eq_ok :
    (∃ values, items.mapM f = .ok values) ↔ ∀ x ∈ items, ∃ v, f x = .ok v := by
  simp only [mapM_eq_ok]
  induction items with
  | nil => simp
  | cons x items ih =>
    rw [List.forall_mem_cons, ← ih]
    constructor
    · rintro ⟨values, hvalues⟩
      cases hvalues with
      | cons hv hvs => exact ⟨⟨_, hv⟩, _, hvs⟩
    · rintro ⟨⟨v, hv⟩, values, hvs⟩
      exact ⟨v :: values, .cons hv hvs⟩

end Maps

end SmolGpu.Loop
