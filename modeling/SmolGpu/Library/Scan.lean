import Mathlib.Data.List.Basic

/-!
# Iterating a source of results

A source is asked for its next result again and again until it returns none, and each call leaves it
in a new state. The iteration may go on for ever, so `scan` has a bound on the calls and returns
nothing when the bound does not suffice.

Where every call that returns a result makes the state smaller, the iteration ends
(`scan_of_progress`). A call that returns a result and leaves the state as it is comes back for ever
(`scan_stuck`).
-/

namespace SmolGpu.Scan

variable {σ β : Type} (next : σ → Option β × σ)

/-- The results of the iteration, if it ends within `calls` calls. -/
def scan : ℕ → σ → Option (List β)
  | 0, _ => none
  | calls + 1, s =>
    match next s with
    | (none, _) => some []
    | (some result, rest) => (scan calls rest).map (result :: ·)

/-- The state after `n` calls. -/
def after (s : σ) : ℕ → σ
  | 0 => s
  | n + 1 => (next (after s n)).2

/-- The iteration from a state ends, with these results. -/
inductive Yields : σ → List β → Prop
  | nil {s rest : σ} (h : next s = (none, rest)) : Yields s []
  | cons {s rest : σ} {result : β} {results : List β} (h : next s = (some result, rest))
      (hrest : Yields rest results) : Yields s (result :: results)

/-- A call in state `s` that returns a result leads to a state of smaller size. -/
def Progress (size : σ → ℕ) (s : σ) : Prop :=
  ∀ result rest, next s = (some result, rest) → size rest < size s

variable {next}

/-- The states after the first call are those of the iteration from there. -/
theorem after_next (s : σ) (n : ℕ) : after next (next s).2 n = after next s (n + 1) := by
  induction n with
  | zero => rfl
  | succ n ih => exact congrArg (fun t => (next t).2) ih

/-- An iteration that ends within some calls ends in the same way within more. -/
theorem scan_mono {calls more : ℕ} (h : calls ≤ more) {s : σ} {results : List β}
    (hs : scan next calls s = some results) : scan next more s = some results := by
  induction calls generalizing more s results with
  | zero => simp [scan] at hs
  | succ calls ih =>
    obtain ⟨more, rfl⟩ : ∃ m, more = m + 1 := ⟨more - 1, by omega⟩
    unfold scan at hs ⊢
    cases hnext : next s with
    | mk result rest =>
      rw [hnext] at hs
      cases result with
      | none => exact hs
      | some result =>
        obtain ⟨results', hrest, rfl⟩ := Option.map_eq_some_iff.mp hs
        simp only
        rw [ih (by omega) hrest]
        rfl

/-- The results of an iteration that ends within some calls. -/
theorem yields_iff {s : σ} {results : List β} :
    Yields next s results ↔ ∃ calls, scan next calls s = some results := by
  constructor
  · intro h
    -- Each result takes one call, and the end one more.
    induction h with
    | nil h => exact ⟨1, by simp [scan, h]⟩
    | cons h hrest ih =>
      obtain ⟨calls, hscan⟩ := ih
      exact ⟨calls + 1, by simp [scan, h, hscan]⟩
  · rintro ⟨calls, hscan⟩
    induction calls generalizing s results with
    | zero => simp [scan] at hscan
    | succ calls ih =>
      unfold scan at hscan
      cases hnext : next s with
      | mk result rest =>
        rw [hnext] at hscan
        cases result with
        | none =>
          obtain rfl := Option.some.inj hscan
          exact .nil hnext
        | some result =>
          obtain ⟨results', hrest, rfl⟩ := Option.map_eq_some_iff.mp hscan
          exact .cons hnext (ih hrest)

/-- An iteration has one sequence of results. -/
theorem Yields.unique {s : σ} {results results' : List β} (h : Yields next s results)
    (h' : Yields next s results') : results = results' := by
  induction h generalizing results' with
  | nil h =>
    cases h' with
    | nil => rfl
    | cons h' => simp [h] at h'
  | cons h hrest ih =>
    cases h' with
    | nil h' => simp [h] at h'
    | cons h' hrest' =>
      rw [h] at h'
      obtain ⟨hresult, rfl⟩ := Prod.ext_iff.mp h'
      rw [Option.some.inj hresult, ih hrest']

/-- The results depend on the first call alone. -/
theorem Yields.of_next_eq {s t : σ} {results : List β} (h : Yields next t results)
    (heq : next s = next t) : Yields next s results := by
  cases h with
  | nil h => exact .nil (heq.trans h)
  | cons h hrest => exact .cons (heq.trans h) hrest

/-- A call that returns a result and changes nothing returns it for ever. -/
theorem scan_stuck {s : σ} {result : β} (h : next s = (some result, s)) (calls : ℕ) :
    scan next calls s = none := by
  induction calls with
  | zero => rfl
  | succ calls ih =>
    unfold scan
    rw [h]
    simp only
    rw [ih]
    rfl

/-- An iteration that ends also ends from each of its later states, where a state without a result
leads to another one. -/
theorem scan_after (hend : ∀ s rest, next s = (none, rest) → (next rest).1 = none) {s : σ}
    {calls : ℕ} {results : List β} (h : scan next calls s = some results) (n : ℕ) :
    ∃ results', scan next calls (after next s n) = some results' := by
  induction n with
  | zero => exact ⟨results, h⟩
  | succ n ih =>
    obtain ⟨results', hn⟩ := ih
    obtain ⟨calls, rfl⟩ : ∃ m, calls = m + 1 := by
      cases calls with
      | zero => simp [scan] at hn
      | succ m => exact ⟨m, rfl⟩
    unfold after
    unfold scan at hn
    cases hnext : next (after next s n) with
    | mk result rest =>
      rw [hnext] at hn
      cases result with
      | none =>
        -- The iteration is over, and stays over.
        have hover := hend _ _ hnext
        refine ⟨[], ?_⟩
        unfold scan
        cases hrest : next rest with
        | mk r t =>
          rw [hrest] at hover
          dsimp only at hover
          subst hover
          rfl
      | some result =>
        obtain ⟨results'', hrest, -⟩ := Option.map_eq_some_iff.mp hn
        exact ⟨results'', scan_mono (Nat.le_succ calls) hrest⟩

/-- An iteration in which every call makes progress yields at most as many results as the size of
its first state, and ends with one call more. -/
theorem scan_of_progress {size : σ → ℕ} {k : ℕ} {s : σ} (hk : size s ≤ k)
    (h : ∀ n, Progress next size (after next s n)) :
    ∃ results, scan next (k + 1) s = some results ∧ results.length ≤ k := by
  -- By induction on the bound: each call that returns something takes one off the size.
  induction k generalizing s with
  | zero =>
    unfold scan
    cases hnext : next s with
    | mk result rest =>
      cases result with
      | none => exact ⟨[], rfl, Nat.le_refl _⟩
      | some result =>
        have hlt : size rest < size s := h 0 result rest hnext
        omega
  | succ k ih =>
    unfold scan
    cases hnext : next s with
    | mk result rest =>
      cases result with
      | none => exact ⟨[], rfl, Nat.zero_le _⟩
      | some result =>
        have hlt : size rest < size s := h 0 result rest hnext
        have hrest : ∀ n, Progress next size (after next rest n) := by
          intro n
          have hn : after next (next s).2 n = after next s (n + 1) := after_next s n
          rw [hnext] at hn
          rw [hn]
          exact h (n + 1)
        obtain ⟨results, hscan, hlength⟩ := ih (by omega) hrest
        refine ⟨result :: results, ?_, Nat.succ_le_succ hlength⟩
        simp only
        rw [hscan]
        rfl

end SmolGpu.Scan
