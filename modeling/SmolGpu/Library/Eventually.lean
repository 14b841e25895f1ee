import Mathlib.Order.Filter.AtTopBot.Basic
import Mathlib.Order.Filter.Finite

/-!
# What holds from some time on

Liveness of a run is stated with Mathlib's filter `atTop` on the times: `∀ᶠ n in atTop, P n` is
"from some time on", and `∃ᶠ n in atTop, P n` "again and again". This module has the rules that
depend on time going in steps: a counter that only goes one way comes to a stop, a condition that is
kept once it holds is decided at last, and a fair event ends a condition that it cannot happen
under.
-/

namespace SmolGpu.Eventually

open Filter

variable {P Q : ℕ → Prop} {f : ℕ → ℕ}

/-- It does not matter when one begins to look. -/
theorem shift_iff (k : ℕ) : (∀ᶠ n in atTop, P (n + k)) ↔ ∀ᶠ n in atTop, P n := by
  rw [← eventually_map (P := P), map_add_atTop_eq_nat]

/-- What holds infinitely often does so from any time on. -/
theorem frequently_shift_iff (k : ℕ) : (∃ᶠ n in atTop, P (n + k)) ↔ ∃ᶠ n in atTop, P n :=
  not_congr (shift_iff (P := fun n => ¬P n) k)

/-- What holds from some time on holds at the time after. -/
theorem succ (h : ∀ᶠ n in atTop, P n) : ∀ᶠ n in atTop, P (n + 1) := (shift_iff 1).mpr h

/-- What holds for good one step later holds for good. -/
theorem of_succ (h : ∀ᶠ n in atTop, P (n + 1)) : ∀ᶠ n in atTop, P n := (shift_iff 1).mp h

/-- A counter that does not go up comes to a stop. -/
theorem const_of_le (h : ∀ᶠ n in atTop, f (n + 1) ≤ f n) : ∀ᶠ n in atTop, f (n + 1) = f n := by
  rw [eventually_atTop] at h ⊢
  obtain ⟨m, hm⟩ := h
  -- It stops where it is lowest.
  have hne : (Set.Ici m).Nonempty := Set.nonempty_Ici
  obtain ⟨k, hk, hmin⟩ : ∃ k, m ≤ k ∧ ∀ n, m ≤ n → f k ≤ f n :=
    ⟨Function.argminOn f _ hne, Function.argminOn_mem f _ hne,
      fun _ hn => Function.argminOn_le f _ hn⟩
  have hle (n : ℕ) (hn : k ≤ n) : f n ≤ f k := by
    induction n, hn using Nat.le_induction with
    | base => exact le_rfl
    | succ n hn ih => exact (hm n (by omega)).trans ih
  refine ⟨k, fun n hn => ?_⟩
  have hlast := hle n hn
  have hnext := hle (n + 1) (by omega)
  have hmin' := hmin n (by omega)
  have hmin'' := hmin (n + 1) (by omega)
  omega

/-- A counter that does not go down, and is bounded, comes to a stop. -/
theorem const_of_ge {B : ℕ} (hB : ∀ᶠ n in atTop, f n ≤ B) (h : ∀ᶠ n in atTop, f n ≤ f (n + 1)) :
    ∀ᶠ n in atTop, f (n + 1) = f n := by
  have hrest : ∀ᶠ n in atTop, B - f (n + 1) = B - f n :=
    const_of_le (f := fun n => B - f n) (h.mono fun n hn => Nat.sub_le_sub_left hn B)
  filter_upwards [hrest, hB, succ hB] with n hn hle hle'
  omega

/-- A value that stops changing comes to rest. -/
theorem exists_eq {α : Type*} {v : ℕ → α} (h : ∀ᶠ n in atTop, v (n + 1) = v n) :
    ∃ a, ∀ᶠ n in atTop, v n = a := by
  obtain ⟨m, hm⟩ := eventually_atTop.mp h
  refine ⟨v m, eventually_atTop.mpr ⟨m, fun n hn => ?_⟩⟩
  induction n, hn using Nat.le_induction with
  | base => rfl
  | succ n hn ih => exact (hm n hn).trans ih

/-- A condition that is kept once it holds is decided at last. -/
theorem or_not (h : ∀ᶠ n in atTop, P n → P (n + 1)) :
    (∀ᶠ n in atTop, P n) ∨ ∀ᶠ n in atTop, ¬P n := by
  rw [or_iff_not_imp_right, not_eventually]
  intro hoften
  obtain ⟨m, hm⟩ := eventually_atTop.mp h
  obtain ⟨k, hk, hp⟩ := frequently_atTop.mp hoften m
  refine eventually_atTop.mpr ⟨k, fun n hn => ?_⟩
  induction n, hn using Nat.le_induction with
  | base => exact not_not.mp hp
  | succ n hn ih => exact hm n (hk.trans hn) ih

/-- An event that happens again and again ends a condition that it cannot happen under, and that is
kept otherwise. -/
theorem not_of_frequently (hoften : ∃ᶠ n in atTop, Q n) (hkeep : ∀ᶠ n in atTop, P n → P (n + 1))
    (hend : ∀ᶠ n in atTop, P n → ¬Q n) : ∀ᶠ n in atTop, ¬P n := by
  refine (or_not hkeep).resolve_left fun hp => ?_
  obtain ⟨n, hq, hp, hno⟩ := (hoften.and_eventually (hp.and hend)).exists
  exact hno hp hq

end SmolGpu.Eventually
