import Mathlib.Algebra.Group.Fin.Basic
import Mathlib.Algebra.GroupWithZero.Nat
import Mathlib.Data.Fin.Tuple.Basic

/-!
# Round-robin order

The turn goes from place to place in a circle. `IsNext p c v` says that `v` is the first place after
`c` at which `p` holds, and `next` looks for it. A place at which `p` holds is not passed over: the
number of places in front of it shrinks with every turn that it does not get (`IsNext.gap_lt`). So
while it waits for its turn, no other place gets two (`turn_unique`).
-/

namespace SmolGpu.RoundRobin

variable {n : ℕ} [NeZero n]

section Next

variable {p : Fin n → Prop} {c v w : Fin n}

/-- The first place after `c` at which `p` holds, where `c` itself comes last. -/
def next (p : Fin n → Prop) [DecidablePred p] (c : Fin n) : Option (Fin n) :=
  Fin.findSome? fun i => if p (c + 1 + i) then some (c + 1 + i) else none

/-- `v` is the first place after `c` at which `p` holds. -/
def IsNext (p : Fin n → Prop) (c v : Fin n) : Prop :=
  ∃ i, c + 1 + i = v ∧ p v ∧ ∀ j < i, ¬p (c + 1 + j)

/-- The number of places after `c` and in front of `w`. -/
def gap (c w : Fin n) : ℕ := (w - (c + 1)).val

/-- The search finds the next index with the property. -/
theorem next_eq_some_iff [DecidablePred p] : next p c = some v ↔ IsNext p c v := by
  unfold next IsNext
  rw [Fin.findSome?_eq_some_iff]
  refine exists_congr fun i => ?_
  constructor
  · rintro ⟨hi, hbefore⟩
    obtain ⟨hp, rfl⟩ : p (c + 1 + i) ∧ c + 1 + i = v := by simpa using hi
    refine ⟨rfl, hp, fun j hj => ?_⟩
    simpa using hbefore j hj
  · rintro ⟨rfl, hp, hbefore⟩
    refine ⟨if_pos hp, fun j hj => if_neg (hbefore j hj)⟩

/-- A place at which `p` holds is found. -/
theorem exists_isNext [DecidablePred p] (hw : p w) (c : Fin n) : ∃ v, IsNext p c v := by
  have hfound : (next p c).isSome = true := by
    refine Fin.isSome_findSome?_of_isSome (i := w - (c + 1)) ?_
    simp [hw]
  obtain ⟨v, hv⟩ := Option.isSome_iff_exists.mp hfound
  exact ⟨v, next_eq_some_iff.mp hv⟩

/-- Of the places at which `p` holds, one that does not get the turn gets closer to it. -/
theorem IsNext.gap_lt (h : IsNext p c v) (hw : p w) (hne : v ≠ w) : gap v w < gap c w := by
  obtain ⟨i, rfl, -, hbefore⟩ := h
  have hplace : c + 1 + (w - (c + 1)) = w := add_sub_cancel (c + 1) w
  -- The turn does not pass over `w`, and it does not get to it.
  have hle : i ≤ w - (c + 1) := by
    by_contra hlt
    refine hbefore (w - (c + 1)) (Fin.not_le.mp hlt) ?_
    rwa [hplace]
  have hnat : i.val < (w - (c + 1)).val := by
    refine Nat.lt_of_le_of_ne hle fun heq => hne ?_
    rw [Fin.ext heq, hplace]
  have hbound := (w - (c + 1)).isLt
  have hsucc : (i + 1).val = i.val + 1 := Fin.val_add_one_of_lt' (by omega)
  have hgap : w - (c + 1 + i + 1) = w - (c + 1) - (i + 1) := by
    rw [add_assoc (c + 1), sub_sub]
  have hsub : (w - (c + 1) - (i + 1)).val = (w - (c + 1)).val - (i + 1).val := by
    apply Fin.sub_val_of_le
    show (i + 1).val ≤ (w - (c + 1)).val
    omega
  unfold gap
  rw [hgap, hsub]
  omega

/-- What holds at `c` does not matter if there is another place. -/
theorem IsNext.congr {q : Fin n → Prop} (h : IsNext p c v) (hw : p w) (hwc : w ≠ c)
    (hpq : ∀ u, u ≠ c → (p u ↔ q u)) (hqc : ¬q c) : IsNext q c v := by
  have hvc : v ≠ c := by
    rintro rfl
    exact absurd (h.gap_lt hw hwc.symm) (lt_irrefl _)
  obtain ⟨i, hi, hp, hbefore⟩ := h
  refine ⟨i, hi, (hpq v hvc).mp hp, fun j hj => ?_⟩
  by_cases hjc : c + 1 + j = c
  · rwa [hjc]
  · exact fun hq => hbefore j hj ((hpq _ hjc).mpr hq)

end Next

section Turns

variable {turn : ℕ → Fin n} {w : Fin n} {m : ℕ}

/-- While `w` waits, it gets no further from its turn. -/
theorem gap_antitone
    (hstep : ∀ k < m, turn (k + 1) = turn k ∨ gap (turn (k + 1)) w < gap (turn k) w)
    {k k' : ℕ} (hle : k ≤ k') (hm : k' ≤ m) : gap (turn k') w ≤ gap (turn k) w := by
  induction k', hle using Nat.le_induction with
  | base => exact le_rfl
  | succ k' hle ih =>
    have hprev := ih (by omega)
    rcases hstep k' (by omega) with hsame | hlt
    · rw [hsame]
      exact hprev
    · omega

/-- While `w` waits, a place that gives up the turn does not get it again. -/
theorem turn_unique (hstep : ∀ k < m, turn (k + 1) = turn k ∨ gap (turn (k + 1)) w < gap (turn k) w)
    {k k' : ℕ} (hlt : k < k') (hm : k' ≤ m) (hgives : gap (turn (k + 1)) w < gap (turn k) w) :
    turn k' ≠ turn k := by
  intro hsame
  have hlater : gap (turn k') w ≤ gap (turn (k + 1)) w := gap_antitone hstep hlt hm
  rw [hsame] at hlater
  omega

end Turns

end SmolGpu.RoundRobin
