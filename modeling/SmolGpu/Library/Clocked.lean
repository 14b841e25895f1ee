import Mathlib.Logic.Function.Basic
import Mathlib.Order.Basic
import Mathlib.Tactic.Choose

/-!
# Synchronous machines

A synchronous design is a function `step` that takes the inputs sampled at a clock edge and the
registers before the edge to the registers after it. `run step inp s n` is the state after `n`
edges from `s`, with `inp k` sampled at edge `k`. `Reachable` collects the states of all runs from a
set of initial states, and `Reachable.invariant` is the induction by which a safety property is
proved of them.
-/

namespace SmolGpu.Clocked

variable {ι σ τ : Type*}

/-- The state after `n` clock edges from `s`, when `inp k` is sampled at edge `k`. -/
def run (step : ι → σ → σ) (inp : ℕ → ι) (s : σ) : ℕ → σ
  | 0 => s
  | n + 1 => step (inp n) (run step inp s n)

/-- Before the first edge the state is the initial one. -/
@[simp] theorem run_zero (step : ι → σ → σ) (inp : ℕ → ι) (s : σ) : run step inp s 0 = s := rfl

/-- A property that every edge of the run preserves holds in all its states. The step may use what
is sampled at the edge, through `inp n`. -/
theorem run_invariant {step : ι → σ → σ} {inp : ℕ → ι} {s : σ} (P : ℕ → σ → Prop) (h0 : P 0 s)
    (hstep : ∀ n, P n (run step inp s n) → P (n + 1) (step (inp n) (run step inp s n))) (n : ℕ) :
    P n (run step inp s n) := by
  induction n with
  | zero => exact h0
  | succ n ih => exact hstep n ih

/-- The states that some run from an initial state goes through. -/
inductive Reachable (step : ι → σ → σ) (init : σ → Prop) : σ → Prop
  | init {s : σ} : init s → Reachable step init s
  | step {s : σ} (i : ι) : Reachable step init s → Reachable step init (step i s)

/-- An invariant holds initially and is preserved by every edge. -/
theorem Reachable.invariant {step : ι → σ → σ} {init P : σ → Prop} (hinit : ∀ s, init s → P s)
    (hstep : ∀ i s, P s → P (step i s)) {s : σ} (h : Reachable step init s) : P s := by
  induction h with
  | init h => exact hinit _ h
  | step i _ ih => exact hstep i _ ih

/-- Every state of a run from a reachable state is reachable. -/
theorem Reachable.run {step : ι → σ → σ} {init : σ → Prop} {s : σ} (h : Reachable step init s)
    (inp : ℕ → ι) (n : ℕ) : Reachable step init (run step inp s n) :=
  run_invariant (fun _ x => Reachable step init x) h (fun k hk => hk.step (inp k)) n

/-- What goes along with a run from step to step can be followed for ever. -/
theorem exists_follows {P : ℕ → τ → Prop} {R : ℕ → τ → τ → Prop} {x₀ : τ} (h0 : P 0 x₀)
    (hstep : ∀ n x, P n x → ∃ y, P (n + 1) y ∧ R n x y) :
    ∃ p : ℕ → τ, ∀ n, P n (p n) ∧ R n (p n) (p (n + 1)) := by
  choose next hnext using hstep
  obtain ⟨p, hp⟩ : ∃ p : (k : ℕ) → {x // P k x}, ∀ k, p (k + 1) = ⟨_, (hnext k _ (p k).2).1⟩ :=
    ⟨fun k => k.rec ⟨x₀, h0⟩ fun k x => ⟨_, (hnext k x.1 x.2).1⟩, fun _ => rfl⟩
  refine ⟨fun k => (p k).1, fun k => ⟨(p k).2, ?_⟩⟩
  show R k (p k).1 (p (k + 1)).1
  rw [hp]
  exact (hnext k _ (p k).2).2

end SmolGpu.Clocked
