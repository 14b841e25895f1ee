import SmolGpu.Library.Clocked
import SmolGpu.Library.Loop
import Mathlib.Data.BitVec
import Mathlib.Data.Nat.Log

/-!
# The memory controller

`src/mem_controller.sv`: the requests of `C` consumers go to memory over `M` channels, each of which
serves one consumer at a time. `NUM_CONSUMERS` is `C`, `NUM_CHANNELS` is `M`, and `WRITE_ENABLE = 1`
is `write_enable`. A consumer's requests and a channel's answers come in two kinds, reads and
writes, with wires of their own.

All channels are processed in one loop per edge. `channel_serving_consumer` is assigned by blocking
assignments, so that a channel sees which consumers the ones before it picked up or released, and
all else by nonblocking ones: `s` is the state before the edge and `n` carries the assignments made
so far. `memControllerStep_eq` says that this is the composition of the channels' own steps, each
from the state that the one before it left.
-/

namespace SmolGpu

/-- The inputs that `mem_controller` samples at an edge. -/
structure MemControllerIn (C M AW DW : ℕ) where
  reset : Bool
  consumer_read_valid : Fin C → Bool
  consumer_read_address : Fin C → BitVec AW
  consumer_write_valid : Fin C → Bool
  consumer_write_address : Fin C → BitVec AW
  consumer_write_data : Fin C → BitVec DW
  mem_read_ready : Fin M → Bool
  mem_read_data : Fin M → BitVec DW
  mem_write_ready : Fin M → Bool

/-- The registers of `mem_controller`. -/
structure MemController (C M AW DW : ℕ) where
  consumer_read_ready : Fin C → Bool
  consumer_read_data : Fin C → BitVec DW
  consumer_write_ready : Fin C → Bool
  mem_read_valid : Fin M → Bool
  mem_read_address : Fin M → BitVec AW
  mem_write_valid : Fin M → Bool
  mem_write_address : Fin M → BitVec AW
  mem_write_data : Fin M → BitVec DW
  controller_state : Fin M → BitVec 3
  current_consumer : Fin M → Fin C
  channel_serving_consumer : Fin C → Bool

namespace MemController

/-- The state of a channel that serves no consumer. -/
def IDLE : BitVec 3 := 0b000#3

/-- The channel waits for memory to answer a read. -/
def READ_WAITING : BitVec 3 := 0b010#3

/-- The channel waits for memory to accept a write. -/
def WRITE_WAITING : BitVec 3 := 0b011#3

/-- The channel waits for the consumer to withdraw the read that was answered. -/
def READ_RELAYING : BitVec 3 := 0b100#3

/-- The channel waits for the consumer to withdraw the write that was accepted. -/
def WRITE_RELAYING : BitVec 3 := 0b101#3

variable {C M AW DW : ℕ}

/-- `j[$clog2(NUM_CONSUMERS)-1:0]`, the number of a consumer cut to the width of
`current_consumer`. -/
def consumerIndex (j : Fin C) : Fin C :=
  ⟨j % 2 ^ Nat.clog 2 C, (Nat.mod_le _ _).trans_lt j.isLt⟩

/-- The width is large enough for every consumer's number. -/
@[simp] theorem consumerIndex_eq (j : Fin C) : consumerIndex j = j := by
  have hlt : (j : ℕ) < 2 ^ Nat.clog 2 C := j.isLt.trans_le (Nat.le_pow_clog (by omega) C)
  exact Fin.ext (Nat.mod_eq_of_lt hlt)

/-- The registers after an edge with reset high. -/
def resetState [NeZero C] : MemController C M AW DW where
  consumer_read_ready := fun _ => false
  consumer_write_ready := fun _ => false
  consumer_read_data := fun _ => 0
  mem_read_valid := fun _ => false
  mem_write_valid := fun _ => false
  current_consumer := fun _ => 0
  controller_state := fun _ => 0
  mem_read_address := fun _ => 0
  mem_write_address := fun _ => 0
  mem_write_data := fun _ => 0
  channel_serving_consumer := fun _ => false

variable (write_enable : Bool) (inp : MemControllerIn C M AW DW)

/-- Consumer `j` has a read request that no channel has picked up. -/
def pendingRead (n : MemController C M AW DW) (j : Fin C) : Bool :=
  inp.consumer_read_valid j && !n.channel_serving_consumer j

/-- Consumer `j` has a write request that no channel has picked up. -/
def pendingWrite (n : MemController C M AW DW) (j : Fin C) : Bool :=
  write_enable && inp.consumer_write_valid j && !n.channel_serving_consumer j

/-- An idle channel picks up the first pending request. The loop stops at the first consumer that
has one, and prefers its read. -/
def idleCase (n : MemController C M AW DW) (i : Fin M) : MemController C M AW DW :=
  match Fin.find? fun j => pendingRead inp n j || pendingWrite write_enable inp n j with
  | none => n
  | some j =>
    -- A consumer that asks for both is read from now, and written to when it is picked up again.
    if pendingRead inp n j then
      { n with
        channel_serving_consumer := Function.update n.channel_serving_consumer j true
        current_consumer := Function.update n.current_consumer i (consumerIndex j)
        mem_read_valid := Function.update n.mem_read_valid i true
        mem_read_address := Function.update n.mem_read_address i (inp.consumer_read_address j)
        controller_state := Function.update n.controller_state i READ_WAITING }
    else
      { n with
        channel_serving_consumer := Function.update n.channel_serving_consumer j true
        current_consumer := Function.update n.current_consumer i (consumerIndex j)
        mem_write_valid := Function.update n.mem_write_valid i true
        mem_write_address := Function.update n.mem_write_address i (inp.consumer_write_address j)
        mem_write_data := Function.update n.mem_write_data i (inp.consumer_write_data j)
        controller_state := Function.update n.controller_state i WRITE_WAITING }

/-- One iteration of the loop over the channels. -/
def channelStep (s n : MemController C M AW DW) (i : Fin M) : MemController C M AW DW :=
  let current_consumer := s.current_consumer i
  if s.controller_state i = IDLE then idleCase write_enable inp n i
  else if s.controller_state i = READ_WAITING then
    if inp.mem_read_ready i then
      { n with
        mem_read_valid := Function.update n.mem_read_valid i false
        consumer_read_ready := Function.update n.consumer_read_ready current_consumer true
        consumer_read_data :=
          Function.update n.consumer_read_data current_consumer (inp.mem_read_data i)
        controller_state := Function.update n.controller_state i READ_RELAYING }
    else n
  else if s.controller_state i = WRITE_WAITING then
    if inp.mem_write_ready i then
      { n with
        mem_write_valid := Function.update n.mem_write_valid i false
        consumer_write_ready := Function.update n.consumer_write_ready current_consumer true
        controller_state := Function.update n.controller_state i WRITE_RELAYING }
    else n
  else if s.controller_state i = READ_RELAYING then
    if !inp.consumer_read_valid current_consumer then
      { n with
        channel_serving_consumer :=
          Function.update n.channel_serving_consumer current_consumer false
        consumer_read_ready := Function.update n.consumer_read_ready current_consumer false
        controller_state := Function.update n.controller_state i IDLE }
    else n
  else if s.controller_state i = WRITE_RELAYING then
    if !inp.consumer_write_valid current_consumer then
      { n with
        channel_serving_consumer :=
          Function.update n.channel_serving_consumer current_consumer false
        consumer_write_ready := Function.update n.consumer_write_ready current_consumer false
        controller_state := Function.update n.controller_state i IDLE }
    else n
  else
    -- An invalid state: the source reports an error and makes the channel idle.
    { n with controller_state := Function.update n.controller_state i IDLE }

end MemController

open MemController in
/-- One clock edge of the controller. -/
def memControllerStep {C M AW DW : ℕ} [NeZero C] (write_enable : Bool)
    (inp : MemControllerIn C M AW DW) (s : MemController C M AW DW) : MemController C M AW DW :=
  if inp.reset then resetState else Fin.foldl M (channelStep write_enable inp s) s

namespace MemController

variable {C M AW DW : ℕ} {write_enable : Bool} {inp : MemControllerIn C M AW DW}
  {s n : MemController C M AW DW}

/-! ## Reads and writes -/

/-- The kind of a request. -/
inductive Kind
  | read | write
  deriving DecidableEq, Repr

/-- What a channel is doing, which `controller_state` encodes. -/
inductive ChannelState
  | idle
  | waiting (κ : Kind)
  | relaying (κ : Kind)
  deriving DecidableEq, Repr

/-- The encoding of `controller_state`. -/
def ChannelState.code : ChannelState → BitVec 3
  | .idle => IDLE
  | .waiting .read => READ_WAITING
  | .waiting .write => WRITE_WAITING
  | .relaying .read => READ_RELAYING
  | .relaying .write => WRITE_RELAYING

/-- Different states have different codes. -/
@[simp] theorem ChannelState.code_inj {p q : ChannelState} : p.code = q.code ↔ p = q := by
  rcases p with _ | (_ | _) | (_ | _) <;> rcases q with _ | (_ | _) | (_ | _) <;> decide

/-- The request wire of consumer `j`. -/
def valid (inp : MemControllerIn C M AW DW) (κ : Kind) (j : Fin C) : Bool :=
  match κ with
  | .read => inp.consumer_read_valid j
  | .write => inp.consumer_write_valid j

/-- The wire on which memory answers channel `i`. -/
def memReady (inp : MemControllerIn C M AW DW) (κ : Kind) (i : Fin M) : Bool :=
  match κ with
  | .read => inp.mem_read_ready i
  | .write => inp.mem_write_ready i

/-- The wire on which consumer `j` is answered. -/
def ready (s : MemController C M AW DW) (κ : Kind) (j : Fin C) : Bool :=
  match κ with
  | .read => s.consumer_read_ready j
  | .write => s.consumer_write_ready j

/-- The wire on which channel `i` asks memory. -/
def memValid (s : MemController C M AW DW) (κ : Kind) (i : Fin M) : Bool :=
  match κ with
  | .read => s.mem_read_valid i
  | .write => s.mem_write_valid i

/-! ## What a channel does in an iteration -/

/-- Channel `i` picks up the request of consumer `j`. -/
def pickUp (inp : MemControllerIn C M AW DW) (n : MemController C M AW DW) (i : Fin M) (κ : Kind)
    (j : Fin C) : MemController C M AW DW :=
  match κ with
  | .read =>
    { n with
      channel_serving_consumer := Function.update n.channel_serving_consumer j true
      current_consumer := Function.update n.current_consumer i j
      mem_read_valid := Function.update n.mem_read_valid i true
      mem_read_address := Function.update n.mem_read_address i (inp.consumer_read_address j)
      controller_state := Function.update n.controller_state i READ_WAITING }
  | .write =>
    { n with
      channel_serving_consumer := Function.update n.channel_serving_consumer j true
      current_consumer := Function.update n.current_consumer i j
      mem_write_valid := Function.update n.mem_write_valid i true
      mem_write_address := Function.update n.mem_write_address i (inp.consumer_write_address j)
      mem_write_data := Function.update n.mem_write_data i (inp.consumer_write_data j)
      controller_state := Function.update n.controller_state i WRITE_WAITING }

/-- Channel `i` passes memory's answer on to its consumer. -/
def answer (inp : MemControllerIn C M AW DW) (n : MemController C M AW DW) (i : Fin M) (κ : Kind) :
    MemController C M AW DW :=
  match κ with
  | .read =>
    { n with
      mem_read_valid := Function.update n.mem_read_valid i false
      consumer_read_ready := Function.update n.consumer_read_ready (n.current_consumer i) true
      consumer_read_data :=
        Function.update n.consumer_read_data (n.current_consumer i) (inp.mem_read_data i)
      controller_state := Function.update n.controller_state i READ_RELAYING }
  | .write =>
    { n with
      mem_write_valid := Function.update n.mem_write_valid i false
      consumer_write_ready := Function.update n.consumer_write_ready (n.current_consumer i) true
      controller_state := Function.update n.controller_state i WRITE_RELAYING }

/-- Channel `i` releases its consumer. -/
def release (n : MemController C M AW DW) (i : Fin M) (κ : Kind) : MemController C M AW DW :=
  match κ with
  | .read =>
    { n with
      channel_serving_consumer :=
        Function.update n.channel_serving_consumer (n.current_consumer i) false
      consumer_read_ready := Function.update n.consumer_read_ready (n.current_consumer i) false
      controller_state := Function.update n.controller_state i IDLE }
  | .write =>
    { n with
      channel_serving_consumer :=
        Function.update n.channel_serving_consumer (n.current_consumer i) false
      consumer_write_ready := Function.update n.consumer_write_ready (n.current_consumer i) false
      controller_state := Function.update n.controller_state i IDLE }

/-- What an iteration does when the channel's state is a valid one. -/
inductive ChannelCase (inp : MemControllerIn C M AW DW) (n : MemController C M AW DW) (i : Fin M) :
    MemController C M AW DW → Prop
  /-- No request is pending. -/
  | idle : n.controller_state i = ChannelState.idle.code → ChannelCase inp n i n
  | pickUp (κ : Kind) (j : Fin C) : n.controller_state i = ChannelState.idle.code →
      n.channel_serving_consumer j = false → valid inp κ j = true →
      ChannelCase inp n i (pickUp inp n i κ j)
  /-- Memory has not answered. -/
  | wait (κ : Kind) : n.controller_state i = (ChannelState.waiting κ).code →
      memReady inp κ i = false → ChannelCase inp n i n
  | answer (κ : Kind) : n.controller_state i = (ChannelState.waiting κ).code →
      memReady inp κ i = true → ChannelCase inp n i (answer inp n i κ)
  /-- The consumer has not withdrawn its request. -/
  | hold (κ : Kind) : n.controller_state i = (ChannelState.relaying κ).code →
      valid inp κ (n.current_consumer i) = true → ChannelCase inp n i n
  | release (κ : Kind) : n.controller_state i = (ChannelState.relaying κ).code →
      valid inp κ (n.current_consumer i) = false → ChannelCase inp n i (release n i κ)

/-- An idle channel stays idle or picks a request up. -/
theorem idleCase_spec {i : Fin M} (h : n.controller_state i = IDLE) :
    ChannelCase inp n i (idleCase write_enable inp n i) := by
  unfold idleCase
  split
  · exact .idle h
  · rename_i j hj
    have hpend := Fin.eq_true_of_find?_eq_some hj
    simp only [consumerIndex_eq]
    split_ifs with hr
    · simp only [pendingRead, Bool.and_eq_true, Bool.not_eq_true'] at hr
      exact .pickUp .read j h hr.2 hr.1
    · have hw : pendingWrite write_enable inp n j = true := by simpa [hr] using hpend
      simp only [pendingWrite, Bool.and_eq_true, Bool.not_eq_true'] at hw
      exact .pickUp .write j h hw.2 hw.1.2

/-- An iteration over the channels does what the channel's state asks for. -/
theorem channelStep_spec {i : Fin M} {p : ChannelState} (h : n.controller_state i = p.code) :
    ChannelCase inp n i (channelStep write_enable inp n n i) := by
  unfold channelStep
  dsimp only
  -- The branches of the source's case, in its order: idle, waiting for memory, and relaying the
  -- answer.
  rcases p with _ | (_ | _) | (_ | _)
  · rw [if_pos (show n.controller_state i = IDLE from h)]
    exact idleCase_spec h
  · have h' : n.controller_state i = READ_WAITING := h
    rw [if_neg (by rw [h']; decide), if_pos h']
    split_ifs with hr
    · exact .answer .read h hr
    · exact .wait .read h (by simpa [memReady] using hr)
  · have h' : n.controller_state i = WRITE_WAITING := h
    rw [if_neg (by rw [h']; decide), if_neg (by rw [h']; decide), if_pos h']
    split_ifs with hr
    · exact .answer .write h hr
    · exact .wait .write h (by simpa [memReady] using hr)
  · have h' : n.controller_state i = READ_RELAYING := h
    rw [if_neg (by rw [h']; decide), if_neg (by rw [h']; decide), if_neg (by rw [h']; decide),
      if_pos h']
    split_ifs with hv
    · exact .release .read h (by simpa [valid] using hv)
    · exact .hold .read h (by simpa [valid] using hv)
  · have h' : n.controller_state i = WRITE_RELAYING := h
    rw [if_neg (by rw [h']; decide), if_neg (by rw [h']; decide), if_neg (by rw [h']; decide),
      if_neg (by rw [h']; decide), if_pos h']
    split_ifs with hv
    · exact .release .write h (by simpa [valid] using hv)
    · exact .hold .write h (by simpa [valid] using hv)

/-- An iteration touches the state and the consumer of its own channel only. -/
theorem channelStep_other {i k : Fin M} (hne : k ≠ i) :
    (channelStep write_enable inp s n i).controller_state k = n.controller_state k ∧
      (channelStep write_enable inp s n i).current_consumer k = n.current_consumer k := by
  unfold channelStep idleCase
  dsimp only
  split_ifs <;> first
    | exact ⟨rfl, rfl⟩
    | exact ⟨Function.update_of_ne hne _ _, rfl⟩
    | (split <;> [exact ⟨rfl, rfl⟩; split_ifs] <;>
        exact ⟨Function.update_of_ne hne _ _, Function.update_of_ne hne _ _⟩)

/-- The right-hand sides of an iteration read the state and the consumer of its own channel, which
no iteration before it has assigned, so that it may as well read the current ones. -/
theorem memControllerStep_eq [NeZero C] (hr : inp.reset = false) :
    memControllerStep write_enable inp s =
      Fin.foldl M (fun a i => channelStep write_enable inp a a i) s := by
  unfold memControllerStep
  rw [hr, if_neg (by decide)]
  refine Loop.foldl_congr _ _ (fun k a => ∀ i : Fin M, k ≤ i →
    a.controller_state i = s.controller_state i ∧ a.current_consumer i = s.current_consumer i) s
    (fun i _ => ⟨rfl, rfl⟩) ?_ ?_
  · intro k a h i hi
    have hne : i ≠ k := fun he => by rw [he] at hi; omega
    obtain ⟨hcs, hcc⟩ := channelStep_other (s := s) (n := a) hne
    obtain ⟨hcs', hcc'⟩ := h i (by omega)
    exact ⟨hcs.trans hcs', hcc.trans hcc'⟩
  · intro i a h
    obtain ⟨hcs, hcc⟩ := h i le_rfl
    unfold channelStep
    rw [hcs, hcc]

/-- Without a request the controller rests. -/
theorem step_resetState [NeZero C] (hread : ∀ j, inp.consumer_read_valid j = false)
    (hwrite : ∀ j, inp.consumer_write_valid j = false) :
    memControllerStep write_enable inp resetState = resetState := by
  have hidle (i : Fin M) :
      channelStep write_enable inp resetState resetState i = resetState := by
    have hnone : (Fin.find? fun j => pendingRead inp resetState j ||
        pendingWrite write_enable inp resetState j : Option (Fin C)) = none := by
      rw [Fin.find?_eq_none_iff]
      intro j
      simp [pendingRead, pendingWrite, hread, hwrite]
    have hstate : (resetState : MemController C M AW DW).controller_state i = IDLE := rfl
    unfold channelStep idleCase
    dsimp only
    rw [if_pos hstate, hnone]
  unfold memControllerStep
  split_ifs
  · rfl
  · exact Loop.foldl_induction _ (fun _ a => a = resetState) _ rfl fun k a ih => ih ▸ hidle k

end MemController

end SmolGpu
