import SmolGpu.MemController.Controller

/-!
# Who owns which consumer

A channel that is not idle owns its `current_consumer`, and the bitmap `channel_serving_consumer`
keeps two channels from owning the same one. `Owned` says so, and that every valid and ready wire is
up in exactly the channel states that it belongs to. Each iteration of the loop over the channels
preserves it, whatever the consumers and memory do, and so does the edge.
-/

namespace SmolGpu

namespace MemController

variable {C M AW DW : ℕ} {write_enable : Bool} {inp : MemControllerIn C M AW DW}
  {s n a : MemController C M AW DW}

/-! ## The registers after an iteration -/

section Fields

variable (inp) (n) (i : Fin M) (κ κ' : Kind) (j j' : Fin C) (k : Fin M)

/-- Picking a request up sets the state of its channel only. -/
@[simp] theorem pickUp_controller_state : (pickUp inp n i κ j).controller_state =
    Function.update n.controller_state i (ChannelState.waiting κ).code := by
  cases κ <;> rfl

/-- Picking a request up notes its consumer. -/
@[simp] theorem pickUp_current_consumer :
    (pickUp inp n i κ j).current_consumer = Function.update n.current_consumer i j := by
  cases κ <;> rfl

/-- Picking a request up marks its consumer as served. -/
@[simp] theorem pickUp_serving : (pickUp inp n i κ j).channel_serving_consumer =
    Function.update n.channel_serving_consumer j true := by
  cases κ <;> rfl

/-- Picking a request up answers nobody. -/
@[simp] theorem pickUp_ready : (pickUp inp n i κ j).ready κ' j' = n.ready κ' j' := by
  cases κ <;> cases κ' <;> rfl

/-- Picking a request up delivers no word. -/
@[simp] theorem pickUp_read_data :
    (pickUp inp n i κ j).consumer_read_data = n.consumer_read_data := by
  cases κ <;> rfl

/-- Picking a request up puts it on the channel's port. -/
@[simp] theorem pickUp_memValid : (pickUp inp n i κ j).memValid κ' k =
    if κ' = κ ∧ k = i then true else n.memValid κ' k := by
  by_cases hk : k = i
  · subst hk
    cases κ <;> cases κ' <;> simp [pickUp, memValid]
  · cases κ <;> cases κ' <;> simp [pickUp, memValid, hk]

/-- Relaying an answer sets the state of its channel only. -/
@[simp] theorem answer_controller_state : (answer inp n i κ).controller_state =
    Function.update n.controller_state i (ChannelState.relaying κ).code := by
  cases κ <;> rfl

/-- Relaying an answer keeps the consumers. -/
@[simp] theorem answer_current_consumer :
    (answer inp n i κ).current_consumer = n.current_consumer := by
  cases κ <;> rfl

/-- Relaying an answer keeps the marks of the consumers. -/
@[simp] theorem answer_serving :
    (answer inp n i κ).channel_serving_consumer = n.channel_serving_consumer := by
  cases κ <;> rfl

/-- Relaying an answer raises `ready` for the channel's consumer. -/
@[simp] theorem answer_ready : (answer inp n i κ).ready κ' j =
    if κ' = κ ∧ j = n.current_consumer i then true else n.ready κ' j := by
  by_cases hj : j = n.current_consumer i
  · subst hj
    cases κ <;> cases κ' <;> simp [answer, ready]
  · cases κ <;> cases κ' <;> simp [answer, ready, hj]

/-- Relaying an answer takes the request off the channel's port. -/
@[simp] theorem answer_memValid : (answer inp n i κ).memValid κ' k =
    if κ' = κ ∧ k = i then false else n.memValid κ' k := by
  by_cases hk : k = i
  · subst hk
    cases κ <;> cases κ' <;> simp [answer, memValid]
  · cases κ <;> cases κ' <;> simp [answer, memValid, hk]

/-- Releasing a consumer sets its channel to idle. -/
@[simp] theorem release_controller_state : (release n i κ).controller_state =
    Function.update n.controller_state i ChannelState.idle.code := by
  cases κ <;> rfl

/-- Releasing a consumer leaves it noted. -/
@[simp] theorem release_current_consumer :
    (release n i κ).current_consumer = n.current_consumer := by
  cases κ <;> rfl

/-- Releasing a consumer takes its mark off. -/
@[simp] theorem release_serving : (release n i κ).channel_serving_consumer =
    Function.update n.channel_serving_consumer (n.current_consumer i) false := by
  cases κ <;> rfl

/-- Releasing a consumer drops its `ready`. -/
@[simp] theorem release_ready : (release n i κ).ready κ' j =
    if κ' = κ ∧ j = n.current_consumer i then false else n.ready κ' j := by
  by_cases hj : j = n.current_consumer i
  · subst hj
    cases κ <;> cases κ' <;> simp [release, ready]
  · cases κ <;> cases κ' <;> simp [release, ready, hj]

/-- Releasing a consumer keeps the words delivered. -/
@[simp] theorem release_read_data : (release n i κ).consumer_read_data = n.consumer_read_data := by
  cases κ <;> rfl

/-- Releasing a consumer keeps the memory's ports. -/
@[simp] theorem release_memValid : (release n i κ).memValid κ' k = n.memValid κ' k := by
  cases κ <;> cases κ' <;> rfl

end Fields

/-! ## The invariant -/

/-- Channel `i` serves consumer `j`. -/
def Serves (s : MemController C M AW DW) (i : Fin M) (j : Fin C) : Prop :=
  s.controller_state i ≠ ChannelState.idle.code ∧ s.current_consumer i = j

/-- The bitmap, the channels, and the wires agree. -/
structure Owned (s : MemController C M AW DW) : Prop where
  /-- Every channel is in a state of the case. -/
  state : ∀ i, ∃ p : ChannelState, s.controller_state i = p.code
  /-- The bitmap marks the consumers that are served. -/
  serving : ∀ j, s.channel_serving_consumer j = true ↔ ∃ i, Serves s i j
  /-- No consumer is served by two channels. -/
  unique : ∀ i k j, Serves s i j → Serves s k j → i = k
  /-- A request is up exactly while its channel waits. -/
  memValid : ∀ κ i, s.memValid κ i = true ↔
    s.controller_state i = (ChannelState.waiting κ).code
  /-- A consumer sees `ready` exactly while its channel relays. -/
  ready : ∀ κ j, s.ready κ j = true ↔
    ∃ i, s.controller_state i = (ChannelState.relaying κ).code ∧ s.current_consumer i = j

/-- A channel with a consumer and a code other than idle's serves the consumer. -/
theorem Serves.of_code {i : Fin M} {j : Fin C} {p : ChannelState}
    (h : s.controller_state i = p.code) (hp : p ≠ .idle) (hj : s.current_consumer i = j) :
    Serves s i j :=
  ⟨by rw [h]; simpa using hp, hj⟩

/-- After a reset nothing is served. -/
theorem Owned.reset [NeZero C] : Owned (resetState : MemController C M AW DW) := by
  have hidle (i : Fin M) : (resetState : MemController C M AW DW).controller_state i =
      ChannelState.idle.code := rfl
  constructor
  · exact fun i => ⟨.idle, rfl⟩
  · exact fun j => ⟨fun h => absurd h (by simp [resetState]), fun ⟨i, h, _⟩ => absurd (hidle i) h⟩
  · exact fun i k j h => absurd (hidle i) h.1
  · intro κ i
    rw [hidle]
    cases κ <;> simp [resetState, MemController.memValid]
  · intro κ j
    simp only [hidle]
    cases κ <;> simp [resetState, MemController.ready]

/-- After a request is picked up, its channel serves its consumer and the others serve theirs. -/
theorem serves_pickUp {i k : Fin M} {j j' : Fin C} {κ : Kind} :
    Serves (pickUp inp n i κ j) k j' ↔ k = i ∧ j' = j ∨ k ≠ i ∧ Serves n k j' := by
  unfold Serves
  rcases eq_or_ne k i with rfl | hne
  · simp [eq_comm]
  · simp [hne]

/-- An answer changes nobody's service. -/
theorem serves_answer {i k : Fin M} {j : Fin C} {κ : Kind}
    (h : n.controller_state i = (ChannelState.waiting κ).code) :
    Serves (answer inp n i κ) k j ↔ Serves n k j := by
  unfold Serves
  rcases eq_or_ne k i with rfl | hne
  · simp [h]
  · simp [hne]

/-- After a release its channel serves nobody, and the others serve theirs. -/
theorem serves_release {i k : Fin M} {j : Fin C} {κ : Kind} :
    Serves (release n i κ) k j ↔ k ≠ i ∧ Serves n k j := by
  unfold Serves
  rcases eq_or_ne k i with rfl | hne
  · simp
  · simp [hne]

/-- A consumer that is not being served is picked up by a channel that is idle. -/
theorem Owned.pickUp (h : Owned n) {i : Fin M} {j : Fin C} {κ : Kind}
    (hi : n.controller_state i = ChannelState.idle.code)
    (hj : n.channel_serving_consumer j = false) : Owned (pickUp inp n i κ j) := by
  have hidle (j : Fin C) : ¬Serves n i j := fun hs => hs.1 hi
  have hfree (k : Fin M) : ¬Serves n k j := fun hs =>
    absurd (((h.serving j).mpr ⟨k, hs⟩).symm.trans hj) (by simp)
  constructor
  · intro k
    rcases eq_or_ne k i with rfl | hne
    · exact ⟨.waiting κ, by simp⟩
    · simpa [hne] using h.state k
  · intro j'
    simp only [serves_pickUp, pickUp_serving]
    rcases eq_or_ne j' j with rfl | hne
    · simp
    · simp only [Function.update_of_ne hne, h.serving, hne, and_false, false_or]
      exact exists_congr fun k => ⟨fun hs => ⟨fun hk => hidle j' (hk ▸ hs), hs⟩, And.right⟩
  · intro k l j' hk hl
    rw [serves_pickUp] at hk hl
    rcases hk with ⟨rfl, rfl⟩ | ⟨hki, hk⟩ <;> rcases hl with ⟨rfl, hj'⟩ | ⟨hli, hl⟩
    · rfl
    -- Nobody served the consumer that is picked up.
    · exact absurd hl (hfree l)
    · exact absurd (hj' ▸ hk) (hfree k)
    · exact h.unique k l j' hk hl
  · intro κ' k
    rw [pickUp_memValid, pickUp_controller_state]
    rcases eq_or_ne k i with rfl | hne
    · -- An idle channel has its request wires low.
      have hlow : n.memValid κ' k = false := by
        by_contra hv
        have := (h.memValid κ' k).mp (by simpa using hv)
        rw [hi, ChannelState.code_inj] at this
        cases this
      simp [hlow, eq_comm]
    · simp [hne, h.memValid]
  · intro κ' j'
    rw [pickUp_ready, h.ready]
    refine exists_congr fun k => ?_
    rcases eq_or_ne k i with rfl | hne
    · simp [hi]
    · simp [hne]

/-- Relaying an answer keeps the ownership. -/
theorem Owned.answer (h : Owned n) {i : Fin M} {κ : Kind}
    (hi : n.controller_state i = (ChannelState.waiting κ).code) : Owned (answer inp n i κ) := by
  constructor
  · intro k
    rcases eq_or_ne k i with rfl | hne
    · exact ⟨.relaying κ, by simp⟩
    · simpa [hne] using h.state k
  · intro j
    simp only [serves_answer hi, answer_serving, h.serving]
  · intro k l j hk hl
    rw [serves_answer hi] at hk hl
    exact h.unique k l j hk hl
  · intro κ' k
    rw [answer_memValid, answer_controller_state]
    rcases eq_or_ne k i with rfl | hne
    · have hlow : κ' ≠ κ → n.memValid κ' k = false := by
        intro hκ
        by_contra hv
        have := (h.memValid κ' k).mp (by simpa using hv)
        rw [hi, ChannelState.code_inj] at this
        exact hκ (by injection this with h; exact h.symm)
      by_cases hκ : κ' = κ
      · simp [hκ]
      · simp [hκ, hlow hκ]
    · simp [hne, h.memValid]
  · intro κ' j
    rw [answer_ready, answer_controller_state, answer_current_consumer]
    split_ifs with hc
    · -- The consumer that is answered, on the wire of the answer's kind.
      obtain ⟨rfl, rfl⟩ := hc
      exact ⟨fun _ => ⟨i, by simp, rfl⟩, fun _ => rfl⟩
    · rw [h.ready]
      refine exists_congr fun k => ?_
      rcases eq_or_ne k i with rfl | hne
      · -- The channel now relays, but to that consumer and on that wire only.
        simp only [hi, ChannelState.code_inj, reduceCtorEq, false_and, Function.update_self,
          ChannelState.relaying.injEq, false_iff]
        intro h
        exact hc ⟨h.1.symm, h.2.symm⟩
      · simp [hne]

/-- Releasing a consumer keeps the ownership. -/
theorem Owned.release (h : Owned n) {i : Fin M} {κ : Kind}
    (hi : n.controller_state i = (ChannelState.relaying κ).code) : Owned (release n i κ) := by
  have hs : Serves n i (n.current_consumer i) := .of_code hi (by simp) rfl
  constructor
  · intro k
    rcases eq_or_ne k i with rfl | hne
    · exact ⟨.idle, by simp⟩
    · simpa [hne] using h.state k
  · intro j
    simp only [serves_release, release_serving]
    rcases eq_or_ne j (n.current_consumer i) with rfl | hne
    · simp only [Function.update_self, Bool.false_eq_true, false_iff, not_exists, not_and]
      exact fun k hk hk' => hk (h.unique k i _ hk' hs)
    · simp only [Function.update_of_ne hne, h.serving]
      exact exists_congr fun k => ⟨fun hk => ⟨fun he => hne (he ▸ hk.2).symm, hk⟩, And.right⟩
  · intro k l j hk hl
    rw [serves_release] at hk hl
    exact h.unique k l j hk.2 hl.2
  · intro κ' k
    rw [release_memValid, release_controller_state, h.memValid]
    rcases eq_or_ne k i with rfl | hne
    · simp [hi]
    · simp [hne]
  · intro κ' j
    rw [release_ready, release_controller_state, release_current_consumer]
    split_ifs with hc
    · -- No other channel relays to the consumer, since none serves it.
      obtain ⟨rfl, rfl⟩ := hc
      simp only [false_iff, not_exists, not_and]
      intro k hk hj
      rcases eq_or_ne k i with rfl | hne
      · simp at hk
      · rw [Function.update_of_ne hne] at hk
        exact hne (h.unique k i _ (.of_code hk (by simp) hj) hs)
    · rw [h.ready]
      refine exists_congr fun k => ?_
      rcases eq_or_ne k i with rfl | hne
      · simp only [hi, ChannelState.code_inj, ChannelState.relaying.injEq, Function.update_self,
          reduceCtorEq, false_and, iff_false]
        intro h
        exact hc ⟨h.1.symm, h.2.symm⟩
      · simp [hne]

/-- One iteration keeps the books, whatever channel it is of and whatever its case. -/
theorem Owned.channelCase (h : Owned n) {i : Fin M} (hc : ChannelCase inp n i a) : Owned a := by
  cases hc with
  | idle => exact h
  | pickUp κ j hi hj => exact h.pickUp hi hj
  | wait => exact h
  | answer κ hi => exact h.answer hi
  | hold => exact h
  | release κ hi => exact h.release hi

/-- The channel's iteration is one of the cases of the source other than the invalid state. -/
theorem Owned.channelStep_spec (h : Owned n) (i : Fin M) :
    ChannelCase inp n i (channelStep write_enable inp n n i) := by
  obtain ⟨p, hp⟩ := h.state i
  exact MemController.channelStep_spec hp

/-- A clock edge keeps the ownership. -/
theorem Owned.step [NeZero C] (h : Owned s) : Owned (memControllerStep write_enable inp s) := by
  rcases hr : inp.reset with _ | _
  · rw [memControllerStep_eq hr]
    exact Loop.foldl_induction _ (fun _ a => Owned a) s h
      fun i a ha => ha.channelCase (ha.channelStep_spec i)
  · unfold memControllerStep
    rw [if_pos hr]
    exact .reset

/-- The state after a clock edge with reset high, whatever the registers held before. -/
def AfterReset [NeZero C] (write_enable : Bool) (s : MemController C M AW DW) : Prop :=
  ∃ inp s₀, inp.reset = true ∧ s = memControllerStep write_enable inp s₀

/-- The ownership holds in every reachable state. -/
theorem Owned.of_reachable [NeZero C]
    (h : Clocked.Reachable (memControllerStep write_enable) (AfterReset write_enable) s) :
    Owned s := by
  refine h.invariant (fun s ⟨inp, s₀, hr, hs⟩ => ?_) fun _ _ => Owned.step
  rw [hs, memControllerStep, if_pos hr]
  exact .reset

/-- The registers of the controller as its ports show them. -/
structure OwnershipInvariant (s : MemController C M AW DW) : Prop where
  /-- The bitmap marks the consumers that exactly one busy channel serves. -/
  serving : ∀ j, s.channel_serving_consumer j = true ↔
    ∃! i, s.controller_state i ≠ IDLE ∧ s.current_consumer i = j
  /-- No two busy channels serve one consumer. -/
  exclusive : ∀ i k, s.controller_state i ≠ IDLE → s.controller_state k ≠ IDLE →
    s.current_consumer i = s.current_consumer k → i = k
  /-- A read is up exactly while its channel waits for it. -/
  mem_read_valid : ∀ i, s.mem_read_valid i = true ↔ s.controller_state i = READ_WAITING
  /-- A write is up exactly while its channel waits for it. -/
  mem_write_valid : ∀ i, s.mem_write_valid i = true ↔ s.controller_state i = WRITE_WAITING
  /-- A consumer sees `ready` exactly while a channel relays its read. -/
  consumer_read_ready : ∀ j, s.consumer_read_ready j = true ↔
    ∃ i, s.controller_state i = READ_RELAYING ∧ s.current_consumer i = j
  /-- A consumer sees `ready` exactly while a channel relays its write. -/
  consumer_write_ready : ∀ j, s.consumer_write_ready j = true ↔
    ∃ i, s.controller_state i = WRITE_RELAYING ∧ s.current_consumer i = j
  /-- No channel takes the default branch of the case. -/
  valid_state : ∀ i, s.controller_state i = IDLE ∨ s.controller_state i = READ_WAITING ∨
    s.controller_state i = WRITE_WAITING ∨ s.controller_state i = READ_RELAYING ∨
    s.controller_state i = WRITE_RELAYING

/-- The inputs of an example controller: two consumers read, and memory answers at once. -/
def twoReads (reset : Bool) : MemControllerIn 2 1 8 8 where
  reset := reset
  consumer_read_valid := fun _ => true
  consumer_read_address := fun j => BitVec.ofNat 8 j
  consumer_write_valid := fun _ => false
  consumer_write_address := fun _ => 0
  consumer_write_data := fun _ => 0
  mem_read_ready := fun _ => true
  mem_read_data := fun _ => 7
  mem_write_ready := fun _ => false

end MemController

open MemController in
/-- In every state that the controller reaches after a reset, for any inputs of its consumers and of
memory, its registers agree on which channel serves which consumer. -/
theorem memController_ownership {C M AW DW : ℕ} [NeZero C] (write_enable : Bool)
    {s : MemController C M AW DW}
    (h : Clocked.Reachable (memControllerStep write_enable) (AfterReset write_enable) s) :
    OwnershipInvariant s := by
  have ho := Owned.of_reachable h
  constructor
  · intro j
    rw [ho.serving]
    exact ⟨fun ⟨i, hi⟩ => ⟨i, hi, fun k hk => ho.unique k i j hk hi⟩, fun ⟨i, hi, _⟩ => ⟨i, hi⟩⟩
  · exact fun i k hi hk hik => ho.unique i k _ ⟨hi, hik⟩ ⟨hk, rfl⟩
  · exact ho.memValid .read
  · exact ho.memValid .write
  · exact ho.ready .read
  · exact ho.ready .write
  · intro i
    obtain ⟨p, hp⟩ := ho.state i
    rw [hp]
    rcases p with _ | (_ | _) | (_ | _) <;> simp [ChannelState.code]

open MemController in
/-- Two consumers that both read, over one channel. -/
theorem memController_ownership_two : OwnershipInvariant
    (memControllerStep true (twoReads false) (memControllerStep true (twoReads true) resetState)) :=
  memController_ownership true (.step _ (.init ⟨twoReads true, resetState, rfl, rfl⟩))

end SmolGpu
