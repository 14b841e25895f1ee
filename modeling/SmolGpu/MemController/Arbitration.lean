import SmolGpu.Library.Greedy
import SmolGpu.MemController.Port

/-!
# Arbitration

Which channel takes which request in an edge. The idle channels and the pending consumers are
matched in order (`memController_work_conserving`): as many channels leave `IDLE` as there are both,
and the `k`-th idle channel takes the request of the `k`-th pending consumer.

The loop over the channels is a `Greedy.Pass`, with the pending consumers as the queue. A channel
that releases its consumer clears its bit of the bitmap in the middle of the loop. The consumer is
not pending for the channels behind it, as long as it asserts no request of the other kind before
its handshake is over (`OneAtATime`).
-/

namespace SmolGpu.MemController

variable {C M AW DW : ℕ}

section Definitions

variable (write_enable : Bool) (inp : MemControllerIn C M AW DW) (s : MemController C M AW DW)

/-- The channels that are idle, the lowest first. -/
def idleChannels : List (Fin M) := (List.finRange M).filter fun i => s.controller_state i = IDLE

/-- The consumer has a request that no channel serves. -/
def pending (j : Fin C) : Bool := pendingRead inp s j || pendingWrite write_enable inp s j

/-- The consumers with a pending request, the lowest first. -/
def pendingConsumers : List (Fin C) := (List.finRange C).filter (pending write_enable inp s)

/-- The kind of the request that is picked up: a consumer that asks for both is read from. -/
def requestedKind (j : Fin C) : Kind := if inp.consumer_read_valid j then .read else .write

/-- No consumer asserts one kind of request before its handshake of the other kind is over, that is,
while it is still told that this one is ready. -/
def OneAtATime : Prop :=
  ∀ κ κ' j, κ' ≠ κ → s.ready κ j = true → valid inp κ' j = false

/-- Channel `i` asks memory with the request that consumer `j` presents. -/
structure Takes (i : Fin M) (j : Fin C) : Prop where
  /-- The channel has noted the consumer. -/
  consumer : s.current_consumer i = j
  /-- The channel has the consumer's request. -/
  asks : Asks s i (requestOf inp (requestedKind inp j) j)
  /-- The channel's request is up. -/
  valid : s.memValid (requestedKind inp j) i = true

end Definitions

/-- The edge from `s` to `s'` serves as many requests as it can, in order. -/
structure WorkConserving (write_enable : Bool) (inp : MemControllerIn C M AW DW)
    (s s' : MemController C M AW DW) : Prop where
  /-- The channels that leave `IDLE` are the lowest ones, and as many as there are idle channels and
  pending consumers. -/
  leave : (idleChannels s).filter (fun i => s'.controller_state i ≠ IDLE) =
    (idleChannels s).take
      (min (idleChannels s).length (pendingConsumers write_enable inp s).length)
  /-- The `k`-th of them takes the `k`-th pending consumer. -/
  takes : ∀ (k : ℕ) (i : Fin M) (j : Fin C), (idleChannels s)[k]? = some i →
    (pendingConsumers write_enable inp s)[k]? = some j → Takes inp s' i j
  /-- A consumer that is taken is served by no other channel. -/
  once : ∀ i i', i ∈ idleChannels s → s'.controller_state i ≠ IDLE →
    s'.controller_state i' ≠ IDLE → s'.current_consumer i = s'.current_consumer i' → i = i'

variable {write_enable : Bool} {inp : MemControllerIn C M AW DW} {s n a : MemController C M AW DW}

/-! ## One iteration -/

/-- A pending consumer is not being served, and presents the request that is picked up. -/
theorem pending_iff {j : Fin C} : pending write_enable inp n j = true ↔
    n.channel_serving_consumer j = false ∧ (valid inp .read j = true ∨
      write_enable = true ∧ valid inp .write j = true) := by
  unfold pending pendingRead pendingWrite valid
  cases n.channel_serving_consumer j <;> simp

/-- An idle channel takes the first pending consumer. -/
theorem idleCase_eq (i : Fin M) : idleCase write_enable inp n i =
    match (pendingConsumers write_enable inp n).head? with
    | none => n
    | some j => pickUp inp n i (requestedKind inp j) j := by
  have hfind : (Fin.find? fun j => pendingRead inp n j || pendingWrite write_enable inp n j) =
      (pendingConsumers write_enable inp n).head? := by
    rw [Fin.find?_eq_find?_finRange, pendingConsumers, List.head?_filter]
    rfl
  unfold idleCase
  rw [hfind]
  cases hhead : (pendingConsumers write_enable inp n).head? with
  | none => rfl
  | some j =>
    have hmem : j ∈ pendingConsumers write_enable inp n := List.mem_of_head? hhead
    have hfree := (pending_iff.mp (List.mem_filter.mp hmem).2).1
    -- The consumer is free, so its read is pending just if it is asserted.
    have hread : pendingRead inp n j = inp.consumer_read_valid j := by simp [pendingRead, hfree]
    simp only [hread, consumerIndex_eq, requestedKind]
    cases inp.consumer_read_valid j with
    | false => rfl
    | true => rfl

/-- What an iteration needs to know of the state before it: the channels that are left are as before
the edge. -/
structure Ahead (s : MemController C M AW DW) (left : List (Fin M))
    (n : MemController C M AW DW) : Prop where
  /-- No channel comes twice. -/
  nodup : left.Nodup
  /-- The channels are in the states from before the edge. -/
  state : ∀ i ∈ left, n.controller_state i = s.controller_state i
  /-- The channels have the consumers from before the edge. -/
  consumer : ∀ i ∈ left, n.current_consumer i = s.current_consumer i

/-- An iteration at a channel that was idle before the edge looks for a consumer. -/
theorem Ahead.channelStep_eq {i : Fin M} {left : List (Fin M)} (hn : Ahead s (i :: left) n)
    (hfree : s.controller_state i = IDLE) : channelStep write_enable inp n n i =
      match (pendingConsumers write_enable inp n).head? with
      | none => n
      | some j => pickUp inp n i (requestedKind inp j) j := by
  have hidle : n.controller_state i = IDLE := (hn.state i List.mem_cons_self).trans hfree
  rw [← idleCase_eq]
  unfold channelStep
  exact if_pos hidle

/-- When the first of them has been taken, the others are pending. -/
theorem pendingConsumers_pickUp {i : Fin M} {κ : Kind} {j : Fin C}
    (hj : (pendingConsumers write_enable inp n).head? = some j) :
    pendingConsumers write_enable inp (pickUp inp n i κ j) =
      (pendingConsumers write_enable inp n).tail := by
  have hpend (j' : Fin C) : pending write_enable inp (pickUp inp n i κ j) j' =
      (decide (j' ≠ j) && pending write_enable inp n j') := by
    unfold pending pendingRead pendingWrite
    rw [pickUp_serving]
    by_cases hne : j' = j
    · simp [hne]
    · simp [hne]
  have hfilter : pendingConsumers write_enable inp (pickUp inp n i κ j) =
      (pendingConsumers write_enable inp n).filter fun j' => decide (j' ≠ j) := by
    unfold pendingConsumers
    rw [List.filter_filter, funext hpend]
  have hnodup : (pendingConsumers write_enable inp n).Nodup := (List.nodup_finRange C).filter _
  rw [hfilter]
  -- Only the first of the list is the consumer that was taken.
  cases hlist : pendingConsumers write_enable inp n with
  | nil => rfl
  | cons j₀ rest =>
    rw [hlist] at hj hnodup
    obtain rfl : j₀ = j := Option.some.inj hj
    have hrest : ∀ j' ∈ rest, j' ≠ j₀ := fun j' hmem heq =>
      (List.nodup_cons.mp hnodup).1 (heq ▸ hmem)
    rw [List.filter_cons_of_neg (by simp), List.tail_cons, List.filter_eq_self]
    simpa using hrest

/-- An iteration that picks nothing up leaves the pending consumers as they are. -/
theorem pendingConsumers_of_busy {i : Fin M} {left : List (Fin M)} (hone : OneAtATime inp s)
    (hs : Owned s) (hn : Ahead s (i :: left) n) (hc : ChannelCase inp n i a)
    (hbusy : n.controller_state i ≠ ChannelState.idle.code) :
    pendingConsumers write_enable inp a = pendingConsumers write_enable inp n := by
  have hsame (h : ∀ j, pending write_enable inp a j = pending write_enable inp n j) :
      pendingConsumers write_enable inp a = pendingConsumers write_enable inp n := by
    unfold pendingConsumers
    rw [funext h]
  cases hc with
  | idle hi => exact absurd hi hbusy
  | pickUp κ j hi => exact absurd hi hbusy
  | wait => rfl
  | answer κ =>
    apply hsame
    intro j
    unfold pending pendingRead pendingWrite
    rw [answer_serving]
  | hold => rfl
  | release κ hi hv =>
    apply hsame
    intro j
    by_cases hj : j = n.current_consumer i
    · -- The consumer that is released has withdrawn its request, and asserts no other.
      have hready : s.ready κ j = true := by
        rw [hs.ready]
        refine ⟨i, ?_, ?_⟩
        · rw [← hn.state i List.mem_cons_self, hi]
        · rw [← hn.consumer i List.mem_cons_self, hj]
      have hnone (κ' : Kind) : valid inp κ' j = false := by
        by_cases hκ : κ' = κ
        · rw [hκ, hj, hv]
        · exact hone κ κ' j hκ hready
      have hnot (m : MemController C M AW DW) : pending write_enable inp m j = false := by
        rw [Bool.eq_false_iff, Ne, pending_iff, hnone, hnone]
        simp
      rw [hnot, hnot]
    · unfold pending pendingRead pendingWrite
      rw [release_serving, Function.update_of_ne hj]

/-- What channel `i` has got: nothing, or the request of a consumer. -/
def Got (inp : MemControllerIn C M AW DW) (n : MemController C M AW DW) (i : Fin M) :
    Option (Fin C) → Prop
  | none => n.controller_state i = IDLE
  | some j => n.current_consumer i = j ∧ Asks n i (requestOf inp (requestedKind inp j) j)

/-- A channel is busy exactly when it got a consumer. -/
theorem Got.iff_busy {i : Fin M} {o : Option (Fin C)} (h : Got inp n i o) :
    n.controller_state i ≠ IDLE ↔ o.isSome = true := by
  cases o with
  | none =>
    have hidle : n.controller_state i = IDLE := h
    simp [hidle]
  | some j =>
    have hbusy : n.controller_state i ≠ ChannelState.idle.code := by
      rw [h.2.code]
      simp
    exact ⟨fun _ => rfl, fun _ => hbusy⟩

/-- The loop over the channels hands out the pending requests. -/
theorem pass (write_enable : Bool) (hone : OneAtATime inp s) (hs : Owned s) :
    Greedy.Pass (fun n i => channelStep write_enable inp n n i)
      (fun i => decide (s.controller_state i = IDLE)) (pendingConsumers write_enable inp)
      (Got inp) (fun left n => Ahead s left n ∧ Owned n) where
  keep := by
    rintro i left n ⟨hn, ho⟩
    -- An iteration touches its own channel only.
    have hc : ChannelCase inp n i (channelStep write_enable inp n n i) := ho.channelStep_spec i
    obtain ⟨hi, hleft⟩ := List.nodup_cons.mp hn.nodup
    refine ⟨⟨hleft, fun k hk => ?_, fun k hk => ?_⟩, ho.channelCase hc⟩
    · rw [(hc.other fun he => hi (he ▸ hk)).1, hn.state k (List.mem_cons_of_mem i hk)]
    · rw [(hc.other fun he => hi (he ▸ hk)).2.1, hn.consumer k (List.mem_cons_of_mem i hk)]
  queue_free := by
    rintro i left n ⟨hn, -⟩ hfree
    -- An idle channel picks the first pending request up, if there is one.
    rw [hn.channelStep_eq (of_decide_eq_true hfree)]
    cases hhead : (pendingConsumers write_enable inp n).head? with
    | none => rw [List.head?_eq_none_iff.mp hhead, List.tail_nil]
    | some j => exact pendingConsumers_pickUp hhead
  queue_busy := by
    rintro i left n ⟨hn, ho⟩ hfree
    -- A busy channel picks nothing up.
    have hbusy : n.controller_state i ≠ ChannelState.idle.code := by
      rw [hn.state i List.mem_cons_self]
      exact of_decide_eq_false hfree
    exact pendingConsumers_of_busy hone hs hn (ho.channelStep_spec i) hbusy
  got := by
    rintro i left n ⟨hn, -⟩ hfree
    -- What it has picked up is what it asks memory for.
    have hidle : s.controller_state i = IDLE := of_decide_eq_true hfree
    rw [hn.channelStep_eq hidle]
    cases hhead : (pendingConsumers write_enable inp n).head? with
    | none => exact (hn.state i List.mem_cons_self).trans hidle
    | some j => exact ⟨by simp, asks_pickUp⟩
  frame := by
    rintro i k left n o ⟨-, ho⟩ hne hgot
    -- The iterations that follow leave its registers.
    have hc : ChannelCase inp n k (channelStep write_enable inp n n k) := ho.channelStep_spec k
    cases o with
    | none => exact (hc.other hne).1.trans hgot
    | some j => exact ⟨(hc.other hne).2.1.trans hgot.1, hgot.2.frame hc hne⟩

/-- The inputs of an example controller, with two consumers of which the second one writes. -/
def readAndWrite (reset : Bool) : MemControllerIn 2 2 8 8 where
  reset := reset
  consumer_read_valid := fun j => j.val = 0
  consumer_read_address := fun _ => 3
  consumer_write_valid := fun j => j.val = 1
  consumer_write_address := fun _ => 4
  consumer_write_data := fun _ => 9
  mem_read_ready := fun _ => false
  mem_read_data := fun _ => 0
  mem_write_ready := fun _ => false

end SmolGpu.MemController

namespace SmolGpu

open MemController in
/-- In every state that the controller reaches after a reset, and for any inputs in which no
consumer asserts a request of one kind before its handshake of the other kind is over, an edge
without reset hands the pending requests out to the idle channels, in order. -/
theorem memController_work_conserving {C M AW DW : ℕ} [NeZero C] (write_enable : Bool)
    {s : MemController C M AW DW}
    (h : Clocked.Reachable (memControllerStep write_enable) (AfterReset write_enable) s)
    {inp : MemControllerIn C M AW DW} (hr : inp.reset = false) (hone : OneAtATime inp s) :
    WorkConserving write_enable inp s (memControllerStep write_enable inp s) := by
  have hs : Owned s := Owned.of_reachable h
  have hs' : Owned (memControllerStep write_enable inp s) := hs.step
  -- The loop over the channels is a pass of the pending consumers along the idle channels.
  have hpass := pass write_enable hone hs
  have hnodup : (List.finRange M).Nodup := List.nodup_finRange M
  have hahead : Ahead s (List.finRange M) s ∧ Owned s :=
    ⟨⟨hnodup, fun _ _ => rfl, fun _ _ => rfl⟩, hs⟩
  have hloop : memControllerStep write_enable inp s =
      (List.finRange M).foldl (fun n i => channelStep write_enable inp n n i) s := by
    rw [memControllerStep_eq hr, Fin.foldl_eq_finRange_foldl]
  constructor
  · -- The channels that are busy afterwards are those that have got a consumer.
    refine hpass.filter_got hnodup hahead fun i o hgot => ?_
    rw [← hloop] at hgot
    exact Bool.eq_iff_iff.mpr (by simpa using hgot.iff_busy)
  · intro k i j hi hj
    -- The `k`-th idle channel has got the `k`-th pending consumer, and asks memory for its request.
    have hgot : Got inp (memControllerStep write_enable inp s) i
        (pendingConsumers write_enable inp s)[k]? := by
      rw [hloop]
      exact hpass.foldl hnodup hahead hi
    rw [hj] at hgot
    refine ⟨hgot.1, hgot.2, ?_⟩
    rw [hs'.memValid, hgot.2.code]
    unfold requestOf
    cases requestedKind inp j with
    | read => rfl
    | write => rfl
  · intro i i' _ hi hi' heq
    -- No two channels have one consumer, by the ownership.
    exact hs'.unique i i' _ ⟨hi, heq⟩ ⟨hi', rfl⟩

open MemController in
/-- Both requests are taken at once, each by a channel of its own. -/
theorem memController_work_conserving_two :
    WorkConserving true (readAndWrite false)
      (memControllerStep true (readAndWrite true) resetState)
      (memControllerStep true (readAndWrite false)
        (memControllerStep true (readAndWrite true) resetState)) := by
  have hone : OneAtATime (readAndWrite false)
      (memControllerStep true (readAndWrite true) resetState) := by
    unfold OneAtATime
    intro κ κ' j _ hready
    cases κ with
    | read => exact absurd hready (by decide +revert)
    | write => exact absurd hready (by decide +revert)
  exact memController_work_conserving true (.init ⟨readAndWrite true, resetState, rfl, rfl⟩) rfl
    hone

end SmolGpu
