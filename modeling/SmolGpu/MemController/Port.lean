import SmolGpu.MemController.Ownership

/-!
# A consumer's port

What one consumer sees of the controller, whatever the others do: its port is free, waits on memory
with its request, or relays memory's answer. `Port` is this abstract machine and `PortStep` its
edges. `portStep` is the refinement: in every state that the invariant holds of, each consumer's
port is in one of the three states, and an edge of the controller is a step of every port.

The proof goes through the loop over the channels. The channel that owns the port when the edge
begins acts on it once, and if it releases it a later channel may pick the consumer up again in the
same edge (`PortStep.repick`).
-/

namespace SmolGpu.MemController

variable {C M AW DW : ℕ} {write_enable : Bool} {inp : MemControllerIn C M AW DW}
  {s n a : MemController C M AW DW} {j : Fin C}

/-- A request to memory. -/
inductive Request (AW DW : ℕ)
  | read (address : BitVec AW)
  | write (address : BitVec AW) (data : BitVec DW)
  deriving DecidableEq, Repr

/-- The kind of a request. -/
def Request.kind : Request AW DW → Kind
  | .read _ => .read
  | .write _ _ => .write

/-- Consumer `j` presents the request on its wires. -/
def Presents (inp : MemControllerIn C M AW DW) (j : Fin C) : Request AW DW → Prop
  | .read address => inp.consumer_read_valid j = true ∧ inp.consumer_read_address j = address
  | .write address data => inp.consumer_write_valid j = true ∧
      inp.consumer_write_address j = address ∧ inp.consumer_write_data j = data

/-- Channel `i` asks memory with the request. -/
def Asks (s : MemController C M AW DW) (i : Fin M) : Request AW DW → Prop
  | .read address => s.controller_state i = (ChannelState.waiting .read).code ∧
      s.mem_read_address i = address
  | .write address data => s.controller_state i = (ChannelState.waiting .write).code ∧
      s.mem_write_address i = address ∧ s.mem_write_data i = data

/-- The state of a consumer's port. -/
inductive Port (M AW DW : ℕ)
  | free
  /-- Channel `i` asks memory with the consumer's request. -/
  | waiting (i : Fin M) (r : Request AW DW)
  /-- Channel `i` has an answer for the consumer, with `word` as the word that was read. -/
  | relaying (i : Fin M) (κ : Kind) (word : BitVec DW)

/-- The channel that serves the port. -/
def Port.owner : Port M AW DW → Option (Fin M)
  | .free => none
  | .waiting i _ => some i
  | .relaying i _ _ => some i

/-- The port of consumer `j`, as it is held in the registers of the controller. -/
def PortIs (s : MemController C M AW DW) (j : Fin C) : Port M AW DW → Prop
  | .free => ∀ i, ¬Serves s i j
  | .waiting i r => s.current_consumer i = j ∧ Asks s i r
  | .relaying i κ word => s.current_consumer i = j ∧
      s.controller_state i = (ChannelState.relaying κ).code ∧
        (κ = .read → s.consumer_read_data j = word)

/-- The edges of a port. -/
inductive PortStep (inp : MemControllerIn C M AW DW) (j : Fin C) :
    Port M AW DW → Port M AW DW → Prop
  | idle : PortStep inp j .free .free
  | pick {i : Fin M} {r : Request AW DW} : Presents inp j r → PortStep inp j .free (.waiting i r)
  | wait {i : Fin M} {r : Request AW DW} : memReady inp r.kind i = false →
      PortStep inp j (.waiting i r) (.waiting i r)
  | answer {i : Fin M} {r : Request AW DW} : memReady inp r.kind i = true →
      PortStep inp j (.waiting i r) (.relaying i r.kind (inp.mem_read_data i))
  | hold {i : Fin M} {κ : Kind} {word : BitVec DW} : valid inp κ j = true →
      PortStep inp j (.relaying i κ word) (.relaying i κ word)
  | release {i : Fin M} {κ : Kind} {word : BitVec DW} : valid inp κ j = false →
      PortStep inp j (.relaying i κ word) .free
  | repick {i k : Fin M} {κ : Kind} {word : BitVec DW} {r : Request AW DW} :
      valid inp κ j = false → Presents inp j r →
      PortStep inp j (.relaying i κ word) (.waiting k r)

/-! ## One channel's iteration -/

/-- What the iteration of channel `k` does to the port of consumer `j`. -/
inductive PortMicro (inp : MemControllerIn C M AW DW) (j : Fin C) (k : Fin M) :
    Port M AW DW → Port M AW DW → Prop
  | skip {p : Port M AW DW} : p.owner ≠ some k → PortMicro inp j k p p
  | pick {r : Request AW DW} : Presents inp j r → PortMicro inp j k .free (.waiting k r)
  | own {p p' : Port M AW DW} : p.owner = some k → PortStep inp j p p' →
      (p' = .free ∨ p'.owner = some k) → PortMicro inp j k p p'

/-- A channel that asks is in the waiting state of the request's kind. -/
theorem Asks.code {i : Fin M} {r : Request AW DW} (h : Asks s i r) :
    s.controller_state i = (ChannelState.waiting r.kind).code := by
  cases r with
  | read => exact h.1
  | write => exact h.1

/-- The channel that owns the port serves the consumer. -/
theorem PortIs.serves {p : Port M AW DW} {i : Fin M} (h : PortIs s j p) (hi : p.owner = some i) :
    Serves s i j := by
  cases p with
  | free => cases hi
  | waiting k r =>
    cases hi
    exact .of_code h.2.code (by simp) h.1
  | relaying k κ word =>
    cases hi
    exact .of_code h.2.1 (by simp) h.1

/-- Only the channel that owns the port serves the consumer. -/
theorem PortIs.owner_of_serves {p : Port M AW DW} {i : Fin M} (h : PortIs s j p) (ho : Owned s)
    (hi : Serves s i j) : p.owner = some i := by
  cases p with
  | free => exact absurd hi (h i)
  | waiting k r => exact congrArg some (ho.unique k i j (h.serves rfl) hi)
  | relaying k κ word => exact congrArg some (ho.unique k i j (h.serves rfl) hi)

/-- The port that waits on channel `k` in its state. -/
theorem PortIs.waiting_of_code {p : Port M AW DW} {k : Fin M} {κ : Kind} (h : PortIs s j p)
    (hk : p.owner = some k) (hcode : s.controller_state k = (ChannelState.waiting κ).code) :
    ∃ r, p = .waiting k r ∧ r.kind = κ := by
  cases p with
  | free => cases hk
  | waiting i r =>
    cases hk
    have hr := h.2.code
    rw [hcode, ChannelState.code_inj] at hr
    exact ⟨r, rfl, by injection hr with hr; exact hr.symm⟩
  | relaying i κ' word =>
    cases hk
    have hr := h.2.1
    rw [hcode, ChannelState.code_inj] at hr
    cases hr

/-- A port whose channel is in a relaying state relays. -/
theorem PortIs.relaying_of_code {p : Port M AW DW} {k : Fin M} {κ : Kind} (h : PortIs s j p)
    (hk : p.owner = some k) (hcode : s.controller_state k = (ChannelState.relaying κ).code) :
    ∃ word, p = .relaying k κ word := by
  cases p with
  | free => cases hk
  | waiting i r =>
    cases hk
    have hr := h.2.code
    rw [hcode, ChannelState.code_inj] at hr
    cases hr
  | relaying i κ' word =>
    cases hk
    have hr := h.2.1
    rw [hcode, ChannelState.code_inj] at hr
    cases hr
    exact ⟨word, rfl⟩

/-- The registers of another channel. -/
theorem ChannelCase.other {i k : Fin M} (hc : ChannelCase inp n k a) (hne : i ≠ k) :
    a.controller_state i = n.controller_state i ∧ a.current_consumer i = n.current_consumer i ∧
      a.mem_read_address i = n.mem_read_address i ∧
      a.mem_write_address i = n.mem_write_address i ∧ a.mem_write_data i = n.mem_write_data i := by
  cases hc with
  | idle => exact ⟨rfl, rfl, rfl, rfl, rfl⟩
  | pickUp κ => cases κ <;> simp [MemController.pickUp, hne]
  | wait => exact ⟨rfl, rfl, rfl, rfl, rfl⟩
  | answer κ => cases κ <;> simp [MemController.answer, hne]
  | hold => exact ⟨rfl, rfl, rfl, rfl, rfl⟩
  | release κ => cases κ <;> simp [MemController.release, hne]

/-- What another channel asks memory. -/
theorem Asks.frame {i k : Fin M} {r : Request AW DW} (h : Asks n i r) (hc : ChannelCase inp n k a)
    (hne : i ≠ k) : Asks a i r := by
  obtain ⟨hs, -, hra, hwa, hwd⟩ := hc.other hne
  cases r with
  | read address => exact ⟨hs.trans h.1, hra.trans h.2⟩
  | write address data => exact ⟨hs.trans h.1, hwa.trans h.2.1, hwd.trans h.2.2⟩

/-- A port that the channel does not own, and does not take, stays as it is. -/
theorem PortIs.frame {p : Port M AW DW} {k : Fin M} (h : PortIs n j p)
    (hc : ChannelCase inp n k a) (hk : p.owner ≠ some k)
    (hdata : a.consumer_read_data j = n.consumer_read_data j)
    (hfree : ∀ i, Serves a i j → Serves n i j) : PortIs a j p := by
  cases p with
  | free => exact fun i hi => h i (hfree i hi)
  | waiting i r =>
    have hne : i ≠ k := fun hik => hk (congrArg some hik)
    exact ⟨(hc.other hne).2.1.trans h.1, h.2.frame hc hne⟩
  | relaying i κ word =>
    obtain ⟨hs, hcc, -⟩ := hc.other fun hik => hk (congrArg some hik)
    exact ⟨hcc.trans h.1, hs.trans h.2.1, fun hκ => hdata.trans (h.2.2 hκ)⟩

/-- The request of a given kind that a consumer's wires hold. -/
def requestOf (inp : MemControllerIn C M AW DW) (κ : Kind) (j : Fin C) : Request AW DW :=
  match κ with
  | .read => .read (inp.consumer_read_address j)
  | .write => .write (inp.consumer_write_address j) (inp.consumer_write_data j)

/-- A consumer whose `valid` is up presents a request. -/
theorem presents_requestOf {κ : Kind} (h : valid inp κ j = true) :
    Presents inp j (requestOf inp κ j) := by
  cases κ with
  | read => exact ⟨h, rfl⟩
  | write => exact ⟨h, rfl, rfl⟩

/-- A channel asks memory with the request that it picks up. -/
theorem asks_pickUp {i : Fin M} {κ : Kind} : Asks (pickUp inp n i κ j) i (requestOf inp κ j) := by
  cases κ with
  | read => simp [requestOf, Asks, pickUp, ChannelState.code]
  | write => simp [requestOf, Asks, pickUp, ChannelState.code]

/-- An iteration of the loop, seen from one port. -/
theorem PortIs.micro {p : Port M AW DW} {k : Fin M} (h : PortIs n j p) (ho : Owned n)
    (hc : ChannelCase inp n k a) : ∃ p', PortIs a j p' ∧ PortMicro inp j k p p' := by
  -- The port is owned by `k` exactly if `k` is busy with `j`.
  have hown {q : ChannelState} (hcode : n.controller_state k = q.code) (hq : q ≠ .idle)
      (hj : n.current_consumer k = j) : p.owner = some k :=
    h.owner_of_serves ho (.of_code hcode hq hj)
  have hskip (hj : n.current_consumer k ≠ j) : p.owner ≠ some k := fun hk => hj (h.serves hk).2
  cases hc with
  | idle hi => exact ⟨p, h, .skip fun hk => (h.serves hk).1 hi⟩
  | pickUp κ j' hi hj' hv =>
    have hk : p.owner ≠ some k := fun hk => (h.serves hk).1 hi
    rcases eq_or_ne j' j with rfl | hne
    · -- The bitmap says that no channel serves the consumer, so its port is free.
      have hfree : p = .free := by
        have hnone (i : Fin M) : p.owner ≠ some i := fun hi' =>
          absurd (((ho.serving j').mpr ⟨i, h.serves hi'⟩).symm.trans hj') (by simp)
        cases p with
        | free => rfl
        | waiting i r => exact absurd rfl (hnone i)
        | relaying i κ word => exact absurd rfl (hnone i)
      subst hfree
      exact ⟨.waiting k (requestOf inp κ j'), ⟨by simp, asks_pickUp⟩, .pick (presents_requestOf hv)⟩
    · refine ⟨p, h.frame (.pickUp κ j' hi hj' hv) hk (by simp) fun i hs => ?_, .skip hk⟩
      rw [serves_pickUp] at hs
      exact (hs.resolve_left fun h => hne h.2.symm).2
  | wait κ hi hr =>
    by_cases hj : n.current_consumer k = j
    · have hk := hown hi (by simp) hj
      obtain ⟨r, rfl, rfl⟩ := h.waiting_of_code hk hi
      exact ⟨_, h, .own rfl (.wait hr) (.inr rfl)⟩
    · exact ⟨p, h, .skip (hskip hj)⟩
  | answer κ hi hr =>
    by_cases hj : n.current_consumer k = j
    · -- The port relays from now on, with the word that memory shows for a read.
      have hk := hown hi (by simp) hj
      obtain ⟨r, rfl, rfl⟩ := h.waiting_of_code hk hi
      refine ⟨.relaying k r.kind (inp.mem_read_data k), ⟨by simpa using hj, by simp, ?_⟩,
        .own rfl (.answer hr) (.inr rfl)⟩
      intro hκ
      rw [hκ]
      simp [answer, hj]
    · refine ⟨p, h.frame (.answer κ hi hr) (hskip hj) ?_ fun i => (serves_answer hi).mp,
        .skip (hskip hj)⟩
      cases κ <;> simp [answer, Function.update_of_ne (Ne.symm hj)]
  | hold κ hi hv =>
    by_cases hj : n.current_consumer k = j
    · have hk := hown hi (by simp) hj
      obtain ⟨word, rfl⟩ := h.relaying_of_code hk hi
      exact ⟨_, h, .own rfl (.hold (hj ▸ hv)) (.inr rfl)⟩
    · exact ⟨p, h, .skip (hskip hj)⟩
  | release κ hi hv =>
    by_cases hj : n.current_consumer k = j
    · -- No other channel served the consumer, so the release leaves its port free.
      have hk := hown hi (by simp) hj
      have hs := h.serves hk
      obtain ⟨word, rfl⟩ := h.relaying_of_code hk hi
      refine ⟨.free, fun i hi' => ?_, .own rfl (.release (hj ▸ hv)) (.inl rfl)⟩
      rw [serves_release] at hi'
      exact hi'.1 (ho.unique i k j hi'.2 hs)
    · refine ⟨p, h.frame (.release κ hi hv) (hskip hj) (by simp) fun i hs => ?_,
        .skip (hskip hj)⟩
      exact (serves_release.mp hs).2

/-! ## The loop -/

/-- The port after `k` iterations: a port whose channel is still to come has not changed, and any
other has made its step. -/
def PortLoop (inp : MemControllerIn C M AW DW) (j : Fin C) (k : ℕ) (p p' : Port M AW DW) : Prop :=
  (∃ i : Fin M, p.owner = some i ∧ k ≤ i ∧ p' = p) ∨
    PortStep inp j p p' ∧ (∀ i : Fin M, p.owner = some i → i < k) ∧
      ∀ i : Fin M, p'.owner = some i → i < k

/-- The loop over the channels, one channel further. -/
theorem PortLoop.micro {k : Fin M} {p p' p'' : Port M AW DW} (h : PortLoop inp j k p p')
    (hm : PortMicro inp j k p' p'') : PortLoop inp j (k + 1) p p'' := by
  rcases h with ⟨i, hi, hki, rfl⟩ | ⟨hstep, hlt, hlt'⟩
  · -- The port's channel is still to come: this iteration is either that of it, or of none.
    cases hm with
    | skip hk =>
      have hne : i ≠ k := fun he => hk (he ▸ hi)
      have hlt : (k : ℕ) < i := lt_of_le_of_ne hki fun he => hne (Fin.ext he.symm)
      exact .inl ⟨i, hi, hlt, rfl⟩
    | pick => cases hi
    | own hk hstep hk' =>
      refine .inr ⟨hstep, fun l hl => ?_, fun l hl => ?_⟩
      · cases hk.symm.trans hl
        exact Nat.lt_succ_self _
      · rcases hk' with rfl | hk'
        · cases hl
        · cases hk'.symm.trans hl
          exact Nat.lt_succ_self _
  · -- The port has made its step. Only a free port can be picked up after that.
    cases hm with
    | skip hk =>
      exact .inr ⟨hstep, fun l hl => (hlt l hl).trans (Nat.lt_succ_self _),
        fun l hl => (hlt' l hl).trans (Nat.lt_succ_self _)⟩
    | pick hr =>
      refine .inr ⟨?_, fun l hl => (hlt l hl).trans (Nat.lt_succ_self _), fun l hl => ?_⟩
      · -- The port was free when the edge began, or its channel has just released it.
        cases hstep with
        | idle => exact .pick hr
        | release hv => exact .repick hv hr
      · cases hl
        exact Nat.lt_succ_self _
    | own hk => exact absurd (hlt' k hk) (lt_irrefl _)

/-- An edge of the controller is a step of every port. -/
theorem portStep [NeZero C] (write_enable : Bool) (ho : Owned s) (hr : inp.reset = false)
    {p : Port M AW DW} (h : PortIs s j p) :
    ∃ p', PortIs (memControllerStep write_enable inp s) j p' ∧ PortStep inp j p p' := by
  rw [memControllerStep_eq hr]
  have hloop := Loop.foldl_induction (fun a i => channelStep write_enable inp a a i)
    (fun k a => Owned a ∧ ∃ p', PortIs a j p' ∧ PortLoop inp j k p p') s ⟨ho, p, h, ?_⟩ ?_
  · obtain ⟨-, p', hp', ⟨i, -, hi, -⟩ | ⟨hstep, -⟩⟩ := hloop
    · exact absurd i.isLt (not_lt.mpr hi)
    · exact ⟨p', hp', hstep⟩
  · cases p with
    | free => exact .inr ⟨.idle, fun _ hi => (nomatch hi), fun _ hi => (nomatch hi)⟩
    | waiting i r => exact .inl ⟨i, rfl, Nat.zero_le _, rfl⟩
    | relaying i κ word => exact .inl ⟨i, rfl, Nat.zero_le _, rfl⟩
  · rintro k a ⟨ha, p', hp', hl⟩
    have hc : ChannelCase inp a k (channelStep write_enable inp a a k) := ha.channelStep_spec k
    obtain ⟨p'', hp'', hm⟩ := hp'.micro ha hc
    exact ⟨ha.channelCase hc, p'', hp'', hl.micro hm⟩

end SmolGpu.MemController
