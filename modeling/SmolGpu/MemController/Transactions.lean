import SmolGpu.MemController.Port

/-!
# Exactly one transaction for each request

A request of a consumer is up from the edge at which its valid wire rises, and a transaction is an
edge at which a channel asks and memory is ready. `memController_exactly_once` follows one consumer
along a run. If it keeps its side of the handshake, each of its requests causes one transaction, of
that request, before the consumer is told that it is ready, and it is told memory's answer to it.

Nothing is asked of the other consumers or of memory. Nor is it asked that the consumer lower its
valid wire after it has seen its ready wire, and keep it low until that is low again: the controller
drops the request at the first edge at which the wire is low.
-/

namespace SmolGpu

namespace MemController

variable {C M AW DW : ℕ}

/-- Channel `i` makes the transaction `r` for consumer `j` at edge `n`. -/
def Transaction (inp : ℕ → MemControllerIn C M AW DW) (σ : ℕ → MemController C M AW DW)
    (j : Fin C) (n : ℕ) (i : Fin M) : Request AW DW → Prop
  | .read address => (σ n).current_consumer i = j ∧ (σ n).mem_read_valid i = true ∧
      (inp n).mem_read_ready i = true ∧ (σ n).mem_read_address i = address
  | .write address data => (σ n).current_consumer i = j ∧ (σ n).mem_write_valid i = true ∧
      (inp n).mem_write_ready i = true ∧ (σ n).mem_write_address i = address ∧
      (σ n).mem_write_data i = data

/-- Consumer `j` keeps its request of kind `κ` up from edge `m` to edge `n`. -/
def Up (inp : ℕ → MemControllerIn C M AW DW) (κ : Kind) (j : Fin C) (m n : ℕ) : Prop :=
  ∀ k, m ≤ k → k ≤ n → valid (inp k) κ j = true

/-- Consumer `j` raises a request of kind `κ` at edge `m`. -/
def Raised (inp : ℕ → MemControllerIn C M AW DW) (κ : Kind) (j : Fin C) (m : ℕ) : Prop :=
  valid (inp m) κ j = true ∧ ∀ k, m = k + 1 → valid (inp k) κ j = false

/-- Consumer `j` keeps its side of the handshake. -/
structure Handshake (inp : ℕ → MemControllerIn C M AW DW) (σ : ℕ → MemController C M AW DW)
    (j : Fin C) : Prop where
  /-- It does not read and write at once. -/
  one_kind : ∀ n, ¬(valid (inp n) .read j = true ∧ valid (inp n) .write j = true)
  /-- It holds its request, with address and data, until it sees that it is ready. -/
  hold : ∀ κ n, valid (inp n) κ j = true → ready (σ n) κ j = false →
    ready (σ (n + 1)) κ j = false → valid (inp (n + 1)) κ j = true ∧
      requestOf (inp (n + 1)) κ j = requestOf (inp n) κ j

/-- What the controller guarantees consumer `j` along a run. -/
structure ExactlyOnce (inp : ℕ → MemControllerIn C M AW DW) (σ : ℕ → MemController C M AW DW)
    (j : Fin C) : Prop where
  /-- A transaction is of a request that the consumer presents. -/
  requested : ∀ n i r, Transaction inp σ j n i r → Presents (inp n) j r
  /-- One request causes at most one transaction. -/
  once : ∀ κ m n, Up inp κ j m n → ∀ k k' i i' r r', m ≤ k → k ≤ n → m ≤ k' → k' ≤ n →
    Transaction inp σ j k i r → Transaction inp σ j k' i' r' → k = k' ∧ i = i' ∧ r = r'
  /-- When the consumer sees its ready wire, the request that it raised last has caused exactly one
  transaction, which was of that request, and it sees the word that this one returned. -/
  answered : ∀ κ n, ready (σ n) κ j = true → ∃ m k i r, Raised inp κ j m ∧ m ≤ k ∧ k < n ∧
    Up inp κ j m k ∧ (valid (inp n) κ j = true → Up inp κ j m n) ∧ r.kind = κ ∧
    Presents (inp m) j r ∧ Transaction inp σ j k i r ∧
    (∀ k' i' r', m ≤ k' → k' < n → Transaction inp σ j k' i' r' → k' = k ∧ i' = i ∧ r' = r) ∧
    (κ = .read → (σ n).consumer_read_data j = (inp k).mem_read_data i)

/-! ## Requests -/

section Requests

variable {inp : MemControllerIn C M AW DW} {j : Fin C} {r : Request AW DW} {κ : Kind}

/-- To present a request is to hold its `valid` up with its address and data. -/
theorem presents_iff : Presents inp j r ↔
    valid inp r.kind j = true ∧ requestOf inp r.kind j = r := by
  cases r with
  | read address => simp [Presents, valid, requestOf, Request.kind]
  | write address data => simp [Presents, valid, requestOf, Request.kind]

/-- The request of a kind is of the kind. -/
@[simp] theorem requestOf_kind : (requestOf inp κ j : Request AW DW).kind = κ := by
  cases κ <;> rfl

end Requests

section Trace

variable {inp : ℕ → MemControllerIn C M AW DW} {σ : ℕ → MemController C M AW DW} {j : Fin C}
  {κ : Kind}

/-- A request that is up was raised. -/
theorem exists_raised {n : ℕ} (h : valid (inp n) κ j = true) :
    ∃ m ≤ n, Raised inp κ j m ∧ Up inp κ j m n := by
  induction n with
  | zero =>
    refine ⟨0, le_rfl, ⟨h, fun k hk => by omega⟩, fun k _ hk => ?_⟩
    obtain rfl : k = 0 := by omega
    exact h
  | succ n ih =>
    rcases hv : valid (inp n) κ j with _ | _
    · refine ⟨n + 1, le_rfl, ⟨h, fun k hk => ?_⟩, fun k hk hk' => ?_⟩
      · obtain rfl : n = k := by omega
        exact hv
      · obtain rfl : k = n + 1 := by omega
        exact h
    · obtain ⟨m, hm, hraised, hup⟩ := ih hv
      refine ⟨m, by omega, hraised, fun k hk hk' => ?_⟩
      rcases Nat.lt_or_ge n k with hlt | hge
      · obtain rfl : k = n + 1 := by omega
        exact h
      · exact hup k hk hge

/-- A request that is held up is up an edge longer. -/
theorem Up.succ {m n : ℕ} (h : Up inp κ j m n) (hv : valid (inp (n + 1)) κ j = true) :
    Up inp κ j m (n + 1) := by
  intro k hk hk'
  rcases Nat.lt_or_ge n k with hlt | hge
  · obtain rfl : k = n + 1 := by omega
    exact hv
  · exact h k hk hge

/-- The request that is up at `n` was raised no later than any edge since which it has been up. -/
theorem Raised.le_of_up {m m' n : ℕ} (h : Raised inp κ j m) (hmn : m ≤ n)
    (hup : Up inp κ j m' n) : m ≤ m' := by
  by_contra hlt
  have hlow := h.2 (m - 1) (by omega)
  have hhigh := hup (m - 1) (by omega) (by omega)
  exact Bool.false_ne_true (hlow.symm.trans hhigh)

/-- A consumer that reads does not write, and the other way around. -/
theorem Handshake.kind_eq (h : Handshake inp σ j) {κ' : Kind} {n : ℕ}
    (hv : valid (inp n) κ j = true) (hv' : valid (inp n) κ' j = true) : κ = κ' := by
  have hone := h.one_kind n
  cases κ <;> cases κ'
  · rfl
  · exact absurd ⟨hv, hv'⟩ hone
  · exact absurd ⟨hv', hv⟩ hone
  · rfl

/-! ## The port and the transactions -/

/-- A transaction of the consumer is an edge at which its port waits and memory is ready. -/
theorem transaction_iff {n : ℕ} (ho : Owned (σ n)) {p : Port M AW DW} (hp : PortIs (σ n) j p)
    {i : Fin M} {r : Request AW DW} :
    Transaction inp σ j n i r ↔ p = .waiting i r ∧ memReady (inp n) r.kind i = true := by
  constructor
  · intro ht
    -- The channel of the transaction serves the consumer, so it is the one that the port names.
    have howner {κ : Kind} (hij : (σ n).current_consumer i = j)
        (hcode : (σ n).controller_state i = (ChannelState.waiting κ).code) :
        ∃ r', p = .waiting i r' ∧ r'.kind = κ :=
      hp.waiting_of_code (hp.owner_of_serves ho (.of_code hcode (by simp) hij)) hcode
    cases r with
    | read address =>
      obtain ⟨hij, hv, hr, haddr⟩ := ht
      obtain ⟨r', rfl, hκ⟩ := howner hij ((ho.memValid .read i).mp hv)
      cases r' with
      | read address' => exact ⟨by rw [← haddr, hp.2.2], hr⟩
      | write => cases hκ
    | write address data =>
      obtain ⟨hij, hv, hr, haddr, hdata⟩ := ht
      obtain ⟨r', rfl, hκ⟩ := howner hij ((ho.memValid .write i).mp hv)
      cases r' with
      | read => cases hκ
      | write address' data' => exact ⟨by rw [← haddr, ← hdata, hp.2.2.1, hp.2.2.2], hr⟩
  · rintro ⟨rfl, hr⟩
    obtain ⟨hij, hasks⟩ := hp
    cases r with
    | read address => exact ⟨hij, (ho.memValid .read i).mpr hasks.1, hr, hasks.2⟩
    | write address data => exact ⟨hij, (ho.memValid .write i).mpr hasks.1, hr, hasks.2⟩

/-- A consumer sees `ready` exactly while its channel relays an answer of the kind. -/
theorem ready_iff {n : ℕ} (ho : Owned (σ n)) {p : Port M AW DW} (hp : PortIs (σ n) j p) :
    ready (σ n) κ j = true ↔ ∃ i word, p = .relaying i κ word := by
  rw [ho.ready]
  constructor
  · rintro ⟨i, hi, hij⟩
    obtain ⟨word, rfl⟩ := hp.relaying_of_code
      (hp.owner_of_serves ho (.of_code hi (by simp) hij)) hi
    exact ⟨i, word, rfl⟩
  · rintro ⟨i, word, rfl⟩
    exact ⟨i, hp.2.1, hp.1⟩

/-- A port that does not relay answers of kind `κ` has its wire of that kind low. -/
theorem ready_eq_false {n : ℕ} (ho : Owned (σ n)) {p : Port M AW DW} (hp : PortIs (σ n) j p)
    (hne : ∀ i word, p ≠ .relaying i κ word) : ready (σ n) κ j = false := by
  by_contra hr
  obtain ⟨i, word, hw⟩ := (ready_iff ho hp).mp (by simpa using hr)
  exact hne i word hw

/-! ## The run -/

/-- The request of kind `κ` that is up at edge `n`, if there is one, has caused no transaction. -/
def Fresh (inp : ℕ → MemControllerIn C M AW DW) (σ : ℕ → MemController C M AW DW) (j : Fin C)
    (κ : Kind) (n : ℕ) : Prop :=
  ∀ m, Raised inp κ j m → m ≤ n → Up inp κ j m n →
    (∀ k i r, m ≤ k → k < n → ¬Transaction inp σ j k i r) ∧
      requestOf (inp n) κ j = requestOf (inp m) κ j

/-- The request of kind `κ` that was raised last has caused one transaction, which returned
`word`. -/
def Answered (inp : ℕ → MemControllerIn C M AW DW) (σ : ℕ → MemController C M AW DW) (j : Fin C)
    (κ : Kind) (word : BitVec DW) (n : ℕ) : Prop :=
  ∃ m k i r, Raised inp κ j m ∧ m ≤ k ∧ k < n ∧ Up inp κ j m k ∧
    (valid (inp n) κ j = true → Up inp κ j m n) ∧ r.kind = κ ∧ Presents (inp m) j r ∧
    Transaction inp σ j k i r ∧
    (∀ k' i' r', m ≤ k' → k' < n → Transaction inp σ j k' i' r' → k' = k ∧ i' = i ∧ r' = r) ∧
    (κ = .read → word = (inp k).mem_read_data i)

/-- The state of a port, in terms of the requests and transactions so far. -/
structure PortHistory (inp : ℕ → MemControllerIn C M AW DW) (σ : ℕ → MemController C M AW DW)
    (j : Fin C) (n : ℕ) (p : Port M AW DW) : Prop where
  /-- A request that has not been answered has had no transaction. -/
  fresh : ∀ κ, ready (σ n) κ j = false → Fresh inp σ j κ n
  /-- A channel that waits does so for the request that is up. -/
  asked : ∀ i r, p = .waiting i r → Presents (inp n) j r
  /-- An answer that is relayed is that of the one transaction. -/
  answered : ∀ i κ word, p = .relaying i κ word → Answered inp σ j κ word n

/-- A controller that runs without reset. -/
structure IsRun [NeZero C] (write_enable : Bool) (inp : ℕ → MemControllerIn C M AW DW)
    (σ : ℕ → MemController C M AW DW) : Prop where
  /-- The ownership holds in every state. -/
  owned : ∀ n, Owned (σ n)
  /-- There is no reset. -/
  reset : ∀ n, (inp n).reset = false
  /-- Each state follows from the one before. -/
  step : ∀ n, σ (n + 1) = memControllerStep write_enable (inp n) (σ n)

variable [NeZero C] {write_enable : Bool}

/-- Each edge of the run is a step of the port. -/
theorem IsRun.port (h : IsRun write_enable inp σ) {n : ℕ} {p : Port M AW DW}
    (hp : PortIs (σ n) j p) : ∃ p', PortIs (σ (n + 1)) j p' ∧ PortStep (inp n) j p p' := by
  rw [h.step]
  exact portStep _ (h.owned n) (h.reset n) hp

/-- A request that is not answered by an edge at which it is up stays up, and there is no
transaction at the edge. -/
theorem IsRun.fresh_succ (h : IsRun write_enable inp σ) (hh : Handshake inp σ j) {n : ℕ}
    {p p' : Port M AW DW} (hp : PortIs (σ n) j p) (hp' : PortIs (σ (n + 1)) j p')
    (hstep : PortStep (inp n) j p p') (hist : PortHistory inp σ j n p)
    (hr' : ready (σ (n + 1)) κ j = false) : Fresh inp σ j κ (n + 1) := by
  intro m hraised hm hup
  rcases Nat.lt_or_ge n m with hlt | hge
  · obtain rfl : m = n + 1 := by omega
    exact ⟨fun k i r hk hk' => by omega, rfl⟩
  · have hv : valid (inp n) κ j = true := hup n hge (by omega)
    have hr : ready (σ n) κ j = false := by
      -- A port that relays to a request that is still up does so after the edge as well.
      by_contra hr
      obtain ⟨i, word, rfl⟩ := (ready_iff (h.owned n) hp).mp (by simpa using hr)
      cases hstep with
      | hold =>
        exact absurd ((ready_iff (h.owned _) hp').mpr ⟨i, word, rfl⟩) (by simp [hr'])
      | release hlow => exact Bool.false_ne_true (hlow.symm.trans hv)
      | repick hlow => exact Bool.false_ne_true (hlow.symm.trans hv)
    obtain ⟨hnone, hsame⟩ := hist.fresh κ hr m hraised hge fun k hk hk' => hup k hk (by omega)
    refine ⟨fun k i r hk hk' ht => ?_, (hh.hold κ n hv hr hr').2.trans hsame⟩
    rcases Nat.lt_or_ge k n with hlt | hge'
    · exact hnone k i r hk hlt ht
    · -- A transaction at this edge answers the request, against what is known after the edge.
      obtain rfl : k = n := by omega
      obtain ⟨rfl, hmem⟩ := (transaction_iff (h.owned k) hp).mp ht
      obtain rfl : r.kind = κ :=
        hh.kind_eq (presents_iff.mp (hist.asked i r rfl)).1 hv
      cases hstep with
      | wait hlow => exact Bool.false_ne_true (hlow.symm.trans hmem)
      | answer => exact absurd ((ready_iff (h.owned _) hp').mpr ⟨i, _, rfl⟩) (by simp [hr'])

/-- A channel waits for the request that its consumer holds up. -/
theorem IsRun.asked_succ (h : IsRun write_enable inp σ) (hh : Handshake inp σ j) {n : ℕ}
    {p : Port M AW DW} {i : Fin M} {r : Request AW DW} (hp : PortIs (σ n) j p)
    (hp' : PortIs (σ (n + 1)) j (.waiting i r)) (hstep : PortStep (inp n) j p (.waiting i r))
    (hist : PortHistory inp σ j n p) : Presents (inp (n + 1)) j r := by
  have hr' : ready (σ (n + 1)) r.kind j = false := ready_eq_false (h.owned _) hp' (by simp)
  have hpres : Presents (inp n) j r ∧ ready (σ n) r.kind j = false := by
    cases hstep with
    | pick hpres => exact ⟨hpres, ready_eq_false (h.owned n) hp (by simp)⟩
    | wait => exact ⟨hist.asked i r rfl, ready_eq_false (h.owned n) hp (by simp)⟩
    | repick hlow hpres =>
      -- The consumer has withdrawn the request that was answered, so this one is of another kind.
      refine ⟨hpres, ready_eq_false (h.owned n) hp fun i' word hw => ?_⟩
      cases hw
      exact Bool.false_ne_true (hlow.symm.trans (presents_iff.mp hpres).1)
  obtain ⟨hv, hreq⟩ := presents_iff.mp hpres.1
  obtain ⟨hv', hsame⟩ := hh.hold r.kind n hv hpres.2 hr'
  exact presents_iff.mpr ⟨hv', hsame.trans hreq⟩

/-- When an answer is relayed, it is that of the one transaction since the request was raised. -/
theorem IsRun.answered_succ (h : IsRun write_enable inp σ) {n : ℕ} {p : Port M AW DW} {i : Fin M}
    {word : BitVec DW} (hp : PortIs (σ n) j p)
    (hstep : PortStep (inp n) j p (.relaying i κ word)) (hist : PortHistory inp σ j n p) :
    Answered inp σ j κ word (n + 1) := by
  cases hstep with
  | @answer _ r hmem =>
    obtain ⟨hv, hreq⟩ := presents_iff.mp (hist.asked i r rfl)
    have hr : ready (σ n) r.kind j = false := ready_eq_false (h.owned n) hp (by simp)
    -- The transaction of this edge is the first since the request was raised.
    obtain ⟨m, hm, hraised, hup⟩ := exists_raised hv
    obtain ⟨hnone, hsame⟩ := hist.fresh r.kind hr m hraised hm hup
    refine ⟨m, n, i, r, hraised, hm, by omega, hup, hup.succ, rfl,
      presents_iff.mpr ⟨hup m le_rfl hm, hsame.symm.trans hreq⟩,
      (transaction_iff (h.owned n) hp).mpr ⟨rfl, hmem⟩, fun k' i' r' hk hk' ht => ?_, fun _ => rfl⟩
    rcases Nat.lt_or_ge k' n with hlt | hge
    · exact absurd ht (hnone k' i' r' hk hlt)
    · obtain rfl : k' = n := by omega
      obtain ⟨heq, -⟩ := (transaction_iff (h.owned k') hp).mp ht
      cases heq
      exact ⟨rfl, rfl, rfl⟩
  | hold hv =>
    obtain ⟨m, k, i', r, hraised, hmk, hkn, hup, hstill, hκ, hpres, ht, huniq, hword⟩ :=
      hist.answered i κ word rfl
    refine ⟨m, k, i', r, hraised, hmk, by omega, hup, (hstill hv).succ, hκ, hpres, ht,
      fun k' i'' r' hk hk' ht' => ?_, hword⟩
    rcases Nat.lt_or_ge k' n with hlt | hge
    · exact huniq k' i'' r' hk hlt ht'
    · -- A port that relays makes no transaction.
      obtain rfl : k' = n := by omega
      obtain ⟨heq, -⟩ := (transaction_iff (h.owned k') hp).mp ht'
      cases heq

/-- The history of a port is kept along the run. -/
theorem IsRun.history (h : IsRun write_enable inp σ) (hh : Handshake inp σ j)
    (h0 : PortIs (σ 0) j .free) (n : ℕ) :
    ∃ p, PortIs (σ n) j p ∧ PortHistory inp σ j n p := by
  induction n with
  | zero =>
    refine ⟨.free, h0, ?_, fun _ _ hw => (nomatch hw), fun _ _ _ hw => (nomatch hw)⟩
    intro κ _ m _ hm _
    obtain rfl : m = 0 := by omega
    exact ⟨fun k _ _ hk hk' => by omega, rfl⟩
  | succ n ih =>
    obtain ⟨p, hp, hist⟩ := ih
    obtain ⟨p', hp', hstep⟩ := h.port hp
    refine ⟨p', hp', fun κ hr' => h.fresh_succ hh hp hp' hstep hist hr', ?_, ?_⟩
    · rintro i r rfl
      exact h.asked_succ hh hp hp' hstep hist
    · rintro i κ word rfl
      exact h.answered_succ hp hstep hist

/-- There is no second transaction while a request stays up. -/
theorem IsRun.no_second (h : IsRun write_enable inp σ) (hh : Handshake inp σ j)
    (h0 : PortIs (σ 0) j .free) {m n k k' : ℕ} {i i' : Fin M} {r r' : Request AW DW}
    (hup : Up inp κ j m n) (hmk : m ≤ k) (hkk : k < k') (hkn : k' ≤ n)
    (ht : Transaction inp σ j k i r) : ¬Transaction inp σ j k' i' r' := by
  intro ht'
  obtain ⟨p, hp, hist⟩ := h.history hh h0 k'
  obtain ⟨rfl, -⟩ := (transaction_iff (h.owned k') hp).mp ht'
  have hv : valid (inp k') κ j = true := hup k' (by omega) hkn
  have hr : ready (σ k') κ j = false := ready_eq_false (h.owned k') hp (by simp)
  obtain ⟨m', hm', hraised, hup'⟩ := exists_raised hv
  have hle : m' ≤ m := hraised.le_of_up hm' fun l hl hl' => hup l hl (by omega)
  exact (hist.fresh κ hr m' hraised hm' hup').1 k i r (by omega) hkk ht

end Trace

/-- The inputs of an example run: consumer 0 reads address 5 and withdraws its request when it has
seen that it is ready, and memory answers the read with 7 as soon as it is asked. -/
def oneRead (n : ℕ) : MemControllerIn 2 1 8 8 where
  reset := false
  consumer_read_valid := fun j => decide (j = 0 ∧ n ≤ 2)
  consumer_read_address := fun _ => 5
  consumer_write_valid := fun _ => false
  consumer_write_address := fun _ => 0
  consumer_write_data := fun _ => 0
  mem_read_ready := fun _ => decide (n = 1)
  mem_read_data := fun _ => 7
  mem_write_ready := fun _ => false

/-- The consumer of the run keeps the handshake. -/
theorem oneRead_handshake : Handshake oneRead
    (Clocked.run (memControllerStep true) oneRead (memControllerStep true (twoReads true)
      resetState)) 0 := by
  refine ⟨fun n h => Bool.false_ne_true h.2, fun κ n hv hr _ => ?_⟩
  cases κ with
  | read =>
    have hn : n ≤ 2 := by simpa [valid, oneRead] using hv
    have hn' : n ≠ 2 := by
      rintro rfl
      exact absurd hr (by decide)
    exact ⟨by simp [valid, oneRead]; omega, rfl⟩
  | write => exact absurd hv (by simp [valid, oneRead])

end MemController

open MemController in
/-- A consumer that keeps its side of the handshake, on a controller with any other consumers and
any memory: each of its requests causes exactly one transaction before it is answered. -/
theorem memController_exactly_once {C M AW DW : ℕ} [NeZero C] (write_enable : Bool)
    {s₀ : MemController C M AW DW} (h₀ : AfterReset write_enable s₀)
    {inp : ℕ → MemControllerIn C M AW DW} (hreset : ∀ n, (inp n).reset = false) {j : Fin C}
    (hh : Handshake inp (Clocked.run (memControllerStep write_enable) inp s₀) j) :
    ExactlyOnce inp (Clocked.run (memControllerStep write_enable) inp s₀) j := by
  set σ := Clocked.run (memControllerStep write_enable) inp s₀ with hσ
  have hrun : IsRun write_enable inp σ :=
    ⟨fun n => Owned.of_reachable (Clocked.Reachable.run (.init h₀) inp n), hreset, fun n => rfl⟩
  -- After the reset the consumer has no channel, and from there its port has a history.
  have h0 : PortIs (σ 0) j .free := by
    obtain ⟨inp₀, s, hr, hs⟩ := h₀
    have hs₀ : σ 0 = resetState := by
      rw [hσ, Clocked.run_zero, hs, memControllerStep, if_pos hr]
    exact fun i hi => hi.1 (by rw [hs₀]; rfl)
  constructor
  · -- A transaction is of the request that the consumer presents.
    intro n i r ht
    obtain ⟨p, hp, hist⟩ := hrun.history hh h0 n
    exact hist.asked i r ((transaction_iff (hrun.owned n) hp).mp ht).1
  · -- While one request is up there is no second transaction.
    intro κ m n hup k k' i i' r r' hmk hkn hmk' hkn' ht ht'
    rcases lt_trichotomy k k' with hlt | rfl | hlt
    · exact absurd ht' (hrun.no_second hh h0 hup hmk hlt hkn' ht)
    · obtain ⟨p, hp, -⟩ := hrun.history hh h0 k
      obtain ⟨rfl, -⟩ := (transaction_iff (hrun.owned k) hp).mp ht
      obtain ⟨heq, -⟩ := (transaction_iff (hrun.owned k) hp).mp ht'
      cases heq
      exact ⟨rfl, rfl, rfl⟩
    · exact absurd ht (hrun.no_second hh h0 hup hmk' hlt hkn ht')
  · -- An answer is that of the one transaction since the request was raised.
    intro κ n hr
    obtain ⟨p, hp, hist⟩ := hrun.history hh h0 n
    obtain ⟨i, word, rfl⟩ := (ready_iff (hrun.owned n) hp).mp hr
    obtain ⟨m, k, i', r, hraised, hmk, hkn, hup, hstill, hκ, hpres, ht, huniq, hword⟩ :=
      hist.answered i κ word rfl
    exact ⟨m, k, i', r, hraised, hmk, hkn, hup, hstill, hκ, hpres, ht, huniq,
      fun hread => (hp.2.2 hread).trans (hword hread)⟩

open MemController in
/-- One of two consumers that read at once gets its word once. -/
theorem memController_exactly_once_read : ExactlyOnce oneRead (Clocked.run
    (memControllerStep true) oneRead (memControllerStep true (twoReads true) resetState)) 0 :=
  memController_exactly_once true ⟨twoReads true, resetState, rfl, rfl⟩ (fun _ => rfl)
    oneRead_handshake

end SmolGpu
