import SmolGpu.Gpu.Lane

/-!
# Loads and stores, end to end

A load or store of a lane is an `Access` of its LSU: it begins at the edge at which the idle unit
leaves `LSU_IDLE`, and lasts until the unit is back there. `gpu_exactly_once` follows a lane through
any run of the GPU. Each access causes one transaction with memory, of the address and data that the
lane has latched for the instruction, before the unit is done; the unit never takes an answer to an
earlier access for its own.

Nothing is asked of memory: a ready wire that is up while no channel asks does no harm.
-/

namespace SmolGpu

namespace Gpu

open MemController (Kind Request PortIs Owned)

variable {N W T M : ℕ}

/-- The LSU of a lane. -/
def laneLsu (s : Gpu N W T M) (i : Fin N) (l : Fin (T + 1)) : Lsu := (s.cluster.core i).lsu l

/-- The LSU of lane `l` of core `i` leaves `LSU_IDLE` at edge `m`, and is not back there at `n`. -/
structure Access (σ : ℕ → Gpu N W T M) (i : Fin N) (l : Fin (T + 1)) (m n : ℕ) : Prop where
  /-- The access has begun. -/
  lt : m < n
  /-- The LSU was idle when it began. -/
  idle : ((σ m).laneLsu i l).lsu_state = .idle
  /-- The LSU has not been idle since. -/
  busy : ∀ k, m < k → k ≤ n → ((σ k).laneLsu i l).lsu_state ≠ .idle

/-- What the access that begins at edge `m` asks of memory: `rs1 + imm`, and `rs2` if it is a store,
as the edge has latched them. -/
def asked (σ : ℕ → Gpu N W T M) (i : Fin N) (l : Fin (T + 1)) (m : ℕ) : Request 32 32 :=
  ((σ (m + 1)).cluster.core i).memRequest l

/-- Channel `k` makes the transaction `r` for lane `l` of core `i` at edge `n`. -/
def Transaction (inp : ℕ → GpuIn N W M) (σ : ℕ → Gpu N W T M) (i : Fin N) (l : Fin (T + 1))
    (n : ℕ) (k : Fin M) (r : Request 32 32) : Prop :=
  MemController.Transaction (fun n => controllerIn (inp n) (σ n))
    (fun n => (σ n).data_memory_controller) (lsuIndex i l) n k r

/-- Between the edges `m` and `n` there is one transaction, `r`, and it returned `word`. -/
def Once (inp : ℕ → GpuIn N W M) (σ : ℕ → Gpu N W T M) (i : Fin N) (l : Fin (T + 1)) (m n : ℕ)
    (r : Request 32 32) (word : DataT) : Prop :=
  ∃ e k, m < e ∧ e < n ∧ Transaction inp σ i l e k r ∧
    (∀ e' k' r', m < e' → e' < n → Transaction inp σ i l e' k' r' → e' = e ∧ k' = k ∧ r' = r) ∧
    (r.kind = .read → word = (inp e).data_mem_read_data k)

/-- What a lane of the GPU does along a run. -/
structure LaneExactlyOnce (inp : ℕ → GpuIn N W M) (σ : ℕ → Gpu N W T M) (i : Fin N)
    (l : Fin (T + 1)) : Prop where
  /-- An access begins when the current warp requests a load or store and the lane is enabled. -/
  begins : ∀ m, Access σ i l m (m + 1) ↔
    ((σ m).cluster.core i).current_warp_state = .request ∧
      ((σ m).cluster.core i).laneActive l = true
  /-- A transaction is of the access that waits for it. -/
  requested : ∀ n k r, Transaction inp σ i l n k r → ∃ m, Access σ i l m n ∧
    ((σ n).laneLsu i l).lsu_state = .waiting ∧ r = asked σ i l m
  /-- An access causes at most one transaction. -/
  once : ∀ m n, Access σ i l m n → ∀ e e' k k' r r', m < e → e ≤ n → m < e' → e' ≤ n →
    Transaction inp σ i l e k r → Transaction inp σ i l e' k' r' → e = e' ∧ k = k' ∧ r = r'
  /-- When the LSU is done its access has caused one, and the LSU has the word that was read. -/
  done : ∀ m n, Access σ i l m n → ((σ n).laneLsu i l).lsu_state = .done →
    Once inp σ i l m n (asked σ i l m) ((σ n).laneLsu i l).lsu_out
  /-- When the LSU waits and sees a ready wire, it is that of the transaction of its access. -/
  ready : ∀ m n κ, Access σ i l m n → ((σ n).laneLsu i l).lsu_state = .waiting →
    (σ n).laneReady κ i l = true → (asked σ i l m).kind = κ ∧
      Once inp σ i l m n (asked σ i l m) ((σ n).core_lsu_read_data i l)

/-! ## One transaction -/

section Once

variable {inp : ℕ → GpuIn N W M} {σ : ℕ → Gpu N W T M} {i : Fin N} {l : Fin (T + 1)} {m n : ℕ}
  {r : Request 32 32} {word : DataT}

/-- One transaction stays the only one over an edge without another. -/
theorem Once.succ (h : Once inp σ i l m n r word) (hn : ∀ k r, ¬Transaction inp σ i l n k r) :
    Once inp σ i l m (n + 1) r word := by
  obtain ⟨e, k, hme, hen, ht, huniq, hword⟩ := h
  refine ⟨e, k, hme, by omega, ht, fun e' k' r' hme' hen' ht' => ?_, hword⟩
  rcases Nat.lt_or_ge e' n with hlt | hge
  · exact huniq e' k' r' hme' hlt ht'
  · obtain rfl : e' = n := by omega
    exact absurd ht' (hn k' r')

/-- Only the word of a read matters. -/
theorem Once.congr {word' : DataT} (h : Once inp σ i l m n r word)
    (hw : r.kind = .read → word' = word) : Once inp σ i l m n r word' := by
  obtain ⟨e, k, hme, hen, ht, huniq, hword⟩ := h
  exact ⟨e, k, hme, hen, ht, huniq, fun hr => (hw hr).trans (hword hr)⟩

/-- An access that has begun earlier was under way an edge before. -/
theorem Access.of_succ (h : Access σ i l m (n + 1)) (hne : m ≠ n) : Access σ i l m n :=
  ⟨by have := h.lt; omega, h.idle, fun k hk hkn => h.busy k hk (by omega)⟩

/-- An access was under way at every edge since it began. -/
theorem Access.le (h : Access σ i l m n) {e : ℕ} (hme : m < e) (hen : e ≤ n) :
    Access σ i l m e :=
  ⟨hme, h.idle, fun k hk hke => h.busy k hk (by omega)⟩

end Once

/-! ## The run -/

section Run

variable [NeZero N] [NeZero W] {life : Lifetime} {inp : ℕ → GpuIn N W M} {σ : ℕ → Gpu N W T M}
  {i : Fin N} {l : Fin (T + 1)} {m n : ℕ} {p p' : LanePhase M}

/-- A GPU that runs from a settled state without reset. -/
structure IsRun (life : Lifetime) (inp : ℕ → GpuIn N W M) (σ : ℕ → Gpu N W T M) : Prop where
  /-- Nothing is under way at the beginning. -/
  settled : Settled (σ 0)
  /-- There is no reset. -/
  reset : ∀ n, (inp n).reset = false
  /-- Each state follows from the one before. -/
  step : ∀ n, σ (n + 1) = gpuStep life (inp n) (σ n)

/-- The guard holds along a run. -/
theorem IsRun.guarded (h : IsRun life inp σ) (n : ℕ) : Guarded (σ n).cluster := by
  induction n with
  | zero => exact h.settled.guarded
  | succ n ih =>
    rw [h.step]
    exact Guarded.step ih (h.reset n)

/-- The controller's ownership holds along a run. -/
theorem IsRun.owned (h : IsRun life inp σ) (n : ℕ) : Owned (σ n).data_memory_controller := by
  induction n with
  | zero =>
    rw [h.settled.controller]
    exact .reset
  | succ n ih =>
    rw [h.step]
    exact ih.step

/-- The move of a lane's LSU at an edge of the run. -/
theorem IsRun.lsuEdge (h : IsRun life inp σ) (n : ℕ) (i : Fin N) (l : Fin (T + 1)) :
    ComputeCore.LsuEdge (Cluster.coreIn (clusterIn (inp n) (σ n)) (σ n).cluster i)
      ((σ n).cluster.core i) l ((σ (n + 1)).laneLsu i l) := by
  have hg := h.guarded n
  rw [h.step]
  exact ComputeCore.lsu_edge (hg.core i) fun hri => ⟨(hg.reset i hri).1 l, (hg.reset i hri).2⟩

omit [NeZero N] [NeZero W] in
/-- A transaction of the lane is an edge at which its request is with memory, and memory answers. -/
theorem LaneIs.transaction_iff (hp : LaneIs (σ n) i l p)
    (ho : Owned (σ n).data_memory_controller) {k : Fin M} {r : Request 32 32} :
    Transaction inp σ i l n k r ↔ p = .asking k r ∧ (inp n).memReady r.kind k = true := by
  have hmem : MemController.memReady (controllerIn (inp n) (σ n)) r.kind k =
      (inp n).memReady r.kind k := by
    cases r.kind <;> rfl
  unfold Transaction
  rw [MemController.transaction_iff ho hp.port, hmem]
  refine and_congr_left fun _ => ?_
  cases p <;> simp [LanePhase.port]

/-- How far the access that began at edge `m` has come at `n`, by the phase of the lane. -/
def Progress (inp : ℕ → GpuIn N W M) (σ : ℕ → Gpu N W T M) (i : Fin N) (l : Fin (T + 1))
    (m n : ℕ) : LanePhase M → Prop
  | .quiet => (((σ n).laneLsu i l).lsu_state = .requesting → n = m + 1) ∧
      (((σ n).laneLsu i l).lsu_state = .done →
        Once inp σ i l m n (asked σ i l m) ((σ n).laneLsu i l).lsu_out)
  | .raised r | .presented r | .asking _ r => r = asked σ i l m ∧
      ∀ e k r, m < e → e < n → ¬Transaction inp σ i l e k r
  | .answered _ r word | .told _ r word => r = asked σ i l m ∧ Once inp σ i l m n r word
  | .accepted _ _ _ | .lowered _ _ _ | .released _ _ =>
      Once inp σ i l m n (asked σ i l m) ((σ n).laneLsu i l).lsu_out

/-- At the edge at which an access begins the unit moves on to `LSU_REQUESTING`. -/
theorem Progress.begin (h : IsRun life inp σ) (hp' : LaneIs (σ (m + 1)) i l p')
    (ha : Access σ i l m (m + 1)) : Progress inp σ i l m (m + 1) p' := by
  have hbusy := ha.busy (m + 1) (by omega) le_rfl
  have hs : ((σ (m + 1)).laneLsu i l).lsu_state = .requesting := by
    cases h.lsuEdge m i l with
    | idle _ _ hs => exact absurd hs hbusy
    | begins _ _ _ hs => exact hs
    | raise hs | wait _ hs | accept _ hs | hold hs | finish hs =>
      exact absurd (ha.idle.symm.trans hs) (by decide)
  have hstate := hp'.state
  rw [show ((σ (m + 1)).cluster.core i).lsu l = (σ (m + 1)).laneLsu i l from rfl, hs] at hstate
  -- A unit that is requesting shows nothing, so its lane is quiet.
  cases p' with
  | quiet => exact ⟨fun _ => rfl, fun hd => absurd (hs.symm.trans hd) (by decide)⟩
  | raised | presented | asking | answered | told =>
    exact absurd (show LsuState.requesting = .waiting from hstate) (by decide)
  | accepted | lowered | released => exact absurd hstate.1 (by decide)

/-- A unit that is done and has not been released keeps its result. -/
theorem IsRun.lsu_of_done (h : IsRun life inp σ) (ha : Access σ i l m (n + 1))
    (hs : ((σ n).laneLsu i l).lsu_state = .done) :
    (σ (n + 1)).laneLsu i l = (σ n).laneLsu i l := by
  have hbusy := ha.busy (n + 1) ha.lt le_rfl
  cases h.lsuEdge n i l with
  | hold _ _ hsame => exact hsame
  | finish _ _ hs' => exact absurd hs' hbusy
  | idle hs' | begins hs' | raise hs' | wait _ hs' | accept _ hs' =>
    exact absurd (hs.symm.trans hs') (by decide)

/-- An edge takes the access on. -/
theorem Progress.step (h : IsRun life inp σ) (hp : LaneIs (σ n) i l p)
    (hp' : LaneIs (σ (n + 1)) i l p') (hstep : LaneStep (inp n) p p')
    (ha : Access σ i l m (n + 1)) (hprog : Progress inp σ i l m n p) (hmn : m < n) :
    Progress inp σ i l m (n + 1) p' := by
  have hedge := h.lsuEdge n i l
  have hbusy : ((σ n).laneLsu i l).lsu_state ≠ .idle := ha.busy n hmn (by omega)
  -- There is a transaction at the edge only in the phase `asking`.
  have hnone (hne : ∀ k r, p = .asking k r → (inp n).memReady r.kind k = false) (k : Fin M)
      (r : Request 32 32) : ¬Transaction inp σ i l n k r := by
    rw [hp.transaction_iff (h.owned n)]
    rintro ⟨hk, hready⟩
    exact absurd ((hne k r hk).symm.trans hready) (by simp)
  have hextend (hne : ∀ k r, p = .asking k r → (inp n).memReady r.kind k = false)
      (hbefore : ∀ e k r, m < e → e < n → ¬Transaction inp σ i l e k r) (e : ℕ) (k : Fin M)
      (r : Request 32 32) (hme : m < e) (hen : e < n + 1) : ¬Transaction inp σ i l e k r := by
    rcases Nat.lt_or_ge e n with hlt | hge
    · exact hbefore e k r hme hlt
    · obtain rfl : e = n := by omega
      exact hnone hne k r
  cases hstep with
  | quiet =>
    -- The lane of an access that stays quiet has been served, and its unit is done.
    have hs : ((σ n).laneLsu i l).lsu_state = .done := by
      cases hedge with
      | idle hs | begins hs => exact absurd hs hbusy
      | raise _ hs' => exact absurd hs' hp'.state
      | wait _ hs | accept _ hs => exact absurd hs hp.state
      | hold hs | finish hs => exact hs
    have hsame := h.lsu_of_done ha hs
    refine ⟨fun hreq => ?_, fun _ => ?_⟩
    · rw [hsame, hs] at hreq
      cases hreq
    · rw [hsame]
      exact (hprog.2 hs).succ (hnone fun _ _ hk => (nomatch hk))
  | raise r =>
    -- The request is raised one edge after the access began, with no edge between to count.
    obtain ⟨hs, -, hshows⟩ := (hedge.of_not_waiting hp.state hp.lsu).resolve_left
      fun hq => hq.1 hp'.state
    obtain rfl : n = m + 1 := hprog.1 hs
    cases hp'.lsu.unique hshows
    refine ⟨rfl, hextend (fun _ _ hk => (nomatch hk)) fun e _ _ hme hen => ?_⟩
    omega
  | present r => exact ⟨hprog.1, hextend (fun _ _ hk => (nomatch hk)) hprog.2⟩
  | queue r => exact ⟨hprog.1, hextend (fun _ _ hk => (nomatch hk)) hprog.2⟩
  | ask k r => exact ⟨hprog.1, hextend (fun _ _ hk => (nomatch hk)) hprog.2⟩
  | wait k r hready =>
    refine ⟨hprog.1, hextend (fun k' r' hk => ?_) hprog.2⟩
    cases hk
    exact hready
  | answer k r hready =>
    -- The one transaction of the access.
    have ht : Transaction inp σ i l n k r := (hp.transaction_iff (h.owned n)).mpr ⟨rfl, hready⟩
    refine ⟨hprog.1, n, k, hmn, by omega, ht, fun e k' r' hme hen ht' => ?_, fun _ => rfl⟩
    rcases Nat.lt_or_ge e n with hlt | hge
    · exact absurd ht' (hprog.2 e k' r' hme hlt)
    · obtain rfl : e = n := by omega
      obtain ⟨heq, -⟩ := (hp.transaction_iff (h.owned e)).mp ht'
      cases heq
      exact ⟨rfl, rfl, rfl⟩
  | tell k r word => exact ⟨hprog.1, hprog.2.succ (hnone fun _ _ hk => (nomatch hk))⟩
  | accept k r word =>
    -- The word that the LSU takes is the one that its port relays.
    obtain ⟨-, -, hout⟩ := hedge.of_ready hp.state hp.lsu (by
      rw [ready_lsuIn]
      exact (hp.reply.1 r.kind).mpr rfl)
    obtain ⟨rfl, honce⟩ := hprog
    exact (honce.succ (hnone fun _ _ hk => (nomatch hk))).congr fun hr =>
      (hout hr).trans (hp.reply.2 hr)
  | lower k r word =>
    have hsame := h.lsu_of_done ha hp.state.1
    show Once inp σ i l m (n + 1) (asked σ i l m) ((σ (n + 1)).laneLsu i l).lsu_out
    rw [hsame]
    exact Once.succ hprog (hnone fun _ _ hk => (nomatch hk))
  | release k κ word =>
    have hsame := h.lsu_of_done ha hp.state.1
    show Once inp σ i l m (n + 1) (asked σ i l m) ((σ (n + 1)).laneLsu i l).lsu_out
    rw [hsame]
    exact Once.succ hprog (hnone fun _ _ hk => (nomatch hk))
  | settle κ word =>
    have hsame := h.lsu_of_done ha hp.state.1
    refine ⟨fun hreq => ?_, fun _ => ?_⟩
    · rw [hsame] at hreq
      exact absurd (hp.state.1.symm.trans hreq) (by decide)
    · rw [hsame]
      exact Once.succ hprog (hnone fun _ _ hk => (nomatch hk))

/-- The phase of a lane along the run, and how far its access has come. -/
theorem IsRun.progress (h : IsRun life inp σ) (i : Fin N) (l : Fin (T + 1)) (n : ℕ) :
    ∃ p, LaneIs (σ n) i l p ∧ ∀ m, Access σ i l m n → Progress inp σ i l m n p := by
  induction n with
  | zero => exact ⟨.quiet, h.settled.laneIs i l, fun m ha => absurd ha.lt (Nat.not_lt_zero m)⟩
  | succ n ih =>
    obtain ⟨p, hp, hprog⟩ := ih
    obtain ⟨p', hp', hstep⟩ := hp.step life (h.guarded n) (h.owned n) (h.reset n)
    rw [← h.step n] at hp'
    refine ⟨p', hp', fun m ha => ?_⟩
    rcases eq_or_ne m n with rfl | hne
    · exact .begin h hp' ha
    · have ha' := ha.of_succ hne
      exact .step h hp hp' hstep ha (hprog m ha') ha'.lt

/-- A unit that is at work is so on an access. -/
theorem IsRun.exists_access (h : IsRun life inp σ)
    (hs : ((σ n).laneLsu i l).lsu_state ≠ .idle) : ∃ m, Access σ i l m n := by
  induction n with
  | zero => exact absurd (h.settled.idle i l) hs
  | succ n ih =>
    by_cases hidle : ((σ n).laneLsu i l).lsu_state = .idle
    · -- The access begins at this edge.
      refine ⟨n, by omega, hidle, fun k hk hkn => ?_⟩
      obtain rfl : k = n + 1 := by omega
      exact hs
    · obtain ⟨m, ha⟩ := ih hidle
      refine ⟨m, by have := ha.lt; omega, ha.idle, fun k hk hkn => ?_⟩
      rcases Nat.lt_or_ge n k with hlt | hge
      · obtain rfl : k = n + 1 := by omega
        exact hs
      · exact ha.busy k hk hge

end Run

/-- The inputs of an example GPU of one core, one warp, and one thread, whose every instruction is
`lw x5, 0(x1)`, and whose memories answer at once. -/
def loadsIn : GpuIn 1 1 1 where
  reset := false
  execution_start := true
  kernel_config := ⟨0, 0, 1, 1⟩
  fetcher_state_in := fun _ _ => .done
  fetched_instruction := fun _ _ => 0x0000A283
  data_mem_read_ready := fun _ => true
  data_mem_read_data := fun _ => 7
  data_mem_write_ready := fun _ => true

end Gpu

open Gpu in
/-- Every lane of a GPU that runs from a settled state, for any programs and any timing of the
memories: a load or store causes exactly one transaction before its LSU is done, of the address and
data that were latched for it, and the LSU takes no other answer than that to this transaction. -/
theorem gpu_exactly_once {N W T M : ℕ} [NeZero N] [NeZero W] (life : Lifetime) {s : Gpu N W T M}
    (hs : Settled s) {inp : ℕ → GpuIn N W M} (hreset : ∀ n, (inp n).reset = false) (i : Fin N)
    (l : Fin (T + 1)) : LaneExactlyOnce inp (Clocked.run (gpuStep life) inp s) i l := by
  set σ := Clocked.run (gpuStep life) inp s
  have hrun : IsRun life inp σ := ⟨hs, hreset, fun _ => rfl⟩
  constructor
  · -- An access begins when an idle LSU is enabled in `WARP_REQUEST`: of the steps of an LSU only
    -- this one leaves `LSU_IDLE`.
    intro m
    constructor
    · intro ha
      cases hrun.lsuEdge m i l with
      | idle _ _ hidle => exact absurd hidle (ha.busy (m + 1) (by omega) le_rfl)
      | begins _ hst hact => exact ⟨hst, hact⟩
      | raise hs | wait _ hs | accept _ hs | hold hs | finish hs =>
        exact absurd (ha.idle.symm.trans hs) (by decide)
    · rintro ⟨hst, hact⟩
      have hidle : ((σ m).laneLsu i l).lsu_state = .idle := by
        have hl := ((hrun.guarded m).core i).lane l
        unfold ComputeCore.LaneOk at hl
        rw [hst] at hl
        exact hl
      refine ⟨by omega, hidle, fun k hk hkm => ?_⟩
      obtain rfl : k = m + 1 := by omega
      cases hrun.lsuEdge m i l with
      | idle _ hno => exact absurd ⟨hst, hact⟩ hno
      | begins _ _ _ hreq => simp [hreq]
      | raise hs | wait _ hs | accept _ hs | hold hs | finish hs =>
        exact absurd (hidle.symm.trans hs) (by decide)
  · -- A transaction belongs to the access under way, by the phase of its lane.
    intro n k r ht
    obtain ⟨p, hp, hprog⟩ := hrun.progress i l n
    obtain ⟨rfl, -⟩ := (hp.transaction_iff (hrun.owned n)).mp ht
    have hwait : ((σ n).laneLsu i l).lsu_state = .waiting := hp.state
    obtain ⟨m, ha⟩ := hrun.exists_access (n := n) (i := i) (l := l) (by simp [hwait])
    exact ⟨m, ha, hwait, (hprog m ha).1⟩
  · -- An access has one transaction.
    intro m n ha e e' k k' r r' hme hen hme' hen' ht ht'
    -- No transaction of the access comes before another.
    have hfirst {e e' : ℕ} {k k' : Fin M} {r r' : MemController.Request 32 32} (hme : m < e)
        (hee : e < e') (hen' : e' ≤ n) (ht : Transaction inp σ i l e k r)
        (ht' : Transaction inp σ i l e' k' r') : False := by
      obtain ⟨p, hp, hprog⟩ := hrun.progress i l e'
      obtain ⟨rfl, -⟩ := (hp.transaction_iff (hrun.owned e')).mp ht'
      exact (hprog m (ha.le (by omega) hen')).2 e k r hme hee ht
    -- So two of them are at the same edge, and by the phase at this edge they are one.
    rcases lt_trichotomy e e' with hlt | rfl | hlt
    · exact (hfirst hme hlt hen' ht ht').elim
    · obtain ⟨p, hp, -⟩ := hrun.progress i l e
      obtain ⟨rfl, -⟩ := (hp.transaction_iff (hrun.owned e)).mp ht
      obtain ⟨heq, -⟩ := (hp.transaction_iff (hrun.owned e)).mp ht'
      cases heq
      exact ⟨rfl, rfl, rfl⟩
    · exact (hfirst hme' hlt hen ht' ht).elim
  · -- An LSU that is done has had its transaction: it is in a phase behind it.
    intro m n ha hdone
    obtain ⟨p, hp, hprog⟩ := hrun.progress i l n
    have hprog := hprog m ha
    have hstate := hp.state
    rw [show ((σ n).cluster.core i).lsu l = (σ n).laneLsu i l from rfl, hdone] at hstate
    cases p with
    | quiet => exact hprog.2 hdone
    | raised | presented | asking | answered | told =>
      exact absurd (show LsuState.done = .waiting from hstate) (by decide)
    | accepted | lowered | released => exact hprog
  · -- An LSU that takes an answer has had its transaction, and takes its word.
    intro m n κ ha hwait hready
    obtain ⟨p, hp, hprog⟩ := hrun.progress i l n
    have hprog := hprog m ha
    have hstate := hp.state
    have hreply := hp.reply
    rw [show ((σ n).cluster.core i).lsu l = (σ n).laneLsu i l from rfl, hwait] at hstate
    -- Of the phases in which the unit waits, it sees a ready wire in `told` only.
    cases p with
    | quiet => exact absurd rfl hstate
    | raised | presented | asking | answered =>
      exact absurd ((hreply κ).symm.trans hready) (by simp)
    | told k r word =>
      obtain ⟨rfl, honce⟩ := hprog
      exact ⟨((hreply.1 κ).mp hready).symm, honce.congr hreply.2⟩
    | accepted | lowered | released => exact absurd hstate.1 (by decide)

open Gpu in
/-- The lanes of a GPU that has just been switched on and runs a loop of loads. -/
theorem gpu_exactly_once_loads : LaneExactlyOnce (fun _ => loadsIn)
    (Clocked.run (gpuStep .automatic) (fun _ => loadsIn) (powerUp : Gpu 1 1 1 1)) 0 0 :=
  gpu_exactly_once .automatic settled_powerUp (fun _ => rfl) 0 0

end SmolGpu
