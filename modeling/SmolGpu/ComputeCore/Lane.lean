import SmolGpu.ComputeCore.Exclusive
import SmolGpu.MemController.Port

/-!
# What a lane asks of memory

The LSU of a lane, seen from the outside: it shows a request on its wires or none, and at every edge
it makes one of the moves of `LsuEdge`. `lsu_edge` derives the moves from the core's invariant. A
load or store of a lane is a `begins`, a `raise`, an `accept`, and a `finish`, with any number of
edges between them.

The last section is about the time between an `accept` and the next `begins`: the stages of the
current warp leave no less than four edges between the two.
-/

namespace SmolGpu

open MemController (Kind Request)

/-- The request wires show a request, or none. -/
def Shows (read_valid : Bool) (read_address : DataMemoryAddressT) (write_valid : Bool)
    (write_address : DataMemoryAddressT) (write_data : DataT) : Option (Request 32 32) → Prop
  | none => read_valid = false ∧ write_valid = false
  | some (.read address) => read_valid = true ∧ read_address = address ∧ write_valid = false
  | some (.write address data) => read_valid = false ∧ write_valid = true ∧
      write_address = address ∧ write_data = data

/-- The wires show one thing at a time. -/
theorem Shows.unique {rv wv : Bool} {ra wa : DataMemoryAddressT} {wd : DataT}
    {o o' : Option (Request 32 32)} (h : Shows rv ra wv wa wd o) (h' : Shows rv ra wv wa wd o') :
    o = o' := by
  rcases o with _ | _ | _ <;> rcases o' with _ | _ | _ <;> simp_all [Shows]

/-- What the LSU shows. -/
def Lsu.Shows (s : Lsu) : Option (Request 32 32) → Prop :=
  SmolGpu.Shows s.mem_read_valid s.mem_read_address s.mem_write_valid s.mem_write_address
    s.mem_write_data

/-- The LSU's wire for memory's answer to a request of a given kind. -/
def LsuIn.ready (i : LsuIn) : Kind → Bool
  | .read => i.mem_read_ready
  | .write => i.mem_write_ready

section Lsu

variable {i : LsuIn} {s : Lsu}

/-- A unit that is done waits for `WARP_UPDATE`. -/
theorem lsuStep_of_done (hr : i.reset = false) (hs : s.lsu_state = .done)
    (hw : i.warp_state ≠ .update) : lsuStep i s = s := by
  have hrd : lsuRead i s s = s := by
    unfold lsuRead
    rw [hs]
    exact if_neg hw
  have hwr : lsuWrite i s s = s := by
    unfold lsuWrite
    rw [hs]
    exact if_neg hw
  unfold lsuStep
  simp only [hr, Bool.false_eq_true, if_false, hrd, hwr, ite_self]

/-- The wires of a unit that does not wait. -/
theorem Lsu.Consistent.shows_none {rd wr : Bool} (h : s.Consistent rd wr)
    (hs : s.lsu_state ≠ .waiting) : s.Shows none := by
  constructor
  · rw [← Bool.not_eq_true, h.read_valid]
    exact fun hw => hs hw.1
  · rw [← Bool.not_eq_true, h.write_valid]
    exact fun hw => hs hw.1

/-- The wires of a unit that waits on a load or store. -/
theorem Lsu.Consistent.exists_shows {rd wr : Bool} (h : s.Consistent rd wr)
    (hs : s.lsu_state = .waiting) (hone : ¬(rd = true ∧ wr = true)) (hany : rd = true ∨ wr = true) :
    ∃ r : Request 32 32, s.Shows (some r) ∧
      (r.kind = .read ∧ rd = true ∧ wr = false ∨ r.kind = .write ∧ rd = false ∧ wr = true) := by
  rcases rd with _ | _ <;> rcases wr with _ | _
  · simp at hany
  · refine ⟨.write s.mem_write_address s.mem_write_data, ⟨?_, ?_, rfl, rfl⟩,
      .inr ⟨rfl, rfl, rfl⟩⟩
    · rw [← Bool.not_eq_true, h.read_valid]
      exact fun hw => Bool.false_ne_true hw.2
    · exact h.write_valid.mpr ⟨hs, rfl⟩
  · refine ⟨.read s.mem_read_address, ⟨?_, rfl, ?_⟩, .inl ⟨rfl, rfl, rfl⟩⟩
    · exact h.read_valid.mpr ⟨hs, rfl⟩
    · rw [← Bool.not_eq_true, h.write_valid]
      exact fun hw => Bool.false_ne_true hw.2
  · exact absurd ⟨rfl, rfl⟩ hone

/-- A waiting unit that is not answered stays as it is. -/
theorem lsuStep_of_unanswered (hr : i.reset = false) (he : i.enable = true)
    (hs : s.lsu_state = .waiting) {r : Request 32 32}
    (hkind : r.kind = .read ∧ i.decoded_mem_read_enable = true ∧
        i.decoded_mem_write_enable = false ∨
      r.kind = .write ∧ i.decoded_mem_read_enable = false ∧ i.decoded_mem_write_enable = true)
    (hready : i.ready r.kind = false) : lsuStep i s = s := by
  rcases hkind with ⟨hk, hrd, hwr⟩ | ⟨hk, hrd, hwr⟩
  · rw [hk] at hready
    rw [lsuStep_read hr he hrd hwr]
    unfold lsuRead
    rw [hs]
    exact if_neg (by simpa [LsuIn.ready] using hready)
  · rw [hk] at hready
    rw [lsuStep_write hr he hrd hwr]
    unfold lsuWrite
    rw [hs]
    exact if_neg (by simpa [LsuIn.ready] using hready)

/-- A waiting unit that is answered takes the answer. -/
theorem lsuStep_of_answered (hr : i.reset = false) (he : i.enable = true)
    (hs : s.lsu_state = .waiting) {r : Request 32 32} (hshows : s.Shows (some r))
    (hkind : r.kind = .read ∧ i.decoded_mem_read_enable = true ∧
        i.decoded_mem_write_enable = false ∨
      r.kind = .write ∧ i.decoded_mem_read_enable = false ∧ i.decoded_mem_write_enable = true)
    (hready : i.ready r.kind = true) :
    (lsuStep i s).lsu_state = .done ∧ (lsuStep i s).Shows none ∧
      (r.kind = .read → (lsuStep i s).lsu_out = i.mem_read_data) := by
  -- The kind of the request is the kind of the instruction, so the other branch is empty.
  rcases r with address | ⟨address, data⟩
  · rcases hkind with ⟨-, hrd, hwr⟩ | ⟨h, -⟩
    · rw [lsuStep_read hr he hrd hwr]
      unfold lsuRead
      rw [hs]
      dsimp only
      rw [if_pos (show i.mem_read_ready = true from hready)]
      exact ⟨rfl, ⟨rfl, hshows.2.2⟩, fun _ => rfl⟩
    · cases h
  · rcases hkind with ⟨h, -⟩ | ⟨-, hrd, hwr⟩
    · cases h
    · rw [lsuStep_write hr he hrd hwr]
      unfold lsuWrite
      rw [hs]
      dsimp only
      rw [if_pos (show i.mem_write_ready = true from hready)]
      exact ⟨rfl, ⟨hshows.1, rfl⟩, fun h => (nomatch h)⟩

end Lsu

namespace ComputeCore

variable {W T : ℕ} {life : Lifetime} {inp : CoreIn W T} {c : ComputeCore W T} {l : Fin (T + 1)}

/-- What the current warp's load or store asks of memory in lane `l`: the address is `rs1` plus the
immediate, and the data of a store is `rs2`, as they are latched. -/
def memRequest (c : ComputeCore W T) (l : Fin (T + 1)) : Request 32 32 :=
  if c.current.decoded_mem_read_enable then .read (c.laneRs1 l + c.current.decoded_immediate)
  else .write (c.laneRs1 l + c.current.decoded_immediate) (c.laneRs2 l)

/-- The moves of a lane's LSU at an edge. -/
inductive LsuEdge (inp : CoreIn W T) (c : ComputeCore W T) (l : Fin (T + 1)) (s' : Lsu) : Prop
  /-- The unit has nothing to do. -/
  | idle : (c.lsu l).lsu_state = .idle →
      ¬(c.current_warp_state = .request ∧ c.laneActive l = true) → s'.lsu_state = .idle →
      s'.Shows none → LsuEdge inp c l s'
  /-- The current warp begins a load or store that the lane takes part in. -/
  | begins : (c.lsu l).lsu_state = .idle → c.current_warp_state = .request →
      c.laneActive l = true → s'.lsu_state = .requesting → s'.Shows none → LsuEdge inp c l s'
  /-- The unit puts the request on its wires. -/
  | raise : (c.lsu l).lsu_state = .requesting → s'.lsu_state = .waiting →
      s'.Shows (some (c.memRequest l)) → LsuEdge inp c l s'
  /-- The unit waits for the answer. -/
  | wait (r : Request 32 32) : (c.lsu l).lsu_state = .waiting → (c.lsu l).Shows (some r) →
      (c.lsuIn inp l).ready r.kind = false → s'.lsu_state = .waiting → s'.Shows (some r) →
      LsuEdge inp c l s'
  /-- The unit takes the answer and withdraws its request. -/
  | accept (r : Request 32 32) : (c.lsu l).lsu_state = .waiting → (c.lsu l).Shows (some r) →
      (c.lsuIn inp l).ready r.kind = true → s'.lsu_state = .done → s'.Shows none →
      (r.kind = .read → s'.lsu_out = inp.data_mem_read_data l) → LsuEdge inp c l s'
  /-- The unit holds its result until the warp takes it. -/
  | hold : (c.lsu l).lsu_state = .done → c.current_warp_state ≠ .update → s' = c.lsu l →
      LsuEdge inp c l s'
  | finish : (c.lsu l).lsu_state = .done → c.current_warp_state = .update → s'.lsu_state = .idle →
      s'.Shows none → LsuEdge inp c l s'

section Moves

variable {s' : Lsu} (he : LsuEdge inp c l s')
include he

/-- A unit that waits and is not ready goes on waiting. -/
theorem LsuEdge.of_unready (hs : (c.lsu l).lsu_state = .waiting) {r : Request 32 32}
    (hr : (c.lsu l).Shows (some r)) (hready : (c.lsuIn inp l).ready r.kind = false) :
    s'.lsu_state = .waiting ∧ s'.Shows (some r) := by
  cases he with
  | wait r' _ hr' _ hs' hshows =>
    cases hr.unique hr'
    exact ⟨hs', hshows⟩
  | accept r' _ hr' hready' =>
    cases hr.unique hr'
    exact absurd (hready.symm.trans hready') (by simp)
  | idle h | begins h | raise h | hold h | finish h =>
    rw [hs] at h
    cases h

/-- A unit that waits and is ready is done. -/
theorem LsuEdge.of_ready (hs : (c.lsu l).lsu_state = .waiting) {r : Request 32 32}
    (hr : (c.lsu l).Shows (some r)) (hready : (c.lsuIn inp l).ready r.kind = true) :
    s'.lsu_state = .done ∧ s'.Shows none ∧
      (r.kind = .read → s'.lsu_out = inp.data_mem_read_data l) := by
  cases he with
  | wait r' _ hr' hready' =>
    cases hr.unique hr'
    exact absurd (hready'.symm.trans hready) (by simp)
  | accept r' _ hr' _ hs' hnone hout =>
    cases hr.unique hr'
    exact ⟨hs', hnone, hout⟩
  | idle h | begins h | raise h | hold h | finish h =>
    rw [hs] at h
    cases h

/-- A unit that is done stays so before `WARP_UPDATE`. -/
theorem LsuEdge.of_done (hs : (c.lsu l).lsu_state = .done) (hst : c.current_warp_state ≠ .update) :
    s' = c.lsu l := by
  cases he with
  | hold _ _ hsame => exact hsame
  | finish _ hup => exact absurd hup hst
  | idle h | begins h | raise h | wait _ h | accept _ h =>
    rw [hs] at h
    cases h

/-- A unit takes up a request only when the current warp makes one. -/
theorem LsuEdge.request (hs : s'.lsu_state = .requesting) : c.current_warp_state = .request := by
  cases he with
  | begins _ hst => exact hst
  | hold h _ hsame =>
    rw [hsame, h] at hs
    cases hs
  | idle _ _ h | raise _ h | wait _ _ _ _ h | accept _ _ _ _ h | finish _ _ h =>
    rw [hs] at h
    cases h

/-- A unit that does not wait raises a request or shows nothing. -/
theorem LsuEdge.of_not_waiting (hs : (c.lsu l).lsu_state ≠ .waiting)
    (hnone : (c.lsu l).Shows none) :
    s'.lsu_state ≠ .waiting ∧ s'.Shows none ∨
      (c.lsu l).lsu_state = .requesting ∧ s'.lsu_state = .waiting ∧
        s'.Shows (some (c.memRequest l)) := by
  cases he with
  | idle _ _ hs' hnone' => exact .inl ⟨by simp [hs'], hnone'⟩
  | begins _ _ _ hs' hnone' => exact .inl ⟨by simp [hs'], hnone'⟩
  | raise hreq hs' hshows => exact .inr ⟨hreq, hs', hshows⟩
  | wait _ h | accept _ h => exact absurd h hs
  | hold _ _ hsame =>
    rw [hsame]
    exact .inl ⟨hs, hnone⟩
  | finish _ _ hs' hnone' => exact .inl ⟨by simp [hs'], hnone'⟩

end Moves

/-- A lane whose unit is not idle takes part in the current warp's load or store. -/
theorem LaneOk.active (h : c.LaneOk l) (hs : (c.lsu l).lsu_state ≠ .idle) :
    c.laneActive l = true ∧ (c.current_warp_state = .wait ∨ c.current_warp_state = .execute ∨
      c.current_warp_state = .update) := by
  unfold LaneOk at h
  rcases ha : c.laneActive l with _ | _
  · -- A lane that takes no part has an idle unit in every stage.
    rw [ha] at h
    cases hst : c.current_warp_state <;> simp [hst] at h <;> exact absurd h hs
  · refine ⟨rfl, ?_⟩
    cases hst : c.current_warp_state <;> simp only [hst] at h <;> first | exact absurd h hs | simp

/-- A unit waits only while the current warp is in `WARP_WAIT`. -/
theorem LaneOk.stage_of_waiting (h : c.LaneOk l)
    (hs : (c.lsu l).lsu_state = .requesting ∨ (c.lsu l).lsu_state = .waiting) :
    c.current_warp_state = .wait := by
  have hne : (c.lsu l).lsu_state ≠ .idle := by
    rcases hs with hs | hs <;> simp [hs]
  obtain ⟨hact, hst | hst | hst⟩ := h.active hne
  · exact hst
  all_goals
    unfold LaneOk at h
    simp only [hst, hact, if_true] at h
    simp [h] at hs

variable [NeZero W]

/-- What an edge does to a lane's unit. A core that is reset has idle units. -/
theorem lsu_edge (hi : Invariant c) (hreset : inp.reset = true → (c.lsu l).lsu_state = .idle ∧
    c.current_warp_state ≠ .request) : LsuEdge inp c l ((coreStep life inp c).lsu l) := by
  rcases hr : inp.reset with _ | _
  swap
  · obtain ⟨hidle, hst⟩ := hreset hr
    rw [step_reset_lsu hr]
    exact .idle hidle (fun h => hst h.1) rfl ⟨rfl, rfl⟩
  have hcons := hi.consistent l
  have hnext := step_consistent life hr hi l
  have hstep : (coreStep life inp c).lsu l = lsuStep (c.lsuIn inp l) (c.lsu l) := rfl
  rw [hstep] at hnext ⊢
  have hone : ¬((c.lsuIn inp l).decoded_mem_read_enable = true ∧
      (c.lsuIn inp l).decoded_mem_write_enable = true) := hi.one_kind c.current_warp
  have hmove (ha : c.laneActive l = true) :=
    lsuStep_lsu_state (i := c.lsuIn inp l) (s := c.lsu l) hr ha hone
  rcases hs : (c.lsu l).lsu_state with _ | _ | _ | _
  · -- An idle unit begins if the warp requests and the lane takes part.
    by_cases hreq : c.current_warp_state = .request ∧ c.laneActive l = true
    · have hst' : (lsuStep (c.lsuIn inp l) (c.lsu l)).lsu_state = .requesting := by
        rw [hmove hreq.2, hs]
        exact if_pos hreq.1
      exact .begins hs hreq.1 hreq.2 hst' (hnext.shows_none (by simp [hst']))
    · have hsame : lsuStep (c.lsuIn inp l) (c.lsu l) = c.lsu l := by
        by_cases hst : c.current_warp_state = .request
        · exact lsuStep_of_not_active (i := c.lsuIn inp l) hr (by
            rw [← Bool.not_eq_true]
            exact fun ha => hreq ⟨hst, ha⟩)
        · exact lsuStep_of_idle hr hs hst
      rw [hsame]
      exact .idle hs hreq hs (hcons.shows_none (by simp [hs]))
  · -- The unit has its instruction before it, since the warp is in `WARP_WAIT` on it.
    obtain ⟨ha, -⟩ := (hi.lane l).active (by simp [hs])
    have hst' : (lsuStep (c.lsuIn inp l) (c.lsu l)).lsu_state = .waiting := by
      rw [hmove ha, hs]
    refine .raise hs hst' ?_
    rcases lsuStep_waiting (i := c.lsuIn inp l) hr ha hone hst' with ⟨-, hread, hwrite⟩ | hsame
    · unfold memRequest
      have hact := ha
      simp only [laneActive, Bool.and_eq_true, Bool.or_eq_true] at hact
      rcases hrd : c.current.decoded_mem_read_enable with _ | _
      · have hwr : c.current.decoded_mem_write_enable = true := by simpa [hrd] using hact.2
        obtain ⟨hv, haddr, hdata⟩ := hwrite hwr
        refine ⟨?_, hv, haddr, hdata⟩
        rw [← Bool.not_eq_true, hnext.read_valid, hrd]
        exact fun h => Bool.false_ne_true h.2
      · have hwr : c.current.decoded_mem_write_enable = false := by
          rw [← Bool.not_eq_true]
          exact fun hwr => hone ⟨hrd, hwr⟩
        obtain ⟨hv, haddr⟩ := hread hrd
        refine ⟨hv, haddr, ?_⟩
        rw [← Bool.not_eq_true, hnext.write_valid, hwr]
        exact fun h => Bool.false_ne_true h.2
    · rw [hsame, hs] at hst'
      cases hst'
  · -- A waiting unit shows one request, and looks at the ready wire of its kind.
    obtain ⟨ha, -⟩ := (hi.lane l).active (by simp [hs])
    have hact := ha
    simp only [laneActive, Bool.and_eq_true, Bool.or_eq_true] at hact
    obtain ⟨r, hshows, hkind⟩ := hcons.exists_shows hs hone hact.2
    rcases hready : (c.lsuIn inp l).ready r.kind with _ | _
    · rw [lsuStep_of_unanswered (i := c.lsuIn inp l) hr hact.1 hs hkind hready]
      exact .wait r hs hshows hready hs hshows
    · obtain ⟨hst', hnone, hout⟩ := lsuStep_of_answered (i := c.lsuIn inp l) hr hact.1 hs hshows
        hkind hready
      exact .accept r hs hshows hready hst' hnone hout
  · obtain ⟨ha, -⟩ := (hi.lane l).active (by simp [hs])
    by_cases hup : c.current_warp_state = .update
    · have hst' : (lsuStep (c.lsuIn inp l) (c.lsu l)).lsu_state = .idle := by
        rw [hmove ha, hs]
        exact if_pos hup
      exact .finish hs hup hst' (hnext.shows_none (by simp [hst']))
    · exact .hold hs hup (lsuStep_of_done hr hs hup)

/-! ## The time to the next request -/

omit [NeZero W] in
/-- A core one of whose units is at work is running. -/
theorem Invariant.running (hi : Invariant c) (hr : inp.reset = false)
    (hs : (c.lsu l).lsu_state ≠ .idle) : Running inp c := by
  have hactive : c.current_warp_state ≠ .idle := fun hidle => hs (hi.idle_of_parked (.inl hidle) l)
  exact ⟨hr, hi.started hactive⟩

/-- The stage of the current warp at an edge, when it is busy. -/
theorem step_stage (h : Running inp c) (hst : c.current_warp_state = .request ∨
    c.current_warp_state = .wait ∨ c.current_warp_state = .execute) :
    (coreStep life inp c).current_warp_state = c.currentNext life inp := by
  obtain ⟨hcw, -⟩ := step_current_of_busy life h hst
  unfold current_warp_state
  rw [hcw, step_warp_state_current h]

/-- While a unit waits, the current warp does not leave `WARP_WAIT`. -/
theorem step_stage_of_waiting (life : Lifetime) (h : Running inp c) (hl : c.LaneOk l)
    (hs : (c.lsu l).lsu_state = .waiting) :
    (coreStep life inp c).current_warp_state = .wait := by
  have hst := hl.stage_of_waiting (.inr hs)
  have hany : c.anyLsuWaiting life = true := by
    unfold anyLsuWaiting
    rw [Bool.or_eq_true, decide_eq_true_eq]
    exact .inr ⟨l, .inr hs⟩
  rw [step_stage h (.inr (.inl hst)), currentNext, hst]
  simp [hany]

/-- From `WARP_WAIT` it takes two edges to `WARP_UPDATE`. -/
theorem step_stage_of_wait (life : Lifetime) (h : Running inp c)
    (hst : c.current_warp_state = .wait) :
    (coreStep life inp c).current_warp_state = .wait ∨
      (coreStep life inp c).current_warp_state = .execute := by
  rw [step_stage h (.inr (.inl hst)), currentNext, hst]
  cases c.anyLsuWaiting life
  · exact .inr rfl
  · exact .inl rfl

/-- EXECUTE takes one edge. -/
theorem step_stage_of_execute (life : Lifetime) (h : Running inp c)
    (hst : c.current_warp_state = .execute) :
    (coreStep life inp c).current_warp_state = .update := by
  rw [step_stage h (.inr (.inr hst)), currentNext, hst]

/-- The stage in front of one that uses the units: the current warp is the same, and gets on by one
stage or waits. -/
theorem Invariant.stage_before (hi : Invariant c) (h : Running inp c)
    (hbusy : ¬Parked (coreStep life inp c).current_warp_state) :
    (coreStep life inp c).current_warp = c.current_warp ∧
      (c.current_warp_state = .decode ∧ (coreStep life inp c).current_warp_state = .request ∨
        c.current_warp_state = .request ∧ (coreStep life inp c).current_warp_state = .wait ∨
        c.current_warp_state = .wait ∧ ((coreStep life inp c).current_warp_state = .wait ∨
          (coreStep life inp c).current_warp_state = .execute) ∨
        c.current_warp_state = .execute ∧ (coreStep life inp c).current_warp_state = .update) := by
  -- From the parked stages, and from `WARP_UPDATE`, the next stage is a parked one.
  cases hst : c.current_warp_state with
  | idle => exact absurd (hi.parked_step h (.inr (.inl hst)) _) hbusy
  | fetch => exact absurd (hi.parked_step h (.inr (.inr (.inl hst))) _) hbusy
  | done => exact absurd (hi.parked_step h (.inr (.inr (.inr hst))) _) hbusy
  | update => exact absurd (hi.parked_step h (.inl hst) _) hbusy
  | decode =>
    have hcw : (coreStep life inp c).current_warp = c.current_warp := by
      rw [step_current_warp h, if_neg (by simp [hst])]
    have hnext : (coreStep life inp c).current_warp_state = .request := by
      rw [current_warp_state, hcw, step_warp_state_current h, currentNext, hst]
    exact ⟨hcw, .inl ⟨rfl, hnext⟩⟩
  | request =>
    have hnext : (coreStep life inp c).current_warp_state = .wait := by
      rw [step_stage h (.inl hst), currentNext, hst]
    exact ⟨(step_current_of_busy life h (.inl hst)).1, .inr (.inl ⟨rfl, hnext⟩)⟩
  | wait =>
    exact ⟨(step_current_of_busy life h (.inr (.inl hst))).1,
      .inr (.inr (.inl ⟨rfl, step_stage_of_wait life h hst⟩))⟩
  | execute =>
    exact ⟨(step_current_of_busy life h (.inr (.inr hst))).1,
      .inr (.inr (.inr ⟨rfl, step_stage_of_execute life h hst⟩))⟩

end ComputeCore

end SmolGpu
