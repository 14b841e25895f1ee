import SmolGpu.Common

/-!
# The load-store unit

`src/lsu.sv`: one unit for each vector lane of a core and one for its scalar instructions. A load
and a store walk through the same four states, and each has its own case in the source, entered
when its enable is set. Both cases read the registers before the edge, so the source's nonblocking
assignments are made to a second record here, `n`, which starts as a copy of `s`.
-/

namespace SmolGpu

/-- The input ports of `lsu`. -/
structure LsuIn where
  reset : Bool
  enable : Bool
  warp_state : WarpState
  decoded_mem_read_enable : Bool
  decoded_mem_write_enable : Bool
  rs1 : DataT
  rs2 : DataT
  imm : DataT
  mem_read_ready : Bool
  mem_read_data : DataT
  mem_write_ready : Bool

/-- The registers of `lsu`. -/
structure Lsu where
  mem_read_valid : Bool
  mem_read_address : DataMemoryAddressT
  mem_write_valid : Bool
  mem_write_address : DataMemoryAddressT
  mem_write_data : DataT
  lsu_state : LsuState
  lsu_out : DataT
  deriving DecidableEq, Repr

namespace Lsu

/-- The registers after a reset. -/
def resetState : Lsu where
  mem_read_valid := false
  mem_read_address := 0
  mem_write_valid := false
  mem_write_address := 0
  mem_write_data := 0
  lsu_state := .idle
  lsu_out := 0

end Lsu

/-- `offset_address`. -/
def offsetAddress (i : LsuIn) : DataMemoryAddressT := i.rs1 + i.imm

/-- The case over `lsu_state` of a load. -/
def lsuRead (i : LsuIn) (s n : Lsu) : Lsu :=
  match s.lsu_state with
  | .idle => if i.warp_state = .request then { n with lsu_state := .requesting } else n
  | .requesting =>
    { n with mem_read_valid := true, mem_read_address := offsetAddress i, lsu_state := .waiting }
  | .waiting =>
    if i.mem_read_ready then
      { n with mem_read_valid := false, lsu_out := i.mem_read_data, lsu_state := .done }
    else n
  | .done => if i.warp_state = .update then { n with lsu_state := .idle } else n

/-- The case over `lsu_state` of a store. -/
def lsuWrite (i : LsuIn) (s n : Lsu) : Lsu :=
  match s.lsu_state with
  | .idle => if i.warp_state = .request then { n with lsu_state := .requesting } else n
  | .requesting =>
    { n with
      mem_write_valid := true
      mem_write_address := offsetAddress i
      mem_write_data := i.rs2
      lsu_state := .waiting }
  | .waiting =>
    if i.mem_write_ready then { n with mem_write_valid := false, lsu_state := .done } else n
  | .done => if i.warp_state = .update then { n with lsu_state := .idle } else n

/-- The always block of `lsu.sv`. -/
def lsuStep (i : LsuIn) (s : Lsu) : Lsu :=
  if i.reset then Lsu.resetState
  else if i.enable then
    -- With both enables set the two cases run in turn, and the store's assignments win.
    let n := if i.decoded_mem_read_enable then lsuRead i s s else s
    if i.decoded_mem_write_enable then lsuWrite i s n else n
  else s

/-! ## What an edge does -/

namespace LsuIn

/-- The unit takes part in a load or a store. -/
def active (i : LsuIn) : Bool :=
  i.enable && (i.decoded_mem_read_enable || i.decoded_mem_write_enable)

/-- The memory's answer to the unit's instruction: read-ready for a load, write-ready for a
store. -/
def answered (i : LsuIn) : Bool :=
  if i.decoded_mem_read_enable then i.mem_read_ready else i.mem_write_ready

end LsuIn

variable {i : LsuIn} {s : Lsu}

/-- An LSU that is not active keeps its state. -/
theorem lsuStep_of_not_active (hr : i.reset = false) (ha : i.active = false) : lsuStep i s = s := by
  unfold LsuIn.active at ha
  unfold lsuStep
  cases he : i.enable <;> simp_all

/-- An idle unit waits for `WARP_REQUEST`, whatever its instruction. -/
theorem lsuStep_of_idle (hr : i.reset = false) (hs : s.lsu_state = .idle)
    (hw : i.warp_state ≠ .request) : lsuStep i s = s := by
  have hrd : lsuRead i s s = s := by
    unfold lsuRead
    rw [hs]
    exact if_neg hw
  have hwr : lsuWrite i s s = s := by
    unfold lsuWrite
    rw [hs]
    exact if_neg hw
  unfold lsuStep
  simp only [hr, Bool.false_eq_true, if_false, hrd, hwr, ite_self]

/-- An enabled LSU with a load decoded takes the step of a read. -/
theorem lsuStep_read (hr : i.reset = false) (he : i.enable = true)
    (hrd : i.decoded_mem_read_enable = true) (hwr : i.decoded_mem_write_enable = false) :
    lsuStep i s = lsuRead i s s := by
  simp [lsuStep, hr, he, hrd, hwr]

/-- An enabled LSU with a store decoded takes the step of a write. -/
theorem lsuStep_write (hr : i.reset = false) (he : i.enable = true)
    (hrd : i.decoded_mem_read_enable = false) (hwr : i.decoded_mem_write_enable = true) :
    lsuStep i s = lsuWrite i s s := by
  simp [lsuStep, hr, he, hrd, hwr]

/-- An active unit is in the case of a load or in that of a store. -/
theorem lsuStep_cases (hr : i.reset = false) (ha : i.active = true)
    (hone : ¬(i.decoded_mem_read_enable = true ∧ i.decoded_mem_write_enable = true)) :
    (i.decoded_mem_read_enable = true ∧ i.decoded_mem_write_enable = false ∧
        lsuStep i s = lsuRead i s s) ∨
      (i.decoded_mem_read_enable = false ∧ i.decoded_mem_write_enable = true ∧
        lsuStep i s = lsuWrite i s s) := by
  unfold LsuIn.active at ha
  simp only [Bool.and_eq_true, Bool.or_eq_true] at ha
  obtain ⟨he, hrd | hwr⟩ := ha
  · have hwr : i.decoded_mem_write_enable = false := by simpa [hrd] using hone
    exact .inl ⟨hrd, hwr, lsuStep_read hr he hrd hwr⟩
  · have hrd : i.decoded_mem_read_enable = false := by simpa [hwr] using hone
    exact .inr ⟨hrd, hwr, lsuStep_write hr he hrd hwr⟩

/-- A unit uses its operands only when it is about to ask. -/
theorem lsuStep_congr {rs1 rs2 : DataT}
    (h : i.enable = true → s.lsu_state = .requesting → i.rs1 = rs1 ∧ i.rs2 = rs2) :
    lsuStep i s = lsuStep { i with rs1 := rs1, rs2 := rs2 } s := by
  by_cases hask : i.enable = true ∧ s.lsu_state = .requesting
  · obtain ⟨rfl, rfl⟩ := h hask.1 hask.2
    rfl
  · by_cases he : i.enable = true
    · have hs : s.lsu_state ≠ .requesting := fun hs => hask ⟨he, hs⟩
      have hread (n : Lsu) : lsuRead i s n = lsuRead { i with rs1 := rs1, rs2 := rs2 } s n := by
        unfold lsuRead
        cases hst : s.lsu_state with
        | requesting => exact absurd hst hs
        | idle | waiting | done => simp
      have hwrite (n : Lsu) : lsuWrite i s n = lsuWrite { i with rs1 := rs1, rs2 := rs2 } s n := by
        unfold lsuWrite
        cases hst : s.lsu_state with
        | requesting => exact absurd hst hs
        | idle | waiting | done => simp
      unfold lsuStep
      simp only [hread, hwrite]
    · simp [lsuStep, he]

/-- A unit looks at the word of memory only when it takes it. -/
theorem lsuStep_congr_data {data : DataT} (h : i.mem_read_ready = true →
    i.decoded_mem_read_enable = true → s.lsu_state = .waiting → i.mem_read_data = data) :
    lsuStep { i with mem_read_data := data } s = lsuStep i s := by
  have hread (hrd : i.decoded_mem_read_enable = true) :
      lsuRead { i with mem_read_data := data } s s = lsuRead i s s := by
    unfold lsuRead
    cases hs : s.lsu_state with
    | idle | requesting | done => rfl
    | waiting =>
      by_cases hready : i.mem_read_ready = true
      · simp [hready, h hready hrd hs]
      · simp [hready]
  unfold lsuStep
  by_cases hrd : i.decoded_mem_read_enable = true
  · rw [if_pos hrd, hread hrd, if_pos hrd]
    rfl
  · rw [if_neg hrd, if_neg hrd]
    rfl

/-- The states a unit goes through, the same for a load and a store. -/
theorem lsuStep_lsu_state (hr : i.reset = false) (ha : i.active = true)
    (hone : ¬(i.decoded_mem_read_enable = true ∧ i.decoded_mem_write_enable = true)) :
    (lsuStep i s).lsu_state =
      match s.lsu_state with
      | .idle => if i.warp_state = .request then .requesting else .idle
      | .requesting => .waiting
      | .waiting => if i.answered then .done else .waiting
      | .done => if i.warp_state = .update then .idle else .done := by
  rcases lsuStep_cases hr ha hone with ⟨hrd, -, hstep⟩ | ⟨hrd, -, hstep⟩
  · rw [hstep]
    unfold lsuRead LsuIn.answered
    cases hst : s.lsu_state <;> simp only [hrd] <;> split_ifs <;> simp [hst]
  · rw [hstep]
    unfold lsuWrite LsuIn.answered
    cases hst : s.lsu_state <;> simp only [hrd] <;> split_ifs <;> simp_all

/-- A unit that waits has just put its request on the wires, or waited already. -/
theorem lsuStep_waiting (hr : i.reset = false) (ha : i.active = true)
    (hone : ¬(i.decoded_mem_read_enable = true ∧ i.decoded_mem_write_enable = true))
    (hw : (lsuStep i s).lsu_state = .waiting) :
    s.lsu_state = .requesting ∧
        (i.decoded_mem_read_enable = true → (lsuStep i s).mem_read_valid = true ∧
          (lsuStep i s).mem_read_address = offsetAddress i) ∧
        (i.decoded_mem_write_enable = true → (lsuStep i s).mem_write_valid = true ∧
          (lsuStep i s).mem_write_address = offsetAddress i ∧
          (lsuStep i s).mem_write_data = i.rs2) ∨
      lsuStep i s = s := by
  -- Only the two states before the answer lead to a waiting unit.
  rcases lsuStep_cases hr ha hone with ⟨-, hwr, hstep⟩ | ⟨hrd, -, hstep⟩
  · rw [hstep] at hw ⊢
    unfold lsuRead at hw ⊢
    cases hst : s.lsu_state <;> simp only [hst] at hw ⊢
    · split_ifs at hw ⊢
      exact .inr rfl
    · simp [hwr]
    · split_ifs at hw ⊢
      exact .inr rfl
    · split_ifs at hw ⊢
      exact .inr rfl
  · rw [hstep] at hw ⊢
    unfold lsuWrite at hw ⊢
    cases hst : s.lsu_state <;> simp only [hst] at hw ⊢
    · split_ifs at hw ⊢
      exact .inr rfl
    · simp [hrd]
    · split_ifs at hw ⊢
      exact .inr rfl
    · split_ifs at hw ⊢
      exact .inr rfl

/-- A unit that loads takes the word that memory returns at the edge at which it becomes done. -/
theorem lsuStep_load (hr : i.reset = false) (he : i.enable = true)
    (hrd : i.decoded_mem_read_enable = true) (hwr : i.decoded_mem_write_enable = false)
    (hup : i.warp_state ≠ .update) :
    (s.lsu_state = .waiting ∧ i.mem_read_ready = true →
        (lsuStep i s).lsu_state = .done ∧ (lsuStep i s).lsu_out = i.mem_read_data) ∧
      (¬(s.lsu_state = .waiting ∧ i.mem_read_ready = true) →
        ((lsuStep i s).lsu_state = .done ↔ s.lsu_state = .done) ∧
          (lsuStep i s).lsu_out = s.lsu_out) := by
  rw [lsuStep_read hr he hrd hwr]
  unfold lsuRead
  cases hst : s.lsu_state
  · simp only [reduceCtorEq, false_and, false_implies, not_false_eq_true, true_implies, true_and]
    split_ifs <;> simp [hst]
  · simp
  · cases hready : i.mem_read_ready <;> simp [hst]
  · simp [hst, hup]

/-- A unit is consistent with the kind of its instruction when each request wire is up exactly
while the unit waits on an instruction of that kind. -/
structure Lsu.Consistent (s : Lsu) (rd wr : Bool) : Prop where
  /-- A read is asked for exactly while a load waits. -/
  read_valid : s.mem_read_valid = true ↔ s.lsu_state = .waiting ∧ rd = true
  /-- A write is asked for exactly while a store waits. -/
  write_valid : s.mem_write_valid = true ↔ s.lsu_state = .waiting ∧ wr = true

/-- The request wires of an idle unit are down, whatever the instruction. -/
theorem Lsu.Consistent.of_idle {rd wr rd' wr' : Bool} (h : s.Consistent rd wr)
    (hst : s.lsu_state = .idle) : s.Consistent rd' wr' := by
  obtain ⟨h1, h2⟩ := h
  constructor
  · simp_all
  · simp_all

/-- A clock edge keeps the LSU consistent with the instruction. -/
theorem lsuStep_consistent (hr : i.reset = false)
    (hone : ¬(i.decoded_mem_read_enable = true ∧ i.decoded_mem_write_enable = true))
    (h : s.Consistent i.decoded_mem_read_enable i.decoded_mem_write_enable) :
    (lsuStep i s).Consistent i.decoded_mem_read_enable i.decoded_mem_write_enable := by
  cases ha : i.active
  · rw [lsuStep_of_not_active hr ha]
    exact h
  · obtain ⟨h1, h2⟩ := h
    rcases lsuStep_cases hr ha hone with ⟨hrd, hwr, hstep⟩ | ⟨hrd, hwr, hstep⟩
    · rw [hstep]
      unfold lsuRead
      cases hst : s.lsu_state <;> constructor <;> (try split_ifs) <;> simp_all
    · rw [hstep]
      unfold lsuWrite
      cases hst : s.lsu_state <;> constructor <;> (try split_ifs) <;> simp_all

end SmolGpu
