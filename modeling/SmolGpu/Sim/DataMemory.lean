import SmolGpu.Library.Loop
import SmolGpu.Library.SharedMemory
import SmolGpu.Sim.Instructions

/-!
# The simulated data memory

`DataMemory` of `src/sim/simlib/sim.hpp`: the memory that the simulator puts behind the data ports
of the GPU. `process` is called once a cycle and serves all channels, the writes first. The object
holds a pointer for each data port, and where a port is written through a null pointer the call does
not return.

A read of the address `0xFFFFFFFF` is out of bounds. It is meant to deliver a zero, and sets the
pointer to zero instead of the port: the next read on the channel has nowhere to go
(`dataMemory_correct_iff`).
-/

namespace SmolGpu.Sim

open SharedMemory

/-- `CData`, `std::uint8_t`. -/
abbrev CData := BitVec 8

/-- `1 << bit`, an `int`. -/
def oneShiftLeft (bit : ℕ) : BitVec 32 := 1#32 <<< bit

/-- `set_bit`. -/
def setBit (signal : CData) (bit : ℕ) (value : Bool) : CData :=
  if value then (signal.setWidth 32 ||| oneShiftLeft bit).setWidth 8
  else (signal.setWidth 32 &&& ~~~oneShiftLeft bit).setWidth 8

/-- `signal & (1 << bit)`, as a condition. -/
def testBit (signal : CData) (bit : ℕ) : Bool := signal.setWidth 32 &&& oneShiftLeft bit ≠ 0

/-- The data ports of the model of the GPU, for `n` channels. -/
structure Vgpu (n : ℕ) where
  data_mem_read_valid : CData
  data_mem_read_address : Fin n → IData
  data_mem_read_ready : CData
  data_mem_read_data : Fin n → IData
  data_mem_write_valid : CData
  data_mem_write_address : Fin n → IData
  data_mem_write_data : Fin n → IData
  data_mem_write_ready : CData

/-- `DataMemory`. Of its pointers only those to the read data are ever assigned again: each is that
of a port, by its channel, or null. The others are used as the ports themselves. -/
structure DataMemory (n : ℕ) where
  data_mem_read_data : Fin n → Option (Fin n)
  memory : IData → Option IData

namespace DataMemory

variable {n : ℕ}

/-- `MAX_SIZE`. -/
def MAX_SIZE : IData := 0xFFFFFFFF#32

/-- `make_data_memory`, with a memory that is loaded. -/
def make (memory : IData → Option IData) : DataMemory n where
  data_mem_read_data := some
  memory := memory

/-- The word that `memory[addr]` gives: an address without an entry gets one of zero. -/
def read (mem : DataMemory n) (addr : IData) : IData := (mem.memory addr).getD 0

/-- An iteration of the loop over the writes. -/
def writeChannel (s : DataMemory n × Vgpu n) (i : Fin n) : DataMemory n × Vgpu n :=
  let (mem, dut) := s
  if testBit dut.data_mem_write_valid i then
    let addr := dut.data_mem_write_address i
    (if addr < MAX_SIZE then
        { mem with memory := Function.update mem.memory addr (some (dut.data_mem_write_data i)) }
      else mem,
      { dut with data_mem_write_ready := setBit dut.data_mem_write_ready i true })
  else (mem, { dut with data_mem_write_ready := setBit dut.data_mem_write_ready i false })

/-- An iteration of the loop over the reads. -/
def readChannel (s : DataMemory n × Vgpu n) (i : Fin n) : Option (DataMemory n × Vgpu n) :=
  let (mem, dut) := s
  if testBit dut.data_mem_read_valid i then
    let addr := dut.data_mem_read_address i
    let dut' := { dut with data_mem_read_ready := setBit dut.data_mem_read_ready i true }
    if addr < MAX_SIZE then
      match mem.data_mem_read_data i with
      | none => none
      | some port =>
        some ({ mem with memory := Function.update mem.memory addr (some (mem.read addr)) },
          { dut' with
            data_mem_read_data := Function.update dut.data_mem_read_data port (mem.read addr) })
    else
      -- The assignment lacks the dereference, so the pointer becomes null.
      some ({ mem with data_mem_read_data := Function.update mem.data_mem_read_data i none }, dut')
  else some (mem, { dut with data_mem_read_ready := setBit dut.data_mem_read_ready i false })

/-- `process`. -/
def process (mem : DataMemory n) (dut : Vgpu n) : Option (DataMemory n × Vgpu n) :=
  (List.finRange n).foldlM readChannel ((List.finRange n).foldl writeChannel (mem, dut))

/-- The memory object after a sequence of calls, each with what the GPU shows on its ports. -/
def after (mem : DataMemory n) (calls : List (Vgpu n)) : Option (DataMemory n) :=
  calls.foldlM (fun mem dut => (mem.process dut).map Prod.fst) mem

/-! ## What a memory with several ports does -/

/-- The stores that some of the channels ask for in a call. -/
def storesOf (dut : Vgpu n) (channels : List (Fin n)) : List (IData × IData) :=
  (channels.filter fun i : Fin n => testBit dut.data_mem_write_valid i).map fun i =>
    (dut.data_mem_write_address i, dut.data_mem_write_data i)

/-- The stores of a sequence of calls: call by call, and by the number of the channel. -/
def stores (calls : List (Vgpu n)) : List (IData × IData) :=
  calls.flatMap fun dut => storesOf dut (List.finRange n)

/-- The word that is at an address after the calls: the one that was stored last, or the one of the
start. There is no memory at `0xFFFFFFFF`. -/
def wordAt (memory : IData → Option IData) (calls : List (Vgpu n)) (addr : IData) : IData :=
  if addr = MAX_SIZE then 0 else (lastStore (stores calls) addr).getD ((memory addr).getD 0)

/-- A call with the ports `dut`, after the calls `done`, that leaves the memory object `mem'` and
the ports `dut'` is one of a memory with several ports, which held `memory` at the start. -/
structure Correct (memory : IData → Option IData) (done : List (Vgpu n)) (dut : Vgpu n)
    (mem mem' : DataMemory n) (dut' : Vgpu n) : Prop where
  /-- A read delivers the word that is at its address after the writes of the call. -/
  read : ∀ i : Fin n, testBit dut.data_mem_read_valid i = true →
    dut'.data_mem_read_data i = wordAt memory (done ++ [dut]) (dut.data_mem_read_address i)
  /-- The channels that read are told so. -/
  read_ready : ∀ i : Fin n,
    testBit dut'.data_mem_read_ready i = testBit dut.data_mem_read_valid i
  /-- The channels that write are told so. -/
  write_ready : ∀ i : Fin n,
    testBit dut'.data_mem_write_ready i = testBit dut.data_mem_write_valid i
  /-- Only the addresses that are written to change. -/
  frame : ∀ addr, (∀ i : Fin n, testBit dut.data_mem_write_valid i = true →
    dut.data_mem_write_address i ≠ addr) → mem'.read addr = mem.read addr
  /-- Every channel keeps its data port. -/
  port : ∀ i, mem'.data_mem_read_data i = some i

/-- Every call of the sequence returns, and is correct. -/
def Behaves (memory : IData → Option IData) (calls : List (Vgpu n)) : Prop :=
  ∀ done dut rest, calls = done ++ dut :: rest → ∃ mem mem' dut',
    (make memory).after done = some mem ∧ mem.process dut = some (mem', dut') ∧
      Correct memory done dut mem mem' dut'

end DataMemory

/-! ## Bits of a signal -/

section Bits

variable {signal : CData} {i j : ℕ} {value : Bool}

/-- The mask of a channel selects its bit, for the channels that the signal has. -/
theorem testBit_eq (h : i < 8) : testBit signal i = signal.getLsbD i := by
  have hbit : (signal.setWidth 32).getLsbD i = signal.getLsbD i := by
    rw [BitVec.getLsbD_setWidth, decide_eq_true (by omega), Bool.true_and]
  have hpow : BitVec.twoPow 32 i ≠ 0 := by
    intro hzero
    have hone : (BitVec.twoPow 32 i).getLsbD i = true := by
      rw [BitVec.getLsbD_twoPow]
      simp
      omega
    rw [hzero] at hone
    simp at hone
  unfold testBit oneShiftLeft
  rw [← BitVec.twoPow_eq, BitVec.and_twoPow, hbit]
  cases signal.getLsbD i with
  | false => simp
  | true => simpa using hpow

/-- Setting a bit changes this one only. -/
theorem testBit_setBit (hi : i < 8) (hj : j < 8) :
    testBit (setBit signal i value) j = if j = i then value else testBit signal j := by
  -- The mask has the one bit set, and is computed on 32 bits.
  have hpow : (1#32 <<< i).getLsbD j = decide (j = i) := by
    rw [← BitVec.twoPow_eq, BitVec.getLsbD_twoPow]
    have hlt : i < 32 := by omega
    simp [hlt, eq_comm]
  have hlt : j < 32 := by omega
  have hwide : (signal.setWidth 32).getLsbD j = signal.getLsbD j := by
    rw [BitVec.getLsbD_setWidth, decide_eq_true hlt, Bool.true_and]
  rw [testBit_eq hj, testBit_eq hj]
  unfold setBit oneShiftLeft
  cases value with
  | false =>
    rw [if_neg (by decide), BitVec.getLsbD_setWidth, BitVec.getLsbD_and, BitVec.getLsbD_not, hpow,
      hwide]
    by_cases hne : j = i
    · simp [hne]
    · simp [hne, hj, hlt]
  | true =>
    rw [if_pos rfl, BitVec.getLsbD_setWidth, BitVec.getLsbD_or, hpow, hwide]
    by_cases hne : j = i
    · simp [hne, hi]
    · simp [hne, hj]

end Bits

namespace DataMemory

variable {n : ℕ} {mem : DataMemory n} {dut : Vgpu n} {s s' : DataMemory n × Vgpu n}
  {done : List (Fin n)}

/-- Every address but the last one is below `MAX_SIZE`. -/
theorem lt_max_iff {addr : IData} : addr < MAX_SIZE ↔ addr ≠ MAX_SIZE := by
  have hlt := addr.isLt
  have hmax : MAX_SIZE.toNat = 2 ^ 32 - 1 := rfl
  rw [BitVec.lt_def, ← BitVec.toNat_inj.ne, hmax]
  omega

/-- A write changes the word at its own address. -/
theorem read_update (memory : IData → Option IData) (pointers : Fin n → Option (Fin n))
    (addr addr' : IData) (word : IData) :
    read ⟨pointers, Function.update memory addr (some word)⟩ addr' =
      if addr' = addr then word else read ⟨pointers, memory⟩ addr' := by
  unfold read
  by_cases h : addr' = addr
  · simp [h]
  · simp [h]

/-- The ready bits of the channels that are done, after one more. -/
theorem setBit_done (hn : n ≤ 8) {valid ready : CData} {i : Fin n} {value : Bool}
    (hi : testBit valid i = value) (h : ∀ j ∈ done, testBit ready j = testBit valid j) :
    ∀ j ∈ done ++ [i], testBit (setBit ready i value) j = testBit valid j := by
  intro j hj
  rw [testBit_setBit (by omega) (by omega)]
  by_cases hji : (j : ℕ) = i
  · rw [if_pos hji, ← hi, hji]
  · have hne : j ≠ i := fun he => hji (congrArg Fin.val he)
    rw [if_neg hji]
    exact h j (by simpa [hne] using hj)

/-! ## The writes of a call -/

/-- The channels `done` have written. -/
structure Written (mem : DataMemory n) (dut : Vgpu n) (done : List (Fin n))
    (s : DataMemory n × Vgpu n) : Prop where
  /-- Only the `ready` of the writes has changed. -/
  ports : ∃ ready, s.2 = { dut with data_mem_write_ready := ready }
  /-- The object has the ports from before the call. -/
  pointers : s.1.data_mem_read_data = mem.data_mem_read_data
  /-- The words are those of the last stores. -/
  word : ∀ addr, s.1.read addr = if addr = MAX_SIZE then mem.read addr
    else (lastStore (storesOf dut done) addr).getD (mem.read addr)
  /-- The channels that write have been told so. -/
  ready : ∀ i ∈ done, testBit s.2.data_mem_write_ready i = testBit dut.data_mem_write_valid i

/-- The stores of one more channel. -/
theorem storesOf_append (dut : Vgpu n) (done : List (Fin n)) (i : Fin n) :
    storesOf dut (done ++ [i]) = storesOf dut done ++
      if testBit dut.data_mem_write_valid i then
        [(dut.data_mem_write_address i, dut.data_mem_write_data i)]
      else [] := by
  unfold storesOf
  rw [List.filter_append, List.map_append]
  by_cases h : testBit dut.data_mem_write_valid i = true
  · simp [h]
  · simp [h]

/-- An iteration of the first loop performs the channel's store. -/
theorem Written.step (hn : n ≤ 8) (h : Written mem dut done s) (i : Fin n) :
    Written mem dut (done ++ [i]) (writeChannel s i) := by
  obtain ⟨mem', dut'⟩ := s
  obtain ⟨⟨ready, rfl⟩, hpointers, hword, hready⟩ := h
  unfold writeChannel
  by_cases hvalid : testBit dut.data_mem_write_valid i = true
  · simp only [if_pos hvalid]
    refine ⟨⟨_, rfl⟩, ?_, fun addr => ?_, setBit_done hn hvalid hready⟩
    · split_ifs
      · exact hpointers
      · exact hpointers
    · rw [storesOf_append, if_pos hvalid, lastStore_append_singleton]
      by_cases hlt : dut.data_mem_write_address i < MAX_SIZE
      · rw [if_pos hlt, read_update]
        by_cases haddr : addr = dut.data_mem_write_address i
        · rw [if_pos haddr, if_neg (haddr ▸ lt_max_iff.mp hlt), if_pos haddr.symm]
          rfl
        · rw [if_neg haddr, if_neg (Ne.symm haddr)]
          exact hword addr
      · -- A write out of bounds is reported, and stores nothing.
        have hmax : dut.data_mem_write_address i = MAX_SIZE := by
          by_contra hne
          exact hlt (lt_max_iff.mpr hne)
        rw [if_neg hlt, hmax]
        by_cases haddr : addr = MAX_SIZE
        · rw [if_pos haddr]
          exact (hword addr).trans (if_pos haddr)
        · rw [if_neg haddr, if_neg (Ne.symm haddr)]
          exact (hword addr).trans (if_neg haddr)
  · simp only [if_neg hvalid]
    refine ⟨⟨_, rfl⟩, hpointers, fun addr => ?_, setBit_done hn (by simpa using hvalid) hready⟩
    rw [storesOf_append, if_neg hvalid, List.append_nil]
    exact hword addr

/-- The first loop performs all stores in the order of the channels. -/
theorem written (hn : n ≤ 8) (mem : DataMemory n) (dut : Vgpu n) :
    Written mem dut (List.finRange n) ((List.finRange n).foldl writeChannel (mem, dut)) := by
  have hstart : Written mem dut [] (mem, dut) := by
    refine ⟨⟨_, rfl⟩, rfl, fun addr => ?_, fun i hi => absurd hi List.not_mem_nil⟩
    split_ifs
    · rfl
    · rfl
  exact Loop.foldl_done_induction (Written mem dut) (fun _ i _ h => h.step hn i) hstart

/-! ## The reads of a call -/

/-- The channels `done` have read. -/
structure Delivered (mem : DataMemory n) (dut : Vgpu n) (done : List (Fin n))
    (s : DataMemory n × Vgpu n) : Prop where
  /-- Only the `ready` and the words of the reads have changed. -/
  ports : ∃ ready data,
    s.2 = { dut with data_mem_read_ready := ready, data_mem_read_data := data }
  /-- The object has all its ports. -/
  pointers : s.1.data_mem_read_data = some
  /-- The words in memory are those from before the reads. -/
  word : ∀ addr, s.1.read addr = mem.read addr
  /-- The channels that read have been told so. -/
  ready : ∀ i ∈ done, testBit s.2.data_mem_read_ready i = testBit dut.data_mem_read_valid i
  /-- The channels that read have their words. -/
  data : ∀ i ∈ done, testBit dut.data_mem_read_valid i = true →
    s.2.data_mem_read_data i = mem.read (dut.data_mem_read_address i)

/-- A channel whose read is in bounds is served through its port. -/
theorem Delivered.step (hn : n ≤ 8) (h : Delivered mem dut done s) {i : Fin n}
    (hi : testBit dut.data_mem_read_valid i = true → dut.data_mem_read_address i ≠ MAX_SIZE) :
    ∃ s', readChannel s i = some s' ∧ Delivered mem dut (done ++ [i]) s' := by
  obtain ⟨mem', dut'⟩ := s
  obtain ⟨⟨ready, data, rfl⟩, hpointers, hword, hready, hdata⟩ := h
  unfold readChannel
  by_cases hvalid : testBit dut.data_mem_read_valid i = true
  · have hpointer : mem'.data_mem_read_data i = some i := congrFun hpointers i
    simp only [if_pos hvalid, if_pos (lt_max_iff.mpr (hi hvalid)), hpointer]
    refine ⟨_, rfl, ⟨_, _, rfl⟩, hpointers, fun addr => ?_, setBit_done hn hvalid hready,
      fun j hj hjvalid => ?_⟩
    · -- The entry that the access makes, if there was none, has the value that it reads as.
      rw [read_update]
      by_cases haddr : addr = dut.data_mem_read_address i
      · rw [if_pos haddr, haddr]
        exact hword _
      · rw [if_neg haddr]
        exact hword addr
    · by_cases hji : j = i
      · rw [hji]
        exact (Function.update_self _ _ _).trans (hword _)
      · exact (Function.update_of_ne hji _ _).trans (hdata j (by simpa [hji] using hj) hjvalid)
  · simp only [if_neg hvalid]
    refine ⟨_, rfl, ⟨_, _, rfl⟩, hpointers, hword, setBit_done hn (by simpa using hvalid) hready,
      fun j hj hjvalid => ?_⟩
    have hji : j ≠ i := fun he => hvalid (he ▸ hjvalid)
    exact hdata j (by simpa [hji] using hj) hjvalid

/-- A pointer that was set to null stays null. -/
theorem readChannel_null {i j : Fin n} (h : readChannel s i = some s')
    (hj : s.1.data_mem_read_data j = none) : s'.1.data_mem_read_data j = none := by
  obtain ⟨mem, dut⟩ := s
  unfold readChannel at h
  simp only at h
  split_ifs at h
  · cases hpointer : mem.data_mem_read_data i with
    | none => simp [hpointer] at h
    | some port =>
      rw [hpointer] at h
      obtain rfl := Option.some.inj h
      exact hj
  · obtain rfl := Option.some.inj h
    by_cases hji : j = i
    · rw [hji]
      exact Function.update_self _ _ _
    · exact (Function.update_of_ne hji _ _).trans hj
  · obtain rfl := Option.some.inj h
    exact hj

/-- An iteration leaves the requests on the ports. -/
theorem readChannel_requests {i : Fin n} (h : readChannel s i = some s') :
    s'.2.data_mem_read_valid = s.2.data_mem_read_valid ∧
      s'.2.data_mem_read_address = s.2.data_mem_read_address := by
  obtain ⟨mem, dut⟩ := s
  unfold readChannel at h
  simp only at h
  split_ifs at h
  · cases hpointer : mem.data_mem_read_data i with
    | none => simp [hpointer] at h
    | some port =>
      rw [hpointer] at h
      obtain rfl := Option.some.inj h
      exact ⟨rfl, rfl⟩
  · obtain rfl := Option.some.inj h
    exact ⟨rfl, rfl⟩
  · obtain rfl := Option.some.inj h
    exact ⟨rfl, rfl⟩

/-- A channel that reads out of bounds loses its port. -/
theorem readChannel_max {i : Fin n} (h : readChannel s i = some s')
    (hvalid : testBit s.2.data_mem_read_valid i = true)
    (haddr : s.2.data_mem_read_address i = MAX_SIZE) : s'.1.data_mem_read_data i = none := by
  obtain ⟨mem, dut⟩ := s
  have hmax : ¬dut.data_mem_read_address i < MAX_SIZE := fun hlt => lt_max_iff.mp hlt haddr
  unfold readChannel at h
  simp only at h
  rw [if_pos hvalid, if_neg hmax] at h
  obtain rfl := Option.some.inj h
  exact Function.update_self _ _ _

/-! ## Calls -/

/-- A call whose reads are all in bounds. -/
theorem process_correct (hn : n ≤ 8) (hpointers : mem.data_mem_read_data = some)
    (hreads : ∀ i : Fin n, testBit dut.data_mem_read_valid i = true →
      dut.data_mem_read_address i ≠ MAX_SIZE) :
    ∃ mem' dut', mem.process dut = some (mem', dut') ∧ mem'.data_mem_read_data = some ∧
      (∀ addr, mem'.read addr = if addr = MAX_SIZE then mem.read addr
        else (lastStore (storesOf dut (List.finRange n)) addr).getD (mem.read addr)) ∧
      ∀ i : Fin n, testBit dut'.data_mem_read_ready i = testBit dut.data_mem_read_valid i ∧
        testBit dut'.data_mem_write_ready i = testBit dut.data_mem_write_valid i ∧
        (testBit dut.data_mem_read_valid i = true →
          dut'.data_mem_read_data i = mem'.read (dut.data_mem_read_address i)) := by
  -- The writes of the call come first, on all channels,
  have hw : Written mem dut (List.finRange n) ((List.finRange n).foldl writeChannel (mem, dut)) :=
    written hn mem dut
  unfold process
  generalize (List.finRange n).foldl writeChannel (mem, dut) = s at hw
  obtain ⟨mem₁, dut₁⟩ := s
  obtain ⟨⟨ready, rfl⟩, hpointers₁, hword, hready⟩ := hw
  -- and then the reads, each of which finds its port.
  have hstart : Delivered mem₁ { dut with data_mem_write_ready := ready } []
      (mem₁, { dut with data_mem_write_ready := ready }) :=
    ⟨⟨_, _, rfl⟩, hpointers₁.trans hpointers, fun _ => rfl, fun i hi => absurd hi List.not_mem_nil,
      fun i hi => absurd hi List.not_mem_nil⟩
  obtain ⟨⟨mem', dut'⟩, hloop, hd⟩ := Loop.foldlM_total
    (Delivered mem₁ { dut with data_mem_write_ready := ready })
    (fun _ i _ _ h => h.step hn (hreads i)) hstart
  obtain ⟨⟨ready', data, rfl⟩, hpointers', hword', hready', hdata⟩ := hd
  refine ⟨mem', _, hloop, hpointers', fun addr => (hword' addr).trans (hword addr), fun i => ?_⟩
  have hi : i ∈ List.finRange n := List.mem_finRange i
  exact ⟨hready' i hi, hready i hi, fun hvalid => (hdata i hi hvalid).trans (hword' _).symm⟩

/-- A call with a read out of bounds leaves the channel without a port. -/
theorem process_max {mem' : DataMemory n} {dut' : Vgpu n} {i : Fin n} (hn : n ≤ 8)
    (h : mem.process dut = some (mem', dut')) (hvalid : testBit dut.data_mem_read_valid i = true)
    (haddr : dut.data_mem_read_address i = MAX_SIZE) : mem'.data_mem_read_data i = none := by
  have hw : Written mem dut (List.finRange n) ((List.finRange n).foldl writeChannel (mem, dut)) :=
    written hn mem dut
  unfold process at h
  generalize (List.finRange n).foldl writeChannel (mem, dut) = s at hw h
  obtain ⟨mem₁, dut₁⟩ := s
  obtain ⟨⟨ready, rfl⟩, -⟩ := hw
  -- From the iteration of the channel on, its pointer is null.
  have hloop := Loop.foldlM_induction
    (fun done s => s.2.data_mem_read_valid = dut.data_mem_read_valid ∧
      s.2.data_mem_read_address = dut.data_mem_read_address ∧
        (i ∈ done → s.1.data_mem_read_data i = none))
    (fun done j s s' hs hstep => by
      obtain ⟨hv, ha, hnull⟩ := hs
      obtain ⟨hv', ha'⟩ := readChannel_requests hstep
      refine ⟨hv'.trans hv, ha'.trans ha, fun hi => ?_⟩
      by_cases hij : i = j
      · subst hij
        exact readChannel_max hstep (by rwa [hv]) (by rwa [ha])
      · exact readChannel_null hstep (hnull (by simpa [hij] using hi)))
    (⟨rfl, rfl, fun hi => absurd hi List.not_mem_nil⟩) h
  exact hloop.2.2 (List.mem_finRange i)

/-- The word at an address after one more call. -/
theorem wordAt_append (memory : IData → Option IData) (done : List (Vgpu n)) (dut : Vgpu n)
    (addr : IData) : wordAt memory (done ++ [dut]) addr = if addr = MAX_SIZE then 0
      else (lastStore (storesOf dut (List.finRange n)) addr).getD (wordAt memory done addr) := by
  have hstores : stores (done ++ [dut]) = stores done ++ storesOf dut (List.finRange n) := by
    simp [stores]
  unfold wordAt
  by_cases haddr : addr = MAX_SIZE
  · rw [if_pos haddr, if_pos haddr]
  · rw [if_neg haddr, if_neg haddr, if_neg haddr, hstores, lastStore_append]
    cases lastStore (storesOf dut (List.finRange n)) addr with
    | none => rfl
    | some word => rfl

/-- After calls whose reads are all in bounds, the memory object has all its ports, and the words
that were stored. -/
theorem after_correct (hn : n ≤ 8) (memory : IData → Option IData) {calls : List (Vgpu n)}
    (hreads : ∀ dut ∈ calls, ∀ i : Fin n, testBit dut.data_mem_read_valid i = true →
      dut.data_mem_read_address i ≠ MAX_SIZE) :
    ∃ mem, (make memory).after calls = some mem ∧ mem.data_mem_read_data = some ∧
      ∀ addr, addr ≠ MAX_SIZE → mem.read addr = wordAt memory calls addr := by
  have hstart : (make memory : DataMemory n).data_mem_read_data = some ∧
      ∀ addr, addr ≠ MAX_SIZE →
        (make memory : DataMemory n).read addr = wordAt memory ([] : List (Vgpu n)) addr := by
    refine ⟨rfl, fun addr haddr => ?_⟩
    rw [wordAt, if_neg haddr]
    rfl
  refine Loop.foldlM_total (fun calls (mem : DataMemory n) => mem.data_mem_read_data = some ∧
    ∀ addr, addr ≠ MAX_SIZE → mem.read addr = wordAt memory calls addr) ?_ hstart
  rintro done dut hdut mem ⟨hpointers, hword⟩
  obtain ⟨mem', dut', hprocess, hpointers', hword', -⟩ :=
    process_correct hn hpointers (hreads dut hdut)
  refine ⟨mem', by rw [hprocess]; rfl, hpointers', fun addr haddr => ?_⟩
  rw [hword', if_neg haddr, hword addr haddr, wordAt_append, if_neg haddr]

/-- The ports of a GPU with one channel, which reads the address. -/
def readAt (addr : IData) : Vgpu 1 where
  data_mem_read_valid := 1
  data_mem_read_address := fun _ => addr
  data_mem_read_ready := 0
  data_mem_read_data := fun _ => 0
  data_mem_write_valid := 0
  data_mem_write_address := fun _ => 0
  data_mem_write_data := fun _ => 0
  data_mem_write_ready := 0

end DataMemory

open DataMemory in
/-- The simulated memory is a correct memory with several ports through a sequence of calls if and
only if no call reads the address `0xFFFFFFFF`. -/
theorem dataMemory_correct_iff {n : ℕ} (hn : n ≤ 8) (memory : IData → Option IData)
    (calls : List (Vgpu n)) : Behaves memory calls ↔
      ∀ dut ∈ calls, ∀ i : Fin n, testBit dut.data_mem_read_valid i = true →
        dut.data_mem_read_address i ≠ MAX_SIZE := by
  constructor
  · -- A read out of bounds takes the port of its channel away.
    intro h dut hdut i hvalid haddr
    obtain ⟨done, rest, hcalls⟩ := List.append_of_mem hdut
    obtain ⟨mem, mem', dut', -, hprocess, hcorrect⟩ := h done dut rest hcalls
    have hport := hcorrect.port i
    rw [process_max hn hprocess hvalid haddr] at hport
    simp at hport
  · -- Without one, all ports are there before the call, and each read gets the last word written.
    rintro hreads done dut rest rfl
    obtain ⟨mem, hafter, hpointers, hword⟩ :=
      after_correct hn memory fun d hd => hreads d (List.mem_append_left _ hd)
    have hdut := hreads dut (by simp)
    obtain ⟨mem', dut', hprocess, hpointers', hword', hports⟩ := process_correct hn hpointers hdut
    refine ⟨mem, mem', dut', hafter, hprocess, fun i hvalid => ?_, fun i => (hports i).1,
      fun i => (hports i).2.1, fun addr hframe => ?_, fun i => congrFun hpointers' i⟩
    · rw [(hports i).2.2 hvalid, hword', if_neg (hdut i hvalid), wordAt_append,
        if_neg (hdut i hvalid), hword _ (hdut i hvalid)]
    · have hnone : lastStore (storesOf dut (List.finRange n)) addr = none := by
        apply lastStore_eq_none
        intro e he
        obtain ⟨i, hi, rfl⟩ := List.mem_map.mp he
        exact hframe i (List.mem_filter.mp hi).2
      rw [hword', hnone]
      exact ite_self _

open DataMemory in
/-- One read of the address 0. -/
theorem dataMemory_correct_iff_read : Behaves (fun _ => none) [readAt 0] ↔
    ∀ dut ∈ [readAt 0], ∀ i : Fin 1, testBit dut.data_mem_read_valid i = true →
      dut.data_mem_read_address i ≠ MAX_SIZE :=
  dataMemory_correct_iff (by decide) (fun _ => none) [readAt 0]

open DataMemory in
/-- A read of `0xFFFFFFFF` leaves the channel without a port, and the read after it does not
return. -/
theorem dataMemory_loses_port : ¬∀ (memory : IData → Option IData) (calls : List (Vgpu 1)),
    Behaves memory calls := by
  intro h
  obtain ⟨mem, mem', dut', hafter, hprocess, -⟩ :=
    h (fun _ => none) [readAt MAX_SIZE, readAt 0] [readAt MAX_SIZE] (readAt 0) [] rfl
  have hnone : (((make fun _ => none).after [readAt MAX_SIZE]).bind fun mem =>
      mem.process (readAt 0)).isSome = false := by decide +kernel
  rw [hafter, Option.bind_some, hprocess] at hnone
  simp at hnone

end SmolGpu.Sim
