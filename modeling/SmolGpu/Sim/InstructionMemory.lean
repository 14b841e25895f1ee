import SmolGpu.Sim.DataMemory

/-!
# The simulated instruction memory

`InstructionMemory` of `src/sim/simlib/sim.hpp`: the memory that the simulator puts behind the
instruction ports of the GPU. A program is loaded from address 0 on, by `main.cpp` into the entries
themselves and by the tests with `push_instruction`, and `process` then serves all channels once a
cycle. Unlike the data memory it never loses a port, so that every call delivers the words of the
program (`instruction_memory_serves_code`).
-/

namespace SmolGpu.Sim

/-- The instruction ports of the model of the GPU, for `n` channels. -/
structure InstructionPorts (n : ℕ) where
  instruction_mem_read_valid : CData
  instruction_mem_read_address : Fin n → IData
  instruction_mem_read_ready : CData
  instruction_mem_read_data : Fin n → IData

/-- `InstructionMemory`. Its pointers are used as the ports themselves. -/
structure InstructionMemory where
  memory : IData → Option IData
  stack_ptr : IData

namespace InstructionMemory

variable {n : ℕ}

/-- `MAX_SIZE`. -/
def MAX_SIZE : IData := 0xFFFFFFFF#32

/-- `make_instruction_memory`. -/
def make : InstructionMemory where
  memory := fun _ => none
  stack_ptr := 0

/-- The word that `memory[addr]` gives: an address without an entry gets one of zero. -/
def read (mem : InstructionMemory) (addr : IData) : IData := (mem.memory addr).getD 0

/-- The entry `memory[addr]` with a value. -/
def assign (mem : InstructionMemory) (addr word : IData) : InstructionMemory :=
  { mem with memory := Function.update mem.memory addr (some word) }

/-- `push_instruction`. -/
def pushInstruction (mem : InstructionMemory) (instruction : InstructionBits) :
    InstructionMemory :=
  { mem.assign mem.stack_ptr instruction with stack_ptr := mem.stack_ptr + 1 }

/-- The loop of `main.cpp` over the machine code. -/
def load (mem : InstructionMemory) (machine_code : List InstructionBits) : InstructionMemory :=
  machine_code.zipIdx.foldl (fun mem (bits, i) => mem.assign (BitVec.ofNat 32 i) bits) mem

/-- An iteration of the loop of `process`. -/
def readChannel (s : InstructionMemory × InstructionPorts n) (i : Fin n) :
    InstructionMemory × InstructionPorts n :=
  let (mem, dut) := s
  if testBit dut.instruction_mem_read_valid i then
    let addr := dut.instruction_mem_read_address i
    let dut' :=
      { dut with instruction_mem_read_ready := setBit dut.instruction_mem_read_ready i true }
    if addr < MAX_SIZE then
      (mem.assign addr (mem.read addr),
        { dut' with
          instruction_mem_read_data :=
            Function.update dut.instruction_mem_read_data i (mem.read addr) })
    else
      (mem,
        { dut' with
          instruction_mem_read_data := Function.update dut.instruction_mem_read_data i 0 })
  else
    (mem, { dut with instruction_mem_read_ready := setBit dut.instruction_mem_read_ready i false })

/-- `process`. -/
def process (mem : InstructionMemory) (dut : InstructionPorts n) :
    InstructionMemory × InstructionPorts n :=
  (List.finRange n).foldl readChannel (mem, dut)

/-- The memory object after a sequence of calls, each with what the GPU shows on its ports. -/
def after (mem : InstructionMemory) (calls : List (InstructionPorts n)) : InstructionMemory :=
  calls.foldl (fun mem dut => (mem.process dut).1) mem

end InstructionMemory

/-- The words of a program from address 0 on, and zeros everywhere else. -/
def code (words : List InstructionBits) (addr : IData) : IData := (words[addr.toNat]?).getD 0

/-- A call with the ports `dut` that leaves the ports `dut'` is one of a memory that holds
`word`. -/
structure Serves {n : ℕ} (word : IData → IData) (dut dut' : InstructionPorts n) : Prop where
  /-- A channel that asks gets the word at its address. -/
  read : ∀ i : Fin n, testBit dut.instruction_mem_read_valid i = true →
    dut'.instruction_mem_read_data i = word (dut.instruction_mem_read_address i)
  /-- The word of a channel that does not ask is left alone. -/
  kept : ∀ i : Fin n, testBit dut.instruction_mem_read_valid i = false →
    dut'.instruction_mem_read_data i = dut.instruction_mem_read_data i
  /-- The channels that ask are told so. -/
  ready : ∀ i : Fin n,
    testBit dut'.instruction_mem_read_ready i = testBit dut.instruction_mem_read_valid i
  /-- The requests are left alone. -/
  request : dut'.instruction_mem_read_valid = dut.instruction_mem_read_valid ∧
    dut'.instruction_mem_read_address = dut.instruction_mem_read_address

namespace InstructionMemory

variable {n : ℕ} {mem : InstructionMemory} {dut : InstructionPorts n}
  {s : InstructionMemory × InstructionPorts n} {done : List (Fin n)}

/-! ## Loading -/

/-- A word that is assigned is read at its own address. -/
theorem read_assign (addr word addr' : IData) :
    (mem.assign addr word).read addr' = if addr' = addr then word else mem.read addr' := by
  unfold read assign
  by_cases h : addr' = addr
  · simp [h]
  · simp [h]

/-- The words of a program behind `k` others, and those of the memory everywhere else. -/
def codeFrom (mem : InstructionMemory) (k : ℕ) (words : List InstructionBits) (addr : IData) :
    IData :=
  if k ≤ addr.toNat ∧ addr.toNat < k + words.length then (words[addr.toNat - k]?).getD 0
  else mem.read addr

/-- An entry in front of those that are still to come. -/
theorem codeFrom_cons {k : ℕ} {word : InstructionBits} {words : List InstructionBits}
    (hk : k + words.length + 1 < 2 ^ 32) (addr : IData) :
    codeFrom (mem.assign (BitVec.ofNat 32 k) word) (k + 1) words addr =
      codeFrom mem k (word :: words) addr := by
  have hnat : (BitVec.ofNat 32 k).toNat = k := by
    rw [BitVec.toNat_ofNat]
    omega
  have hsame : addr = BitVec.ofNat 32 k ↔ addr.toNat = k := by
    rw [← BitVec.toNat_inj, hnat]
  unfold codeFrom
  rw [read_assign, List.length_cons]
  simp only [hsame]
  by_cases haddr : addr.toNat = k
  · rw [if_neg (by omega), if_pos haddr, if_pos (by omega), haddr, Nat.sub_self]
    rfl
  by_cases hin : k + 1 ≤ addr.toNat ∧ addr.toNat < k + 1 + words.length
  · have hsucc : addr.toNat - k = addr.toNat - (k + 1) + 1 := by omega
    rw [if_pos hin, if_pos (by omega), hsucc, List.getElem?_cons_succ]
  · rw [if_neg hin, if_neg haddr, if_neg (by omega)]

/-- Assigning the words one after the other. -/
theorem read_foldl_assign (words : List InstructionBits) (k : ℕ) (mem : InstructionMemory)
    (hk : k + words.length < 2 ^ 32) (addr : IData) :
    ((words.zipIdx k).foldl (fun mem (bits, i) => mem.assign (BitVec.ofNat 32 i) bits) mem).read
      addr = codeFrom mem k words addr := by
  induction words generalizing k mem with
  | nil =>
    unfold codeFrom
    rw [if_neg (by simp)]
    rfl
  | cons word words ih =>
    rw [List.length_cons] at hk
    rw [List.zipIdx_cons, List.foldl_cons, ih (k + 1) _ (by omega), codeFrom_cons (by omega)]

/-- In an empty memory there is nothing but the program. -/
theorem codeFrom_make (words : List InstructionBits) (addr : IData) :
    codeFrom make 0 words addr = code words addr := by
  unfold codeFrom code
  by_cases hin : addr.toNat < words.length
  · rw [if_pos (by omega), Nat.sub_zero]
  · rw [if_neg (by omega), List.getElem?_eq_none (by omega)]
    rfl

/-- Pushing the words one after the other. -/
theorem read_foldl_push {words : List InstructionBits} (k : ℕ) (mem : InstructionMemory)
    (hk : k + words.length < 2 ^ 32) (hptr : mem.stack_ptr = BitVec.ofNat 32 k) (addr : IData) :
    (words.foldl pushInstruction mem).read addr = codeFrom mem k words addr := by
  induction words generalizing k mem with
  | nil =>
    unfold codeFrom
    rw [if_neg (by simp)]
    rfl
  | cons word words ih =>
    rw [List.length_cons] at hk
    have hptr' : (mem.pushInstruction word).stack_ptr = BitVec.ofNat 32 (k + 1) := by
      show mem.stack_ptr + 1 = _
      rw [hptr, BitVec.ofNat_add]
      rfl
    have hread : codeFrom (mem.pushInstruction word) (k + 1) words addr =
        codeFrom (mem.assign (BitVec.ofNat 32 k) word) (k + 1) words addr := by
      rw [← hptr]
      rfl
    rw [List.foldl_cons, ih (k + 1) _ (by omega) hptr', hread, codeFrom_cons (by omega)]

/-- `main.cpp` loads the program. -/
theorem read_load {words : List InstructionBits} (h : words.length < 2 ^ 32) (addr : IData) :
    (make.load words).read addr = code words addr :=
  (read_foldl_assign words 0 make (by omega) addr).trans (codeFrom_make words addr)

/-- Pushing the program is loading it. -/
theorem read_push {words : List InstructionBits} (h : words.length < 2 ^ 32) (addr : IData) :
    (words.foldl pushInstruction make).read addr = code words addr :=
  (read_foldl_push 0 make (by omega) rfl addr).trans (codeFrom_make words addr)

/-! ## Calls -/

/-- The word that a channel gets. -/
def word (mem : InstructionMemory) (addr : IData) : IData :=
  if addr < MAX_SIZE then mem.read addr else 0

/-- The channels `done` have been served. -/
structure Served (mem : InstructionMemory) (dut : InstructionPorts n) (done : List (Fin n))
    (s : InstructionMemory × InstructionPorts n) : Prop where
  /-- Only the `ready` and the words have changed. -/
  ports : ∃ ready data,
    s.2 = { dut with instruction_mem_read_ready := ready, instruction_mem_read_data := data }
  /-- The words in memory are those from before the call. -/
  read : ∀ addr, s.1.read addr = mem.read addr
  /-- The channels that ask have been told so. -/
  ready : ∀ i ∈ done,
    testBit s.2.instruction_mem_read_ready i = testBit dut.instruction_mem_read_valid i
  /-- The channels that ask have their words. -/
  data : ∀ i, s.2.instruction_mem_read_data i =
    if i ∈ done ∧ testBit dut.instruction_mem_read_valid i = true then
      mem.word (dut.instruction_mem_read_address i)
    else dut.instruction_mem_read_data i

/-- An iteration of `process` serves its channel. -/
theorem Served.step (hn : n ≤ 8) (h : Served mem dut done s) (i : Fin n) :
    Served mem dut (done ++ [i]) (readChannel s i) := by
  obtain ⟨mem', dut'⟩ := s
  obtain ⟨⟨ready, data, rfl⟩, hread, hready, hdata⟩ := h
  simp only at hread hready hdata
  unfold readChannel
  by_cases hvalid : testBit dut.instruction_mem_read_valid i = true
  · -- The channel gets the word that was there before the call.
    have hword (j : Fin n) :
        Function.update data i (mem.word (dut.instruction_mem_read_address i)) j =
          if j ∈ done ++ [i] ∧ testBit dut.instruction_mem_read_valid j = true then
            mem.word (dut.instruction_mem_read_address j)
          else dut.instruction_mem_read_data j := by
      by_cases hji : j = i
      · rw [hji, Function.update_self, if_pos ⟨by simp, hvalid⟩]
      · rw [Function.update_of_ne hji, hdata]
        simp [hji]
    simp only [if_pos hvalid]
    by_cases hlt : dut.instruction_mem_read_address i < MAX_SIZE
    · simp only [if_pos hlt]
      refine ⟨⟨_, _, rfl⟩, fun addr => ?_, DataMemory.setBit_done hn hvalid hready, fun j => ?_⟩
      · rw [read_assign, hread]
        by_cases haddr : addr = dut.instruction_mem_read_address i
        · rw [if_pos haddr, haddr]
        · rw [if_neg haddr]
          exact hread addr
      · rw [← hword, word, if_pos hlt, hread]
    · simp only [if_neg hlt]
      refine ⟨⟨_, _, rfl⟩, hread, DataMemory.setBit_done hn hvalid hready, fun j => ?_⟩
      rw [← hword, word, if_neg hlt]
  · simp only [if_neg hvalid]
    refine ⟨⟨_, _, rfl⟩, hread, DataMemory.setBit_done hn (by simpa using hvalid) hready,
      fun j => (hdata j).trans ?_⟩
    by_cases hji : j = i
    · rw [hji, if_neg (by simp [hvalid]), if_neg (by simp [hvalid])]
    · simp [hji]

/-- A call serves all channels, and leaves the words as they are. -/
theorem process_serves (hn : n ≤ 8) (mem : InstructionMemory) (dut : InstructionPorts n) :
    (∀ addr, (mem.process dut).1.read addr = mem.read addr) ∧
      Serves mem.word dut (mem.process dut).2 := by
  have hstart : Served mem dut [] (mem, dut) :=
    ⟨⟨_, _, rfl⟩, fun _ => rfl, fun i hi => absurd hi List.not_mem_nil,
      fun i => (if_neg fun hi => List.not_mem_nil hi.1).symm⟩
  have hserved : Served mem dut ([] ++ List.finRange n) (mem.process dut) :=
    Loop.foldl_done_induction (Served mem dut) (fun _ i _ h => h.step hn i) hstart
  obtain ⟨⟨ready, data, hports⟩, hread, hready, hdata⟩ := hserved
  have hmem (i : Fin n) : i ∈ [] ++ List.finRange n := List.mem_finRange i
  refine ⟨hread, fun i hi => ?_, fun i hi => ?_, fun i => hready i (hmem i), ?_⟩
  · rw [hdata, if_pos ⟨hmem i, hi⟩]
  · rw [hdata, if_neg (by simp [hi])]
  · rw [hports]
    exact ⟨rfl, rfl⟩

/-- Calls leave the words as they are. -/
theorem read_after (hn : n ≤ 8) (mem : InstructionMemory) (calls : List (InstructionPorts n))
    (addr : IData) : (mem.after calls).read addr = mem.read addr := by
  unfold after
  induction calls generalizing mem with
  | nil => rfl
  | cons dut calls ih =>
    rw [List.foldl_cons, ih]
    exact (process_serves hn mem dut).1 addr

/-- A memory that holds a program, below the address that is out of bounds. -/
theorem word_eq_code {words : List InstructionBits} (h : words.length < 2 ^ 32)
    (hread : ∀ addr, mem.read addr = code words addr) (addr : IData) :
    mem.word addr = code words addr := by
  unfold word
  split_ifs with hlt
  · exact hread addr
  · -- There is no room for a word of the program there.
    have hmax : addr = MAX_SIZE := by
      by_contra hne
      exact hlt (DataMemory.lt_max_iff.mpr hne)
    have hnat : addr.toNat = 2 ^ 32 - 1 := by
      rw [hmax]
      rfl
    unfold code
    rw [List.getElem?_eq_none (by omega)]
    rfl

end InstructionMemory

open InstructionMemory in
/-- A program of fewer than `2^32` words, loaded as `main.cpp` does or with `push_instruction`.
Whatever the GPU asks for, in this call and in those before, every call of `process` delivers the
word of the program, or a zero behind its end, on each channel that asks and on no other, and raises
the `ready` of these channels and of no others. -/
theorem instruction_memory_serves_code {n : ℕ} (hn : n ≤ 8) {words : List InstructionBits}
    (h : words.length < 2 ^ 32) {mem : InstructionMemory}
    (hmem : mem = make.load words ∨ mem = words.foldl pushInstruction make)
    (calls : List (InstructionPorts n)) (dut : InstructionPorts n) :
    (∀ addr, (mem.after calls).read addr = code words addr) ∧
      Serves (code words) dut ((mem.after calls).process dut).2 := by
  have hread (addr : IData) : (mem.after calls).read addr = code words addr := by
    rw [read_after hn]
    rcases hmem with rfl | rfl
    · exact read_load h addr
    · exact read_push h addr
  refine ⟨hread, ?_⟩
  rw [← funext (word_eq_code h hread)]
  exact (process_serves hn _ dut).2

open InstructionMemory in
/-- A program of one word, which the first of two channels asks for. -/
theorem instruction_memory_serves_code_halt :
    (∀ addr, ((([0x7F#32] : List InstructionBits).foldl pushInstruction make).after
        ([] : List (InstructionPorts 2))).read addr = code [0x7F#32] addr) ∧
      Serves (code [0x7F#32]) (⟨1, fun _ => 0, 0, fun _ => 5⟩ : InstructionPorts 2)
        (((([0x7F#32] : List InstructionBits).foldl pushInstruction make).after
          ([] : List (InstructionPorts 2))).process ⟨1, fun _ => 0, 0, fun _ => 5⟩).2 :=
  instruction_memory_serves_code (by decide) (by decide) (.inr rfl) [] _

end SmolGpu.Sim
