import SmolGpu.ComputeCore.System
import SmolGpu.ComputeCore.Lane

/-!
# A core that runs its warps

The relation between a core with its memories and the warps on their own (`Solo`). `Tracks` says
that every warp stands after some number of its own instructions, the current one perhaps in the
middle of the next, and that the memory has performed just the accesses of these instructions. Both
halves of an edge keep it: `Tracks.serve` the memory's, by `SharedMemory.RaceFree.read`, and
`Tracks.clock` the core's, by the stages of `Executing`.
-/

namespace SmolGpu

open SharedMemory (Access RaceFree)

/-- What a unit shows as an access. -/
def accessOf : MemController.Request 32 32 → Access DataMemoryAddressT DataT
  | .read address => .read address
  | .write address data => .write address data

/-- The access of an LSU is the request that it shows. -/
theorem Lsu.Shows.access {s : Lsu} {o : Option (MemController.Request 32 32)} (h : s.Shows o) :
    s.access = o.map accessOf := by
  unfold Lsu.access
  rcases o with _ | address | ⟨address, data⟩
  · simp [h.1, h.2]
  · simp [h.1, h.2.1, accessOf]
  · simp [h.1, h.2.1, h.2.2.1, h.2.2.2, accessOf]

namespace ComputeCore

variable {W T : ℕ} {life : Lifetime} {inp : CoreIn W T} {c : ComputeCore W T} {d : Decoded}
  {a : WarpArch T} {l : Fin (T + 1)}

/-- A unit asks for nothing unless it waits. -/
theorem Invariant.access_eq_none (hi : Invariant c) (hs : (c.lsu l).lsu_state ≠ .waiting) :
    (c.lsu l).access = none :=
  ((hi.consistent l).shows_none hs).access

/-- A lane works on the access of the instruction, if it has one. -/
theorem Executing.access_isSome (h : Executing d a c) : (a.access d l).isSome = c.laneActive l := by
  unfold WarpArch.access laneActive
  rw [h.lsuEnable, h.current]
  cases a.enabled d l <;> cases d.decoded_mem_read_enable <;>
    cases d.decoded_mem_write_enable <;> rfl

/-- A unit that waits asks for the access of the instruction. -/
theorem Executing.access_eq (h : Executing d a c) (hi : Invariant c)
    (hs : (c.lsu l).lsu_state = .waiting) : (c.lsu l).access = a.access d l := by
  obtain ⟨hact, -⟩ := (h.lane l).active (by simp [hs])
  have hen : a.enabled d l = true := by
    simp only [laneActive, Bool.and_eq_true] at hact
    rw [← h.lsuEnable, hact.1]
  obtain ⟨hread, hwrite⟩ := h.asking l hs
  unfold Lsu.access WarpArch.access
  rw [if_pos hen]
  rcases hrd : d.decoded_mem_read_enable with _ | _
  · have hwr : d.decoded_mem_write_enable = true := by
      have hkind := hact
      simp only [laneActive, h.current, Bool.and_eq_true, Bool.or_eq_true] at hkind
      simpa [hrd] using hkind.2
    have hlow : (c.lsu l).mem_read_valid = false := by
      rw [← Bool.not_eq_true, (hi.consistent l).read_valid, h.current, hrd]
      exact fun h => Bool.false_ne_true h.2
    obtain ⟨hv, haddr, hdata⟩ := hwrite hwr
    simp [hlow, hv, haddr, hdata, hwr]
  · obtain ⟨hv, haddr⟩ := hread hrd
    simp [hv, haddr]

/-! ## Edges that leave a warp alone -/

section Edge

variable [NeZero W]

/-- No warp becomes done, or stops being done, but by leaving `WARP_UPDATE`. -/
theorem step_done_iff (h : Running inp c) (w : Fin W)
    (hst : w = c.current_warp → c.current_warp_state ≠ .update) :
    (coreStep life inp c).warp_state w = .done ↔ c.warp_state w = .done := by
  have hfetched : c.fetched inp w = .done ↔ c.warp_state w = .done := by
    unfold fetched
    split_ifs with hf
    · simp [hf.1]
    · rfl
  rw [step_warp_state h]
  split_ifs with hw
  · subst hw
    show _ ↔ c.current_warp_state = .done
    unfold currentNext
    cases hcur : c.current_warp_state with
    | fetch => exact hfetched.trans (by rw [← hcur]; rfl)
    | wait => cases c.anyLsuWaiting life <;> simp
    | update => exact absurd hcur (hst rfl)
    | idle | decode | request | execute | done => simp
  · exact hfetched

end Edge

end ComputeCore

namespace CoreSystem

variable {W T : ℕ}

/-- Warp `w` of the kernel on its own, after `k` instructions. -/
def soloAt (K : Kernel) (mem₀ : DataMemoryAddressT → DataT) (w : Fin W) (k : ℕ) : Solo T :=
  (Solo.start T K.kernel_config K.block_id (BitVec.ofNat 32 w)).after mem₀ K.program k

/-- The first `k` instructions of warp `w` on its own. -/
def soloExecuted (T : ℕ) (K : Kernel) (mem₀ : DataMemoryAddressT → DataT) (w : Fin W) (k : ℕ) :
    List (InstructionMemoryAddressT × InstructionT) :=
  (Solo.start T K.kernel_config K.block_id (BitVec.ofNat 32 w)).executed mem₀ K.program k

/-- Warp `w` on its own stops after `k` instructions. -/
def soloStops (T : ℕ) (K : Kernel) (mem₀ : DataMemoryAddressT → DataT) (w : Fin W) (k : ℕ) : Prop :=
  (Solo.start T K.kernel_config K.block_id (BitVec.ofNat 32 w)).Stops mem₀ K.program k

/-- The registers of warp `w` are those of the warp on its own. Before the start, `pc` is not yet
in place. -/
structure Holds (c : ComputeCore W T) (w : Fin W) (p : Solo T) : Prop where
  /-- The warp is at the same instruction. -/
  pc : c.start_execution = true → c.pc w = p.arch.pc
  /-- The scalar registers are the same. -/
  scalar : (c.scalar_reg_file w).registers = p.arch.scalar
  /-- The vector registers are the same, apart from the special ones. -/
  vector : ∀ i r, 4 ≤ r → (c.reg_file w i).registers r = p.arch.vector i r

/-- Where a lane stands with the access of the instruction `d` of the warp `p`, when it has stored
`own`. -/
def LaneTracks (mem₀ : DataMemoryAddressT → DataT) (s : CoreSystem W T)
    (own : DataMemoryAddressT → Option DataT) (d : Decoded) (p : Solo T) (l : Fin (T + 1)) : Prop :=
  match (s.core.lsu l).lsu_state with
  | .idle | .requesting => own = p.own l
  | .waiting =>
    match s.reply l with
    | none => own = p.own l
    | some word => own = p.stored d l ∧ (d.decoded_mem_read_enable = true → word = p.loads mem₀ d l)
  | .done => own = p.stored d l ∧
      (d.decoded_mem_read_enable = true → (s.core.lsu l).lsu_out = p.loads mem₀ d l)

/-- What holds of the system whatever its program. -/
structure Sound (K : Kernel) (mem₀ : DataMemoryAddressT → DataT) (s : CoreSystem W T)
    (h : List ((Fin W × Fin (T + 1)) × Access DataMemoryAddressT DataT)) : Prop where
  /-- The core's invariant. -/
  core : ComputeCore.Invariant s.core
  /-- The core is done only with its warps. -/
  done : ComputeCore.DoneOk s.core
  /-- The special registers have the values that the warps start with. -/
  special : ∀ w i r, ¬4 ≤ r →
    (s.core.reg_file w i).registers r = (soloAt K mem₀ w 0 : Solo T).arch.vector i r
  /-- The memory is what the accesses leave. -/
  mem : s.mem = SharedMemory.after mem₀ h
  /-- An LSU that does not wait has no answer on its way. -/
  reply : ∀ l, (s.core.lsu l).lsu_state ≠ .waiting → s.reply l = none

/-- Warp `w` has finished `k` instructions, and has halted if it is done. -/
def Counts (K : Kernel) (mem₀ : DataMemoryAddressT → DataT) (c : ComputeCore W T) (w : Fin W)
    (k : ℕ) : Prop :=
  if c.warp_state w = .done then soloStops T K mem₀ w k
  else ∀ j < k, ((soloAt K mem₀ w j : Solo T).instruction K.program).decoded_halt = false

/-- The system runs its warps: after the accesses `h`, warp `w` has finished `k w` instructions and
begun those of `begun w`. -/
structure Tracks (K : Kernel) (mem₀ : DataMemoryAddressT → DataT) (s : CoreSystem W T)
    (h : List ((Fin W × Fin (T + 1)) × Access DataMemoryAddressT DataT))
    (begun : Fin W → List (InstructionMemoryAddressT × InstructionT)) (k : Fin W → ℕ) : Prop where
  /-- What holds whatever the program is. -/
  sound : Sound K mem₀ s h
  /-- Before the start no instruction has finished. -/
  not_started : s.core.start_execution = false → ∀ w, k w = 0
  /-- The counts of the finished instructions are right. -/
  counts : ∀ w, Counts K mem₀ s.core w (k w)
  /-- A warp that is not in the middle of an instruction stands after its last one. -/
  resting : ∀ w, (w = s.core.current_warp → ComputeCore.Parked s.core.current_warp_state) →
    Holds s.core w (soloAt K mem₀ w (k w)) ∧
      (∀ l, SharedMemory.own h (w, l) = (soloAt K mem₀ w (k w) : Solo T).own l) ∧
      begun w = soloExecuted T K mem₀ w (k w)
  /-- A warp in the middle of an instruction executes its next one. -/
  current : ∀ w p d, w = s.core.current_warp → p = soloAt K mem₀ w (k w) →
    d = Solo.instruction K.program p → ¬ComputeCore.Parked s.core.current_warp_state →
    ComputeCore.Executing d p.arch s.core ∧
      (d.decoded_reg_input_mux = .vectorToScalar → ∀ i, p.arch.mask i = true) ∧
      (∀ l, LaneTracks mem₀ s (SharedMemory.own h (w, l)) d p l) ∧
      begun w = soloExecuted T K mem₀ w (k w + 1)

/-! ## The memory's half of an edge -/

section Serve

variable {K : Kernel} {mem₀ : DataMemoryAddressT → DataT} {s : CoreSystem W T}
  {h : List ((Fin W × Fin (T + 1)) × Access DataMemoryAddressT DataT)}
  {begun : Fin W → List (InstructionMemoryAddressT × InstructionT)} {k : Fin W → ℕ}

/-- The access of a lane is performed: a load returns what the warp on its own would load, and a
store is recorded. -/
theorem LaneTracks.serveOne_self {own : DataMemoryAddressT → Option DataT} {d : Decoded}
    {p : Solo T} {l : Fin (T + 1)} {e : Access DataMemoryAddressT DataT}
    (hl : LaneTracks mem₀ s own d p l) (hwait : (s.core.lsu l).lsu_state = .waiting)
    (hreply : s.reply l = none) (he : p.arch.access d l = some e)
    (hread : ∀ x, e = .read x → s.mem x = (own x).getD (mem₀ x)) :
    LaneTracks mem₀ (s.serveOne (l, e)) (e.record own) d p l := by
  have hown : own = p.own l := by
    unfold LaneTracks at hl
    rw [hwait] at hl
    simpa [hreply] using hl
  have hreply' : (s.serveOne (l, e)).reply l = some (e.word s.mem) := Function.update_self _ _ _
  unfold LaneTracks
  rw [show ((s.serveOne (l, e)).core.lsu l).lsu_state = .waiting from hwait]
  simp only [hreply']
  refine ⟨by simp [Solo.stored, he, hown], fun hrd => ?_⟩
  -- A load reads memory as the lane's own stores and the initial memory have it.
  have hload : e = .read (p.arch.address d l) := by
    unfold WarpArch.access at he
    split_ifs at he
    exact (Option.some.inj he).symm
  subst hload
  exact (hread _ rfl).trans (by rw [hown]; rfl)

/-- The access of another lane is performed. -/
theorem LaneTracks.serveOne_other {own : DataMemoryAddressT → Option DataT} {d : Decoded}
    {p : Solo T} {l l' : Fin (T + 1)} {e : Access DataMemoryAddressT DataT} (hne : l' ≠ l)
    (hl : LaneTracks mem₀ s own d p l') : LaneTracks mem₀ (s.serveOne (l, e)) own d p l' := by
  have hreply : (s.serveOne (l, e)).reply l' = s.reply l' := Function.update_of_ne hne _ _
  unfold LaneTracks at hl ⊢
  rw [hreply]
  exact hl

/-- An access that the current warp asks for is performed. -/
theorem Tracks.serveOne (ht : Tracks K mem₀ s h begun k) {l : Fin (T + 1)}
    {e : Access DataMemoryAddressT DataT} (hp : s.pending l = some e)
    (hrace : RaceFree (h ++ [((s.core.current_warp, l), e)])) :
    Tracks K mem₀ (s.serveOne (l, e)) (h ++ [((s.core.current_warp, l), e)]) begun k := by
  have hreply : s.reply l = none := by
    unfold pending at hp
    split_ifs at hp with hsome
    simpa using hsome
  have haccess : (s.core.lsu l).access = some e := by
    simpa [pending, hreply] using hp
  have hwait : (s.core.lsu l).lsu_state = .waiting := by
    by_contra hne
    rw [ht.sound.core.access_eq_none hne] at haccess
    cases haccess
  have hbusy : ¬ComputeCore.Parked s.core.current_warp_state := by
    rw [(ht.sound.core.lane l).stage_of_waiting (.inr hwait)]
    simp [ComputeCore.Parked]
  refine ⟨⟨ht.sound.core, ht.sound.done, ht.sound.special, ?_, ?_⟩, ht.not_started, ht.counts, ?_,
    ?_⟩
  · -- The memory is what the accesses so far leave.
    rw [SharedMemory.after_append_singleton, ← ht.sound.mem]
    rfl
  · -- The lane that is answered waits.
    intro l' hl'
    have hne : l' ≠ l := fun heq => hl' (heq ▸ hwait)
    exact (Function.update_of_ne hne _ _).trans (ht.sound.reply l' hl')
  · -- The access is not one of a warp that rests.
    intro w hw
    have hne : w ≠ s.core.current_warp := fun heq => hbusy (hw heq)
    obtain ⟨hholds, hown, hbegun⟩ := ht.resting w hw
    refine ⟨hholds, fun l' => ?_, hbegun⟩
    rw [SharedMemory.own_append_of_ne (fun heq => hne (congrArg Prod.fst heq).symm), hown]
  · intro w p d hw hpw hd _
    have hw : w = s.core.current_warp := hw
    obtain ⟨hex, hfull, hlanes, hbegun⟩ := ht.current w p d hw hpw hd hbusy
    rw [← hw] at hrace ⊢
    refine ⟨hex, hfull, fun l' => ?_, hbegun⟩
    rcases eq_or_ne l' l with rfl | hne
    · -- The lane itself. Without races it reads what it has stored, or the initial memory.
      rw [SharedMemory.own_append_self]
      refine (hlanes l').serveOne_self hwait hreply
        ((hex.access_eq ht.sound.core hwait).symm.trans haccess) ?_
      rintro x rfl
      rw [ht.sound.mem, hrace.read mem₀]
    · rw [SharedMemory.own_append_of_ne (fun heq => hne (congrArg Prod.snd heq).symm)]
      exact (hlanes l').serveOne_other hne

/-- The accesses of an edge, one after the other. -/
theorem Tracks.serveList (ht : Tracks K mem₀ s h begun k)
    (es : List (Fin (T + 1) × Access DataMemoryAddressT DataT))
    (hp : ∀ e ∈ es, s.pending e.1 = some e.2) (hnodup : (es.map Prod.fst).Nodup)
    (hrace : RaceFree (h ++ es.map fun e => ((s.core.current_warp, e.1), e.2))) :
    Tracks K mem₀ (es.foldl CoreSystem.serveOne s)
      (h ++ es.map fun e => ((s.core.current_warp, e.1), e.2)) begun k ∧
      (es.foldl CoreSystem.serveOne s).core = s.core := by
  induction es generalizing s h with
  | nil => simpa using ht
  | cons e es ih =>
    have hfirst : RaceFree (h ++ [((s.core.current_warp, e.1), e.2)]) :=
      hrace.mono fun f hf => by
        rw [List.mem_append] at hf ⊢
        refine hf.imp_right fun hf => ?_
        rw [List.mem_singleton.mp hf]
        exact List.mem_cons_self
    -- The first access leaves the other lanes waiting for theirs.
    have hone := ht.serveOne (hp e (by simp)) hfirst
    rw [List.map_cons, List.nodup_cons] at hnodup
    have hlist : h ++ (e :: es).map (fun e => ((s.core.current_warp, e.1), e.2)) =
        h ++ [((s.core.current_warp, e.1), e.2)] ++
          es.map fun e => ((s.core.current_warp, e.1), e.2) := by
      simp
    rw [hlist] at hrace ⊢
    refine ih hone (fun f hf => ?_) hnodup.2 hrace
    have hne : f.1 ≠ e.1 := by
      intro heq
      exact hnodup.1 (heq ▸ List.mem_map_of_mem hf)
    have hpf := hp f (List.mem_cons_of_mem _ hf)
    simpa [pending, CoreSystem.serveOne, Function.update_of_ne hne] using hpf

/-- The accesses of an edge are those of different lanes. -/
theorem nodup_served (t : Timing W T) (s : CoreSystem W T) : ((served t s).map Prod.fst).Nodup := by
  have hsub : ((served t s).map Prod.fst).Sublist t.serve.dedup := by
    unfold served
    generalize t.serve.dedup = order
    induction order with
    | nil => simp
    | cons l order ih =>
      rcases hl : s.pending l with _ | e
      · simpa [hl] using ih.cons l
      · simpa [hl] using ih.cons_cons l
  exact (List.nodup_dedup _).sublist hsub

/-- What is served was pending. -/
theorem pending_of_mem_served {t : Timing W T}
    {e : Fin (T + 1) × Access DataMemoryAddressT DataT} (he : e ∈ served t s) :
    s.pending e.1 = some e.2 := by
  unfold served at he
  rw [List.mem_filterMap] at he
  obtain ⟨l, -, hl⟩ := he
  rw [Option.map_eq_some_iff] at hl
  obtain ⟨a, ha, rfl⟩ := hl
  exact ha

/-- The memory's half of an edge. -/
theorem Tracks.serve (ht : Tracks K mem₀ s h begun k) (t : Timing W T)
    (hrace : RaceFree (h ++ (served t s).map fun e => ((s.core.current_warp, e.1), e.2))) :
    Tracks K mem₀ (s.serve t)
      (h ++ (served t s).map fun e => ((s.core.current_warp, e.1), e.2)) begun k ∧
      (s.serve t).core = s.core :=
  ht.serveList (served t s) (fun _ he => pending_of_mem_served he) (nodup_served t s) hrace

end Serve

/-! ## The core's half of an edge -/

section Clock

open ComputeCore (Parked Running Executing)

variable [NeZero W] {life : Lifetime} {K : Kernel} {mem₀ : DataMemoryAddressT → DataT}
  {t : Timing W T} {s : CoreSystem W T}
  {h : List ((Fin W × Fin (T + 1)) × Access DataMemoryAddressT DataT)}
  {begun : Fin W → List (InstructionMemoryAddressT × InstructionT)} {k : Fin W → ℕ}

omit [NeZero W] in
/-- The special registers are what they are for the warp on its own. -/
theorem arch_special (w : Fin W) (i : Fin T) {r : RegAddress} (hr : ¬4 ≤ r) :
    (ComputeCore.arch (coreIn K t s) s.core w).vector i r =
      (Solo.start T K.kernel_config K.block_id (BitVec.ofNat 32 w)).arch.vector i r := by
  show specialRegisters (threadId T (BitVec.ofNat 32 w) i) K.block_id
      (K.kernel_config.num_warps_per_block * BitVec.ofNat 32 T) (s.core.reg_file w i).registers r =
    specialRegisters (threadId T (BitVec.ofNat 32 w) i) K.block_id
      (K.kernel_config.num_warps_per_block * BitVec.ofNat 32 T) (fun _ => 0) r
  exact ComputeCore.specialRegisters_of_lt hr

/-- A clock edge keeps the history sound. -/
theorem Sound.clock (hs : Sound K mem₀ s h) : Sound K mem₀ (s.clock life K t) h := by
  have hcore : ComputeCore.Invariant (s.clock life K t).core := hs.core.step
  refine ⟨hcore, .step (.inl hs.done), fun w i r hr => ?_, hs.mem, fun l hl => ?_⟩
  · show ((coreStep life (coreIn K t s) s.core).reg_file w i).registers r = _
    rw [ComputeCore.step_reg_file_of_lt rfl w i hr]
    split_ifs with hw
    · exact arch_special w i hr
    · exact hs.special w i r hr
  · have hnone : ((coreStep life (coreIn K t s) s.core).lsu l).access = none :=
      hcore.access_eq_none hl
    show (if ((coreStep life (coreIn K t s) s.core).lsu l).access.isSome then s.reply l
      else none) = _
    rw [hnone]
    rfl

omit [NeZero W] in
/-- A warp that stands after an instruction has the architectural state of the warp on its own. -/
theorem Holds.arch_eq {w : Fin W} {n : ℕ} (hh : Holds s.core w (soloAt K mem₀ w n))
    (hstart : s.core.start_execution = true) :
    ComputeCore.arch (coreIn K t s) s.core w = (soloAt K mem₀ w n : Solo T).arch := by
  refine WarpArch.ext (hh.pc hstart) hh.scalar (funext fun i => funext fun r => ?_)
  by_cases hr : 4 ≤ r
  · rw [ComputeCore.arch_vector_of_ge hr]
    exact hh.vector i r hr
  · rw [soloAt, Solo.after_vector_of_lt hr]
    exact arch_special w i hr

/-- The edge leaves a warp alone that is not the one in `WARP_UPDATE`. -/
theorem Holds.step {w : Fin W} {p : Solo T} {inp : CoreIn W T} {c : ComputeCore W T}
    (hh : Holds c w p) (hrun : Running inp c)
    (hw : w = c.current_warp → c.current_warp_state ≠ .update) :
    Holds (coreStep life inp c) w p := by
  by_cases hcw : w = c.current_warp
  · -- The current warp writes its registers and its `pc` in `WARP_UPDATE` only.
    have hup := hw hcw
    refine ⟨fun _ => ?_, ?_, fun i r hr => ?_⟩
    · rw [ComputeCore.step_pc hrun, if_neg fun hc => hup hc.2.1]
      exact hh.pc hrun.start
    · rw [ComputeCore.step_scalar_registers hrun.reset hup]
      exact hh.scalar
    · rw [ComputeCore.step_reg_file_of_ge hrun.reset hup w i hr]
      exact hh.vector i r hr
  · refine ⟨fun _ => ?_, ?_, fun i r hr => ?_⟩
    · rw [ComputeCore.step_pc hrun, if_neg fun hc => hcw hc.1]
      exact hh.pc hrun.start
    · rw [ComputeCore.step_scalar_reg_file_of_ne hrun.reset hcw]
      exact hh.scalar
    · rw [ComputeCore.step_reg_file_of_ne hrun.reset hcw]
      exact hh.vector i r hr

/-- The count of a warp that does not finish an instruction. -/
theorem Counts.step {w : Fin W} {n : ℕ} (hc : Counts K mem₀ s.core w n)
    (hdone : (s.clock life K t).core.warp_state w = .done ↔ s.core.warp_state w = .done) :
    Counts K mem₀ (s.clock life K t).core w n := by
  unfold Counts at hc ⊢
  simpa only [hdone] using hc

/-- An edge of a core that has not been started. -/
theorem Tracks.clock_waiting (ht : Tracks K mem₀ s h begun k)
    (hns : s.core.start_execution = false) : Tracks K mem₀ (s.clock life K t) h begun k := by
  have hidle := ht.sound.core.not_started hns
  have hcur : s.core.current_warp_state = .idle := hidle _
  have hparked : ∀ w, Parked ((s.clock life K t).core.warp_state w) ∧
      (s.clock life K t).core.warp_state w ≠ .done := by
    intro w
    show Parked ((s.core.alwaysBlock life (coreIn K t s)).warp_state w) ∧
      (s.core.alwaysBlock life (coreIn K t s)).warp_state w ≠ .done
    rcases hst : (coreIn K t s).start with _ | _
    · rw [ComputeCore.step_not_started rfl hns hst, hidle]
      exact ⟨.inl rfl, by decide⟩
    · rw [ComputeCore.step_start rfl hns hst]
      exact ⟨.inr (.inl rfl), by simp⟩
  refine ⟨ht.sound.clock, fun _ => ht.not_started hns, fun w => ?_, fun w _ => ?_,
    fun w p d _ _ _ hbusy => absurd (hparked _).1 hbusy⟩
  · unfold Counts
    rw [if_neg (hparked w).2, ht.not_started hns w]
    exact fun j hj => absurd hj (Nat.not_lt_zero j)
  · obtain ⟨hholds, hown, hbegun⟩ := ht.resting w fun _ => .inl hcur
    refine ⟨⟨fun hstart => ?_, ?_, fun i r hr => ?_⟩, hown, hbegun⟩
    · -- The start puts every warp at the program's first instruction.
      show (s.core.alwaysBlock life (coreIn K t s)).pc w = _
      have hstart' : (s.core.alwaysBlock life (coreIn K t s)).start_execution = true := hstart
      rcases hst : (coreIn K t s).start with _ | _
      · rw [ComputeCore.step_not_started rfl hns hst, hns] at hstart'
        cases hstart'
      · rw [ComputeCore.step_start rfl hns hst, ht.not_started hns w]
        rfl
    · show ((coreStep life (coreIn K t s) s.core).scalar_reg_file w).registers = _
      rw [ComputeCore.step_scalar_registers rfl (by simp [hcur])]
      exact hholds.scalar
    · show ((coreStep life (coreIn K t s) s.core).reg_file w i).registers r = _
      rw [ComputeCore.step_reg_file_of_ge rfl (by simp [hcur]) w i hr]
      exact hholds.vector i r hr

/-- An edge at which the current warp is parked, and does not begin an instruction. -/
theorem Tracks.clock_parked (ht : Tracks K mem₀ s h begun k) (hrun : Running (coreIn K t s) s.core)
    (hst : s.core.current_warp_state = .idle ∨ s.core.current_warp_state = .fetch ∨
      s.core.current_warp_state = .done) : Tracks K mem₀ (s.clock life K t) h begun k := by
  have hup : s.core.current_warp_state ≠ .update := by
    rcases hst with hst | hst | hst <;> rw [hst] <;> decide
  have hparked : Parked s.core.current_warp_state := by
    rcases hst with hst | hst | hst <;> simp [Parked, hst]
  have hparked' : Parked (s.clock life K t).core.current_warp_state :=
    ht.sound.core.parked_step hrun (.inr hst) _
  refine ⟨ht.sound.clock, fun hns => ?_, fun w => ?_,
    fun w _ => ?_, fun w p d _ _ _ hbusy => absurd hparked' hbusy⟩
  · exact absurd ((ComputeCore.step_start_execution hrun).symm.trans hns) (by simp)
  · exact (ht.counts w).step (ComputeCore.step_done_iff hrun w fun _ => hup)
  · obtain ⟨hholds, hown, hbegun⟩ := ht.resting w fun _ => hparked
    exact ⟨hholds.step hrun fun _ => hup, hown, hbegun⟩

omit [NeZero W] in
/-- The memory is ready for a lane that asks only if it has performed the access. -/
theorem reply_of_ready {l : Fin (T + 1)} {r : MemController.Request 32 32}
    (hshows : (s.core.lsu l).Shows (some r))
    (hready : (s.core.lsuIn (coreIn K t s) l).ready r.kind = true) :
    ∃ word, s.reply l = some word := by
  rw [← Option.isSome_iff_exists]
  cases r with
  | read address =>
    have hv : (s.core.lsu l).mem_read_valid = true := hshows.1
    have hready' : (t.data_mem_read_ready l &&
        (!(s.core.lsu l).mem_read_valid || (s.reply l).isSome)) = true := hready
    rw [hv, Bool.and_eq_true] at hready'
    exact hready'.2
  | write address data =>
    have hv : (s.core.lsu l).mem_write_valid = true := hshows.2.1
    have hready' : (t.data_mem_write_ready l &&
        (!(s.core.lsu l).mem_write_valid || (s.reply l).isSome)) = true := hready
    rw [hv, Bool.and_eq_true] at hready'
    exact hready'.2

/-- A lane moves on with its access. -/
theorem LaneTracks.clock {own : DataMemoryAddressT → Option DataT} {d : Decoded} {p : Solo T}
    {l : Fin (T + 1)} (hl : LaneTracks mem₀ s own d p l) (hs : Sound K mem₀ s h)
    (hex : Executing d p.arch s.core) (hup : s.core.current_warp_state ≠ .update) :
    LaneTracks mem₀ (s.clock life K t) own d p l := by
  have hedge : ComputeCore.LsuEdge (coreIn K t s) s.core l ((s.clock life K t).core.lsu l) :=
    ComputeCore.lsu_edge hs.core fun hr => (nomatch hr)
  have hreply : (s.clock life K t).reply l =
      if ((s.clock life K t).core.lsu l).access.isSome then s.reply l else none := rfl
  unfold LaneTracks at hl ⊢
  cases hedge with
  | idle hlsu _ hlsu' => simpa only [hlsu, hlsu'] using hl
  | begins hlsu _ _ hlsu' => simpa only [hlsu, hlsu'] using hl
  | raise hlsu hlsu' hshows =>
    -- The request has just been raised, and nothing has answered it.
    have hnone : (s.clock life K t).reply l = none := by
      rw [hreply, hs.reply l (by simp [hlsu])]
      exact ite_self _
    simpa only [hlsu, hlsu', hnone] using hl
  | wait r hlsu _ _ hlsu' hshows' =>
    have hkeep : (s.clock life K t).reply l = s.reply l := by
      rw [hreply, hshows'.access]
      rfl
    simpa only [hlsu, hlsu', hkeep] using hl
  | accept r hlsu hshows hready hlsu' _ hout =>
    -- The memory has performed the access, and a load takes the word that it returns.
    simp only [hlsu, hlsu'] at hl ⊢
    obtain ⟨word, hword⟩ := reply_of_ready hshows hready
    rw [hword] at hl
    refine ⟨hl.1, fun hrd => ?_⟩
    have hkind : r.kind = .read := by
      obtain ⟨hv, -⟩ := (hex.asking l hlsu).1 hrd
      cases r with
      | read => rfl
      | write => exact absurd (hshows.1.symm.trans hv) (by simp)
    rw [hout hkind, ← hl.2 hrd]
    show (s.reply l).getD _ = word
    rw [hword]
    rfl
  | hold hlsu _ hsame =>
    rw [hsame]
    simpa only [hlsu] using hl
  | finish _ hst => exact absurd hst hup

/-- The edge at which the current warp begins its next instruction. -/
theorem Tracks.clock_decode (ht : Tracks K mem₀ s h begun k) (hrun : Running (coreIn K t s) s.core)
    (hst : s.core.current_warp_state = .decode)
    (hsx : IsSx (K.program (s.core.pc s.core.current_warp)) →
      ∀ i : Fin T, (s.core.warp_execution_mask s.core.current_warp).getLsbD i = true) :
    Tracks K mem₀ (s.clock life K t) h
      (fun w => begun w ++ if s.Begins w then
        [(s.core.pc w, (coreIn K t s).fetched_instruction w)] else []) k := by
  have hparked : Parked s.core.current_warp_state := .inr (.inr (.inl hst))
  have hup : s.core.current_warp_state ≠ .update := by simp [hst]
  have hword : (coreIn K t s).fetched_instruction s.core.current_warp =
      K.program (s.core.pc s.core.current_warp) :=
    if_pos (show s.core.warp_state s.core.current_warp = .decode from hst)
  obtain ⟨hcw, hstage, hex⟩ := Executing.begin life hrun hst
    fun l => ht.sound.core.idle_of_parked hparked l
  rw [hword] at hex
  have hcw' : (s.clock life K t).core.current_warp = s.core.current_warp := hcw
  have hstage' : (s.clock life K t).core.current_warp_state = .request := hstage
  refine ⟨ht.sound.clock, fun hns => ?_, fun w => ?_, fun w hw => ?_, ?_⟩
  · exact absurd ((ComputeCore.step_start_execution hrun).symm.trans hns) (by simp)
  · exact (ht.counts w).step (ComputeCore.step_done_iff hrun w fun _ => hup)
  · -- The warp that begins an instruction does not rest.
    have hne : w ≠ s.core.current_warp := by
      intro heq
      have hp := hw (heq.trans hcw'.symm)
      rw [hstage'] at hp
      simp [Parked] at hp
    obtain ⟨hholds, hown, hbegun⟩ := ht.resting w fun heq => absurd heq hne
    refine ⟨hholds.step hrun fun heq => absurd heq hne, hown, ?_⟩
    rw [if_neg fun hb : s.Begins w => hne hb.1.symm, List.append_nil, hbegun]
  · intro w p d hw hpw hd _
    have hw : w = s.core.current_warp := hw.trans hcw'
    rw [← hw] at hex hsx
    obtain ⟨hholds, hown, hbegun⟩ := ht.resting w fun _ => hparked
    have harch : ComputeCore.arch (coreIn K t s) s.core w = p.arch := by
      rw [hpw]
      exact hholds.arch_eq hrun.start
    have hpc : s.core.pc w = p.arch.pc := by
      rw [hpw]
      exact hholds.pc hrun.start
    have hd' : decode (K.program (s.core.pc w)) = d := by
      rw [hpc, hd]
      rfl
    rw [harch, hd'] at hex
    refine ⟨hex, fun hmux i => ?_, fun l => ?_, ?_⟩
    · rw [← ComputeCore.mask_eq (hholds.scalar.trans (hpw ▸ rfl)) i]
      exact hsx (decode_vectorToScalar _ (hd'.symm ▸ hmux)).1 i
    · -- No lane has asked for an access of the new instruction yet.
      have hlsu : ((s.clock life K t).core.lsu l).lsu_state = .idle := by
        have hl := hex.lane l
        unfold ComputeCore.LaneOk at hl
        rw [show ComputeCore.current_warp_state _ = .request from hstage] at hl
        exact hl
      unfold LaneTracks
      rw [hlsu, hpw]
      exact hown l
    · have hb : s.Begins w := ⟨hw.symm, hw ▸ hst⟩
      rw [if_pos hb, hbegun, hpc, hw, hword, ← hw, hpc, hpw]
      exact (Solo.executed_succ (k w)).symm

/-- An edge at which the current warp is in the middle of an instruction. -/
theorem Tracks.clock_busy (ht : Tracks K mem₀ s h begun k) (hrun : Running (coreIn K t s) s.core)
    (hst : s.core.current_warp_state = .request ∨ s.core.current_warp_state = .wait ∨
      s.core.current_warp_state = .execute) : Tracks K mem₀ (s.clock life K t) h begun k := by
  have hup : s.core.current_warp_state ≠ .update := by
    rcases hst with hst | hst | hst <;> rw [hst] <;> decide
  have hbusy : ¬Parked s.core.current_warp_state := by
    rcases hst with hst | hst | hst <;> simp [Parked, hst]
  -- The current warp stays, and stays in the middle of its instruction.
  obtain ⟨hcw, -⟩ := ComputeCore.step_current_of_busy life hrun hst
  have hcw' : (s.clock life K t).core.current_warp = s.core.current_warp := hcw
  have hbusy' : ¬Parked (s.clock life K t).core.current_warp_state := by
    have hstage : (s.clock life K t).core.current_warp_state =
        s.core.currentNext life (coreIn K t s) := ComputeCore.step_stage hrun hst
    rw [hstage]
    unfold ComputeCore.currentNext
    rcases hst with hst | hst | hst <;> rw [hst]
    · simp [Parked]
    · cases s.core.anyLsuWaiting life <;> simp [Parked]
    · simp [Parked]
  refine ⟨ht.sound.clock, fun hns => ?_, fun w => ?_, fun w hw => ?_, fun w p d hw hpw hd _ => ?_⟩
  · exact absurd ((ComputeCore.step_start_execution hrun).symm.trans hns) (by simp)
  · exact (ht.counts w).step (ComputeCore.step_done_iff hrun w fun _ => hup)
  · -- Any other warp stands where it stood.
    have hne : w ≠ s.core.current_warp := fun heq => hbusy' (hw (heq.trans hcw'.symm))
    obtain ⟨hholds, hown, hbegun⟩ := ht.resting w fun heq => absurd heq hne
    exact ⟨hholds.step hrun fun heq => absurd heq hne, hown, hbegun⟩
  · -- The current warp and its lanes get on by one stage.
    obtain ⟨hex, hfull, hlanes, hbegun⟩ := ht.current w p d (hw.trans hcw') hpw hd hbusy
    exact ⟨(hex.step life hrun hup).2.2, hfull, fun l => (hlanes l).clock ht.sound hex hup, hbegun⟩

omit [NeZero W] in
/-- When the instruction is about to be written back, the lanes have all performed their
accesses. -/
theorem LaneTracks.finished {own : DataMemoryAddressT → Option DataT} {d : Decoded} {p : Solo T}
    {l : Fin (T + 1)} (hl : LaneTracks mem₀ s own d p l) (hex : Executing d p.arch s.core)
    (hst : s.core.current_warp_state = .update) :
    own = p.stored d l ∧ (d.decoded_mem_read_enable = true → p.arch.enabled d l = true →
      (s.core.lsu l).lsu_out = p.loads mem₀ d l) := by
  have hlane : (s.core.lsu l).lsu_state = if s.core.laneActive l then .done else .idle := by
    have hlane := hex.lane l
    unfold ComputeCore.LaneOk at hlane
    rwa [hst] at hlane
  have hactive := hex.access_isSome (l := l)
  unfold LaneTracks at hl
  rcases hact : s.core.laneActive l with _ | _
  · -- The lane takes no part in the instruction, or the instruction has no access.
    have hnone : p.arch.access d l = none := by
      rw [← Option.not_isSome_iff_eq_none, hactive, hact]
      exact Bool.false_ne_true
    rw [hlane, hact] at hl
    refine ⟨?_, fun hrd hen => ?_⟩
    · unfold Solo.stored
      rw [hnone]
      exact hl
    · simp [WarpArch.access, hen, hrd] at hnone
  · -- The lane is done with its access.
    rw [hlane, hact] at hl
    exact ⟨hl.1, fun hrd _ => hl.2 hrd⟩

/-- The warp that finishes an instruction has halted if the instruction is a halt. -/
theorem Counts.finish {w : Fin W} {n : ℕ} (hc : Counts K mem₀ s.core w n)
    (hrun : Running (coreIn K t s) s.core) (hw : w = s.core.current_warp)
    (hst : s.core.current_warp_state = .update)
    (hd : s.core.current = (soloAt K mem₀ w n : Solo T).instruction K.program) :
    Counts K mem₀ (s.clock life K t).core w (n + 1) := by
  have hbefore : ∀ j < n,
      ((soloAt K mem₀ w j : Solo T).instruction K.program).decoded_halt = false := by
    unfold Counts at hc
    have hnot : s.core.warp_state w ≠ .done := by
      rw [hw, show s.core.warp_state s.core.current_warp = .update from hst]
      decide
    rwa [if_neg hnot] at hc
  have hnext : (s.clock life K t).core.warp_state w =
      if s.core.current.decoded_halt then .done else .fetch := by
    show (coreStep life (coreIn K t s) s.core).warp_state w = _
    rw [hw, ComputeCore.step_warp_state_current hrun]
    unfold ComputeCore.currentNext
    rw [hst]
  unfold Counts
  rw [hnext]
  rcases hhalt : s.core.current.decoded_halt with _ | _
  · -- The instruction is no halt, and neither was one before it.
    rw [if_neg (by simp)]
    intro j hj
    rcases Nat.lt_succ_iff_lt_or_eq.mp hj with hlt | rfl
    · exact hbefore j hlt
    · rw [← hd]
      exact hhalt
  · rw [if_pos (by simp)]
    exact ⟨n, rfl, hd ▸ hhalt, hbefore⟩

/-- The edge at which the current warp finishes its instruction. -/
theorem Tracks.clock_update (ht : Tracks K mem₀ s h begun k) (hrun : Running (coreIn K t s) s.core)
    (hst : s.core.current_warp_state = .update) :
    ∃ k', Tracks K mem₀ (s.clock life K t) h begun k' := by
  obtain ⟨cw, hcw⟩ : ∃ w, w = s.core.current_warp := ⟨_, rfl⟩
  obtain ⟨p, hp⟩ : ∃ p, p = soloAt K mem₀ cw (k cw) := ⟨_, rfl⟩
  obtain ⟨d, hd⟩ : ∃ d, d = Solo.instruction K.program p := ⟨_, rfl⟩
  have hbusy : ¬Parked s.core.current_warp_state := by simp [Parked, hst]
  obtain ⟨hex, hfull, hlanes, hbegun⟩ := ht.current cw p d hcw hp hd hbusy
  have hfinished l := (hlanes l).finished hex hst
  have hnext : soloAt K mem₀ cw (k cw + 1) = p.exec mem₀ d := by
    rw [hd, hp]
    rfl
  -- The loads of the enabled lanes are those of the warp on its own.
  have hexec : p.arch.exec d (fun l => (s.core.lsu l).lsu_out) = (p.exec mem₀ d).arch := by
    refine WarpArch.exec_congr (fun hmux => ?_) fun l => (hfinished l).2
    rw [hd] at hmux ⊢
    exact decode_lsuOut _ hmux
  obtain ⟨hpc, hscalar, hvector⟩ := hex.retire life hrun hst hfull
  rw [hexec, ← hcw] at hpc hscalar hvector
  have hparked : Parked (s.clock life K t).core.current_warp_state :=
    ht.sound.core.parked_step hrun (.inl hst) _
  refine ⟨Function.update k cw (k cw + 1), ht.sound.clock, fun hns => ?_, fun w => ?_,
    fun w _ => ?_, fun w p d _ _ _ hbusy' => absurd hparked hbusy'⟩
  · exact absurd ((ComputeCore.step_start_execution hrun).symm.trans hns) (by simp)
  · rcases eq_or_ne w cw with rfl | hne
    · rw [Function.update_self]
      exact (ht.counts w).finish hrun hcw hst (hex.current.trans (hd.trans (hp ▸ rfl)))
    · rw [Function.update_of_ne hne]
      exact (ht.counts w).step
        (ComputeCore.step_done_iff hrun w fun heq => absurd (heq.trans hcw.symm) hne)
  · -- The current warp rests after one more instruction, and the others where they did.
    rcases eq_or_ne w cw with rfl | hne
    · rw [Function.update_self, hnext]
      exact ⟨⟨fun _ => hpc, funext hscalar, hvector⟩, fun l => (hfinished l).1, hbegun⟩
    · rw [Function.update_of_ne hne]
      have hne' : w ≠ s.core.current_warp := hcw ▸ hne
      obtain ⟨hholds, hown, hbegun⟩ := ht.resting w fun heq => absurd heq hne'
      exact ⟨hholds.step hrun fun heq => absurd heq hne', hown, hbegun⟩

/-- The core's half of an edge. -/
theorem Tracks.clock (life : Lifetime) (t : Timing W T) (ht : Tracks K mem₀ s h begun k)
    (hsx : ∀ w, s.Begins w → IsSx (K.program (s.core.pc w)) →
      ∀ i : Fin T, (s.core.warp_execution_mask w).getLsbD i = true) :
    ∃ k', Tracks K mem₀ (s.clock life K t) h
      (fun w => begun w ++ if s.Begins w then
        [(s.core.pc w, (coreIn K t s).fetched_instruction w)] else []) k' := by
  -- Outside `WARP_DECODE` no warp begins an instruction.
  have hquiet (hst : s.core.current_warp_state ≠ .decode) :
      (fun w => begun w ++ if s.Begins w then
        [(s.core.pc w, (coreIn K t s).fetched_instruction w)] else []) = begun := by
    funext w
    rw [if_neg, List.append_nil]
    rintro ⟨rfl, hdec⟩
    exact hst hdec
  -- Before the start nothing happens. After it, only `WARP_UPDATE` completes an instruction.
  rcases hns : s.core.start_execution with _ | _
  · have hidle : s.core.current_warp_state = .idle := ht.sound.core.not_started hns _
    rw [hquiet (by simp [hidle])]
    exact ⟨k, ht.clock_waiting hns⟩
  · have hrun : Running (coreIn K t s) s.core := ⟨rfl, hns⟩
    by_cases hdec : s.core.current_warp_state = .decode
    · exact ⟨k, ht.clock_decode hrun hdec (hsx _ ⟨rfl, hdec⟩)⟩
    rw [hquiet hdec]
    cases hst : s.core.current_warp_state with
    | idle => exact ⟨k, ht.clock_parked hrun (.inl hst)⟩
    | fetch => exact ⟨k, ht.clock_parked hrun (.inr (.inl hst))⟩
    | done => exact ⟨k, ht.clock_parked hrun (.inr (.inr hst))⟩
    | decode => exact absurd hst hdec
    | request => exact ⟨k, ht.clock_busy hrun (.inl hst)⟩
    | wait => exact ⟨k, ht.clock_busy hrun (.inr (.inl hst))⟩
    | execute => exact ⟨k, ht.clock_busy hrun (.inr (.inr hst))⟩
    | update => exact ht.clock_update hrun hst

end Clock

end CoreSystem

end SmolGpu
