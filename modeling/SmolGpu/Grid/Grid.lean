import SmolGpu.ComputeCore.Timing

/-!
# A grid of blocks

What a kernel computes, apart from the machine that runs it: each warp of each block does what it
does on its own (`Solo`), and at every address the memory ends up with the word that a lane stored
there last, or with the one that was there from the start (`Grid.Computes`). This says nothing of
cores, of the dispatcher, or of time. It determines the memory (`Grid.Computes.unique`).

It is what a GPU computes if no two lanes race, which too is said of the warps on their own:
`Grid.RaceFree`.
-/

namespace SmolGpu

open SharedMemory (Access NoRace)

/-- What a GPU is given to run. -/
structure Grid where
  program : InstructionMemoryAddressT → InstructionT
  kernel_config : KernelConfig

/-- A lane of a warp of a block. -/
abbrev Agent (W T : ℕ) := DataT × (Fin W × Fin (T + 1))

namespace Grid

variable (G : Grid) {W T : ℕ} (mem₀ : DataMemoryAddressT → DataT)

/-- Block `b`, which a core runs as a kernel. -/
def block (b : DataT) : Kernel := ⟨G.program, G.kernel_config, b⟩

/-- Warp `w` of block `b` on its own, after `k` instructions. -/
def warpAt (T : ℕ) (b : DataT) (w : Fin W) (k : ℕ) : Solo T :=
  CoreSystem.soloAt (G.block b) mem₀ w k

/-- The instruction of warp `w` of block `b` after its first `k`. -/
def instructionAt (T : ℕ) (b : DataT) (w : Fin W) (k : ℕ) : Decoded :=
  (G.warpAt mem₀ T b w k).instruction G.program

/-- Warp `w` of block `b` goes on after its first `k` instructions. -/
def GoesOn (T : ℕ) (b : DataT) (w : Fin W) (k : ℕ) : Prop :=
  ∀ j < k, (G.instructionAt mem₀ T b w j).decoded_halt = false

/-- Warp `w` of block `b` stops after `k` instructions. -/
def Stops (T : ℕ) (b : DataT) (w : Fin W) (k : ℕ) : Prop :=
  CoreSystem.soloStops T (G.block b) mem₀ w k

/-- A lane makes an access in the course of its block. -/
def Makes (x : Agent W T) (e : Access DataMemoryAddressT DataT) : Prop :=
  x.1 < G.kernel_config.num_blocks ∧ ∃ k, G.GoesOn mem₀ T x.1 x.2.1 k ∧
    (G.warpAt mem₀ T x.1 x.2.1 k).arch.access (G.instructionAt mem₀ T x.1 x.2.1 k) x.2.2 = some e

/-- No two lanes access a common address with one of them storing. -/
def RaceFree (W T : ℕ) : Prop := NoRace (G.Makes mem₀ (W := W) (T := T))

/-- No thread is masked off when its warp executes an `sx` instruction. -/
def FullMaskSx (W T : ℕ) : Prop :=
  ∀ b < G.kernel_config.num_blocks, ∀ (w : Fin W) (k : ℕ), G.GoesOn mem₀ T b w k →
    IsSx (G.program (G.warpAt mem₀ T b w k).arch.pc) →
      ∀ i : Fin T, (G.warpAt mem₀ T b w k).arch.mask i = true

/-- The memory `mem` is what the grid makes of `mem₀`. -/
structure Computes (W T : ℕ) (mem : DataMemoryAddressT → DataT) : Prop where
  /-- Every warp of every block stops. -/
  stops : ∀ b < G.kernel_config.num_blocks, ∀ w : Fin W, ∃ k, G.Stops mem₀ T b w k
  /-- An address that a lane stores to has the word that it stores there last. -/
  stored : ∀ b < G.kernel_config.num_blocks, ∀ (w : Fin W) (l : Fin (T + 1)) (k : ℕ),
    G.Stops mem₀ T b w k → ∀ x v, (G.warpAt mem₀ T b w k).own l x = some v → mem x = v
  /-- Any other address has the word that was there from the start. -/
  kept : ∀ x, (∀ b < G.kernel_config.num_blocks, ∀ (w : Fin W) (l : Fin (T + 1)) (k : ℕ),
    G.Stops mem₀ T b w k → (G.warpAt mem₀ T b w k).own l x = none) → mem x = mem₀ x

variable {G mem₀}

/-- A grid makes one memory. -/
theorem Computes.unique {mem mem' : DataMemoryAddressT → DataT} (h : G.Computes mem₀ W T mem)
    (h' : G.Computes mem₀ W T mem') : mem = mem' := by
  funext x
  by_cases hx : ∀ b < G.kernel_config.num_blocks, ∀ (w : Fin W) (l : Fin (T + 1)) (k : ℕ),
      G.Stops mem₀ T b w k → (G.warpAt mem₀ T b w k).own l x = none
  · rw [h.kept x hx, h'.kept x hx]
  · push Not at hx
    obtain ⟨b, hb, w, l, k, hk, hne⟩ := hx
    obtain ⟨v, hv⟩ := Option.ne_none_iff_exists'.mp hne
    rw [h.stored b hb w l k hk x v hv, h'.stored b hb w l k hk x v hv]

/-- A grid without blocks leaves the memory as it is. -/
theorem computes_of_empty (h : G.kernel_config.num_blocks = 0) : G.Computes mem₀ W T mem₀ := by
  have hno (b : DataT) : ¬b < G.kernel_config.num_blocks := by
    rw [h]
    exact BitVec.not_lt_zero
  exact ⟨fun b hb => absurd hb (hno b), fun b hb => absurd hb (hno b), fun _ _ => rfl⟩

/-- A warp that goes on past its first `k` instructions does not stop before. -/
theorem GoesOn.le {b : DataT} {w : Fin W} {k n : ℕ} (h : G.GoesOn mem₀ T b w k)
    (hn : G.Stops mem₀ T b w n) : k < n := by
  obtain ⟨j, rfl, hj, -⟩ := hn
  by_contra hlt
  have hno : (G.instructionAt mem₀ T b w j).decoded_halt = false := h j (by omega)
  exact absurd (hno.symm.trans hj) (by simp)

end Grid

namespace CoreSystem

variable {W T : ℕ} {G : Grid} {b : DataT} {mem₀ : DataMemoryAddressT → DataT} {s : CoreSystem W T}
  {h : List ((Fin W × Fin (T + 1)) × Access DataMemoryAddressT DataT)}
  {begun : Fin W → List (InstructionMemoryAddressT × InstructionT)} {k : Fin W → ℕ}

/-- A warp that is not done goes on. -/
theorem Tracks.goesOn (ht : Tracks (G.block b) mem₀ s h begun k) {w : Fin W}
    (hw : s.core.warp_state w ≠ .done) : G.GoesOn mem₀ T b w (k w) := by
  have hcounts := ht.counts w
  unfold Counts at hcounts
  rwa [if_neg hw] at hcounts

/-- The access that a lane asks for is the next one of its warp on its own. -/
theorem Tracks.makes (ht : Tracks (G.block b) mem₀ s h begun k)
    (hb : b < G.kernel_config.num_blocks) {l : Fin (T + 1)}
    {e : Access DataMemoryAddressT DataT} (hp : s.pending l = some e) :
    G.Makes mem₀ (b, s.core.current_warp, l) e := by
  have haccess : (s.core.lsu l).access = some e := by
    unfold pending at hp
    split_ifs at hp
    exact hp
  have hwait : (s.core.lsu l).lsu_state = .waiting := by
    by_contra hne
    rw [ht.sound.core.access_eq_none hne] at haccess
    cases haccess
  have hst : s.core.current_warp_state = .wait :=
    (ht.sound.core.lane l).stage_of_waiting (.inr hwait)
  obtain ⟨hex, -⟩ := ht.current s.core.current_warp _ _ rfl rfl rfl
    (by simp [hst, ComputeCore.Parked])
  have hnot : s.core.warp_state s.core.current_warp ≠ .done := by
    rw [show s.core.warp_state s.core.current_warp = .wait from hst]
    decide
  exact ⟨hb, k s.core.current_warp, ht.goesOn hnot,
    (hex.access_eq ht.sound.core hwait).symm.trans haccess⟩

/-- A warp does not begin more instructions than it executes on its own until it stops. -/
theorem Tracks.length_begun_le (ht : Tracks (G.block b) mem₀ s h begun k) {w : Fin W} {n : ℕ}
    (hn : G.Stops mem₀ T b w n) : (begun w).length ≤ n := by
  have hlength (j : ℕ) : (soloExecuted T (G.block b) mem₀ w j).length = j := by
    simp [soloExecuted, Solo.executed]
  by_cases hrest : w = s.core.current_warp → ComputeCore.Parked s.core.current_warp_state
  · obtain ⟨-, -, hbegun⟩ := ht.resting w hrest
    rw [hbegun, hlength]
    by_cases hw : s.core.warp_state w = .done
    · have hcounts := ht.counts w
      unfold Counts at hcounts
      rw [if_pos hw] at hcounts
      exact (Solo.Stops.unique hcounts hn).le
    · exact ((ht.goesOn hw).le hn).le
  · rw [Classical.not_imp] at hrest
    obtain ⟨rfl, hparked⟩ := hrest
    obtain ⟨-, -, -, hbegun⟩ := ht.current s.core.current_warp _ _ rfl rfl rfl hparked
    rw [hbegun, hlength]
    -- The instruction that has been begun is not the one after a halt.
    refine (ht.goesOn fun hdone => hparked ?_).le hn
    exact .inr (.inr (.inr hdone))

/-- A warp that begins an `sx` instruction has no thread masked off. -/
theorem Tracks.fullMask (ht : Tracks (G.block b) mem₀ s h begun k)
    (hb : b < G.kernel_config.num_blocks) (hsx : G.FullMaskSx mem₀ W T) {w : Fin W}
    (hw : s.Begins w) (hinst : IsSx (G.program (s.core.pc w))) (i : Fin T) :
    (s.core.warp_execution_mask w).getLsbD i = true := by
  obtain ⟨rfl, hdec⟩ := hw
  have hst : s.core.current_warp_state = .decode := hdec
  obtain ⟨hholds, -⟩ := ht.resting s.core.current_warp fun _ => .inr (.inr (.inl hst))
  have hstart : s.core.start_execution = true :=
    ht.sound.core.started (w := s.core.current_warp) (by rw [hdec]; decide)
  rw [hholds.pc hstart] at hinst
  rw [ComputeCore.mask_eq hholds.scalar i]
  exact hsx b hb _ _ (ht.goesOn (by rw [hdec]; decide)) hinst i

end CoreSystem

end SmolGpu
