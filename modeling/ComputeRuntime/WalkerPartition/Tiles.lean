import ComputeRuntime.Library.Lockstep
import ComputeRuntime.WalkerPartition.LaidOut

/-! The tiles that execute one command buffer side by side, any number of times.

A tile executes the commands of a barrier or of a statically partitioned buffer in the order in which
they are laid out: their jump leads behind the control section. Only the walker and the accesses to
the counters of the control section are looked at here. -/
namespace ComputeRuntime.WalkerPartition

open Lockstep Transition

/-! ### Barriers -/

section Barrier

variable {crossTileSync finalSync tileCount : Nat}

/-- A barrier as rounds: the tiles clear the final counter and meet at the cross-tile counter, they
meet at the final counter, and they clear the cross-tile counter and meet at the final one again. -/
def barrierRounds (crossTileSync finalSync tileCount : Nat) : List (Round Nat) :=
  [⟨[some finalSync], crossTileSync, tileCount⟩, ⟨[], finalSync, tileCount⟩,
    ⟨[some crossTileSync], finalSync, 2 * tileCount⟩]

def barrierRound (crossTileSync finalSync tileCount : Nat) : Nat → Round Nat :=
  roundAt ⟨[some finalSync], crossTileSync, tileCount⟩
    [⟨[], finalSync, tileCount⟩, ⟨[some crossTileSync], finalSync, 2 * tileCount⟩]

def barrierStart (crossTileSync finalSync tileCount : Nat) : Nat → Nat :=
  startAt ⟨[some finalSync], crossTileSync, tileCount⟩
    [⟨[], finalSync, tileCount⟩, ⟨[some crossTileSync], finalSync, 2 * tileCount⟩]

theorem barrier_unrolled : Unrolled (opsOf (barrierRounds crossTileSync finalSync tileCount))
    (barrierRound crossTileSync finalSync tileCount)
    (barrierStart crossTileSync finalSync tileCount) :=
  unrolled_roundAt _ _

theorem barrierRound_zero {r : Nat} (mod : r % 3 = 0) :
    barrierRound crossTileSync finalSync tileCount r =
      ⟨[some finalSync], crossTileSync, tileCount⟩ := by
  rw [barrierRound, roundAt_of_mod _ _ (k := 0) (by simp) mod]
  rfl

theorem barrierRound_one {r : Nat} (mod : r % 3 = 1) :
    barrierRound crossTileSync finalSync tileCount r = ⟨[], finalSync, tileCount⟩ := by
  rw [barrierRound, roundAt_of_mod _ _ (k := 1) (by simp) mod]
  rfl

theorem barrierRound_two {r : Nat} (mod : r % 3 = 2) :
    barrierRound crossTileSync finalSync tileCount r =
      ⟨[some crossTileSync], finalSync, 2 * tileCount⟩ := by
  rw [barrierRound, roundAt_of_mod _ _ (k := 2) (by simp) mod]
  rfl

/-- What the counters of a barrier are before its rounds. -/
theorem barrier_before (tileCount : Nat) (apart : finalSync ≠ crossTileSync) (parties r : Nat) :
    (r % 3 = 0 → before parties (barrierRound crossTileSync finalSync tileCount) r
      crossTileSync = 0) ∧
    (r % 3 = 1 → before parties (barrierRound crossTileSync finalSync tileCount) r
      finalSync = 0) ∧
    (r % 3 = 2 → before parties (barrierRound crossTileSync finalSync tileCount) r
      finalSync = parties) := by
  induction r with
  | zero => exact ⟨fun _ => rfl, fun mod => absurd mod (by decide), fun mod => absurd mod (by decide)⟩
  | succ r ih =>
    obtain ⟨-, first, -⟩ := ih
    refine ⟨fun mod => ?_, fun mod => ?_, fun mod => ?_⟩
    · rw [before, barrierRound_two (by omega)]
      simp [apart.symm]
    · rw [before, barrierRound_zero (by omega)]
      simp [apart]
    · rw [before, barrierRound_one (by omega), first (by omega)]
      simp

theorem barrier_meets (apart : finalSync ≠ crossTileSync) (small : tileCount < 2 ^ 31) :
    Meets (Fintype.card (Fin tileCount)) 32 (barrierRound crossTileSync finalSync tileCount) where
  target r := by
    rw [Fintype.card_fin]
    obtain ⟨zero, one, two⟩ := barrier_before tileCount apart tileCount r
    have mods : r % 3 = 0 ∨ r % 3 = 1 ∨ r % 3 = 2 := by omega
    rcases mods with mod | mod | mod
    · simp [barrierRound_zero mod, zero mod]
    · simp [barrierRound_one mod, one mod]
    · simp [barrierRound_two mod, two mod, Nat.two_mul]
  fits r := by
    have mods : r % 3 = 0 ∨ r % 3 = 1 ∨ r % 3 = 2 := by omega
    rcases mods with mod | mod | mod
    · rw [barrierRound_zero mod]
      exact Nat.lt_trans small (by decide)
    · rw [barrierRound_one mod]
      exact Nat.lt_trans small (by decide)
    · rw [barrierRound_two mod]
      dsimp only
      omega
  kept r := by
    have mods : r % 3 = 0 ∨ r % 3 = 1 ∨ r % 3 = 2 := by omega
    rcases mods with mod | mod | mod
    · simp [barrierRound_zero mod, apart.symm]
    · simp [barrierRound_one mod]
    · simp [barrierRound_two mod, apart]

/-- The cross-tile meeting of each execution. -/
theorem barrierStart_execution (execution : Nat) :
    barrierStart crossTileSync finalSync tileCount (3 * execution) = 8 * execution :=
  startAt_mul _ _ execution

theorem barrierReady_execution (execution : Nat) :
    ready (barrierRound crossTileSync finalSync tileCount)
      (barrierStart crossTileSync finalSync tileCount) (3 * execution) = 8 * execution + 1 := by
  rw [ready, barrierStart_execution, barrierRound_zero (by omega)]
  rfl

end Barrier

/-! ### Partitioned walkers -/

section Partitioned

/-- A partitioned walker as rounds: the tiles meet, execute the walker, clear the final counter and
meet again, and then clean up as at a barrier. -/
def partitionedRounds (before after finalSync : Nat) (cleared : List Nat) (tileCount : Nat) :
    List (Round Nat) :=
  [⟨[], before, tileCount⟩, ⟨[none, some finalSync], after, tileCount⟩, ⟨[], finalSync, tileCount⟩,
    ⟨cleared.map some, finalSync, 2 * tileCount⟩]

variable (before after finalSync : Nat) (cleared : List Nat) (tileCount : Nat)

def partitionedRound : Nat → Round Nat :=
  roundAt ⟨[], before, tileCount⟩ [⟨[none, some finalSync], after, tileCount⟩,
    ⟨[], finalSync, tileCount⟩, ⟨cleared.map some, finalSync, 2 * tileCount⟩]

def partitionedStart : Nat → Nat :=
  startAt ⟨[], before, tileCount⟩ [⟨[none, some finalSync], after, tileCount⟩,
    ⟨[], finalSync, tileCount⟩, ⟨cleared.map some, finalSync, 2 * tileCount⟩]

theorem partitioned_unrolled :
    Unrolled (opsOf (partitionedRounds before after finalSync cleared tileCount))
      (partitionedRound before after finalSync cleared tileCount)
      (partitionedStart before after finalSync cleared tileCount) :=
  unrolled_roundAt _ _

/-- The round of an execution that comes after `r` others. -/
theorem partitionedRound_cases (r : Nat) :
    (r % 4 = 0 ∧ partitionedRound before after finalSync cleared tileCount r =
      ⟨[], before, tileCount⟩) ∨
    (r % 4 = 1 ∧ partitionedRound before after finalSync cleared tileCount r =
      ⟨[none, some finalSync], after, tileCount⟩) ∨
    (r % 4 = 2 ∧ partitionedRound before after finalSync cleared tileCount r =
      ⟨[], finalSync, tileCount⟩) ∨
    (r % 4 = 3 ∧ partitionedRound before after finalSync cleared tileCount r =
      ⟨cleared.map some, finalSync, 2 * tileCount⟩) := by
  have mods : r % 4 = 0 ∨ r % 4 = 1 ∨ r % 4 = 2 ∨ r % 4 = 3 := by omega
  rcases mods with mod | mod | mod | mod
  · exact Or.inl ⟨mod, roundAt_of_mod _ _ (k := 0) (by simp) mod⟩
  · exact Or.inr (Or.inl ⟨mod, roundAt_of_mod _ _ (k := 1) (by simp) mod⟩)
  · exact Or.inr (Or.inr (Or.inl ⟨mod, roundAt_of_mod _ _ (k := 2) (by simp) mod⟩))
  · exact Or.inr (Or.inr (Or.inr ⟨mod, roundAt_of_mod _ _ (k := 3) (by simp) mod⟩))

/-- Where the rounds of an execution start. -/
theorem partitionedStart_execution (k : Nat) :
    let start := partitionedStart before after finalSync cleared tileCount
    let length := 10 + cleared.length
    start (4 * k) = length * k ∧ start (4 * k + 1) = length * k + 2 ∧
      start (4 * k + 2) = length * k + 6 ∧ start (4 * k + 3) = length * k + 8 := by
  intro start length
  have all : (opsOf (partitionedRounds before after finalSync cleared tileCount)).length =
      length := by
    simp [opsOf, partitionedRounds, Round.ops, length]
    omega
  have first : start (4 * k) = length * k := by
    rw [← all]
    exact startAt_mul _ _ k
  have later : ∀ s ≤ 4, start (4 * k + s) = start (4 * k) +
      offset (partitionedRounds before after finalSync cleared tileCount) s :=
    fun s inside => startAt_add _ _ k inside
  refine ⟨first, ?_, ?_, ?_⟩
  · rw [later 1 (by decide), first]
    rfl
  · rw [later 2 (by decide), first]
    rfl
  · rw [later 3 (by decide), first]
    rfl

/-- Where the tiles meet. -/
theorem partitionedReady_cases (r : Nat) :
    let meeting := ready (partitionedRound before after finalSync cleared tileCount)
      (partitionedStart before after finalSync cleared tileCount) r
    let first := (10 + cleared.length) * (r / 4)
    (r % 4 = 0 ∧ meeting = first) ∨ (r % 4 = 1 ∧ meeting = first + 4) ∨
      (r % 4 = 2 ∧ meeting = first + 6) ∨ (r % 4 = 3 ∧ meeting = first + 8 + cleared.length) := by
  obtain ⟨zero, one, two, three⟩ :=
    partitionedStart_execution before after finalSync cleared tileCount (r / 4)
  intro meeting first
  rcases partitionedRound_cases before after finalSync cleared tileCount r with
    ⟨mod, round⟩ | ⟨mod, round⟩ | ⟨mod, round⟩ | ⟨mod, round⟩
  · rw [show 4 * (r / 4) = r by omega] at zero
    simp [mod, meeting, first, ready, round, zero]
  · rw [show 4 * (r / 4) + 1 = r by omega] at one
    simp [mod, meeting, first, ready, round, one]
  · rw [show 4 * (r / 4) + 2 = r by omega] at two
    simp [mod, meeting, first, ready, round, two]
  · rw [show 4 * (r / 4) + 3 = r by omega] at three
    simp [mod, meeting, first, ready, round, three]

variable {before after finalSync cleared tileCount} in
/-- Where the tiles of a round are. -/
theorem inRound_bounds {s : State (Fin tileCount) Nat} {r : Nat}
    (inRound : InRound (partitionedRound before after finalSync cleared tileCount)
      (partitionedStart before after finalSync cleared tileCount) r s) (tile : Fin tileCount) :
    let first := (10 + cleared.length) * (r / 4)
    (r % 4 = 0 ∧ first ≤ s.done tile + 1 ∧ s.done tile ≤ first + 1) ∨
      (r % 4 = 1 ∧ first + 1 ≤ s.done tile ∧ s.done tile ≤ first + 5) ∨
      (r % 4 = 2 ∧ first + 5 ≤ s.done tile ∧ s.done tile ≤ first + 7) ∨
      (r % 4 = 3 ∧ first + 7 ≤ s.done tile ∧ s.done tile ≤ first + 9 + cleared.length) := by
  have low := inRound.low tile
  have high := inRound.high tile
  obtain ⟨zero, one, two, three⟩ :=
    partitionedStart_execution before after finalSync cleared tileCount (r / 4)
  intro first
  rcases partitionedRound_cases before after finalSync cleared tileCount r with
    ⟨mod, round⟩ | ⟨mod, round⟩ | ⟨mod, round⟩ | ⟨mod, round⟩
  · rw [show 4 * (r / 4) = r by omega] at zero
    rw [ready, round, zero] at high
    rw [zero] at low
    exact Or.inl ⟨mod, low, high⟩
  · rw [show 4 * (r / 4) + 1 = r by omega] at one
    rw [ready, round, one] at high
    rw [one] at low
    exact Or.inr (Or.inl ⟨mod, Nat.le_of_succ_le_succ low, high⟩)
  · rw [show 4 * (r / 4) + 2 = r by omega] at two
    rw [ready, round, two] at high
    rw [two] at low
    exact Or.inr (Or.inr (Or.inl ⟨mod, Nat.le_of_succ_le_succ low, high⟩))
  · rw [show 4 * (r / 4) + 3 = r by omega] at three
    rw [ready, round, three] at high
    rw [three] at low
    simp only [List.length_map] at high
    exact Or.inr (Or.inr (Or.inr ⟨mod, Nat.le_of_succ_le_succ low, by omega⟩))

/-- The cleanup clears the counters of the first two meetings, but not its own one. -/
structure Cleans : Prop where
  apart : before ≠ after ∧ before ≠ finalSync ∧ after ≠ finalSync
  before : before ∈ cleared
  after : after ∈ cleared
  finalSync : finalSync ∉ cleared

variable {before after finalSync cleared}

/-- What the counters of a partitioned walker are before its rounds. -/
theorem partitioned_before (cleans : Cleans before after finalSync cleared) (parties r : Nat) :
    let left := Lockstep.before parties
      (partitionedRound before after finalSync cleared tileCount) r
    (r % 4 = 0 → left before = 0 ∧ left after = 0) ∧
      (r % 4 = 1 → left before = parties ∧ left after = 0) ∧ (r % 4 = 2 → left finalSync = 0) ∧
      (r % 4 = 3 → left finalSync = parties) := by
  obtain ⟨first, second, third⟩ := cleans.apart
  induction r with
  | zero => simp [Lockstep.before]
  | succ r ih =>
    rcases partitionedRound_cases before after finalSync cleared tileCount r with
      ⟨mod, round⟩ | ⟨mod, round⟩ | ⟨mod, round⟩ | ⟨mod, round⟩
    · have kept := ih.1 mod
      simp only [Lockstep.before, round]
      refine ⟨by omega, fun _ => ?_, by omega, by omega⟩
      simp [kept, Ne.symm first]
    · simp only [Lockstep.before, round]
      refine ⟨by omega, by omega, fun _ => ?_, by omega⟩
      simp [Ne.symm third]
    · have kept := ih.2.2.1 mod
      simp only [Lockstep.before, round]
      refine ⟨by omega, by omega, by omega, fun _ => ?_⟩
      simp [kept]
    · simp only [Lockstep.before, round]
      refine ⟨fun _ => ?_, by omega, by omega, by omega⟩
      simp [second, third, cleans.before, cleans.after]

theorem partitioned_meets (cleans : Cleans before after finalSync cleared)
    (small : tileCount < 2 ^ 31) : Meets (Fintype.card (Fin tileCount)) 32
      (partitionedRound before after finalSync cleared tileCount) := by
  have left := fun r => partitioned_before tileCount cleans tileCount r
  obtain ⟨first, second, third⟩ := cleans.apart
  constructor
  · intro r
    rw [Fintype.card_fin]
    obtain ⟨zero, one, two, three⟩ := left r
    rcases partitionedRound_cases before after finalSync cleared tileCount r with
      ⟨mod, round⟩ | ⟨mod, round⟩ | ⟨mod, round⟩ | ⟨mod, round⟩
    · simp [round, zero mod]
    · simp [round, one mod]
    · simp [round, two mod]
    · simp [round, three mod, Nat.two_mul]
  · intro r
    rcases partitionedRound_cases before after finalSync cleared tileCount r with
      ⟨-, round⟩ | ⟨-, round⟩ | ⟨-, round⟩ | ⟨-, round⟩ <;> rw [round] <;> dsimp only <;> omega
  · intro r
    rcases partitionedRound_cases before after finalSync cleared tileCount r with
      ⟨-, round⟩ | ⟨-, round⟩ | ⟨-, round⟩ | ⟨-, round⟩ <;>
      simp [round, third, cleans.finalSync]

/-- No round clears the counter at which the round before it meets. -/
theorem partitioned_calm (cleans : Cleans before after finalSync cleared) (r : Nat) :
    some (partitionedRound before after finalSync cleared tileCount r).counter ∉
      (partitionedRound before after finalSync cleared tileCount (r + 1)).body := by
  obtain ⟨first, second, third⟩ := cleans.apart
  rcases partitionedRound_cases before after finalSync cleared tileCount r with
    ⟨mod, round⟩ | ⟨mod, round⟩ | ⟨mod, round⟩ | ⟨mod, round⟩ <;>
    rcases partitionedRound_cases before after finalSync cleared tileCount (r + 1) with
      ⟨next, nextRound⟩ | ⟨next, nextRound⟩ | ⟨next, nextRound⟩ | ⟨next, nextRound⟩ <;>
    first | omega | simp [round, nextRound, second, cleans.finalSync]

variable {tileCount}

/-- Tiles that execute a partitioned walker again and again, the walker being the third operation of
an execution. -/
theorem partitioned_keeps_together (cleans : Cleans before after finalSync cleared)
    (present : 0 < tileCount) (small : tileCount < 2 ^ 31) {s : State (Fin tileCount) Nat}
    (reachable : Reachable (system 32
      (opsOf (partitionedRounds before after finalSync cleared tileCount))) s) :
    let program := opsOf (partitionedRounds before after finalSync cleared tileCount)
    let length := 10 + cleared.length
    (∀ execution tile other, length * execution + 2 ≤ s.done tile →
      length * execution < s.done other) ∧
    (∀ execution tile other, length * execution + 6 ≤ s.done tile →
      length * execution + 5 ≤ s.done other) ∧
    (∀ tile, Considerate program s tile) ∧
    (∀ tile counter count, opAt program (s.done tile) = some (.wait counter count) →
      (count ≤ s.counters counter ↔ ∀ other, s.done tile ≤ s.done other)) ∧
    (∀ n, ∃ t, Continues 32 program s t ∧ ∀ tile, n ≤ t.done tile) ∧
    ∀ execution, (∀ tile, s.done tile = length * execution) →
      s.counters before = 0 ∧ s.counters after = 0 := by
  intro program length
  have unrolled := partitioned_unrolled before after finalSync cleared tileCount
  have meets := partitioned_meets tileCount cleans small
  have calm := partitioned_calm tileCount cleans
  have together :=
    reachable_together unrolled meets (reachable_considerate calm unrolled meets reachable)
  have leaves := meets_before_leaving unrolled meets reachable
  have meetings := partitionedReady_cases before after finalSync cleared tileCount
  dsimp only at meetings
  refine ⟨fun execution tile other past => ?_, fun execution tile other past => ?_, fun tile => ?_,
    fun tile counter count waits => together.waits_iff unrolled meets waits,
    fun n => together.continues unrolled meets n, fun execution all => ?_⟩
  · have meeting := meetings (4 * execution)
    rw [show 4 * execution / 4 = execution by omega] at meeting
    have first := leaves (4 * execution) tile other
    rw [show ready _ _ (4 * execution) = (10 + cleared.length) * execution by omega] at first
    exact first past
  · have meeting := meetings (4 * execution + 1)
    rw [show (4 * execution + 1) / 4 = execution by omega] at meeting
    have second := leaves (4 * execution + 1) tile other
    rw [show ready _ _ (4 * execution + 1) = (10 + cleared.length) * execution + 4 by omega]
      at second
    exact second past
  · exact considerate_of_calm calm unrolled meets reachable tile
  · have some : Nonempty (Fin tileCount) := ⟨⟨0, present⟩⟩
    have starts := partitionedStart_execution before after finalSync cleared tileCount execution
    have between := counters_between unrolled meets reachable (4 * execution) fun tile =>
      (all tile).trans starts.1.symm
    have left := (partitioned_before tileCount cleans (Fintype.card (Fin tileCount))
      (4 * execution)).1 (Nat.mul_mod_right 4 execution)
    exact ⟨(between _).trans left.1, (between _).trans left.2⟩

end Partitioned

/-! ### The tiles -/

/-- What a tile does to a counter; it uses nothing that the counter returns. -/
def CounterAccess.op : CounterAccess → Op Nat
  | .increment gpuAddress _ => .increment gpuAddress
  | .clear gpuAddress => .clear gpuAddress
  | .wait gpuAddress count => .wait gpuAddress count

def tileOp : Command → Option (Op Nat)
  | .computeWalker => some .pass
  | command => (counterAccess command).map CounterAccess.op

def tileProgram (e : Emission) : List (Op Nat) := e.items.filterMap fun placed => tileOp placed.2

/-- The tiles that execute a buffer again and again. Counters are 32 bits wide and are 0 when the
buffer is written. -/
def tiles (tileCount : Nat) (e : Emission) : System (State (Fin tileCount) Nat) (Fin tileCount) :=
  system 32 (tileProgram e)

theorem tileOp_of_ne {command : Command} (noWalker : command ≠ .computeWalker) :
    tileOp command = (counterAccess command).map CounterAccess.op := by
  cases command <;> first | rfl | exact absurd rfl noWalker

def walkers : Command → Option Unit
  | .computeWalker => some ()
  | _ => none

theorem quiet_walkers : Quiet walkers where
  miAtomic _ _ _ := rfl
  miSemaphoreWait _ _ _ := rfl
  miStoreDataImm _ _ := rfl
  miMemFence := rfl
  pipeControl _ _ := rfl

/-- Commands without a walker among them. -/
theorem tileOps_eq {commands : List Command} (noWalker : commands.filterMap walkers = []) :
    commands.filterMap tileOp = (commands.filterMap counterAccess).map CounterAccess.op := by
  rw [List.map_filterMap]
  refine List.filterMap_congr fun command member => tileOp_of_ne fun same => ?_
  have none := List.filterMap_eq_nil_iff.mp noWalker command member
  subst same
  cases none

theorem tileProgram_emitted (family : GfxFamily) (commands : List Command) :
    tileProgram (emitted family commands) = commands.filterMap tileOp := by
  simp [tileProgram, emitted, Emission.append, Layout.place_filterMap]

/-! ### Barriers -/

/-- The two fields of a barrier are not the same. -/
theorem barrierFields_ne (gpuAddress offset : Nat) :
    fieldAddress gpuAddress offset BarrierControlSection.finalSyncTileCount ≠
      fieldAddress gpuAddress offset BarrierControlSection.crossTileSyncCount := by
  simp only [fieldAddress, BarrierControlSection.finalSyncTileCount,
    BarrierControlSection.crossTileSyncCount, add64, Word.add]
  omega

section Barrier

variable {family : GfxFamily} {gpuAddressOfAllocation : Nat} {args : WalkerPartitionArgs}
  {dcFlushEnable : Bool} {env : RootDeviceEnvironment}

theorem walkers_barrierBuffer :
    (barrierBuffer family gpuAddressOfAllocation args dcFlushEnable env).filterMap walkers = [] := by
  have barrier : (if args.usePostSync then
        barrierWithPostSync family args.postSyncGpuAddress args.postSyncImmediateValue
          dcFlushEnable env
      else [.pipeControl dcFlushEnable none]).filterMap walkers = [] := by
    split
    · exact quiet_walkers.barrierWithPostSync _ _ _ _
    · rfl
  simp only [barrierBuffer, barrierPrologue, barrierEpilogue, List.filterMap_append, barrier,
    filterMap_optional, quiet_walkers.tilesSynchronization, quiet_walkers.selfCleanupEnd,
    quiet_walkers.filterMap_selfCleanup]
  simp only [List.filterMap_cons, List.filterMap_nil, walkers, ite_self, List.append_nil,
    zeroFields]

/-- What the tiles do with the counters when they execute a barrier. -/
theorem barrier_program (cleanup : args.emitSelfCleanup = true) (small : args.tileCount < 2 ^ 31) :
    let field := fieldAddress gpuAddressOfAllocation
      (computeBarrierControlSectionOffset family args env)
    tileProgram (constructBarrierCommandBuffer family gpuAddressOfAllocation args dcFlushEnable
      env) = opsOf (barrierRounds (field BarrierControlSection.crossTileSyncCount)
        (field BarrierControlSection.finalSyncTileCount) args.tileCount) := by
  have twice : Word.mul 32 2 args.tileCount = 2 * args.tileCount := Word.mul_eq (by omega)
  rw [constructBarrierCommandBuffer_eq, tileProgram_emitted, tileOps_eq walkers_barrierBuffer,
    accesses_barrierBuffer]
  simp [barrierAccesses, cleanup, synchronize, cleanUp, twice, CounterAccess.op, barrierRounds,
    opsOf, Round.ops, bodyOp]

/-- Tiles that execute a barrier again and again stay together in every run in which no tile clears
a counter that another one still waits on: none leaves the cross-tile wait of an execution before
all have come to it, each wait is open exactly when all have come, and all come as far as one
likes. -/
theorem barrier_keeps_together (cleanup : args.emitSelfCleanup = true)
    (small : args.tileCount < 2 ^ 31) {s : State (Fin args.tileCount) Nat}
    (reachable : Reachable ((tiles args.tileCount (constructBarrierCommandBuffer family
      gpuAddressOfAllocation args dcFlushEnable env)).restrict (Considerate (tileProgram
        (constructBarrierCommandBuffer family gpuAddressOfAllocation args dcFlushEnable env)))) s) :
    let program := tileProgram
      (constructBarrierCommandBuffer family gpuAddressOfAllocation args dcFlushEnable env)
    (∀ execution tile other, 8 * execution + 2 < s.done tile → 8 * execution + 1 < s.done other) ∧
    (∀ tile counter count, opAt program (s.done tile) = some (.wait counter count) →
      (count ≤ s.counters counter ↔ ∀ other, s.done tile ≤ s.done other)) ∧
    ∀ n, ∃ t, Continues 32 program s t ∧ ∀ tile, n ≤ t.done tile := by
  rw [tiles, barrier_program cleanup small] at reachable
  rw [barrier_program cleanup small]
  intro program
  have unrolled := @barrier_unrolled
    (fieldAddress gpuAddressOfAllocation (computeBarrierControlSectionOffset family args env)
      BarrierControlSection.crossTileSyncCount)
    (fieldAddress gpuAddressOfAllocation (computeBarrierControlSectionOffset family args env)
      BarrierControlSection.finalSyncTileCount) args.tileCount
  have meets := barrier_meets (barrierFields_ne gpuAddressOfAllocation
    (computeBarrierControlSectionOffset family args env)) small
  have together := reachable_together unrolled meets reachable
  refine ⟨fun execution tile other left => ?_, fun tile counter count waits => ?_, fun n => ?_⟩
  · have leaves :=
      meets_before_leaving unrolled meets reachable.of_restrict (3 * execution) tile other
    rw [barrierReady_execution] at leaves
    exact leaves left
  · exact together.waits_iff unrolled meets waits
  · exact together.continues unrolled meets n

/-- Two tiles at a barrier at 0x10000. -/
def twoTiles : Emission :=
  constructBarrierCommandBuffer xeHpcFamily 0x10000 { tileCount := 2, emitSelfCleanup := true }
    false ⟨false, false, false, none⟩

theorem barrier_keeps_together_start :
    ∃ t, Continues 32 (tileProgram twoTiles) ⟨fun _ : Fin 2 => 0, fun _ => 0⟩ t ∧
      ∀ tile, 16 ≤ t.done tile :=
  (@barrier_keeps_together xeHpcFamily 0x10000 { tileCount := 2, emitSelfCleanup := true } false
    ⟨false, false, false, none⟩ rfl (by decide) _ (.start rfl)).2.2 16

/-- The first tile clears the final counter in its second execution while the second tile still
waits on it in its first one: neither goes on. -/
theorem barrier_deadlock : ∃ s, Reachable (tiles 2 twoTiles) s ∧ s.done 0 = 10 ∧ s.done 1 = 7 ∧
    ∀ tile t, ¬(tiles 2 twoTiles).step s tile t := by
  have run : ∃ s, [0, 0, 1, 1, 0, 0, 1, 1, 0, 0, 0, 1, 1, 1, 0, 0, 0].foldlM
      (State.advance? 32 (tileProgram twoTiles)) ⟨fun _ : Fin 2 => 0, fun _ => 0⟩ = some s ∧
        s.done 0 = 10 ∧ s.done 1 = 7 ∧
          ∀ tile, s.advance? 32 (tileProgram twoTiles) tile = none := by
    refine ⟨_, rfl, rfl, rfl, ?_⟩
    decide
  obtain ⟨s, ran, first, second, stuck⟩ := run
  refine ⟨s, .foldlM (fun _ _ _ => system_step_iff.mpr) (.start rfl) ran, first, second,
    fun tile t step => ?_⟩
  cases (stuck tile).symm.trans (system_step_iff.mp step)

end Barrier

/-! ### Static partitioning -/

section Static

variable {family : GfxFamily} {gpuAddressOfAllocation postSyncDestination : Nat}
  {args : WalkerPartitionArgs}

theorem staticFields_cleans (gpuAddress offset : Nat) :
    let field := fieldAddress gpuAddress offset
    Cleans (field StaticPartitioningControlSection.synchronizeBeforeWalkerCounter)
      (field StaticPartitioningControlSection.synchronizeAfterWalkerCounter)
      (field StaticPartitioningControlSection.finalSyncTileCounter)
      [field StaticPartitioningControlSection.synchronizeBeforeWalkerCounter,
        field StaticPartitioningControlSection.synchronizeAfterWalkerCounter] := by
  intro field
  have apart : field 0 ≠ field 4 ∧ field 0 ≠ field 8 ∧ field 4 ≠ field 8 := by
    simp only [field, fieldAddress, add64, Word.add]
    omega
  refine ⟨apart, by simp, by simp, ?_⟩
  simp only [List.mem_cons, List.not_mem_nil, or_false, not_or]
  exact ⟨apart.2.1.symm, apart.2.2.symm⟩

theorem tileOps_tilesSynchronization (atomicAddress tileCount : Nat) :
    (tilesSynchronization atomicAddress tileCount).filterMap tileOp =
      [.increment atomicAddress, .wait atomicAddress tileCount] := rfl

theorem tileOps_selfCleanup (useAtomicsForSelfCleanup : Bool) (address : Nat) :
    [selfCleanup useAtomicsForSelfCleanup address].filterMap tileOp = [.clear address] := by
  cases useAtomicsForSelfCleanup <;> rfl

/-- What the tiles do when they execute a statically partitioned buffer that starts with a meeting
and cleans up. -/
theorem static_program (direct : args.blockDispatchToCommandBuffer = false)
    (synchronized : args.synchronizeBeforeExecution = true) (cleanup : args.emitSelfCleanup = true)
    (small : args.tileCount < 2 ^ 31) :
    let field := fieldAddress gpuAddressOfAllocation
      (computeStaticPartitioningControlSectionOffset family args)
    tileProgram (constructStaticallyPartitionedCommandBuffer family gpuAddressOfAllocation
      postSyncDestination args) =
      opsOf (partitionedRounds
        (field StaticPartitioningControlSection.synchronizeBeforeWalkerCounter)
        (field StaticPartitioningControlSection.synchronizeAfterWalkerCounter)
        (field StaticPartitioningControlSection.finalSyncTileCounter)
        [field StaticPartitioningControlSection.synchronizeBeforeWalkerCounter,
          field StaticPartitioningControlSection.synchronizeAfterWalkerCounter]
        args.tileCount) := by
  have twice : Word.mul 32 2 args.tileCount = 2 * args.tileCount := Word.mul_eq (by omega)
  have waits : (postSyncWaits postSyncDestination args.partitionCount).filterMap tileOp = [] := by
    rw [tileOps_eq (quiet_walkers.postSyncWaits _ _), accesses_postSyncWaits, List.map_nil]
  have cleans := fun finalSync controlSection fields =>
    tileOps_eq (@Quiet.selfCleanupEnd args _ _ quiet_walkers finalSync controlSection fields)
  rw [constructStaticallyPartitionedCommandBuffer_eq direct, tileProgram_emitted, staticBuffer,
    staticPrologue, staticControl, staticEpilogue]
  -- Loads, barriers and jumps are nothing to the counters.
  have load : ∀ register, [Command.loadRegisterMem args.workPartitionAllocationGpuVa
      register].filterMap tileOp = [] := fun _ => rfl
  have stall : [Command.pipeControl args.dcFlushEnable none].filterMap tileOp = [] := rfl
  have jump : ∀ target fields, [Command.batchBufferStart target false args.secondaryBatchBuffer,
      zeroFields fields].filterMap tileOp = [] := fun _ _ => rfl
  have walker : [Command.computeWalker].filterMap tileOp = [.pass] := rfl
  simp only [List.filterMap_append, filterMap_optional, tileOps_tilesSynchronization, waits, load,
    stall, jump, walker, tileOps_selfCleanup, cleans, accesses_selfCleanupEnd, synchronized, cleanup,
    ite_self, if_true, or_true, List.append_nil]
  rw [cleanUp, twice]
  rfl

/-- Tiles that execute a statically partitioned buffer again and again, one execution of which
consists of twelve operations with the walker as the third one. No tile executes the walker before
all have left the execution before it, and none leaves the wait behind the walker before all have
executed it; no tile clears a counter on which another one waits; each wait is open exactly when all
have come to it, and all come as far as one likes; each execution starts with cleared counters. -/
theorem static_keeps_together (direct : args.blockDispatchToCommandBuffer = false)
    (synchronized : args.synchronizeBeforeExecution = true) (cleanup : args.emitSelfCleanup = true)
    (present : 0 < args.tileCount) (small : args.tileCount < 2 ^ 31)
    {s : State (Fin args.tileCount) Nat}
    (reachable : Reachable (tiles args.tileCount (constructStaticallyPartitionedCommandBuffer family
      gpuAddressOfAllocation postSyncDestination args)) s) :
    let program := tileProgram (constructStaticallyPartitionedCommandBuffer family
      gpuAddressOfAllocation postSyncDestination args)
    let field := fieldAddress gpuAddressOfAllocation
      (computeStaticPartitioningControlSectionOffset family args)
    (∀ execution tile other, 12 * execution + 2 ≤ s.done tile → 12 * execution < s.done other) ∧
    (∀ execution tile other, 12 * execution + 6 ≤ s.done tile →
      12 * execution + 5 ≤ s.done other) ∧
    (∀ tile, Considerate program s tile) ∧
    (∀ tile counter count, opAt program (s.done tile) = some (.wait counter count) →
      (count ≤ s.counters counter ↔ ∀ other, s.done tile ≤ s.done other)) ∧
    (∀ n, ∃ t, Continues 32 program s t ∧ ∀ tile, n ≤ t.done tile) ∧
    ∀ execution, (∀ tile, s.done tile = 12 * execution) →
      s.counters (field StaticPartitioningControlSection.synchronizeBeforeWalkerCounter) = 0 ∧
      s.counters (field StaticPartitioningControlSection.synchronizeAfterWalkerCounter) = 0 := by
  rw [tiles, static_program direct synchronized cleanup small] at reachable
  rw [static_program direct synchronized cleanup small]
  intro program field
  exact partitioned_keeps_together (staticFields_cleans gpuAddressOfAllocation
    (computeStaticPartitioningControlSectionOffset family args)) present small reachable

theorem static_keeps_together_start :
    ∃ t, Continues 32 (tileProgram (constructStaticallyPartitionedCommandBuffer xeHpcFamily 0x10000
        0 { tileCount := 2, synchronizeBeforeExecution := true, emitSelfCleanup := true }))
        ⟨fun _ : Fin 2 => 0, fun _ => 0⟩ t ∧
      ∀ tile, 24 ≤ t.done tile :=
  (@static_keeps_together xeHpcFamily 0x10000 0
    { tileCount := 2, synchronizeBeforeExecution := true, emitSelfCleanup := true } rfl rfl rfl
    (by decide) (by decide) _ (.start rfl)).2.2.2.2.1 24

end Static

end ComputeRuntime.WalkerPartition
