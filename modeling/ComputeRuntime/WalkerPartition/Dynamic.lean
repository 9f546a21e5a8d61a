import ComputeRuntime.WalkerPartition.Ledger
import ComputeRuntime.WalkerPartition.Machine
import ComputeRuntime.WalkerPartition.Tiles

/-! The tiles of a device that execute a dynamically partitioned buffer share its partitions. -/
namespace ComputeRuntime.WalkerPartition

open Layout Lockstep Transition

/-! ### The mask of the partitions -/

/-- Bits from one position to another. -/
theorem and_mask_eq_zero_iff {value low high : Nat} (inside : low ≤ high)
    (narrow : value < 2 ^ high) : value &&& (2 ^ high - 2 ^ low) = 0 ↔ value < 2 ^ low := by
  have bits : ∀ i, (2 ^ high - 2 ^ low).testBit i = (decide (i < high) && !decide (i < low)) := by
    intro i
    have pos : 0 < 2 ^ low := Nat.two_pow_pos low
    have less : 2 ^ low - 1 < 2 ^ high :=
      Nat.lt_of_lt_of_le (Nat.sub_lt pos Nat.one_pos) (Nat.pow_le_pow_right Nat.two_pos inside)
    have mask := Nat.testBit_two_pow_sub_succ less i
    rwa [Nat.sub_add_cancel pos, Nat.testBit_two_pow_sub_one] at mask
  constructor
  · intro zero
    refine Nat.lt_pow_two_of_testBit value fun i above => ?_
    by_cases below : i < high
    · have bit := congrArg (Nat.testBit · i) zero
      simpa [Nat.testBit_and, bits, below, Nat.not_lt.mpr above] using bit
    · exact Nat.testBit_lt_two_pow
        (Nat.lt_of_lt_of_le narrow (Nat.pow_le_pow_right Nat.two_pos (Nat.le_of_not_lt below)))
  · intro small
    refine Nat.eq_of_testBit_eq fun i => ?_
    rw [Nat.testBit_and, bits, Nat.zero_testBit]
    by_cases below : i < low
    · simp [below]
    · rw [Nat.testBit_lt_two_pow
        (Nat.lt_of_lt_of_le small (Nat.pow_le_pow_right Nat.two_pos (Nat.le_of_not_lt below))),
        Bool.false_and]

/-- The mask lets through the partitions that there are. -/
theorem wparidMask_and {partitionCount : Nat} (pow2 : isPow2 partitionCount = true)
    (few : partitionCount ≤ 16) {partition : Nat} (narrow : partition < 2 ^ 16) :
    partition &&& wparidMask partitionCount = 0 ↔ partition < partitionCount := by
  have powers : ∃ low ≤ 16, partitionCount = 2 ^ low ∧
      wparidMask partitionCount = 2 ^ 16 - 2 ^ low := by
    interval_cases partitionCount <;> first
      | exact absurd pow2 (by decide)
      | exact ⟨0, by decide, by decide, by decide⟩
      | exact ⟨1, by decide, by decide, by decide⟩
      | exact ⟨2, by decide, by decide, by decide⟩
      | exact ⟨3, by decide, by decide, by decide⟩
      | exact ⟨4, by decide, by decide, by decide⟩
  obtain ⟨low, inside, count, mask⟩ := powers
  rw [mask, and_mask_eq_zero_iff inside narrow, count]

/-! ### The commands of a buffer that starts with a meeting and cleans up -/

section Commands

variable (family : GfxFamily) (gpuAddressOfAllocation : Nat) (args : WalkerPartitionArgs)
  (postSyncDestination : Nat)

def dynamicFields : Fields :=
  let field := fieldAddress gpuAddressOfAllocation (computeControlSectionOffset family args)
  { partitions := field BatchBufferControlData.partitionCount
    tiles := field BatchBufferControlData.tileCount
    inTiles := field BatchBufferControlData.inTileCount
    finalSync := field BatchBufferControlData.finalSyncTileCount }

/-- The commands of the loop, up to the one that ends it. -/
def loopCommands : List Command :=
  let fields := dynamicFields family gpuAddressOfAllocation args
  [.miAtomic fields.inTiles false .increment4B,
    .miSemaphoreWait fields.inTiles args.tileCount .sadGreaterThanOrEqualSdd,
    .loadRegisterImm predicationMaskCCSOffset (wparidMask args.partitionCount),
    .miAtomic fields.partitions true .increment4B,
    .loadRegisterReg generalPurposeRegister4 wparidCCSOffset, .miSetPredicate true,
    .batchBufferStart (add64 gpuAddressOfAllocation (computeWalkerSectionStart family args)) true
      args.secondaryBatchBuffer,
    .miSetPredicate false]

/-- The jump behind the control section. -/
def endJump : Command :=
  .batchBufferStart (fieldAddress gpuAddressOfAllocation (computeControlSectionOffset family args)
    (family.size (zeroFields BatchBufferControlData.fieldCount))) false args.secondaryBatchBuffer

/-- The commands between the loop and the walker. -/
def tailCommands : List Command :=
  let fields := dynamicFields family gpuAddressOfAllocation args
  [selfCleanup args.useAtomicsForSelfCleanup fields.finalSync] ++
    optional (args.emitPipeControlStall = true) [.pipeControl args.dcFlushEnable none] ++
    optional (args.semaphoreProgrammingRequired = true)
      (postSyncWaits postSyncDestination args.partitionCount) ++
    tilesSynchronization fields.tiles args.tileCount ++
    optional (args.preferredStaticPartitioning = true)
      [.loadRegisterMem args.workPartitionAllocationGpuVa wparidCCSOffset]

variable {family gpuAddressOfAllocation args postSyncDestination}

theorem dynamicPrologue_split (synchronized : args.synchronizeBeforeExecution = true)
    (cleanup : args.emitSelfCleanup = true) :
    dynamicPrologue family gpuAddressOfAllocation args postSyncDestination =
      loopCommands family gpuAddressOfAllocation args ++
        (tailCommands family gpuAddressOfAllocation args postSyncDestination ++
          [endJump family gpuAddressOfAllocation args]) := by
  have partitions : (dynamicFields family gpuAddressOfAllocation args).partitions =
      add64 gpuAddressOfAllocation (computeControlSectionOffset family args) := fieldAddress_zero _
  simp only [dynamicPrologue, loopCommands, tailCommands, endJump, optional, synchronized, cleanup,
    if_true, or_true, tilesSynchronization, partitions]
  simp only [List.append_assoc, List.cons_append, List.nil_append]
  rfl

theorem dynamicBuffer_split (synchronized : args.synchronizeBeforeExecution = true)
    (cleanup : args.emitSelfCleanup = true) :
    dynamicBuffer family gpuAddressOfAllocation args postSyncDestination =
      loopCommands family gpuAddressOfAllocation args ++
        (tailCommands family gpuAddressOfAllocation args postSyncDestination ++
          endJump family gpuAddressOfAllocation args ::
            (walkerSection gpuAddressOfAllocation args ++
              zeroFields BatchBufferControlData.fieldCount ::
                dynamicEpilogue family gpuAddressOfAllocation args)) := by
  rw [dynamicBuffer, dynamicPrologue_split synchronized cleanup]
  simp only [List.append_assoc, List.cons_append, List.nil_append]

theorem dynamicFields_apart : (dynamicFields family gpuAddressOfAllocation args).Apart := by
  simp only [Fields.Apart, dynamicFields, fieldAddress, BatchBufferControlData.partitionCount,
    BatchBufferControlData.tileCount, BatchBufferControlData.inTileCount,
    BatchBufferControlData.finalSyncTileCount, add64, Word.add, List.nodup_cons, List.mem_cons,
    List.not_mem_nil, or_false, not_or, List.nodup_nil, not_false_eq_true, and_true]
  omega

/-- A command that does nothing to the counters, nor to where the streamer goes. -/
def Idle : Command → Prop
  | .loadRegisterMem _ _ => True
  | .pipeControl _ none => True
  | .miSemaphoreWait _ _ .sadNotEqualSdd => True
  | _ => False

variable (family gpuAddressOfAllocation args) in
/-- Commands that take a streamer from a stage of its program to the end of the buffer. -/
def Straight : Nat → List Command → Prop
  | stage, [] => stage = 13
  | stage, command :: rest =>
    (∃ op, (counterAccess command).map CounterAccess.op = some op ∧
      ((dynamicFields family gpuAddressOfAllocation args).program args.tileCount)[stage]? =
        some op ∧ Straight (stage + 1) rest) ∨
    (Idle command ∧ Straight stage rest) ∨
    (command = endJump family gpuAddressOfAllocation args ∧ stage = 6) ∨
    (command = .batchBufferEnd ∧ stage = 13)

theorem straight_idle {stage : Nat} {idle rest : List Command} (all : ∀ command ∈ idle, Idle command)
    (straight : Straight family gpuAddressOfAllocation args stage rest) :
    Straight family gpuAddressOfAllocation args stage (idle ++ rest) := by
  induction idle with
  | nil => exact straight
  | cons command more ih =>
    exact Or.inr (Or.inl ⟨all command List.mem_cons_self,
      ih fun other member => all other (List.mem_cons_of_mem command member)⟩)

theorem straight_optional {stage : Nat} {condition : Prop} [Decidable condition]
    {idle rest : List Command} (all : ∀ command ∈ idle, Idle command)
    (straight : Straight family gpuAddressOfAllocation args stage rest) :
    Straight family gpuAddressOfAllocation args stage (optional condition idle ++ rest) := by
  rw [optional]
  split
  · exact straight_idle all straight
  · exact straight

theorem straight_op {stage : Nat} {command : Command} {rest : List Command} (op : Op Nat)
    (access : (counterAccess command).map CounterAccess.op = some op)
    (found : ((dynamicFields family gpuAddressOfAllocation args).program args.tileCount)[stage]? =
      some op) (straight : Straight family gpuAddressOfAllocation args (stage + 1) rest) :
    Straight family gpuAddressOfAllocation args stage (command :: rest) :=
  Or.inl ⟨op, access, found, straight⟩

/-- Behind the loop the commands lead to the jump over the control section. -/
theorem straight_tail (rest : List Command) : Straight family gpuAddressOfAllocation args 3
    (tailCommands family gpuAddressOfAllocation args postSyncDestination ++
      endJump family gpuAddressOfAllocation args :: rest) := by
  simp only [tailCommands, tilesSynchronization, List.append_assoc, List.cons_append,
    List.nil_append]
  refine straight_op (.clear _) ?_ rfl (straight_optional ?_ (straight_optional ?_ ?_))
  · rw [counterAccess_selfCleanup]
    rfl
  · simp [Idle]
  · simp [postSyncWaits, Idle]
  · refine straight_op (.increment _) rfl rfl (straight_op (.wait _ _) rfl rfl ?_)
    exact straight_optional (by simp [Idle]) (Or.inr (Or.inr (Or.inl ⟨rfl, rfl⟩)))

/-- Behind the control section the commands lead to the end of the buffer. -/
theorem straight_epilogue (cleanup : args.emitSelfCleanup = true) (small : args.tileCount < 2 ^ 31) :
    Straight family gpuAddressOfAllocation args 6
      (dynamicEpilogue family gpuAddressOfAllocation args) := by
  have twice : Word.mul 32 2 args.tileCount = 2 * args.tileCount := Word.mul_eq (by omega)
  have barrier : ∀ command ∈ [Command.pipeControl false none], Idle command := by simp [Idle]
  have last : Straight family gpuAddressOfAllocation args 13
      (optional (args.emitBatchBufferEnd = true) [.batchBufferEnd]) := by
    rw [optional]
    split
    · exact Or.inr (Or.inr (Or.inr ⟨rfl, rfl⟩))
    · rfl
  have fieldOf : ∀ field, add64 (add64 gpuAddressOfAllocation
      (computeControlSectionOffset family args)) field = fieldAddress gpuAddressOfAllocation
        (computeControlSectionOffset family args) field := fun _ => rfl
  have fields : fieldCleanups (add64 gpuAddressOfAllocation
      (computeControlSectionOffset family args)) dynamicPartitioningFieldsForCleanupCount args =
        (dynamicFields family gpuAddressOfAllocation args).cleared.map
          (selfCleanup args.useAtomicsForSelfCleanup) := rfl
  rw [dynamicEpilogue, optional, if_pos cleanup, selfCleanupEnd, fields, twice, cleanupBarrier]
  simp only [tilesSynchronization, fieldOf, Fields.cleared, List.map_cons, List.map_nil,
    List.append_assoc, List.cons_append, List.nil_append]
  refine straight_optional barrier (straight_op (.increment _) rfl rfl
    (straight_op (.wait _ _) rfl rfl ?_))
  refine straight_op (.clear _) ?_ rfl (straight_op (.clear _) ?_ rfl
    (straight_op (.clear _) ?_ rfl (straight_optional barrier ?_)))
  · rw [counterAccess_selfCleanup]
    rfl
  · rw [counterAccess_selfCleanup]
    rfl
  · rw [counterAccess_selfCleanup]
    rfl
  · exact straight_op (.increment _) rfl rfl (straight_op (.wait _ _) rfl rfl last)

end Commands

/-! ### Where the streamers are -/

section Shows

variable (family : GfxFamily) (gpuAddressOfAllocation : Nat) (args : WalkerPartitionArgs)
  (postSyncDestination : Nat)

/-- The position of the walker. -/
def walkerPosition : Nat :=
  9 + (tailCommands family gpuAddressOfAllocation args postSyncDestination).length

/-- A streamer skips nothing, whether or not the mask is loaded again. -/
def Awake (s : Streamer) : Prop :=
  s.predication = false ∨ s.registers predicationMaskCCSOffset = wparidMask args.partitionCount ∧
    s.registers wparidCCSOffset &&& wparidMask args.partitionCount = 0

/-- A streamer holds a partition: in the register of the atomic, then in its own one; before the
jump, behind it when it was skipped, or at the walker. -/
inductive Holds (s : Streamer) (partition : Nat) : Prop
  | fetched (here : s.position = 4) (awake : Awake args s)
    (held : s.registers generalPurposeRegister4 = partition)
  | chosen (here : s.position = 5) (held : s.registers wparidCCSOffset = partition)
  | predicated (here : s.position = 6) (on : s.predication = true)
    (held : s.registers wparidCCSOffset = partition)
  | skipped (here : s.position = 7) (none : args.partitionCount ≤ partition)
  | walking (here : s.position = walkerPosition family gpuAddressOfAllocation args
      postSyncDestination) (some : partition < args.partitionCount)
    (held : s.registers wparidCCSOffset = partition)

/-- What a streamer looks like in a phase. -/
def Looks (s : Streamer) : Phase → Prop
  | .enter _ => s.position = 0 ∧ Awake args s
  | .entered _ => s.position = 1 ∧ Awake args s
  | .fetch => Awake args s ∧ (s.position = 2 ∨ s.position = 3 ∧
      s.registers predicationMaskCCSOffset = wparidMask args.partitionCount)
  | .hold partition =>
    s.registers predicationMaskCCSOffset = wparidMask args.partitionCount ∧
      Holds family gpuAddressOfAllocation args postSyncDestination s partition
  | .back => Awake args s ∧
      s.position = walkerPosition family gpuAddressOfAllocation args postSyncDestination + 1
  | .after stage => s.predication = false ∧ Straight family gpuAddressOfAllocation args stage
        ((dynamicBuffer family gpuAddressOfAllocation args postSyncDestination).drop s.position) ∧
      (walkerPosition family gpuAddressOfAllocation args postSyncDestination < s.position →
        6 ≤ stage)

/-- The tiles of a device work as the workers do. -/
structure Shows (d : Device args.tileCount) (w : Workers args.tileCount) : Prop where
  looks : ∀ tile, Looks family gpuAddressOfAllocation args postSyncDestination
    (d.streamers tile) (w.phase tile)
  executions : ∀ tile, (d.streamers tile).execution = w.execution tile
  memory : d.memory = w.memory
  walked : d.walked = w.walked

variable {family gpuAddressOfAllocation args postSyncDestination}

section Moves

variable {d : Device args.tileCount} {w : Workers args.tileCount}
  (shows : Shows family gpuAddressOfAllocation args postSyncDestination d w)
  {tile : Fin args.tileCount} {s : Streamer}
include shows

/-- One streamer moves as its worker does. -/
theorem Shows.move {phase : Phase} {memory memory' : Nat → Nat} {walked walked' : List (Nat × Nat)}
    (looks : Looks family gpuAddressOfAllocation args postSyncDestination s phase)
    (execution : s.execution = (d.streamers tile).execution) (sameMemory : memory = memory')
    (sameWalked : walked = walked') :
    Shows family gpuAddressOfAllocation args postSyncDestination
      { d.put tile s with memory := memory, walked := walked }
      { w.move tile phase with memory := memory', walked := walked' } := by
  refine ⟨fun other => ?_, fun other => ?_, sameMemory, sameWalked⟩
  · simp only [Device.put, Workers.move, Function.update_apply]
    split
    · exact looks
    · exact shows.looks other
  · simp only [Device.put, Workers.move, Function.update_apply]
    split
    next same =>
      subst same
      rw [execution, shows.executions]
    next => exact shows.executions other

/-- One streamer moves while its worker stays. -/
theorem Shows.stay
    (looks : Looks family gpuAddressOfAllocation args postSyncDestination s (w.phase tile))
    (execution : s.execution = (d.streamers tile).execution) :
    Shows family gpuAddressOfAllocation args postSyncDestination (d.put tile s) w := by
  have moved := shows.move looks execution shows.memory shows.walked
  rw [Workers.move, Function.update_eq_self] at moved
  exact moved

end Moves

/-! ### Fetching commands -/

theorem items_dynamic (position : Nat) :
    (emitted family (dynamicBuffer family gpuAddressOfAllocation args
      postSyncDestination)).items[position]?.map Prod.snd =
        (dynamicBuffer family gpuAddressOfAllocation args postSyncDestination)[position]? := by
  simp only [emitted, Emission.append, List.nil_append, place_getElem?, Option.map_map]
  cases (dynamicBuffer family gpuAddressOfAllocation args postSyncDestination)[position]? <;> rfl

variable {d : Device args.tileCount} {tile : Fin args.tileCount}

/-- The step of a streamer at a command. -/
theorem step?_of_command {command : Command}
    (at_ : (dynamicBuffer family gpuAddressOfAllocation args
      postSyncDestination)[(d.streamers tile).position]? = some command) :
    d.step? gpuAddressOfAllocation (emitted family (dynamicBuffer family gpuAddressOfAllocation args
      postSyncDestination)) tile =
      if (d.streamers tile).skips command then some (d.put tile (d.streamers tile).next)
      else d.execute? gpuAddressOfAllocation (emitted family (dynamicBuffer family
        gpuAddressOfAllocation args postSyncDestination)) tile command := by
  rw [← items_dynamic, Option.map_eq_some_iff] at at_
  obtain ⟨⟨start, found⟩, fetched, rfl⟩ := at_
  rw [Device.step?]
  simp only [fetched]

theorem executes {command : Command} {d' : Device args.tileCount}
    (at_ : (dynamicBuffer family gpuAddressOfAllocation args
      postSyncDestination)[(d.streamers tile).position]? = some command)
    (runs : (d.streamers tile).skips command = false)
    (step : d.step? gpuAddressOfAllocation (emitted family (dynamicBuffer family
      gpuAddressOfAllocation args postSyncDestination)) tile = some d') :
    d.execute? gpuAddressOfAllocation (emitted family (dynamicBuffer family gpuAddressOfAllocation
      args postSyncDestination)) tile command = some d' := by
  rwa [step?_of_command at_, runs, if_neg (by decide)] at step

theorem step?_of_end
    (ended : (dynamicBuffer family gpuAddressOfAllocation args
      postSyncDestination)[(d.streamers tile).position]? = none) :
    d.step? gpuAddressOfAllocation (emitted family (dynamicBuffer family gpuAddressOfAllocation args
      postSyncDestination)) tile =
      some (d.put tile { d.streamers tile with
        position := 0, execution := (d.streamers tile).execution + 1 }) := by
  rw [← items_dynamic, Option.map_eq_none_iff] at ended
  rw [Device.step?]
  simp only [ended]

/-! ### Jumps -/

/-- The sizes of the commands, and a buffer that fits the address space. -/
structure Fits (family : GfxFamily) (gpuAddressOfAllocation : Nat) (commands : List Command) :
    Prop where
  base : gpuAddressOfAllocation < 2 ^ 64
  positive : ∀ command ∈ commands, 0 < family.size command
  room : extent family.size commands ≤ 2 ^ 64

/-- A jump to the end of the first commands lands at the next one. -/
theorem landing?_emitted {before after : List Command} {command : Command}
    (fits : Fits family gpuAddressOfAllocation (before ++ command :: after)) :
    landing? gpuAddressOfAllocation (emitted family (before ++ command :: after))
      (add64 gpuAddressOfAllocation (extent family.size before)) = some before.length := by
  have injective : ∀ a b, a < 2 ^ 64 → b < 2 ^ 64 →
      add64 gpuAddressOfAllocation a = add64 gpuAddressOfAllocation b → a = b := by
    intro a b first second same
    simp only [add64, Word.add] at same
    omega
  have found := @findIdx?_place _ family.size _ _ (add64 gpuAddressOfAllocation) _ 0 before after
    command injective
    (fun other member => fits.positive other (by
      rw [List.mem_append, List.mem_singleton] at member
      rcases member with member | rfl
      · exact List.mem_append_left _ member
      · exact List.mem_append_right _ List.mem_cons_self))
    ((Nat.zero_add _).trans_le fits.room)
  simpa only [landing?, emitted, Emission.append, List.nil_append, Nat.zero_add] using found

section Landings

variable (synchronized : args.synchronizeBeforeExecution = true)
  (cleanup : args.emitSelfCleanup = true)
  (fits : Fits family gpuAddressOfAllocation
    (dynamicBuffer family gpuAddressOfAllocation args postSyncDestination))
include synchronized cleanup fits

theorem landing?_start : landing? gpuAddressOfAllocation (emitted family (dynamicBuffer family
    gpuAddressOfAllocation args postSyncDestination)) gpuAddressOfAllocation = some 0 := by
  have base : add64 gpuAddressOfAllocation 0 = gpuAddressOfAllocation :=
    Nat.mod_eq_of_lt fits.base
  rw [dynamicBuffer_split synchronized cleanup, loopCommands] at fits ⊢
  have found := @landing?_emitted _ _ [] _ _ fits
  rwa [extent_nil, base] at found

theorem landing?_walker : landing? gpuAddressOfAllocation (emitted family (dynamicBuffer family
    gpuAddressOfAllocation args postSyncDestination))
      (add64 gpuAddressOfAllocation (computeWalkerSectionStart family args)) =
        some (walkerPosition family gpuAddressOfAllocation args postSyncDestination) := by
  have length : (dynamicPrologue family gpuAddressOfAllocation args postSyncDestination).length =
      walkerPosition family gpuAddressOfAllocation args postSyncDestination := by
    rw [dynamicPrologue_split synchronized cleanup, walkerPosition]
    simp only [List.length_append, loopCommands, List.length_cons, List.length_nil]
    omega
  have split : dynamicBuffer family gpuAddressOfAllocation args postSyncDestination =
      dynamicPrologue family gpuAddressOfAllocation args postSyncDestination ++ .computeWalker ::
        (.batchBufferStart gpuAddressOfAllocation false args.secondaryBatchBuffer ::
          zeroFields BatchBufferControlData.fieldCount ::
            dynamicEpilogue family gpuAddressOfAllocation args) := by
    simp [dynamicBuffer, walkerSection]
  rw [split] at fits ⊢
  have found := landing?_emitted fits
  rwa [extent_dynamicPrologue, length] at found

omit fits in
theorem length_front : (dynamicPrologue family gpuAddressOfAllocation args postSyncDestination ++
    walkerSection gpuAddressOfAllocation args ++
      [zeroFields BatchBufferControlData.fieldCount]).length =
    walkerPosition family gpuAddressOfAllocation args postSyncDestination + 3 := by
  rw [dynamicPrologue_split synchronized cleanup, walkerPosition]
  simp only [List.length_append, loopCommands, walkerSection, List.length_cons, List.length_nil]
  omega

omit fits in
/-- Behind the control section lies the cleanup. -/
theorem drop_end : (dynamicBuffer family gpuAddressOfAllocation args postSyncDestination).drop
    (walkerPosition family gpuAddressOfAllocation args postSyncDestination + 3) =
      dynamicEpilogue family gpuAddressOfAllocation args := by
  rw [dynamicBuffer, ← length_front synchronized cleanup, List.drop_left]

theorem landing?_end : landing? gpuAddressOfAllocation (emitted family (dynamicBuffer family
    gpuAddressOfAllocation args postSyncDestination))
      (fieldAddress gpuAddressOfAllocation (computeControlSectionOffset family args)
        (family.size (zeroFields BatchBufferControlData.fieldCount))) =
          some (walkerPosition family gpuAddressOfAllocation args postSyncDestination + 3) := by
  have length := @length_front family gpuAddressOfAllocation args postSyncDestination synchronized
    cleanup
  have room : extent family.size (dynamicPrologue family gpuAddressOfAllocation args
      postSyncDestination ++ walkerSection gpuAddressOfAllocation args ++
        [zeroFields BatchBufferControlData.fieldCount]) = computeControlSectionOffset family args +
          family.size (zeroFields BatchBufferControlData.fieldCount) := by
    rw [extent_append, extent_dynamicFront, extent_cons, extent_nil, Nat.add_zero]
  cases epilogue : dynamicEpilogue family gpuAddressOfAllocation args with
  | nil =>
    simp [dynamicEpilogue, selfCleanupEnd, optional, cleanup, tilesSynchronization] at epilogue
  | cons command rest =>
    rw [dynamicBuffer, epilogue] at fits ⊢
    have found := landing?_emitted fits
    rw [room, length] at found
    rw [fieldAddress, add64_add64]
    exact found

end Landings

/-! ### Steps -/

theorem Awake.skips {s : Streamer} (awake : Awake args s) (command : Command) :
    s.skips command = false := by
  have off : s.off = false := by
    rcases awake with quiet | ⟨mask, inside⟩
    · simp [Streamer.off, quiet]
    · simp [Streamer.off, mask, inside]
  cases command <;> simp [Streamer.skips, off]

theorem skips_of_quiet (args : WalkerPartitionArgs) {s : Streamer} (quiet : s.predication = false)
    (command : Command) : s.skips command = false :=
  @Awake.skips args s (Or.inl quiet) command

section Steps

variable {d' : Device args.tileCount} {w : Workers args.tileCount} {r : Nat}
  (synchronized : args.synchronizeBeforeExecution = true)
  (cleanup : args.emitSelfCleanup = true)
  (shows : Shows family gpuAddressOfAllocation args postSyncDestination d w)
  (step : d.step? gpuAddressOfAllocation (emitted family (dynamicBuffer family
    gpuAddressOfAllocation args postSyncDestination)) tile = some d')
include synchronized cleanup

/-- The commands of the loop. -/
theorem loop_command {position place : Nat} {command : Command} (here : position = place)
    (found : (loopCommands family gpuAddressOfAllocation args)[place]? = some command) :
    (dynamicBuffer family gpuAddressOfAllocation args postSyncDestination)[position]? =
      some command := by
  rw [dynamicBuffer_split synchronized cleanup, here,
    List.getElem?_append_left (List.getElem?_eq_some_iff.mp found).1]
  exact found

/-- The walker and the jump back. -/
theorem walker_command :
    (dynamicBuffer family gpuAddressOfAllocation args postSyncDestination)[walkerPosition family
      gpuAddressOfAllocation args postSyncDestination]? = some .computeWalker ∧
    (dynamicBuffer family gpuAddressOfAllocation args postSyncDestination)[walkerPosition family
      gpuAddressOfAllocation args postSyncDestination + 1]? =
        some (.batchBufferStart gpuAddressOfAllocation false args.secondaryBatchBuffer) := by
  have length : (loopCommands family gpuAddressOfAllocation args).length = 8 := rfl
  rw [dynamicBuffer_split synchronized cleanup, walkerPosition]
  constructor
  · rw [List.getElem?_append_right (by omega), length, List.getElem?_append_right (by omega)]
    rw [show 9 + (tailCommands family gpuAddressOfAllocation args postSyncDestination).length - 8 -
      (tailCommands family gpuAddressOfAllocation args postSyncDestination).length = 1 by omega]
    rfl
  · rw [List.getElem?_append_right (by omega), length, List.getElem?_append_right (by omega)]
    rw [show 9 + (tailCommands family gpuAddressOfAllocation args postSyncDestination).length + 1 -
      8 - (tailCommands family gpuAddressOfAllocation args postSyncDestination).length = 2 by
        omega]
    rfl

/-- What a step of the device is to the workers. -/
def Follows (family : GfxFamily) (gpuAddressOfAllocation : Nat) (args : WalkerPartitionArgs)
    (postSyncDestination : Nat) (d' : Device args.tileCount) (w : Workers args.tileCount)
    (tile : Fin args.tileCount) : Prop :=
  Shows family gpuAddressOfAllocation args postSyncDestination d' w ∨
    ∃ w', w.next? (dynamicFields family gpuAddressOfAllocation args) args.partitionCount tile =
      some w' ∧ Shows family gpuAddressOfAllocation args postSyncDestination d' w'

include step

theorem loop_executes {place : Nat} {command : Command}
    (here : (d.streamers tile).position = place)
    (found : (loopCommands family gpuAddressOfAllocation args)[place]? = some command)
    (runs : (d.streamers tile).skips command = false) :
    d.execute? gpuAddressOfAllocation (emitted family (dynamicBuffer family gpuAddressOfAllocation
      args postSyncDestination)) tile command = some d' :=
  executes (loop_command synchronized cleanup here found) runs step

include shows

theorem Shows.enter {again : Bool} (here : w.phase tile = .enter again) :
    Follows family gpuAddressOfAllocation args postSyncDestination d' w tile := by
  have looks := shows.looks tile
  rw [here] at looks
  obtain ⟨position, awake⟩ := looks
  cases loop_executes synchronized cleanup step position rfl (awake.skips _)
  refine Or.inr ⟨_, by rw [Workers.next?, here], ?_⟩
  refine @Shows.move _ _ _ _ _ _ shows _ (d.streamers tile).next _ _ _ _ _ ⟨?_, awake⟩ rfl ?_
    shows.walked
  · exact congrArg (· + 1) position
  · exact congrArg (fun memory => Op.run 32 memory (.increment _)) shows.memory

theorem Shows.entered {again : Bool} (here : w.phase tile = .entered again) :
    Follows family gpuAddressOfAllocation args postSyncDestination d' w tile := by
  have looks := shows.looks tile
  rw [here] at looks
  obtain ⟨position, awake⟩ := looks
  have executed := loop_executes synchronized cleanup step position rfl (awake.skips _)
  rw [Device.execute?] at executed
  split at executed <;> cases executed
  next isOpen =>
    rw [shows.memory] at isOpen
    refine Or.inr ⟨_, by rw [Workers.next?, here]; exact if_pos isOpen, ?_⟩
    exact @Shows.move _ _ _ _ _ _ shows _ (d.streamers tile).next .fetch _ _ _ _
      ⟨awake, Or.inl (congrArg (· + 1) position)⟩ rfl shows.memory shows.walked

theorem Shows.fetch (here : w.phase tile = .fetch) :
    Follows family gpuAddressOfAllocation args postSyncDestination d' w tile := by
  have looks := shows.looks tile
  rw [here] at looks
  obtain ⟨awake, position | ⟨position, mask⟩⟩ := looks
  · -- The mask is loaded, again or for the first time.
    cases loop_executes synchronized cleanup step position rfl (awake.skips _)
    refine Or.inl (shows.stay ?_ rfl)
    rw [here]
    refine ⟨?_, Or.inr ⟨congrArg (· + 1) position, Streamer.load_self ..⟩⟩
    rcases awake with quiet | ⟨-, inside⟩
    · exact Or.inl quiet
    · exact Or.inr ⟨Streamer.load_self .., inside⟩
  · cases loop_executes synchronized cleanup step position rfl (awake.skips _)
    refine Or.inr ⟨_, by rw [Workers.next?, here], ?_⟩
    refine @Shows.move _ _ _ _ _ _ shows _ ((d.streamers tile).load generalPurposeRegister4 _) _ _ _
      _ _ ⟨mask, .fetched (congrArg (· + 1) position) awake ?_⟩ rfl ?_ shows.walked
    · rw [← shows.memory]
      exact Streamer.load_self ..
    · exact congrArg (fun memory => Op.run 32 memory (.increment _)) shows.memory

theorem Shows.back
    (fits : Fits family gpuAddressOfAllocation
      (dynamicBuffer family gpuAddressOfAllocation args postSyncDestination))
    (here : w.phase tile = .back) :
    Follows family gpuAddressOfAllocation args postSyncDestination d' w tile := by
  have looks := shows.looks tile
  rw [here] at looks
  obtain ⟨awake, position⟩ := looks
  have command := (@walker_command family gpuAddressOfAllocation args postSyncDestination
    synchronized cleanup).2
  rw [← position] at command
  have executed := executes command (awake.skips _) step
  rw [Device.execute?, landing?_start synchronized cleanup fits] at executed
  cases executed
  refine Or.inr ⟨_, by rw [Workers.next?, here], ?_⟩
  exact @Shows.move _ _ _ _ _ _ shows _ { d.streamers tile with position := 0 } (.enter true) _ _ _
    _ ⟨rfl, awake⟩ rfl shows.memory shows.walked

theorem Shows.hold
    (fits : Fits family gpuAddressOfAllocation
      (dynamicBuffer family gpuAddressOfAllocation args postSyncDestination))
    (pow2 : isPow2 args.partitionCount = true) (few : args.partitionCount ≤ 16) {partition : Nat}
    (narrow : partition < 2 ^ 16) (here : w.phase tile = .hold partition) :
    Follows family gpuAddressOfAllocation args postSyncDestination d' w tile := by
  have inside := wparidMask_and pow2 few narrow
  have looks := shows.looks tile
  rw [here] at looks
  obtain ⟨mask, holds⟩ := looks
  cases holds with
  | fetched position awake held =>
    cases loop_executes synchronized cleanup step position rfl (awake.skips _)
    refine Or.inl (shows.stay ?_ rfl)
    rw [here]
    refine ⟨mask, .chosen (congrArg (· + 1) position) ?_⟩
    exact (Streamer.load_self ..).trans held
  | chosen position held =>
    cases loop_executes synchronized cleanup step position rfl rfl
    refine Or.inl (shows.stay ?_ rfl)
    rw [here]
    exact ⟨mask, .predicated (congrArg (· + 1) position) rfl held⟩
  | predicated position on held =>
    have command := @loop_command family gpuAddressOfAllocation args postSyncDestination
      synchronized cleanup _ _ _ position rfl
    rw [step?_of_command command] at step
    by_cases present : partition < args.partitionCount
    · have runs : (d.streamers tile).off = false := by
        simp [Streamer.off, mask, held, inside.mpr present]
      rw [if_neg (by simp [Streamer.skips, runs]), Device.execute?,
        landing?_walker synchronized cleanup fits] at step
      cases step
      refine Or.inl (shows.stay ?_ rfl)
      rw [here]
      exact ⟨mask, .walking rfl present held⟩
    · have skipped : (d.streamers tile).off = true := by
        have other := mt inside.mp present
        simp [Streamer.off, on, mask, held, other]
      rw [if_pos (by simp [Streamer.skips, skipped])] at step
      cases step
      refine Or.inl (shows.stay ?_ rfl)
      rw [here]
      exact ⟨mask, .skipped (congrArg (· + 1) position) (Nat.le_of_not_lt present)⟩
  | skipped position none =>
    cases loop_executes synchronized cleanup step position rfl rfl
    refine Or.inr ⟨_, by rw [Workers.next?, here]; exact if_neg (Nat.not_lt.mpr none), ?_⟩
    refine @Shows.move _ _ _ _ _ _ shows _ { (d.streamers tile).next with predication := false }
      (.after 3) _ _ _ _ ⟨rfl, ?_⟩ rfl shows.memory shows.walked
    have next : (d.streamers tile).position + 1 = 8 := congrArg (· + 1) position
    simp only [Streamer.next, next]
    constructor
    · rw [dynamicBuffer_split synchronized cleanup]
      exact straight_tail _
    · rw [walkerPosition]
      omega
  | walking position present held =>
    have command := (@walker_command family gpuAddressOfAllocation args postSyncDestination
      synchronized cleanup).1
    rw [← position] at command
    have awake : Awake args (d.streamers tile) :=
      Or.inr ⟨mask, by rw [held]; exact inside.mpr present⟩
    cases executes command (awake.skips _) step
    refine Or.inr ⟨_, by rw [Workers.next?, here]; exact if_pos present, ?_⟩
    refine @Shows.move _ _ _ _ _ _ shows _ (d.streamers tile).next .back _ _ _ _
      ⟨awake, congrArg (· + 1) position⟩ rfl shows.memory ?_
    rw [held, shows.executions, shows.walked]

end Steps

/-! ### Behind the loop -/

/-- An access to a counter is an operation on it. -/
theorem execute?_access {e : Emission} {d' : Device args.tileCount} {command : Command} {op : Op Nat}
    (access : (counterAccess command).map CounterAccess.op = some op)
    (executed : d.execute? gpuAddressOfAllocation e tile command = some d') :
    op.Open d.memory ∧ ∃ s : Streamer, s.position = (d.streamers tile).position + 1 ∧
      s.execution = (d.streamers tile).execution ∧
      s.predication = (d.streamers tile).predication ∧
      d' = { d.put tile s with memory := op.run 32 d.memory } := by
  cases command with
  | miAtomic gpuAddress requireReturnValue atomicOpcode =>
    cases atomicOpcode <;> cases access <;> cases executed <;> refine ⟨trivial, _, ?_, ?_, ?_, rfl⟩
    all_goals cases requireReturnValue <;> rfl
  | miSemaphoreWait gpuAddress semaphoreCompareValue compareOperation =>
    cases compareOperation <;> cases access
    rw [Device.execute?] at executed
    split at executed <;> cases executed
    next holds => exact ⟨holds, (d.streamers tile).next, rfl, rfl, rfl, rfl⟩
  | miStoreDataImm gpuAddress data =>
    cases data with
    | zero =>
      cases access
      cases executed
      exact ⟨trivial, (d.streamers tile).next, rfl, rfl, rfl, rfl⟩
    | succ => cases access
  | _ => cases access

theorem execute?_idle {e : Emission} {d' : Device args.tileCount} {command : Command}
    (idle : Idle command) (executed : d.execute? gpuAddressOfAllocation e tile command = some d') :
    ∃ s : Streamer, s.position = (d.streamers tile).position + 1 ∧
      s.execution = (d.streamers tile).execution ∧
      s.predication = (d.streamers tile).predication ∧ d' = d.put tile s := by
  cases command with
  | loadRegisterMem gpuAddress registerOffset =>
    cases executed
    exact ⟨(d.streamers tile).load registerOffset (d.memory gpuAddress), rfl, rfl, rfl, rfl⟩
  | pipeControl dcFlushEnable postSync =>
    cases postSync with
    | none =>
      cases executed
      exact ⟨(d.streamers tile).next, rfl, rfl, rfl, rfl⟩
    | some => exact absurd idle id
  | miSemaphoreWait gpuAddress semaphoreCompareValue compareOperation =>
    cases compareOperation with
    | sadGreaterThanOrEqualSdd => exact absurd idle id
    | sadNotEqualSdd =>
      rw [Device.execute?] at executed
      split at executed <;> cases executed
      exact ⟨(d.streamers tile).next, rfl, rfl, rfl, rfl⟩
  | _ => exact absurd idle id

theorem Shows.after {d' : Device args.tileCount} {w : Workers args.tileCount}
    (synchronized : args.synchronizeBeforeExecution = true) (cleanup : args.emitSelfCleanup = true)
    (shows : Shows family gpuAddressOfAllocation args postSyncDestination d w)
    (step : d.step? gpuAddressOfAllocation (emitted family (dynamicBuffer family
      gpuAddressOfAllocation args postSyncDestination)) tile = some d')
    (fits : Fits family gpuAddressOfAllocation
      (dynamicBuffer family gpuAddressOfAllocation args postSyncDestination))
    (small : args.tileCount < 2 ^ 31) {stage : Nat} (here : w.phase tile = .after stage) :
    Follows family gpuAddressOfAllocation args postSyncDestination d' w tile := by
  have looks := shows.looks tile
  rw [here] at looks
  obtain ⟨quiet, straight, late⟩ := looks
  cases rest : (dynamicBuffer family gpuAddressOfAllocation args postSyncDestination).drop
    (d.streamers tile).position with
  | nil =>
    rw [rest] at straight
    rw [step?_of_end (List.getElem?_eq_none_iff.mpr (List.drop_eq_nil_iff.mp rest))] at step
    cases step
    have ended : (opsOf ((dynamicFields family gpuAddressOfAllocation args).rounds
        args.tileCount))[stage]? = none := by
      rw [show stage = 13 from straight]
      rfl
    refine Or.inr ⟨_, by simp only [Workers.next?, here, ended]; rfl, ?_⟩
    refine ⟨fun other => ?_, fun other => ?_, shows.memory, shows.walked⟩
    · simp only [Device.put, Workers.move, Function.update_apply]
      split
      · exact ⟨rfl, Or.inl quiet⟩
      · exact shows.looks other
    · simp only [Device.put, Function.update_apply]
      split
      · rw [shows.executions]
      · exact shows.executions other
  | cons command more =>
    have fetched : (dynamicBuffer family gpuAddressOfAllocation args
        postSyncDestination)[(d.streamers tile).position]? = some command := by
      have first := congrArg (·[0]?) rest
      rwa [List.getElem?_drop, Nat.add_zero] at first
    have next : (dynamicBuffer family gpuAddressOfAllocation args postSyncDestination).drop
        ((d.streamers tile).position + 1) = more := by
      rw [← List.drop_drop, rest]
      rfl
    have executed := executes fetched (skips_of_quiet args quiet _) step
    rw [rest] at straight
    -- The walker itself is not behind the loop.
    have noWalker : command ≠ .computeWalker → walkerPosition family gpuAddressOfAllocation args
        postSyncDestination < (d.streamers tile).position + 1 → 6 ≤ stage := by
      intro other past
      refine late (Nat.lt_of_le_of_ne (Nat.le_of_lt_succ past) fun same => other ?_)
      have walker := (@walker_command family gpuAddressOfAllocation args postSyncDestination
        synchronized cleanup).1
      rw [same, fetched] at walker
      exact Option.some.inj walker
    rcases straight with ⟨op, access, found, straight⟩ | ⟨idle, straight⟩ | ⟨rfl, rfl⟩ | ⟨rfl, rfl⟩
    · obtain ⟨isOpen, s, position, execution, predication, rfl⟩ := execute?_access access executed
      rw [shows.memory] at isOpen
      refine Or.inr ⟨_, by
        simp only [Workers.next?, here]
        rw [Fields.program] at found
        rw [found]
        exact if_pos isOpen, ?_⟩
      refine shows.move ⟨predication.trans quiet, ?_, fun past => ?_⟩ execution ?_ shows.walked
      · rwa [position, next]
      · rw [position] at past
        refine Nat.le_succ_of_le (noWalker (fun same => ?_) past)
        rw [same] at access
        cases access
      · rw [shows.memory]
    · obtain ⟨s, position, execution, predication, rfl⟩ := execute?_idle idle executed
      refine Or.inl (shows.stay ?_ execution)
      rw [here]
      refine ⟨predication.trans quiet, by rwa [position, next], fun past => ?_⟩
      rw [position] at past
      refine noWalker (fun same => ?_) past
      rw [same] at idle
      exact idle
    · rw [endJump, Device.execute?, landing?_end synchronized cleanup fits] at executed
      cases executed
      refine Or.inl (shows.stay ?_ rfl)
      rw [here]
      refine ⟨quiet, ?_, fun _ => Nat.le_refl _⟩
      rw [drop_end synchronized cleanup]
      exact straight_epilogue cleanup small
    · cases executed
      refine Or.inl (shows.stay ?_ rfl)
      rw [here]
      refine ⟨quiet, ?_, fun _ => by decide⟩
      simp only [emitted, Emission.append, List.nil_append, place_length]
      rw [List.drop_length]
      rfl

end Shows

/-! ### Runs of a dynamically partitioned buffer -/

/-- A streamer has come to a command. -/
def At {tileCount : Nat} (e : Emission) (d : Device tileCount) (tile : Fin tileCount)
    (command : Command) : Prop :=
  ∃ offset, e.items[(d.streamers tile).position]? = some (offset, command)

/-- A streamer waits for a post-sync write. -/
def Pending {tileCount : Nat} (e : Emission) (d : Device tileCount) (tile : Fin tileCount) : Prop :=
  ∃ gpuAddress value, At e d tile (.miSemaphoreWait gpuAddress value .sadNotEqualSdd) ∧
    d.memory gpuAddress = value

def Fields.addresses (fields : Fields) : List Nat :=
  [fields.partitions, fields.tiles, fields.inTiles, fields.finalSync]

section Runs

variable {family : GfxFamily} {gpuAddressOfAllocation : Nat} {args : WalkerPartitionArgs}
  {postSyncDestination : Nat} {d : Device args.tileCount} {w : Workers args.tileCount}
  {tile : Fin args.tileCount} {command : Command}
  (synchronized : args.synchronizeBeforeExecution = true) (cleanup : args.emitSelfCleanup = true)
include synchronized cleanup

/-- Every step of the device is a step of the workers, or none. -/
theorem Shows.step (pow2 : isPow2 args.partitionCount = true) (few : args.partitionCount ≤ 16)
    (small : args.tileCount + args.partitionCount ≤ 2 ^ 16)
    (fits : Fits family gpuAddressOfAllocation
      (dynamicBuffer family gpuAddressOfAllocation args postSyncDestination))
    (shows : Shows family gpuAddressOfAllocation args postSyncDestination d w)
    (reachable : Reachable (workers (dynamicFields family gpuAddressOfAllocation args)
      args.partitionCount) w) {d' : Device args.tileCount}
    (step : d.step? gpuAddressOfAllocation (emitted family (dynamicBuffer family
      gpuAddressOfAllocation args postSyncDestination)) tile = some d') :
    Follows family gpuAddressOfAllocation args postSyncDestination d' w tile := by
  cases here : w.phase tile with
  | enter again => exact shows.enter synchronized cleanup step here
  | entered again => exact shows.entered synchronized cleanup step here
  | fetch => exact shows.fetch synchronized cleanup step here
  | back => exact shows.back synchronized cleanup step fits here
  | hold partition =>
    obtain ⟨r, inStep⟩ := reachable_inStep dynamicFields_apart small reachable
    have loop : (w.phase tile).stage = 2 := by simp [here, Phase.stage]
    have sharing := inStep.ledger.sharing (inStep.looping loop).1
    have held := sharing.held tile partition here
    have handed := sharing.handed
    have spent := total_spent_le args.partitionCount w.phase
    exact shows.hold synchronized cleanup step fits pow2 few (by omega) here
  | after stage => exact shows.after synchronized cleanup step fits (by omega) here

/-- The runs of a device are runs of the workers. -/
theorem reachable_shows (pow2 : isPow2 args.partitionCount = true) (few : args.partitionCount ≤ 16)
    (small : args.tileCount + args.partitionCount ≤ 2 ^ 16)
    (fits : Fits family gpuAddressOfAllocation
      (dynamicBuffer family gpuAddressOfAllocation args postSyncDestination))
    (reachable : Reachable (device args.tileCount gpuAddressOfAllocation (emitted family
      (dynamicBuffer family gpuAddressOfAllocation args postSyncDestination))
      (dynamicFields family gpuAddressOfAllocation args).addresses) d) :
    ∃ w, Reachable (workers (dynamicFields family gpuAddressOfAllocation args)
        args.partitionCount) w ∧
      Shows family gpuAddressOfAllocation args postSyncDestination d w := by
  induction reachable with
  | @start d initial =>
    obtain ⟨starts, zero, none⟩ := initial
    refine ⟨⟨fun _ => .enter false, fun _ => 0, d.memory, []⟩, .start ⟨fun _ => ⟨rfl, rfl⟩, zero,
      rfl⟩, fun tile => ?_, fun tile => (starts tile).2.1, rfl, none⟩
    exact ⟨(starts tile).1, Or.inl (starts tile).2.2⟩
  | @next d d' label _ step ih =>
    obtain ⟨w, before, shows⟩ := ih
    cases label with
    | none =>
      obtain ⟨memory, outside, rfl⟩ := step
      refine ⟨{ w with memory := memory }, .next before (a := none) ⟨memory, ?_, rfl⟩, shows.looks,
        shows.executions, rfl, shows.walked⟩
      rw [← shows.memory]
      exact outside
    | some tile =>
      rcases shows.step synchronized cleanup pow2 few small fits before step with stays | moves
      · exact ⟨w, before, stays⟩
      · obtain ⟨w', next, shows'⟩ := moves
        exact ⟨w', .next before (a := some tile) next, shows'⟩

/-! ### Where the streamers are -/

omit synchronized cleanup in
theorem At.fetched (at_ : At (emitted family (dynamicBuffer family gpuAddressOfAllocation args
    postSyncDestination)) d tile command) :
    (dynamicBuffer family gpuAddressOfAllocation args
      postSyncDestination)[(d.streamers tile).position]? = some command := by
  obtain ⟨offset, found⟩ := at_
  rw [← items_dynamic, found]
  rfl

/-- A streamer is at a command of the loop, at the walker or behind it, or behind the loop. -/
theorem Shows.place (shows : Shows family gpuAddressOfAllocation args postSyncDestination d w)
    (at_ : At (emitted family (dynamicBuffer family gpuAddressOfAllocation args
      postSyncDestination)) d tile command) :
    ((d.streamers tile).position < 8 ∧ (w.phase tile).stage ≤ 2 ∧
      (loopCommands family gpuAddressOfAllocation args)[(d.streamers tile).position]? =
        some command ∧
      ((d.streamers tile).position = 1 → ∃ again, w.phase tile = .entered again)) ∨
    ((d.streamers tile).position ≤
        walkerPosition family gpuAddressOfAllocation args postSyncDestination + 1 ∧
      (w.phase tile).stage = 2 ∧ (command = .computeWalker ∨
        command = .batchBufferStart gpuAddressOfAllocation false args.secondaryBatchBuffer)) ∨
    ∃ stage more, w.phase tile = .after stage ∧
      (walkerPosition family gpuAddressOfAllocation args postSyncDestination <
        (d.streamers tile).position → 6 ≤ stage) ∧
      Straight family gpuAddressOfAllocation args stage (command :: more) := by
  have fetched := at_.fetched
  have looks := shows.looks tile
  obtain ⟨walker, jump⟩ := @walker_command family gpuAddressOfAllocation args postSyncDestination
    synchronized cleanup
  -- In the loop the commands are known by their positions.
  have early : ∀ {place : Nat}, (d.streamers tile).position = place → place < 8 →
      (loopCommands family gpuAddressOfAllocation args)[(d.streamers tile).position]? =
        some command := by
    intro place here inside
    have present : place < (loopCommands family gpuAddressOfAllocation args).length := inside
    have found := @loop_command family gpuAddressOfAllocation args postSyncDestination synchronized
      cleanup _ _ _ here (List.getElem?_eq_getElem present)
    rw [here, List.getElem?_eq_getElem present, ← found, fetched]
  cases here : w.phase tile with
  | enter again =>
    rw [here] at looks
    obtain ⟨position, -⟩ := looks
    refine Or.inl ⟨by omega, ?_, early position (by decide), fun other => by omega⟩
    cases again <;> decide
  | entered again =>
    rw [here] at looks
    obtain ⟨position, -⟩ := looks
    refine Or.inl ⟨by omega, ?_, early position (by decide), fun _ => ⟨again, rfl⟩⟩
    cases again <;> decide
  | fetch =>
    rw [here] at looks
    obtain ⟨-, position | ⟨position, -⟩⟩ := looks
    · exact Or.inl ⟨by omega, Nat.le_refl _, early position (by decide), fun other => by omega⟩
    · exact Or.inl ⟨by omega, Nat.le_refl _, early position (by decide), fun other => by omega⟩
  | hold partition =>
    rw [here] at looks
    obtain ⟨-, holds⟩ := looks
    cases holds with
    | walking position =>
      rw [position, walker] at fetched
      exact Or.inr (Or.inl ⟨by omega, rfl, Or.inl (Option.some.inj fetched).symm⟩)
    | fetched position | chosen position | predicated position | skipped position =>
      exact Or.inl ⟨by omega, Nat.le_refl _, early position (by decide), fun other => by omega⟩
  | back =>
    rw [here] at looks
    obtain ⟨-, position⟩ := looks
    rw [position, jump] at fetched
    exact Or.inr (Or.inl ⟨by omega, rfl, Or.inr (Option.some.inj fetched).symm⟩)
  | after stage =>
    rw [here] at looks
    obtain ⟨-, straight, late⟩ := looks
    have split := List.getElem?_eq_some_iff.mp fetched
    obtain ⟨inside, found⟩ := split
    rw [List.drop_eq_getElem_cons inside, found] at straight
    exact Or.inr (Or.inr ⟨stage, _, rfl, late, straight⟩)

/-- A streamer that waits on a counter shows a worker that does. -/
theorem Shows.waits (shows : Shows family gpuAddressOfAllocation args postSyncDestination d w)
    {counter count : Nat} (at_ : At (emitted family (dynamicBuffer family gpuAddressOfAllocation args
      postSyncDestination)) d tile
      (.miSemaphoreWait counter count .sadGreaterThanOrEqualSdd)) :
    Waits (dynamicFields family gpuAddressOfAllocation args) w tile counter := by
  rcases shows.place synchronized cleanup at_ with
    ⟨inside, -, found, entered⟩ | ⟨-, -, other | other⟩ | ⟨stage, more, here, -, straight⟩
  · generalize (d.streamers tile).position = position at *
    interval_cases position <;> cases found
    exact Or.inl ⟨rfl, entered rfl⟩
  · cases other
  · cases other
  · rcases straight with ⟨op, access, held, -⟩ | ⟨idle, -⟩ | ⟨same, -⟩ | ⟨same, -⟩
    · cases access
      exact Or.inr ⟨stage, count, here, held⟩
    · exact absurd idle id
    · cases same
    · cases same

/-- A streamer that is about to clear a counter shows a worker that is. -/
theorem Shows.clears (shows : Shows family gpuAddressOfAllocation args postSyncDestination d w)
    {counter : Nat} (access : counterAccess command = some (.clear counter))
    (at_ : At (emitted family (dynamicBuffer family gpuAddressOfAllocation args
      postSyncDestination)) d tile command) :
    Clears (dynamicFields family gpuAddressOfAllocation args) w tile counter := by
  rcases shows.place synchronized cleanup at_ with
    ⟨inside, -, found, -⟩ | ⟨-, -, other | other⟩ | ⟨stage, more, here, -, straight⟩
  · generalize (d.streamers tile).position = position at *
    interval_cases position <;> cases found <;> cases access
  · rw [other] at access
    cases access
  · rw [other] at access
    cases access
  · rcases straight with ⟨op, held, found, -⟩ | ⟨idle, -⟩ | ⟨same, -⟩ | ⟨same, -⟩
    · rw [access] at held
      cases held
      exact ⟨stage, here, found⟩
    · cases command with
      | miSemaphoreWait _ _ compareOperation =>
        cases compareOperation
        · exact absurd idle id
        · cases access
      | pipeControl => cases access
      | loadRegisterMem => cases access
      | _ => exact absurd idle id
    · rw [same] at access
      cases access
    · rw [same] at access
      cases access

/-- A streamer at the end of the buffer shows a worker at the end of its program. -/
theorem Shows.ended (shows : Shows family gpuAddressOfAllocation args postSyncDestination d w)
    (none : (emitted family (dynamicBuffer family gpuAddressOfAllocation args
      postSyncDestination)).items[(d.streamers tile).position]? = none) :
    (w.phase tile).stage = 13 := by
  have past : (dynamicBuffer family gpuAddressOfAllocation args postSyncDestination).length ≤
      (d.streamers tile).position := by
    simpa [emitted, Emission.append] using none
  have room : walkerPosition family gpuAddressOfAllocation args postSyncDestination + 3 ≤
      (dynamicBuffer family gpuAddressOfAllocation args postSyncDestination).length := by
    rw [dynamicBuffer, List.length_append, length_front synchronized cleanup]
    exact Nat.le_add_right _ _
  have above : 9 ≤ walkerPosition family gpuAddressOfAllocation args postSyncDestination :=
    Nat.le_add_right _ _
  have looks := shows.looks tile
  cases here : w.phase tile with
  | enter again =>
    rw [here] at looks
    have position := looks.1
    omega
  | entered again =>
    rw [here] at looks
    have position := looks.1
    omega
  | fetch =>
    rw [here] at looks
    obtain ⟨-, position | ⟨position, -⟩⟩ := looks <;> omega
  | hold partition =>
    rw [here] at looks
    obtain ⟨-, holds⟩ := looks
    cases holds <;> omega
  | back =>
    rw [here] at looks
    have position := looks.2
    omega
  | after stage =>
    rw [here] at looks
    obtain ⟨-, straight, -⟩ := looks
    rw [List.drop_eq_nil_of_le past] at straight
    exact straight

/-- Behind the control section, a worker is behind the wait that follows the loop. -/
theorem Shows.cleaning (shows : Shows family gpuAddressOfAllocation args postSyncDestination d w)
    (fits : Fits family gpuAddressOfAllocation
      (dynamicBuffer family gpuAddressOfAllocation args postSyncDestination)) {offset : Nat}
    (found : (emitted family (dynamicBuffer family gpuAddressOfAllocation args
      postSyncDestination)).items[(d.streamers tile).position]? = some (offset, command))
    (behind : computeControlSectionOffset family args ≤ offset) :
    6 ≤ (w.phase tile).stage := by
  have length := @length_front family gpuAddressOfAllocation args postSyncDestination synchronized
    cleanup
  have past : walkerPosition family gpuAddressOfAllocation args postSyncDestination + 1 <
      (d.streamers tile).position := by
    by_contra early
    -- What lies in front of the control section ends where it starts.
    have front := found
    rw [emitted, Emission.append, List.nil_append, dynamicBuffer, List.append_assoc, place_append,
      List.getElem?_append_left] at front
    · have bound := le_of_mem_place (List.mem_of_getElem? front)
      have positive := fits.positive command (List.mem_of_getElem? (At.fetched ⟨offset, found⟩))
      rw [extent_dynamicFront] at bound
      dsimp only at bound
      omega
    · rw [place_length]
      rw [List.length_append, List.length_singleton] at length
      omega
  rcases shows.place synchronized cleanup ⟨offset, found⟩ with
    ⟨inside, -⟩ | ⟨inside, -⟩ | ⟨stage, more, here, late, -⟩
  · have above : 9 ≤ walkerPosition family gpuAddressOfAllocation args postSyncDestination :=
      Nat.le_add_right _ _
    omega
  · omega
  · rw [here]
    exact late (by omega)

omit synchronized cleanup in
/-- A command that does not go on is a wait. -/
theorem execute?_none {op : Op Nat} (access : (counterAccess command).map CounterAccess.op = some op)
    (stuck : d.execute? gpuAddressOfAllocation (emitted family (dynamicBuffer family
      gpuAddressOfAllocation args postSyncDestination)) tile command = none) :
    ¬op.Open d.memory := by
  cases command with
  | miSemaphoreWait gpuAddress semaphoreCompareValue compareOperation =>
    cases compareOperation <;> cases access
    rw [Device.execute?] at stuck
    split at stuck
    · cases stuck
    next closed => exact closed
  | miAtomic => cases stuck
  | miStoreDataImm => cases stuck
  | _ => cases access

/-- A streamer that does not go on waits for a post-sync write, or its worker does not go on. -/
theorem Shows.stuck (shows : Shows family gpuAddressOfAllocation args postSyncDestination d w)
    (fits : Fits family gpuAddressOfAllocation
      (dynamicBuffer family gpuAddressOfAllocation args postSyncDestination))
    (stuck : d.step? gpuAddressOfAllocation (emitted family (dynamicBuffer family
      gpuAddressOfAllocation args postSyncDestination)) tile = none) :
    Pending (emitted family (dynamicBuffer family gpuAddressOfAllocation args
      postSyncDestination)) d tile ∨
    w.next? (dynamicFields family gpuAddressOfAllocation args) args.partitionCount tile = none := by
  cases found : (emitted family (dynamicBuffer family gpuAddressOfAllocation args
    postSyncDestination)).items[(d.streamers tile).position]? with
  | none =>
    rw [Device.step?] at stuck
    simp only [found] at stuck
    cases stuck
  | some placed =>
    obtain ⟨offset, command⟩ := placed
    have at_ : At (emitted family (dynamicBuffer family gpuAddressOfAllocation args
      postSyncDestination)) d tile command := ⟨offset, found⟩
    rw [step?_of_command at_.fetched] at stuck
    split at stuck
    next => cases stuck
    next =>
      rcases shows.place synchronized cleanup at_ with
        ⟨inside, -, known, entered⟩ | ⟨-, -, rfl | rfl⟩ | ⟨stage, more, here, -, straight⟩
      · -- In the loop only the wait for the other tiles can be closed.
        by_cases waiting : (d.streamers tile).position = 1
        · rw [waiting] at known
          cases known
          obtain ⟨again, here⟩ := entered waiting
          rw [Device.execute?] at stuck
          split at stuck
          next => cases stuck
          next closed =>
            rw [shows.memory] at closed
            right
            rw [Workers.next?, here]
            exact if_neg closed
        · generalize (d.streamers tile).position = position at *
          interval_cases position <;> cases known <;> first
            | exact absurd rfl waiting
            | cases stuck
            | rw [Device.execute?, landing?_walker synchronized cleanup fits] at stuck
              cases stuck
      · cases stuck
      · rw [Device.execute?, landing?_start synchronized cleanup fits] at stuck
        cases stuck
      · rcases straight with ⟨op, access, held, -⟩ | ⟨idle, -⟩ | ⟨rfl, -⟩ | ⟨rfl, -⟩
        · have closed := execute?_none access stuck
          rw [shows.memory] at closed
          right
          simp only [Workers.next?, here]
          rw [Fields.program] at held
          rw [held]
          exact if_neg closed
        · cases command with
          | miSemaphoreWait gpuAddress value compareOperation =>
            cases compareOperation with
            | sadGreaterThanOrEqualSdd => exact absurd idle id
            | sadNotEqualSdd =>
              rw [Device.execute?] at stuck
              split at stuck
              next => cases stuck
              next closed => exact Or.inl ⟨gpuAddress, value, at_, Decidable.not_not.mp closed⟩
          | pipeControl _ postSync =>
            cases postSync with
            | none => cases stuck
            | some => exact absurd idle id
          | loadRegisterMem => cases stuck
          | _ => exact absurd idle id
        · rw [endJump, Device.execute?, landing?_end synchronized cleanup fits] at stuck
          cases stuck
        · cases stuck

end Runs

/-! ### What holds in every run -/

section Shared

variable {family : GfxFamily} {gpuAddressOfAllocation : Nat} {args : WalkerPartitionArgs}
  {postSyncDestination : Nat}

/-- The tiles of a device that execute a dynamically partitioned buffer again and again, in any order
of their steps. In each execution every partition is executed by one tile and once: never twice, and
all of them before a tile gets behind the control section. No tile executes the walker before all
have left the execution before it, and no tile clears a counter on which another one waits. Unless a
tile waits for a post-sync write, some tile can go on, and between two executions the counters are as
they were at first. -/
theorem dynamic_partitions_shared (direct : args.blockDispatchToCommandBuffer = false)
    (pow2 : isPow2 args.partitionCount = true) (few : args.partitionCount ≤ 16)
    (synchronized : args.synchronizeBeforeExecution = true) (cleanup : args.emitSelfCleanup = true)
    (present : 0 < args.tileCount) (small : args.tileCount + args.partitionCount ≤ 2 ^ 16)
    (fits : Fits family gpuAddressOfAllocation
      (dynamicBuffer family gpuAddressOfAllocation args postSyncDestination))
    {d : Device args.tileCount}
    (reachable : Reachable (device args.tileCount gpuAddressOfAllocation
      (constructDynamicallyPartitionedCommandBuffer family gpuAddressOfAllocation
        postSyncDestination args)
      (dynamicFields family gpuAddressOfAllocation args).addresses) d) :
    let e := constructDynamicallyPartitionedCommandBuffer family gpuAddressOfAllocation
      postSyncDestination args
    let fields := dynamicFields family gpuAddressOfAllocation args
    (∀ execution partition, d.walked.count (execution, partition) ≤
      if partition < args.partitionCount then 1 else 0) ∧
    (∀ tile execution, (execution < (d.streamers tile).execution ∨
        execution = (d.streamers tile).execution ∧ ∃ offset command,
          e.items[(d.streamers tile).position]? = some (offset, command) ∧
            computeControlSectionOffset family args ≤ offset) →
      ∀ partition, d.walked.count (execution, partition) =
        if partition < args.partitionCount then 1 else 0) ∧
    (∀ tile, At e d tile .computeWalker →
      ∀ other, (d.streamers tile).execution ≤ (d.streamers other).execution) ∧
    (∀ tile other command counter count, At e d tile command →
      counterAccess command = some (.clear counter) →
        ¬At e d other (.miSemaphoreWait counter count .sadGreaterThanOrEqualSdd)) ∧
    ((∃ tile, Pending e d tile) ∨ ∃ tile d', d.step? gpuAddressOfAllocation e tile = some d') ∧
    ∀ execution, (∀ tile, e.items[(d.streamers tile).position]? = none ∧
      (d.streamers tile).execution = execution) → ∀ counter ∈ fields.cleared,
        d.memory counter = 0 := by
  rw [constructDynamicallyPartitionedCommandBuffer_eq direct pow2 few] at reachable ⊢
  intro e fields
  obtain ⟨w, run, shows⟩ := reachable_shows synchronized cleanup pow2 few small fits reachable
  obtain ⟨r, inStep⟩ := reachable_inStep dynamicFields_apart small run
  refine ⟨fun execution partition => ?_, fun tile execution past => ?_, fun tile at_ other => ?_,
    fun tile other command counter count at_ access waits => ?_, ?_, fun execution all => ?_⟩
  · rw [shows.walked]
    exact inStep.walked_once execution partition
  · rw [shows.walked]
    have started : 13 * execution + 6 ≤ 13 * w.execution tile + (w.phase tile).stage := by
      rcases past with later | ⟨rfl, offset, command, found, behind⟩
      · rw [shows.executions] at later
        omega
      · have stage := shows.cleaning synchronized cleanup fits found behind
        rw [shows.executions]
        omega
    exact inStep.walked_all started
  · have loop : (w.phase tile).stage = 2 := by
      rcases shows.place synchronized cleanup at_ with
        ⟨inside, -, found, -⟩ | ⟨-, loop, -⟩ | ⟨stage, more, -, -, straight⟩
      · generalize (d.streamers tile).position = position at *
        interval_cases position <;> cases found
      · exact loop
      · rcases straight with ⟨op, access, -⟩ | ⟨idle, -⟩ | ⟨same, -⟩ | ⟨same, -⟩
        · cases access
        · exact absurd idle id
        · cases same
        · cases same
    have left := @InStep.left_before _ _ _ _ _ inStep (w.execution tile) tile (by omega) other
    have stage := inStep.stage_le other
    rw [shows.executions, shows.executions]
    omega
  · exact inStep.considerate dynamicFields_apart (shows.clears synchronized cleanup access at_) other
      (shows.waits synchronized cleanup waits)
  · by_contra none
    rw [not_or, not_exists, not_exists] at none
    obtain ⟨quiet, stuck⟩ := none
    -- The tile that is behind all others can go on.
    obtain ⟨tile, -, least⟩ := Finset.exists_min_image Finset.univ
      (fun tile => 13 * w.execution tile + (w.phase tile).stage) ⟨⟨0, present⟩, Finset.mem_univ _⟩
    have stays : d.step? gpuAddressOfAllocation e tile = none := by
      cases result : d.step? gpuAddressOfAllocation e tile with
      | none => rfl
      | some d' => exact absurd ⟨d', result⟩ (stuck tile)
    rcases shows.stuck synchronized cleanup fits stays with pending | stays
    · exact quiet tile pending
    · obtain ⟨other, behind⟩ := stuck_behind dynamicFields_apart small run stays
      exact absurd (least other (Finset.mem_univ _)) (Nat.not_le.mpr behind)
  · rw [shows.memory]
    refine cleaned_between dynamicFields_apart small present run (execution + 1) fun tile => ?_
    obtain ⟨none, current⟩ := all tile
    rw [shows.ended synchronized cleanup none, ← shows.executions, current]
    omega

/-- Two tiles that share four partitions. -/
def sharedArgs : WalkerPartitionArgs where
  partitionCount := 4
  tileCount := 2
  synchronizeBeforeExecution := true
  emitSelfCleanup := true

def sharedBuffer : Emission :=
  constructDynamicallyPartitionedCommandBuffer xeHpcFamily 0x10000 0 sharedArgs

/-- The tiles take turns, fifty steps each. -/
def sharedRun : Option (Device 2) :=
  (List.replicate 50 ((List.finRange 2).map some)).flatten.foldlM
    (fun d label => label.bind (d.step? 0x10000 sharedBuffer))
    ⟨fun _ => ⟨0, 0, fun _ => 0, false⟩, fun _ => 0, []⟩

/-- Both are in their second execution then, and the four partitions of the first one were walked
once each. -/
theorem dynamic_partitions_shared_walked : ∃ d : Device 2, sharedRun = some d ∧
    d.walked = [(1, 1), (1, 0), (0, 3), (0, 2), (0, 1), (0, 0)] ∧
      ((∃ tile, Pending sharedBuffer d tile) ∨
        ∃ tile d', d.step? 0x10000 sharedBuffer tile = some d') ∧
      ∀ partition, d.walked.count (0, partition) = if partition < 4 then 1 else 0 := by
  have ran : sharedRun.any (fun d =>
      d.walked = [(1, 1), (1, 0), (0, 3), (0, 2), (0, 1), (0, 0)] ∧
        (d.streamers 0).execution = 1) = true := by
    decide +kernel
  obtain ⟨d, ran, state⟩ := (Option.any_eq_true _ _).mp ran
  obtain ⟨walked, execution⟩ := of_decide_eq_true state
  have reachable : Reachable (device 2 0x10000 sharedBuffer
      (dynamicFields xeHpcFamily 0x10000 sharedArgs).addresses) d := by
    refine Reachable.foldlM (fun d label d' step => ?_)
      (.start ⟨fun _ => ⟨rfl, rfl, rfl⟩, fun _ _ => rfl, rfl⟩) ran
    obtain ⟨tile, rfl, step⟩ := Option.bind_eq_some_iff.mp step
    exact step
  obtain ⟨-, all, -, -, goesOn, -⟩ := @dynamic_partitions_shared xeHpcFamily 0x10000 sharedArgs 0 rfl
    (by decide) (by decide) rfl rfl (by decide) (by decide) ⟨by decide, by decide, by decide⟩ d
    reachable
  have later : 0 < (d.streamers 0).execution := by
    rw [execution]
    exact Nat.one_pos
  exact ⟨d, ran, walked, goesOn, all (0 : Fin 2) 0 (.inl later)⟩

end Shared

end ComputeRuntime.WalkerPartition
