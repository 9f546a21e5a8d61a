import ComputeRuntime.WalkerPartition.Buffers

/-! Partitioned command buffers are laid out as estimated: the bytes counted are the bytes written,
every address designates the counter it is meant for, and every jump lands where it is meant to. -/
namespace ComputeRuntime.WalkerPartition

open Layout

/-- What a command does to a counter of a control section. -/
inductive CounterAccess where
  | increment (gpuAddress : Nat) (requireReturnValue : Bool)
  | clear (gpuAddress : Nat)
  | wait (gpuAddress count : Nat)
  deriving DecidableEq

def counterAccess : Command → Option CounterAccess
  | .miAtomic gpuAddress requireReturnValue .increment4B =>
    some (.increment gpuAddress requireReturnValue)
  | .miAtomic gpuAddress _ .move4B => some (.clear gpuAddress)
  | .miStoreDataImm gpuAddress 0 => some (.clear gpuAddress)
  | .miSemaphoreWait gpuAddress count .sadGreaterThanOrEqualSdd => some (.wait gpuAddress count)
  | _ => none

def jumpTarget : Command → Option Nat
  | .batchBufferStart gpuAddress _ _ => some gpuAddress
  | _ => none

def controlFields : Command → Option (List Nat)
  | .controlSection fields => some fields
  | _ => none

/-- The control sections of a buffer by their offsets. -/
def controlSections (items : List (Nat × Command)) : List (Nat × List Nat) :=
  items.filterMap fun placed => (controlFields placed.2).map fun fields => (placed.1, fields)

/-- The first byte of a command of the buffer, or the first one behind the buffer. -/
def Boundary (e : Emission) (offset : Nat) : Prop :=
  offset = e.totalBytesProgrammed ∨
    ∃ command, (offset, command) ∈ e.items ∧ controlFields command = none

/-- A buffer, its bytes at the given addresses, that takes the room set aside for it without a gap,
has the given control sections, and whose commands access the given counters and jump to the given
boundaries, all in this order. -/
structure LaidOut (family : GfxFamily) (address : Nat → Nat) (estimate : Nat)
    (controls : List (Nat × List Nat)) (accesses : List CounterAccess) (jumps : List Nat)
    (e : Emission) : Prop where
  counted : e.totalBytesProgrammed = e.currentBatchBufferPointer
  estimated : e.totalBytesProgrammed = estimate
  gapless : Consecutive family.size e.items 0 e.totalBytesProgrammed
  controlled : controlSections e.items = controls
  accessed : e.items.filterMap (fun placed => counterAccess placed.2) = accesses
  jumped : e.items.filterMap (fun placed => jumpTarget placed.2) = jumps.map address
  landings : ∀ offset ∈ jumps, Boundary e offset

/-! ### What is meant -/

section Intended

/-- Synchronization of the tiles on a counter. -/
def synchronize (counter tileCount : Nat) : List CounterAccess :=
  [.increment counter false, .wait counter tileCount]

/-- The accesses of the cleanup at the end: no tile leaves before all have cleared the fields. -/
def cleanUp (finalSync tileCount : Nat) (cleared : List Nat) : List CounterAccess :=
  synchronize finalSync tileCount ++ cleared.map .clear ++
    synchronize finalSync (Word.mul 32 2 tileCount)

variable (args : WalkerPartitionArgs)

/-- The accesses of a dynamically partitioned buffer, where the fields have the given addresses. -/
def dynamicAccesses (field : Nat → Nat) : List CounterAccess :=
  let partitions := field BatchBufferControlData.partitionCount
  let tiles := field BatchBufferControlData.tileCount
  let inTiles := field BatchBufferControlData.inTileCount
  let finalSync := field BatchBufferControlData.finalSyncTileCount
  (if args.synchronizeBeforeExecution then synchronize inTiles args.tileCount else []) ++
    [.increment partitions true] ++
    (if args.emitSelfCleanup then [.clear finalSync] else []) ++
    (if args.crossTileAtomicSynchronization ∨ args.emitSelfCleanup then
      synchronize tiles args.tileCount else []) ++
    (if args.emitSelfCleanup then cleanUp finalSync args.tileCount [partitions, tiles, inTiles]
    else [])

/-- The accesses of a statically partitioned buffer. -/
def staticAccesses (field : Nat → Nat) : List CounterAccess :=
  let before := field StaticPartitioningControlSection.synchronizeBeforeWalkerCounter
  let after := field StaticPartitioningControlSection.synchronizeAfterWalkerCounter
  let finalSync := field StaticPartitioningControlSection.finalSyncTileCounter
  (if args.synchronizeBeforeExecution then synchronize before args.tileCount else []) ++
    (if args.emitSelfCleanup then [.clear finalSync] else []) ++
    (if args.crossTileAtomicSynchronization ∨ args.emitSelfCleanup then
      synchronize after args.tileCount else []) ++
    (if args.emitSelfCleanup then cleanUp finalSync args.tileCount [before, after] else [])

/-- The accesses of a barrier. -/
def barrierAccesses (field : Nat → Nat) : List CounterAccess :=
  let crossTileSync := field BarrierControlSection.crossTileSyncCount
  let finalSync := field BarrierControlSection.finalSyncTileCount
  (if args.emitSelfCleanup then [.clear finalSync] else []) ++
    synchronize crossTileSync args.tileCount ++
    (if args.emitSelfCleanup then cleanUp finalSync args.tileCount [crossTileSync] else [])

end Intended

section Addresses

variable {family : GfxFamily} {gpuAddressOfAllocation : Nat} {args : WalkerPartitionArgs}

/-- Commands without a control section among them. -/
theorem controlSections_place (family : GfxFamily) {commands : List Command} (start : Nat)
    (plain : commands.filterMap controlFields = []) :
    controlSections (place family.size start commands) = [] := by
  apply List.filterMap_eq_nil_iff.mpr
  intro placed member
  have inside : placed.2 ∈ commands := by
    rw [← place_map_snd family.size start commands]
    exact List.mem_map_of_mem member
  rw [List.filterMap_eq_nil_iff.mp plain _ inside]
  rfl

/-- The one control section of a buffer lies behind the commands in front of it. -/
theorem controlSections_emitted {front back : List Command} {fieldCount : Nat}
    (plainFront : front.filterMap controlFields = [])
    (plainBack : back.filterMap controlFields = []) :
    controlSections (emitted family (front ++ [zeroFields fieldCount] ++ back)).items =
      [(extent family.size front, List.replicate fieldCount 0)] := by
  have first := controlSections_place family 0 plainFront
  have last := fun start => controlSections_place family start plainBack
  unfold controlSections at *
  simp only [emitted, Emission.append, place_append, List.nil_append, List.filterMap_append, first,
    last, Nat.zero_add, List.append_nil]
  rfl

@[simp] theorem filterMap_optional {β : Type} (f : Command → Option β) (condition : Prop)
    [Decidable condition] (commands : List Command) :
    (optional condition commands).filterMap f =
      if condition then commands.filterMap f else [] := by
  unfold optional
  split <;> rfl

/-- The start of what follows the first commands of a buffer is a boundary. -/
theorem boundary_emitted {front back : List Command}
    (next : ∀ command ∈ back.head?, controlFields command = none) :
    Boundary (emitted family (front ++ back)) (extent family.size front) := by
  cases back with
  | nil =>
    left
    simp [emitted, Emission.append]
  | cons command rest =>
    right
    have placed := @mem_place _ family.size 0 front rest command
    constructor
    · constructor
      · simpa [emitted, Emission.append] using placed
      · exact next command rfl

theorem boundary_start {commands : List Command}
    (next : ∀ command ∈ commands.head?, controlFields command = none) :
    Boundary (emitted family commands) 0 :=
  @boundary_emitted family [] commands next

theorem head_plain {commands : List Command} (plain : commands.filterMap controlFields = []) :
    ∀ command ∈ commands.head?, controlFields command = none := by
  intro command first
  exact List.filterMap_eq_nil_iff.mp plain command (List.mem_of_mem_head? first)

theorem emitted_laidOut {commands : List Command} {address : Nat → Nat} {estimate : Nat}
    {controls : List (Nat × List Nat)} {accesses : List CounterAccess} {jumps : List Nat}
    (room : extent family.size commands = estimate)
    (controlled : controlSections (emitted family commands).items = controls)
    (accessed : commands.filterMap counterAccess = accesses)
    (jumped : commands.filterMap jumpTarget = jumps.map address)
    (landings : ∀ offset ∈ jumps, Boundary (emitted family commands) offset) :
    LaidOut family address estimate controls accesses jumps (emitted family commands) := by
  constructor
  · rfl
  · simpa [emitted, Emission.append] using room
  · simpa [emitted, Emission.append] using place_consecutive family.size 0 commands
  · exact controlled
  · simpa [emitted, Emission.append, place_filterMap] using accessed
  · simpa [emitted, Emission.append, place_filterMap] using jumped
  · exact landings

/-! ### Lists of accesses and jumps -/

@[simp] theorem counterAccess_selfCleanup (useAtomicsForSelfCleanup : Bool) (address : Nat) :
    counterAccess (selfCleanup useAtomicsForSelfCleanup address) = some (.clear address) := by
  cases useAtomicsForSelfCleanup <;> rfl

theorem accesses_selfCleanup (useAtomicsForSelfCleanup : Bool) (address : Nat) :
    [selfCleanup useAtomicsForSelfCleanup address].filterMap counterAccess = [.clear address] := by
  simp

@[simp] theorem counterAccess_pipeControl (dcFlushEnable : Bool) (postSync : Option (Nat × Nat)) :
    counterAccess (.pipeControl dcFlushEnable postSync) = none := rfl

@[simp] theorem accesses_tilesSynchronization (atomicAddress tileCount : Nat) :
    (tilesSynchronization atomicAddress tileCount).filterMap counterAccess =
      synchronize atomicAddress tileCount := rfl

@[simp] theorem accesses_postSyncWaits (postSyncDestination partitionCount : Nat) :
    (postSyncWaits postSyncDestination partitionCount).filterMap counterAccess = [] := by
  simp [postSyncWaits, counterAccess]

@[simp] theorem accesses_additionalSynchronization (gpuAddress : Nat)
    (env : RootDeviceEnvironment) :
    (additionalSynchronization family gpuAddress env).filterMap counterAccess = [] := by
  unfold additionalSynchronization
  cases family.core <;> cases additionalSynchronizationType env <;> rfl

@[simp] theorem accesses_barrierWithPostSync (gpuAddress immediateData : Nat)
    (dcFlushEnable : Bool) (env : RootDeviceEnvironment) :
    (barrierWithPostSync family gpuAddress immediateData dcFlushEnable env).filterMap
      counterAccess = [] := by
  rw [barrierWithPostSync, List.filterMap_append, filterMap_optional,
    List.filterMap_cons_none (counterAccess_pipeControl _ _),
    List.filterMap_cons_none (counterAccess_pipeControl _ _), accesses_additionalSynchronization,
    ite_self, List.append_nil]

@[simp] theorem accesses_selfCleanupEnd (finalSyncTileCountAddress controlSection : Nat)
    (fieldsForCleanupCount : Nat) :
    (selfCleanupEnd finalSyncTileCountAddress controlSection fieldsForCleanupCount
        args).filterMap counterAccess =
      cleanUp finalSyncTileCountAddress args.tileCount
        ((List.range fieldsForCleanupCount).map fun fieldIndex =>
          add64 controlSection (fieldIndex * sizeOfField)) := by
  have barrier : (cleanupBarrier args).filterMap counterAccess = [] := by
    rw [cleanupBarrier, filterMap_optional]
    split <;> rfl
  have fields : (fieldCleanups controlSection fieldsForCleanupCount args).filterMap
      counterAccess = ((List.range fieldsForCleanupCount).map fun fieldIndex =>
        add64 controlSection (fieldIndex * sizeOfField)).map .clear := by
    rw [fieldCleanups, List.filterMap_map, List.map_map, ← List.filterMap_eq_map]
    congr 1
    funext fieldIndex
    exact counterAccess_selfCleanup _ _
  simp only [selfCleanupEnd, List.filterMap_append, barrier, fields, accesses_tilesSynchronization,
    List.nil_append, List.append_nil, cleanUp]

/-- A reading of commands that finds nothing in those between which there are no jumps. -/
structure Quiet {β : Type} (f : Command → Option β) : Prop where
  miAtomic : ∀ gpuAddress requireReturnValue atomicOpcode,
    f (.miAtomic gpuAddress requireReturnValue atomicOpcode) = none
  miSemaphoreWait : ∀ gpuAddress semaphoreCompareValue compareOperation,
    f (.miSemaphoreWait gpuAddress semaphoreCompareValue compareOperation) = none
  miStoreDataImm : ∀ gpuAddress data, f (.miStoreDataImm gpuAddress data) = none
  miMemFence : f .miMemFence = none
  pipeControl : ∀ dcFlushEnable postSync, f (.pipeControl dcFlushEnable postSync) = none

theorem quiet_jumpTarget : Quiet jumpTarget where
  miAtomic _ _ _ := rfl
  miSemaphoreWait _ _ _ := rfl
  miStoreDataImm _ _ := rfl
  miMemFence := rfl
  pipeControl _ _ := rfl

theorem quiet_controlFields : Quiet controlFields where
  miAtomic _ _ _ := rfl
  miSemaphoreWait _ _ _ := rfl
  miStoreDataImm _ _ := rfl
  miMemFence := rfl
  pipeControl _ _ := rfl

section Quiet

variable {β : Type} {f : Command → Option β} (quiet : Quiet f)
include quiet

theorem Quiet.selfCleanup (useAtomicsForSelfCleanup : Bool) (address : Nat) :
    f (selfCleanup useAtomicsForSelfCleanup address) = none := by
  cases useAtomicsForSelfCleanup
  · exact quiet.miStoreDataImm _ _
  · exact quiet.miAtomic _ _ _

theorem Quiet.filterMap_selfCleanup (useAtomicsForSelfCleanup : Bool) (address : Nat) :
    [WalkerPartition.selfCleanup useAtomicsForSelfCleanup address].filterMap f = [] := by
  simp [quiet.selfCleanup]

theorem Quiet.tilesSynchronization (atomicAddress tileCount : Nat) :
    (tilesSynchronization atomicAddress tileCount).filterMap f = [] := by
  simp [WalkerPartition.tilesSynchronization, quiet.miAtomic, quiet.miSemaphoreWait]

theorem Quiet.postSyncWaits (postSyncDestination partitionCount : Nat) :
    (postSyncWaits postSyncDestination partitionCount).filterMap f = [] := by
  simp [WalkerPartition.postSyncWaits, quiet.miSemaphoreWait]

theorem Quiet.barrierWithPostSync (gpuAddress immediateData : Nat) (dcFlushEnable : Bool)
    (env : RootDeviceEnvironment) :
    (barrierWithPostSync family gpuAddress immediateData dcFlushEnable env).filterMap f = [] := by
  have additional : (additionalSynchronization family gpuAddress env).filterMap f = [] := by
    unfold additionalSynchronization
    cases family.core <;> cases additionalSynchronizationType env <;>
      simp [quiet.miMemFence, quiet.miSemaphoreWait]
  rw [WalkerPartition.barrierWithPostSync, List.filterMap_append, filterMap_optional,
    List.filterMap_cons_none (quiet.pipeControl _ _),
    List.filterMap_cons_none (quiet.pipeControl _ _), additional, ite_self, List.append_nil]

theorem Quiet.selfCleanupEnd (finalSyncTileCountAddress controlSection : Nat)
    (fieldsForCleanupCount : Nat) :
    (selfCleanupEnd finalSyncTileCountAddress controlSection fieldsForCleanupCount args).filterMap
      f = [] := by
  have barrier : (cleanupBarrier args).filterMap f = [] := by
    rw [cleanupBarrier, filterMap_optional, List.filterMap_cons_none (quiet.pipeControl _ _)]
    split <;> rfl
  have fields : (fieldCleanups controlSection fieldsForCleanupCount args).filterMap f = [] := by
    simp [fieldCleanups, quiet.selfCleanup]
  simp only [WalkerPartition.selfCleanupEnd, List.filterMap_append, barrier, fields,
    quiet.tilesSynchronization, List.append_nil]

end Quiet

/-! ### The three buffers -/

theorem add64_add64 (base first second : Nat) :
    add64 (add64 base first) second = add64 base (first + second) := by
  simp [add64, Word.add, Nat.add_assoc]

theorem fieldAddress_zero (controlSectionOffset : Nat) :
    fieldAddress gpuAddressOfAllocation controlSectionOffset 0 =
      add64 gpuAddressOfAllocation controlSectionOffset := by
  rw [fieldAddress, add64_add64, Nat.add_zero]

theorem plain_dynamicPrologue (postSyncDestination : Nat) :
    (dynamicPrologue family gpuAddressOfAllocation args postSyncDestination).filterMap
      controlFields = [] := by
  simp only [dynamicPrologue, List.filterMap_append, filterMap_optional,
    quiet_controlFields.tilesSynchronization, quiet_controlFields.postSyncWaits,
    quiet_controlFields.filterMap_selfCleanup]
  simp only [List.filterMap_cons, List.filterMap_nil, controlFields, ite_self, List.append_nil]

theorem plain_dynamicEpilogue :
    (dynamicEpilogue family gpuAddressOfAllocation args).filterMap controlFields = [] := by
  simp only [dynamicEpilogue, List.filterMap_append, filterMap_optional,
    quiet_controlFields.selfCleanupEnd, List.filterMap_cons, List.filterMap_nil, controlFields,
    ite_self, List.append_nil]

theorem accesses_dynamicBuffer (postSyncDestination : Nat) :
    (dynamicBuffer family gpuAddressOfAllocation args postSyncDestination).filterMap
        counterAccess =
      dynamicAccesses args
        (fieldAddress gpuAddressOfAllocation (computeControlSectionOffset family args)) := by
  simp only [dynamicBuffer, dynamicPrologue, walkerSection, dynamicEpilogue, List.filterMap_append,
    filterMap_optional, accesses_tilesSynchronization, accesses_postSyncWaits,
    accesses_selfCleanupEnd, accesses_selfCleanup]
  simp only [List.filterMap_cons, List.filterMap_nil, counterAccess, ite_self, List.append_nil,
    zeroFields]
  have cleared : (List.range dynamicPartitioningFieldsForCleanupCount).map (fun fieldIndex =>
      add64 (add64 gpuAddressOfAllocation (computeControlSectionOffset family args))
        (fieldIndex * sizeOfField)) =
      [BatchBufferControlData.partitionCount, BatchBufferControlData.tileCount,
        BatchBufferControlData.inTileCount].map
        (fieldAddress gpuAddressOfAllocation (computeControlSectionOffset family args)) := rfl
  rw [cleared]
  simp only [dynamicAccesses, BatchBufferControlData.partitionCount, List.map_cons, List.map_nil,
    fieldAddress_zero]
  rfl

theorem jumps_dynamicBuffer (base : gpuAddressOfAllocation < 2 ^ 64) (postSyncDestination : Nat) :
    (dynamicBuffer family gpuAddressOfAllocation args postSyncDestination).filterMap jumpTarget =
      [computeWalkerSectionStart family args,
        computeControlSectionOffset family args +
          family.size (zeroFields BatchBufferControlData.fieldCount), 0].map
        (add64 gpuAddressOfAllocation) := by
  have start : add64 gpuAddressOfAllocation 0 = gpuAddressOfAllocation := Nat.mod_eq_of_lt base
  simp only [dynamicBuffer, dynamicPrologue, walkerSection, dynamicEpilogue, List.filterMap_append,
    filterMap_optional, quiet_jumpTarget.tilesSynchronization, quiet_jumpTarget.postSyncWaits,
    quiet_jumpTarget.selfCleanupEnd, quiet_jumpTarget.filterMap_selfCleanup]
  simp only [List.filterMap_cons, List.filterMap_nil, jumpTarget, ite_self, List.append_nil,
    zeroFields, List.map_cons, List.map_nil, fieldAddress, add64_add64, start, List.nil_append,
    List.cons_append]

theorem estimate_dynamic :
    estimateSpaceRequiredInCommandBuffer family { args with staticPartitioning := false } =
      computeControlSectionOffset family args +
        family.size (zeroFields BatchBufferControlData.fieldCount) +
        (if args.emitBatchBufferEnd then family.batchBufferEnd else 0) +
        (if args.emitSelfCleanup then
          computeSelfCleanupEndSectionSize family dynamicPartitioningFieldsForCleanupCount args
        else 0) := rfl

theorem dynamic_laidOut (base : gpuAddressOfAllocation < 2 ^ 64) (postSyncDestination : Nat) :
    LaidOut family (add64 gpuAddressOfAllocation)
      (estimateSpaceRequiredInCommandBuffer family { args with staticPartitioning := false })
      [(computeControlSectionOffset family args,
        List.replicate BatchBufferControlData.fieldCount 0)]
      (dynamicAccesses args
        (fieldAddress gpuAddressOfAllocation (computeControlSectionOffset family args)))
      [computeWalkerSectionStart family args,
        computeControlSectionOffset family args +
          family.size (zeroFields BatchBufferControlData.fieldCount), 0]
      (emitted family
        (dynamicBuffer family gpuAddressOfAllocation args postSyncDestination)) := by
  have front := @extent_dynamicFront family gpuAddressOfAllocation postSyncDestination args
  have prologue := @plain_dynamicPrologue family gpuAddressOfAllocation args postSyncDestination
  have epilogue := @plain_dynamicEpilogue family gpuAddressOfAllocation args
  apply emitted_laidOut
  · rw [dynamicBuffer, extent_append, extent_append, front, dynamicEpilogue, extent_append,
      extent_optional, extent_optional, extent_selfCleanupEnd]
    simp only [estimate_dynamic, extent_cons, extent_nil, Nat.add_zero, GfxFamily.size]
    split <;> split <;> omega
  · apply (controlSections_emitted _ epilogue).trans
    · rw [front]
    · rw [List.filterMap_append, prologue]
      rfl
  · exact accesses_dynamicBuffer postSyncDestination
  · exact jumps_dynamicBuffer base postSyncDestination
  · intro offset jump
    simp only [List.mem_cons, List.not_mem_nil, or_false] at jump
    rcases jump with rfl | rfl | rfl
    · have start := @extent_dynamicPrologue family gpuAddressOfAllocation postSyncDestination args
      rw [← start]
      simp only [dynamicBuffer, List.append_assoc]
      apply boundary_emitted
      rintro _ ⟨⟩
      rfl
    · rw [← front, dynamicBuffer]
      have behind := extent_append family.size (dynamicPrologue family gpuAddressOfAllocation args
        postSyncDestination ++ walkerSection gpuAddressOfAllocation args)
        [zeroFields BatchBufferControlData.fieldCount]
      rw [extent_cons, extent_nil, Nat.add_zero] at behind
      rw [← behind]
      exact boundary_emitted (head_plain epilogue)
    · apply boundary_start
      intro command first
      have inFront : command ∈ (dynamicPrologue family gpuAddressOfAllocation args
          postSyncDestination ++ walkerSection gpuAddressOfAllocation args).head? := by
        simpa [dynamicBuffer, walkerSection] using first
      apply head_plain _ command inFront
      rw [List.filterMap_append, prologue]
      rfl

theorem plain_staticPrologue (postSyncDestination : Nat) :
    (staticPrologue family gpuAddressOfAllocation args postSyncDestination).filterMap
      controlFields = [] := by
  simp only [staticPrologue, List.filterMap_append, filterMap_optional,
    quiet_controlFields.tilesSynchronization, quiet_controlFields.postSyncWaits,
    quiet_controlFields.filterMap_selfCleanup]
  simp only [List.filterMap_cons, List.filterMap_nil, controlFields, ite_self, List.append_nil]

theorem plain_staticEpilogue :
    (staticEpilogue family gpuAddressOfAllocation args).filterMap controlFields = [] := by
  simp only [staticEpilogue, filterMap_optional, quiet_controlFields.selfCleanupEnd, ite_self]

theorem accesses_staticBuffer (postSyncDestination : Nat) :
    (staticBuffer family gpuAddressOfAllocation args postSyncDestination).filterMap
        counterAccess =
      staticAccesses args (fieldAddress gpuAddressOfAllocation
        (computeStaticPartitioningControlSectionOffset family args)) := by
  simp only [staticBuffer, staticPrologue, staticControl, staticEpilogue, List.filterMap_append,
    filterMap_optional, accesses_tilesSynchronization, accesses_postSyncWaits,
    accesses_selfCleanupEnd, accesses_selfCleanup]
  simp only [List.filterMap_cons, List.filterMap_nil, counterAccess, ite_self, List.append_nil,
    zeroFields]
  rfl

theorem jumps_staticBuffer (postSyncDestination : Nat) :
    (staticBuffer family gpuAddressOfAllocation args postSyncDestination).filterMap jumpTarget =
      (if isStartAndControlSectionRequired args then
        [computeStaticPartitioningControlSectionOffset family args +
          family.size (zeroFields StaticPartitioningControlSection.fieldCount)]
      else []).map (add64 gpuAddressOfAllocation) := by
  simp only [staticBuffer, staticPrologue, staticControl, staticEpilogue, List.filterMap_append,
    filterMap_optional, quiet_jumpTarget.tilesSynchronization, quiet_jumpTarget.postSyncWaits,
    quiet_jumpTarget.selfCleanupEnd, quiet_jumpTarget.filterMap_selfCleanup]
  simp only [List.filterMap_cons, List.filterMap_nil, jumpTarget, ite_self, List.append_nil,
    zeroFields, List.nil_append]
  split <;> rfl

theorem estimate_static :
    estimateSpaceRequiredInCommandBuffer family { args with staticPartitioning := true } =
      computeStaticPartitioningControlSectionOffset family args +
        (if isStartAndControlSectionRequired args then
          family.size (zeroFields StaticPartitioningControlSection.fieldCount) else 0) +
        (if args.emitSelfCleanup then
          computeSelfCleanupEndSectionSize family staticPartitioningFieldsForCleanupCount args
        else 0) := rfl

/-- The buffer without a jump has no cleanup at its end either. -/
theorem staticEpilogue_eq_nil (plain : isStartAndControlSectionRequired args = false) :
    staticEpilogue family gpuAddressOfAllocation args = [] := by
  have kept : args.emitSelfCleanup = false := by
    simp only [isStartAndControlSectionRequired, Bool.or_eq_false_iff] at plain
    exact plain.2
  simp [staticEpilogue, optional, kept]

/-- With a control section, the commands in front of it end where it was computed to be. -/
theorem staticBuffer_eq (postSyncDestination : Nat)
    (required : isStartAndControlSectionRequired args = true) :
    ∃ front, staticBuffer family gpuAddressOfAllocation args postSyncDestination =
        front ++ [zeroFields StaticPartitioningControlSection.fieldCount] ++
          staticEpilogue family gpuAddressOfAllocation args ∧
      extent family.size front = computeStaticPartitioningControlSectionOffset family args ∧
      front.filterMap controlFields = [] := by
  have prologue := @plain_staticPrologue family gpuAddressOfAllocation args postSyncDestination
  have front := @extent_staticPrologue family gpuAddressOfAllocation postSyncDestination args
  rw [if_pos required] at front
  refine ⟨staticPrologue family gpuAddressOfAllocation args postSyncDestination ++
    [.batchBufferStart (add64 gpuAddressOfAllocation
      (computeStaticPartitioningControlSectionOffset family args +
        family.size (zeroFields StaticPartitioningControlSection.fieldCount)))
      false args.secondaryBatchBuffer], ?_, ?_, ?_⟩
  · simp [staticBuffer, staticControl, optional, required]
  · rw [extent_append, extent_cons, extent_nil, ← front]
    rfl
  · rw [List.filterMap_append, prologue]
    rfl

theorem static_laidOut (postSyncDestination : Nat) :
    LaidOut family (add64 gpuAddressOfAllocation)
      (estimateSpaceRequiredInCommandBuffer family { args with staticPartitioning := true })
      (if isStartAndControlSectionRequired args then
        [(computeStaticPartitioningControlSectionOffset family args,
          List.replicate StaticPartitioningControlSection.fieldCount 0)]
      else [])
      (staticAccesses args (fieldAddress gpuAddressOfAllocation
        (computeStaticPartitioningControlSectionOffset family args)))
      (if isStartAndControlSectionRequired args then
        [computeStaticPartitioningControlSectionOffset family args +
          family.size (zeroFields StaticPartitioningControlSection.fieldCount)]
      else [])
      (emitted family (staticBuffer family gpuAddressOfAllocation args postSyncDestination)) := by
  have front := @extent_staticPrologue family gpuAddressOfAllocation postSyncDestination args
  have epilogue := @plain_staticEpilogue family gpuAddressOfAllocation args
  apply emitted_laidOut
  · rw [estimate_static, ← front]
    simp only [staticBuffer, staticControl, staticEpilogue, extent_append, extent_optional,
      extent_selfCleanupEnd, extent_cons, extent_nil, Nat.add_zero]
    simp only [GfxFamily.size]
    split <;> omega
  · split
    next required =>
      obtain ⟨front, shape, reached, plain⟩ := staticBuffer_eq postSyncDestination required
      rw [shape, controlSections_emitted plain epilogue, reached]
    next absent =>
      have plain := @plain_staticPrologue family gpuAddressOfAllocation args postSyncDestination
      rw [Bool.not_eq_true] at absent
      rw [staticBuffer, staticEpilogue_eq_nil absent, List.append_nil]
      simp only [staticControl, optional, absent, Bool.false_eq_true, if_false, List.append_nil]
      exact controlSections_place family 0 plain
  · exact accesses_staticBuffer postSyncDestination
  · exact jumps_staticBuffer postSyncDestination
  · intro offset jump
    split at jump
    next required =>
      obtain ⟨front, shape, reached, plain⟩ := staticBuffer_eq postSyncDestination required
      rw [List.mem_singleton.mp jump, shape, ← reached]
      have landing := @boundary_emitted family
        (front ++ [zeroFields StaticPartitioningControlSection.fieldCount]) _ (head_plain epilogue)
      simpa using landing
    next => cases jump

section Barrier

variable {dcFlushEnable : Bool} {env : RootDeviceEnvironment}

theorem plain_barrierPrologue :
    (barrierPrologue family gpuAddressOfAllocation args dcFlushEnable env).filterMap
      controlFields = [] := by
  have barrier : (if args.usePostSync then
        barrierWithPostSync family args.postSyncGpuAddress args.postSyncImmediateValue
          dcFlushEnable env
      else [.pipeControl dcFlushEnable none]).filterMap controlFields = [] := by
    split
    · exact quiet_controlFields.barrierWithPostSync _ _ _ _
    · rfl
  simp only [barrierPrologue, List.filterMap_append, filterMap_optional, barrier,
    quiet_controlFields.tilesSynchronization, quiet_controlFields.filterMap_selfCleanup]
  simp only [List.filterMap_cons, List.filterMap_nil, controlFields, ite_self, List.append_nil]

theorem plain_barrierEpilogue :
    (barrierEpilogue family gpuAddressOfAllocation args env).filterMap controlFields = [] := by
  simp only [barrierEpilogue, filterMap_optional, quiet_controlFields.selfCleanupEnd, ite_self]

theorem accesses_barrierBuffer :
    (barrierBuffer family gpuAddressOfAllocation args dcFlushEnable env).filterMap
        counterAccess =
      barrierAccesses args (fieldAddress gpuAddressOfAllocation
        (computeBarrierControlSectionOffset family args env)) := by
  have barrier : (if args.usePostSync then
        barrierWithPostSync family args.postSyncGpuAddress args.postSyncImmediateValue
          dcFlushEnable env
      else [.pipeControl dcFlushEnable none]).filterMap counterAccess = [] := by
    split
    · exact accesses_barrierWithPostSync _ _ _ _
    · rfl
  simp only [barrierBuffer, barrierPrologue, barrierEpilogue, List.filterMap_append, barrier,
    filterMap_optional, accesses_tilesSynchronization, accesses_selfCleanupEnd,
    accesses_selfCleanup]
  simp only [List.filterMap_cons, List.filterMap_nil, counterAccess, List.append_nil, zeroFields]
  rfl

theorem jumps_barrierBuffer :
    (barrierBuffer family gpuAddressOfAllocation args dcFlushEnable env).filterMap jumpTarget =
      [computeBarrierControlSectionOffset family args env +
        family.size (zeroFields BarrierControlSection.fieldCount)].map
        (add64 gpuAddressOfAllocation) := by
  have barrier : (if args.usePostSync then
        barrierWithPostSync family args.postSyncGpuAddress args.postSyncImmediateValue
          dcFlushEnable env
      else [.pipeControl dcFlushEnable none]).filterMap jumpTarget = [] := by
    split
    · exact quiet_jumpTarget.barrierWithPostSync _ _ _ _
    · rfl
  simp only [barrierBuffer, barrierPrologue, barrierEpilogue, List.filterMap_append, barrier,
    filterMap_optional, quiet_jumpTarget.tilesSynchronization, quiet_jumpTarget.selfCleanupEnd,
    quiet_jumpTarget.filterMap_selfCleanup]
  simp only [List.filterMap_cons, List.filterMap_nil, jumpTarget, ite_self, List.append_nil,
    zeroFields, List.nil_append, List.map_cons, List.map_nil]

theorem barrier_laidOut :
    LaidOut family (add64 gpuAddressOfAllocation)
      (estimateBarrierSpaceRequiredInCommandBuffer family args env)
      [(computeBarrierControlSectionOffset family args env,
        List.replicate BarrierControlSection.fieldCount 0)]
      (barrierAccesses args (fieldAddress gpuAddressOfAllocation
        (computeBarrierControlSectionOffset family args env)))
      [computeBarrierControlSectionOffset family args env +
        family.size (zeroFields BarrierControlSection.fieldCount)]
      (emitted family (barrierBuffer family gpuAddressOfAllocation args dcFlushEnable env)) := by
  have front := @extent_barrierPrologue family gpuAddressOfAllocation args dcFlushEnable env
  have prologue := @plain_barrierPrologue family gpuAddressOfAllocation args dcFlushEnable env
  have epilogue := @plain_barrierEpilogue family gpuAddressOfAllocation args env
  apply emitted_laidOut
  · simp only [barrierBuffer, barrierEpilogue, extent_append, front, extent_optional,
      extent_selfCleanupEnd, extent_cons, extent_nil, Nat.add_zero,
      estimateBarrierSpaceRequiredInCommandBuffer]
    split <;> omega
  · rw [barrierBuffer, controlSections_emitted prologue epilogue, front]
  · exact accesses_barrierBuffer
  · exact jumps_barrierBuffer
  · intro offset jump
    have landing := @boundary_emitted family
      (barrierPrologue family gpuAddressOfAllocation args dcFlushEnable env ++
        [zeroFields BarrierControlSection.fieldCount]) _ (head_plain epilogue)
    rw [extent_append, front, extent_cons, extent_nil, Nat.add_zero] at landing
    rw [List.mem_singleton.mp jump]
    exact landing

end Barrier

/-- The walker lies where its section was computed to start. -/
theorem computeWalker_mem (postSyncDestination : Nat) :
    (computeWalkerSectionStart family args, .computeWalker) ∈ (emitted family
      (dynamicBuffer family gpuAddressOfAllocation args postSyncDestination)).items := by
  have start := @extent_dynamicPrologue family gpuAddressOfAllocation postSyncDestination args
  have placed := fun after => @mem_place _ family.size 0
    (dynamicPrologue family gpuAddressOfAllocation args postSyncDestination) after .computeWalker
  simp only [start, Nat.zero_add] at placed
  simp only [emitted, Emission.append, dynamicBuffer, walkerSection, List.append_assoc,
    List.cons_append, List.nil_append]
  exact placed _

end Addresses

def xeHpcFamily : GfxFamily where
  core := .xeHpc
  loadRegisterImm := 12
  loadRegisterMem := 16
  loadRegisterReg := 12
  miAtomic := 44
  miSemaphoreWait := 20
  miSetPredicate := 4
  batchBufferStart := 12
  batchBufferEnd := 4
  miStoreDataImm := 20
  miMemFence := 4
  pipeControl := 24
  computeWalker := 156
  dwords := by decide

end ComputeRuntime.WalkerPartition
