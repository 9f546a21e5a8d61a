import ComputeRuntime.WalkerPartition.Sections

/-! The three kinds of partitioned command buffers, each as its sections, and that this is what is
written. -/
namespace ComputeRuntime.WalkerPartition

open Layout

section Buffers

variable (family : GfxFamily) (gpuAddressOfAllocation : Nat) (args : WalkerPartitionArgs)

/-- The address of a field of a control section. -/
def fieldAddress (gpuAddressOfAllocation controlSectionOffset field : Nat) : Nat :=
  add64 (add64 gpuAddressOfAllocation controlSectionOffset) field

/-- The commands in front of the walker of a dynamically partitioned buffer. -/
def dynamicPrologue (postSyncDestination : Nat) : List Command :=
  let field := fieldAddress gpuAddressOfAllocation (computeControlSectionOffset family args)
  optional (args.synchronizeBeforeExecution = true)
      (tilesSynchronization (field BatchBufferControlData.inTileCount) args.tileCount) ++
    [.loadRegisterImm predicationMaskCCSOffset (wparidMask args.partitionCount),
      .miAtomic (add64 gpuAddressOfAllocation (computeControlSectionOffset family args)) true
        .increment4B,
      .loadRegisterReg generalPurposeRegister4 wparidCCSOffset,
      .miSetPredicate true,
      .batchBufferStart (add64 gpuAddressOfAllocation (computeWalkerSectionStart family args)) true
        args.secondaryBatchBuffer,
      .miSetPredicate false] ++
    optional (args.emitSelfCleanup = true)
      [selfCleanup args.useAtomicsForSelfCleanup
        (field BatchBufferControlData.finalSyncTileCount)] ++
    optional (args.emitPipeControlStall = true) [.pipeControl args.dcFlushEnable none] ++
    optional (args.semaphoreProgrammingRequired = true)
      (postSyncWaits postSyncDestination args.partitionCount) ++
    optional (args.crossTileAtomicSynchronization = true ∨ args.emitSelfCleanup = true)
      (tilesSynchronization (field BatchBufferControlData.tileCount) args.tileCount) ++
    optional (args.preferredStaticPartitioning = true)
      [.loadRegisterMem args.workPartitionAllocationGpuVa wparidCCSOffset] ++
    [.batchBufferStart
      (field (family.size (zeroFields BatchBufferControlData.fieldCount))) false
      args.secondaryBatchBuffer]

/-- The walker section: the walker and the way back to the start of the loop. -/
def walkerSection : List Command :=
  [.computeWalker, .batchBufferStart gpuAddressOfAllocation false args.secondaryBatchBuffer]

/-- The commands behind the control section of a dynamically partitioned buffer. -/
def dynamicEpilogue : List Command :=
  let controlSection := add64 gpuAddressOfAllocation (computeControlSectionOffset family args)
  optional (args.emitSelfCleanup = true)
      (selfCleanupEnd (add64 controlSection BatchBufferControlData.finalSyncTileCount)
        controlSection dynamicPartitioningFieldsForCleanupCount args) ++
    optional (args.emitBatchBufferEnd = true) [.batchBufferEnd]

def dynamicBuffer (postSyncDestination : Nat) : List Command :=
  dynamicPrologue family gpuAddressOfAllocation args postSyncDestination ++
    walkerSection gpuAddressOfAllocation args ++
    [zeroFields BatchBufferControlData.fieldCount] ++
    dynamicEpilogue family gpuAddressOfAllocation args

/-- The commands of a statically partitioned buffer up to the control section and its jump. -/
def staticPrologue (postSyncDestination : Nat) : List Command :=
  let field :=
    fieldAddress gpuAddressOfAllocation (computeStaticPartitioningControlSectionOffset family args)
  optional (args.synchronizeBeforeExecution = true)
      (tilesSynchronization
        (field StaticPartitioningControlSection.synchronizeBeforeWalkerCounter) args.tileCount) ++
    optional (args.initializeWparidRegister = true)
      [.loadRegisterMem args.workPartitionAllocationGpuVa wparidCCSOffset] ++
    [.computeWalker] ++
    optional (args.emitSelfCleanup = true)
      [selfCleanup args.useAtomicsForSelfCleanup
        (field StaticPartitioningControlSection.finalSyncTileCounter)] ++
    optional (args.emitPipeControlStall = true) [.pipeControl args.dcFlushEnable none] ++
    optional (args.semaphoreProgrammingRequired = true)
      (postSyncWaits postSyncDestination args.partitionCount) ++
    optional (args.crossTileAtomicSynchronization = true ∨ args.emitSelfCleanup = true)
      (tilesSynchronization
        (field StaticPartitioningControlSection.synchronizeAfterWalkerCounter) args.tileCount)

def staticControl : List Command :=
  optional (isStartAndControlSectionRequired args = true)
    [.batchBufferStart
        (add64 gpuAddressOfAllocation (computeStaticPartitioningControlSectionOffset family args +
          family.size (zeroFields StaticPartitioningControlSection.fieldCount)))
        false args.secondaryBatchBuffer,
      zeroFields StaticPartitioningControlSection.fieldCount]

def staticEpilogue : List Command :=
  let controlSection :=
    add64 gpuAddressOfAllocation (computeStaticPartitioningControlSectionOffset family args)
  optional (args.emitSelfCleanup = true)
    (selfCleanupEnd (add64 controlSection StaticPartitioningControlSection.finalSyncTileCounter)
      controlSection staticPartitioningFieldsForCleanupCount args)

def staticBuffer (postSyncDestination : Nat) : List Command :=
  staticPrologue family gpuAddressOfAllocation args postSyncDestination ++
    staticControl family gpuAddressOfAllocation args ++
    staticEpilogue family gpuAddressOfAllocation args

/-- The commands of a barrier up to its control section. -/
def barrierPrologue (dcFlushEnable : Bool) (env : RootDeviceEnvironment) : List Command :=
  let offset := computeBarrierControlSectionOffset family args env
  let field := fieldAddress gpuAddressOfAllocation offset
  optional (args.emitSelfCleanup = true)
      [selfCleanup args.useAtomicsForSelfCleanup
        (field BarrierControlSection.finalSyncTileCount)] ++
    (if args.usePostSync then
      barrierWithPostSync family args.postSyncGpuAddress args.postSyncImmediateValue dcFlushEnable
        env
    else [.pipeControl dcFlushEnable none]) ++
    tilesSynchronization (field BarrierControlSection.crossTileSyncCount) args.tileCount ++
    [.batchBufferStart
      (add64 gpuAddressOfAllocation
        (offset + family.size (zeroFields BarrierControlSection.fieldCount)))
      false args.secondaryBatchBuffer]

def barrierEpilogue (env : RootDeviceEnvironment) : List Command :=
  let controlSection :=
    add64 gpuAddressOfAllocation (computeBarrierControlSectionOffset family args env)
  optional (args.emitSelfCleanup = true)
    (selfCleanupEnd (add64 controlSection BarrierControlSection.finalSyncTileCount) controlSection
      barrierControlSectionFieldsForCleanupCount args)

def barrierBuffer (dcFlushEnable : Bool) (env : RootDeviceEnvironment) : List Command :=
  barrierPrologue family gpuAddressOfAllocation args dcFlushEnable env ++
    [zeroFields BarrierControlSection.fieldCount] ++
    barrierEpilogue family gpuAddressOfAllocation args env

end Buffers

/-- A buffer that was written from its start without a gap and counted as it was written. -/
def emitted (family : GfxFamily) (commands : List Command) : Emission :=
  Emission.append family commands {}

section Constructed

variable {family : GfxFamily} {gpuAddressOfAllocation postSyncDestination : Nat}
  {args : WalkerPartitionArgs}

/-- A sum that grows only under a condition. -/
theorem ite_add_eq (condition : Prop) [Decidable condition] (sum more : Nat) :
    (if condition then sum + more else sum) = sum + if condition then more else 0 := by
  split <;> rfl

theorem extent_dynamicPrologue :
    extent family.size (dynamicPrologue family gpuAddressOfAllocation args postSyncDestination) =
      computeWalkerSectionStart family args := by
  simp only [dynamicPrologue, extent_append, extent_optional, extent_tilesSynchronization,
    extent_cons, extent_nil, size_selfCleanup, extent_postSyncWaits]
  simp only [GfxFamily.size, computeWalkerSectionStart, computeControlSectionOffset,
    computeWalkerSectionSize, getSizeForSingleBarrier, ite_add_eq, Nat.add_zero]
  omega

theorem computeWalkerSectionSize_le (family : GfxFamily) (args : WalkerPartitionArgs) :
    computeWalkerSectionSize family ≤ computeControlSectionOffset family args := by
  simp only [computeControlSectionOffset, ite_add_eq]
  omega

/-- The control section lies where it was computed to be. -/
theorem extent_dynamicFront :
    extent family.size (dynamicPrologue family gpuAddressOfAllocation args postSyncDestination ++
      walkerSection gpuAddressOfAllocation args) = computeControlSectionOffset family args := by
  have room := computeWalkerSectionSize_le family args
  rw [extent_append, extent_dynamicPrologue, computeWalkerSectionStart]
  simp only [walkerSection, extent_cons, extent_nil, GfxFamily.size]
  simp only [computeWalkerSectionSize] at *
  omega

/-- Writing the control section at its computed offset is writing it next. -/
theorem control_eq (e : Emission) {offset : Nat} (control : Command)
    (reached : e.currentBatchBufferPointer = offset) :
    { items := e.items ++ [(offset, control)]
      currentBatchBufferPointer := e.currentBatchBufferPointer + family.size control
      totalBytesProgrammed := e.totalBytesProgrammed + family.size control } =
      e.append family [control] := by
  simp [Emission.append, place, reached]

theorem constructDynamicallyPartitionedCommandBuffer_eq
    (direct : args.blockDispatchToCommandBuffer = false) (pow2 : isPow2 args.partitionCount = true)
    (few : args.partitionCount ≤ 16) :
    constructDynamicallyPartitionedCommandBuffer family gpuAddressOfAllocation postSyncDestination
        args =
      emitted family
        (dynamicBuffer family gpuAddressOfAllocation args postSyncDestination) := by
  simp only [constructDynamicallyPartitionedCommandBuffer,
    programTilesSynchronizationWithAtomics_eq, programWparidMask_eq _ pow2 few, programMiAtomic,
    programMiLoadRegisterReg, programWparidPredication, programMiBatchBufferStart,
    programSelfCleanupSection_eq, programPipeControlCommand,
    programTilesSynchronizationWithPostSyncs_eq, programMiLoadRegisterMem, programPartitionedWalker,
    direct, if_true, Emission.putCommand_eq, programSelfCleanupEndSection_eq]
  simp only [Emission.optional_eq]
  simp only [Emission.append_append]
  rw [control_eq]
  · simp only [Emission.append_append, emitted, dynamicBuffer, dynamicPrologue, walkerSection,
      dynamicEpilogue, fieldAddress, List.append_assoc, List.cons_append, List.nil_append]
  · have front := @extent_dynamicFront family gpuAddressOfAllocation postSyncDestination args
    refine Eq.trans ?_ front
    simp only [Emission.append, Nat.zero_add, dynamicPrologue, walkerSection, fieldAddress,
      List.append_assoc, List.cons_append, List.nil_append]

theorem extent_staticPrologue :
    extent family.size (staticPrologue family gpuAddressOfAllocation args postSyncDestination) +
        (if isStartAndControlSectionRequired args then family.batchBufferStart else 0) =
      computeStaticPartitioningControlSectionOffset family args := by
  simp only [staticPrologue, extent_append, extent_optional, extent_tilesSynchronization,
    extent_cons, extent_nil, size_selfCleanup, extent_postSyncWaits]
  simp only [GfxFamily.size, computeStaticPartitioningControlSectionOffset,
    getSizeForSingleBarrier, Nat.add_zero]
  omega

theorem constructStaticallyPartitionedCommandBuffer_eq
    (direct : args.blockDispatchToCommandBuffer = false) :
    constructStaticallyPartitionedCommandBuffer family gpuAddressOfAllocation postSyncDestination
        args =
      emitted family
        (staticBuffer family gpuAddressOfAllocation args postSyncDestination) := by
  simp only [constructStaticallyPartitionedCommandBuffer,
    programTilesSynchronizationWithAtomics_eq, programMiBatchBufferStart,
    programSelfCleanupSection_eq, programPipeControlCommand,
    programTilesSynchronizationWithPostSyncs_eq, programMiLoadRegisterMem, programPartitionedWalker,
    direct, if_true, if_false, Emission.putCommand_eq, programSelfCleanupEndSection_eq,
    Bool.false_eq_true]
  simp only [Emission.optional_eq, Emission.optional_pair_eq]
  simp only [Emission.append_append, emitted, staticBuffer, staticPrologue, staticControl,
    staticEpilogue, fieldAddress, List.append_assoc, List.cons_append, List.nil_append]

theorem extent_barrierPrologue {dcFlushEnable : Bool} {env : RootDeviceEnvironment} :
    extent family.size (barrierPrologue family gpuAddressOfAllocation args dcFlushEnable env) =
      computeBarrierControlSectionOffset family args env := by
  have barrier : extent family.size (if args.usePostSync then
        barrierWithPostSync family args.postSyncGpuAddress args.postSyncImmediateValue
          dcFlushEnable env
      else [.pipeControl dcFlushEnable none]) =
      if args.usePostSync then getSizeForBarrierWithPostSyncOperation family env
      else getSizeForSingleBarrier family := by
    split
    · exact extent_barrierWithPostSync _ _ _ _
    · simp [GfxFamily.size, getSizeForSingleBarrier]
  simp only [barrierPrologue, extent_append, extent_optional, extent_tilesSynchronization,
    extent_cons, extent_nil, size_selfCleanup, barrier]
  simp only [GfxFamily.size, computeBarrierControlSectionOffset, Nat.add_zero]
  by_cases postSync : args.usePostSync = true
  · simp only [postSync, if_true]
    omega
  · simp only [postSync, if_false, Bool.false_eq_true]
    omega

theorem constructBarrierCommandBuffer_eq (dcFlushEnable : Bool) (env : RootDeviceEnvironment) :
    constructBarrierCommandBuffer family gpuAddressOfAllocation args dcFlushEnable env =
      emitted family (barrierBuffer family gpuAddressOfAllocation args dcFlushEnable env) := by
  have barrier : ∀ e : Emission, (if args.usePostSync then
        programPostSyncPipeControlCommand family args dcFlushEnable env e
      else programPipeControlCommand family dcFlushEnable e) =
      e.append family (if args.usePostSync then
          barrierWithPostSync family args.postSyncGpuAddress args.postSyncImmediateValue
            dcFlushEnable env
        else [.pipeControl dcFlushEnable none]) := by
    intro e
    split
    · exact programPostSyncPipeControlCommand_eq e args dcFlushEnable env
    · exact Emission.putCommand_eq _ e
  simp only [constructBarrierCommandBuffer, programTilesSynchronizationWithAtomics_eq,
    programMiBatchBufferStart, programSelfCleanupSection_eq, barrier, Emission.putCommand_eq,
    programSelfCleanupEndSection_eq]
  simp only [Emission.optional_eq]
  simp only [Emission.append_append, emitted, barrierBuffer, barrierPrologue, barrierEpilogue,
    fieldAddress, List.append_assoc, List.cons_append, List.nil_append]

end Constructed

end ComputeRuntime.WalkerPartition
