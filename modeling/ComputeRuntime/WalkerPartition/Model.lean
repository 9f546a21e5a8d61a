import ComputeRuntime.Helpers.AlignedMemory

/-! The command buffers that run one walker on several tiles: which commands are written, where,
and how much room is set aside for them. -/
namespace ComputeRuntime.WalkerPartition

/-- The hardware families with partitioned walkers. -/
inductive GfxCore where
  | xeHpg
  | xeHpc
  | xe2Hpg
  | xe3
  deriving DecidableEq

/-- The sizes of a family's commands, which are whole dwords. -/
structure GfxFamily where
  core : GfxCore
  loadRegisterImm : Nat
  loadRegisterMem : Nat
  loadRegisterReg : Nat
  miAtomic : Nat
  miSemaphoreWait : Nat
  miSetPredicate : Nat
  batchBufferStart : Nat
  batchBufferEnd : Nat
  miStoreDataImm : Nat
  miMemFence : Nat
  pipeControl : Nat
  computeWalker : Nat
  dwords : ∀ size ∈ [loadRegisterImm, loadRegisterMem, loadRegisterReg, miAtomic, miSemaphoreWait,
    miSetPredicate, batchBufferStart, batchBufferEnd, miStoreDataImm, miMemFence, pipeControl,
    computeWalker], 4 ∣ size
  deriving DecidableEq

/-- The parts of the device that barriers depend on; `programGlobalFence` is the debug variable
`ProgramGlobalFenceAsMiMemFenceCommandInCommandStream`, which is not set, 0 or 1. -/
structure RootDeviceEnvironment where
  ftrLocalMemory : Bool
  isReleaseGlobalFenceInCommandStreamRequired : Bool
  disablePipeControlPrecedingPostSyncCommand : Bool := false
  programGlobalFence : Option Bool := none
  deriving DecidableEq

structure WalkerPartitionArgs where
  workPartitionAllocationGpuVa : Nat := 0
  postSyncGpuAddress : Nat := 0
  postSyncImmediateValue : Nat := 0
  partitionCount : Nat := 0
  tileCount : Nat := 0
  emitBatchBufferEnd : Bool := false
  secondaryBatchBuffer : Bool := false
  synchronizeBeforeExecution : Bool := false
  crossTileAtomicSynchronization : Bool := false
  semaphoreProgrammingRequired : Bool := false
  staticPartitioning : Bool := false
  emitSelfCleanup : Bool := false
  useAtomicsForSelfCleanup : Bool := false
  initializeWparidRegister : Bool := false
  emitPipeControlStall : Bool := false
  preferredStaticPartitioning : Bool := false
  usePostSync : Bool := false
  pipeControlBeforeCleanupCrossTileSync : Bool := false
  dcFlushEnable : Bool := false
  blockDispatchToCommandBuffer : Bool := false
  deriving DecidableEq

inductive AtomicOpcode where
  | increment4B
  | move4B
  deriving DecidableEq

inductive CompareOperation where
  | sadGreaterThanOrEqualSdd
  | sadNotEqualSdd
  deriving DecidableEq

/-- What is written into a buffer. A move stores its operand, which is always 0; `controlSection`
is data between the commands, given by its dwords. -/
inductive Command where
  | loadRegisterImm (registerOffset value : Nat)
  | loadRegisterMem (gpuAddress registerOffset : Nat)
  | loadRegisterReg (sourceRegisterOffset destinationRegisterOffset : Nat)
  | miAtomic (gpuAddress : Nat) (requireReturnValue : Bool) (atomicOpcode : AtomicOpcode)
  | miSemaphoreWait (gpuAddress semaphoreCompareValue : Nat) (compareOperation : CompareOperation)
  | miSetPredicate (enableWparid : Bool)
  | batchBufferStart (gpuAddress : Nat) (predicationEnabled secondary : Bool)
  | batchBufferEnd
  | miStoreDataImm (gpuAddress data : Nat)
  | miMemFence
  | pipeControl (dcFlushEnable : Bool) (postSync : Option (Nat × Nat))
  | computeWalker
  | controlSection (fields : List Nat)
  deriving DecidableEq

def wparidCCSOffset : Nat := 0x221C
def predicationMaskCCSOffset : Nat := 0x21FC
def generalPurposeRegister4 : Nat := 0x2620

/-- The fields of the control sections, by their offsets. -/
def BatchBufferControlData.partitionCount : Nat := 0
def BatchBufferControlData.tileCount : Nat := 4
def BatchBufferControlData.inTileCount : Nat := 8
def BatchBufferControlData.finalSyncTileCount : Nat := 12
def BatchBufferControlData.fieldCount : Nat := 4

def StaticPartitioningControlSection.synchronizeBeforeWalkerCounter : Nat := 0
def StaticPartitioningControlSection.synchronizeAfterWalkerCounter : Nat := 4
def StaticPartitioningControlSection.finalSyncTileCounter : Nat := 8
def StaticPartitioningControlSection.fieldCount : Nat := 3

def BarrierControlSection.crossTileSyncCount : Nat := 0
def BarrierControlSection.finalSyncTileCount : Nat := 4
def BarrierControlSection.fieldCount : Nat := 2

/-- `sizeof(uint32_t)`. -/
def sizeOfField : Nat := 4

def dynamicPartitioningFieldsForCleanupCount : Nat := BatchBufferControlData.fieldCount - 1
def staticPartitioningFieldsForCleanupCount : Nat := StaticPartitioningControlSection.fieldCount - 1
def barrierControlSectionFieldsForCleanupCount : Nat := BarrierControlSection.fieldCount - 1

/-- `sizeof` of what is written. -/
def GfxFamily.size (family : GfxFamily) : Command → Nat
  | .loadRegisterImm _ _ => family.loadRegisterImm
  | .loadRegisterMem _ _ => family.loadRegisterMem
  | .loadRegisterReg _ _ => family.loadRegisterReg
  | .miAtomic _ _ _ => family.miAtomic
  | .miSemaphoreWait _ _ _ => family.miSemaphoreWait
  | .miSetPredicate _ => family.miSetPredicate
  | .batchBufferStart _ _ _ => family.batchBufferStart
  | .batchBufferEnd => family.batchBufferEnd
  | .miStoreDataImm _ _ => family.miStoreDataImm
  | .miMemFence => family.miMemFence
  | .pipeControl _ _ => family.pipeControl
  | .computeWalker => family.computeWalker
  | .controlSection fields => sizeOfField * fields.length

/-- A buffer being written: its contents by their offsets, the offset to write at, and the bytes
counted so far. -/
structure Emission where
  items : List (Nat × Command) := []
  currentBatchBufferPointer : Nat := 0
  totalBytesProgrammed : Nat := 0
  deriving DecidableEq

namespace Emission

variable (family : GfxFamily)

def putCommand (command : Command) (e : Emission) : Emission where
  items := e.items ++ [(e.currentBatchBufferPointer, command)]
  currentBatchBufferPointer := e.currentBatchBufferPointer + family.size command
  totalBytesProgrammed := e.totalBytesProgrammed + family.size command

/-- A command that only moves the pointer; its bytes are counted elsewhere. -/
def setCommand (command : Command) (e : Emission) : Emission :=
  { e with
    items := e.items ++ [(e.currentBatchBufferPointer, command)]
    currentBatchBufferPointer := e.currentBatchBufferPointer + family.size command }

end Emission

section Programming

variable (family : GfxFamily)

def programRegisterWithValue (registerOffset registerValue : Nat) : Emission → Emission :=
  .putCommand family (.loadRegisterImm registerOffset registerValue)

def programWaitForSemaphore (gpuAddress semaphoreCompareValue : Nat)
    (compareOperation : CompareOperation) : Emission → Emission :=
  .putCommand family (.miSemaphoreWait gpuAddress semaphoreCompareValue compareOperation)

/-- The loop of `programWparidMask`, which doubles a count up to 16: from a positive count, four
rounds at most. -/
def spreadFillValue : Nat → Nat → Nat → Nat
  | 0, _, fillValue => fillValue
  | rounds + 1, count, fillValue =>
    if count < 16 then spreadFillValue rounds (count * 2) (fillValue ||| fillValue >>> 1)
    else fillValue

def wparidMask (partitionCount : Nat) : Nat :=
  let mask := 0xFFE0
  mask ||| (mask ||| spreadFillValue 4 partitionCount 0x10)

def isPow2 (val : Nat) : Bool := val ≠ 0 ∧ val &&& (val - 1) = 0

def programWparidMask (partitionCount : Nat) (e : Emission) : Emission :=
  if isPow2 partitionCount = false ∨ partitionCount > 16 then e
  else programRegisterWithValue family predicationMaskCCSOffset (wparidMask partitionCount) e

def programWparidPredication (predicationEnabled : Bool) : Emission → Emission :=
  .putCommand family (.miSetPredicate predicationEnabled)

def programMiAtomic (gpuAddress : Nat) (requireReturnValue : Bool) (atomicOpcode : AtomicOpcode) :
    Emission → Emission :=
  .putCommand family (.miAtomic gpuAddress requireReturnValue atomicOpcode)

def programMiBatchBufferStart (gpuAddress : Nat) (predicationEnabled secondary : Bool) :
    Emission → Emission :=
  .putCommand family (.batchBufferStart gpuAddress predicationEnabled secondary)

def programMiLoadRegisterReg (sourceRegisterOffset destinationRegisterOffset : Nat) :
    Emission → Emission :=
  .putCommand family (.loadRegisterReg sourceRegisterOffset destinationRegisterOffset)

def programMiLoadRegisterMem (gpuAddressToLoad destinationRegisterOffset : Nat) :
    Emission → Emission :=
  .putCommand family (.loadRegisterMem gpuAddressToLoad destinationRegisterOffset)

def programStoreMemImmediateDword (gpuAddress data : Nat) : Emission → Emission :=
  .putCommand family (.miStoreDataImm gpuAddress data)

def getSizeForSingleBarrier : Nat := family.pipeControl

/-- A single barrier without a post-sync write. -/
def programPipeControlCommand (dcFlushEnable : Bool) : Emission → Emission :=
  .putCommand family (.pipeControl dcFlushEnable none)

/-! ### Barriers with a post-sync write -/

def isBarrierWaRequired (env : RootDeviceEnvironment) : Bool :=
  match family.core with
  | .xeHpg => env.disablePipeControlPrecedingPostSyncCommand && env.ftrLocalMemory
  | .xeHpc => env.disablePipeControlPrecedingPostSyncCommand
  | .xe2Hpg => env.disablePipeControlPrecedingPostSyncCommand
  | .xe3 => false

/-- `AdditionalSynchronizationType`. -/
inductive AdditionalSynchronizationType where
  | semaphore
  | fence
  | none
  deriving DecidableEq

/-- The kind of synchronization behind a release, as most functions decide it. -/
def additionalSynchronizationType (env : RootDeviceEnvironment) : AdditionalSynchronizationType :=
  match env.programGlobalFence with
  | none =>
    if env.isReleaseGlobalFenceInCommandStreamRequired then .fence else .none
  | some true => .fence
  | some false => .semaphore

/-- The size of the additional synchronization of a release. -/
def getSizeForSingleAdditionalSynchronization (env : RootDeviceEnvironment) : Nat :=
  match family.core with
  | .xeHpg => 0
  | .xeHpc =>
    match additionalSynchronizationType env with
    | .fence => family.miMemFence
    | _ => family.miSemaphoreWait
  | .xe2Hpg | .xe3 =>
    match additionalSynchronizationType env with
    | .fence => family.miMemFence
    | .semaphore => family.miSemaphoreWait
    | .none => 0

/-- `EncodeSemaphore::invalidHardwareTag`. -/
def invalidHardwareTag : Nat := 2 ^ 32 - 2

/-- The additional synchronization of a release. `xeHpc` decides between its two kinds by itself. -/
def setAdditionalSynchronization (gpuAddress : Nat) (env : RootDeviceEnvironment) (e : Emission) :
    Emission :=
  let wait := Command.miSemaphoreWait gpuAddress invalidHardwareTag .sadNotEqualSdd
  match family.core with
  | .xeHpg => e
  | .xeHpc =>
    let fence := match env.programGlobalFence with
      | none => env.isReleaseGlobalFenceInCommandStreamRequired
      | some flag => flag
    if fence then e.setCommand family .miMemFence else e.setCommand family wait
  | .xe2Hpg | .xe3 =>
    match additionalSynchronizationType env with
    | .fence => e.setCommand family .miMemFence
    | .semaphore => e.setCommand family wait
    | .none => e

def getSizeForBarrierWa (env : RootDeviceEnvironment) : Nat :=
  if isBarrierWaRequired family env then
    getSizeForSingleBarrier family + getSizeForSingleAdditionalSynchronization family env
  else 0

def setBarrierWa (gpuAddress : Nat) (env : RootDeviceEnvironment) (e : Emission) : Emission :=
  match family.core with
  | .xe3 => e
  | _ =>
    if isBarrierWaRequired family env then
      setAdditionalSynchronization family gpuAddress env
        (e.setCommand family (.pipeControl false none))
    else e

/-- With immediate data as the post-sync operation. -/
def getSizeForBarrierWithPostSyncOperation (env : RootDeviceEnvironment) : Nat :=
  getSizeForSingleBarrier family + getSizeForBarrierWa family env +
    getSizeForSingleAdditionalSynchronization family env

def setBarrierWithPostSyncOperation (gpuAddress immediateData : Nat) (dcFlushEnable : Bool)
    (env : RootDeviceEnvironment) (e : Emission) : Emission :=
  let e := setBarrierWa family gpuAddress env e
  let e := e.setCommand family (.pipeControl dcFlushEnable (some (gpuAddress, immediateData)))
  setAdditionalSynchronization family gpuAddress env e

def programPostSyncPipeControlCommand (args : WalkerPartitionArgs) (dcFlushEnable : Bool)
    (env : RootDeviceEnvironment) (e : Emission) : Emission :=
  let e := setBarrierWithPostSyncOperation family args.postSyncGpuAddress
    args.postSyncImmediateValue dcFlushEnable env e
  { e with
    totalBytesProgrammed :=
      e.totalBytesProgrammed + getSizeForBarrierWithPostSyncOperation family env }

/-! ### Sections -/

def computeSelfCleanupSectionSize (useAtomicsForSelfCleanup : Bool) : Nat :=
  if useAtomicsForSelfCleanup then family.miAtomic else family.miStoreDataImm

def programSelfCleanupSection (address : Nat) (useAtomicsForSelfCleanup : Bool) :
    Emission → Emission :=
  if useAtomicsForSelfCleanup then programMiAtomic family address false .move4B
  else programStoreMemImmediateDword family address 0

def computeTilesSynchronizationWithAtomicsSectionSize : Nat :=
  family.miAtomic + family.miSemaphoreWait

def programTilesSynchronizationWithAtomics (atomicAddress tileCount : Nat) (e : Emission) :
    Emission :=
  let e := programMiAtomic family atomicAddress false .increment4B e
  programWaitForSemaphore family atomicAddress tileCount .sadGreaterThanOrEqualSdd e

def computeSelfCleanupEndSectionSize (fieldsForCleanupCount : Nat) (args : WalkerPartitionArgs) :
    Nat :=
  let extraSize :=
    if args.pipeControlBeforeCleanupCrossTileSync then 2 * getSizeForSingleBarrier family else 0
  fieldsForCleanupCount * computeSelfCleanupSectionSize family args.useAtomicsForSelfCleanup +
    2 * computeTilesSynchronizationWithAtomicsSectionSize family + extraSize

def programSelfCleanupEndSection (finalSyncTileCountAddress baseAddressForCleanup : Nat)
    (fieldsForCleanupCount : Nat) (args : WalkerPartitionArgs) (e : Emission) : Emission :=
  let e :=
    if args.pipeControlBeforeCleanupCrossTileSync then programPipeControlCommand family false e
    else e
  let e := programTilesSynchronizationWithAtomics family finalSyncTileCountAddress args.tileCount e
  let e := (List.range fieldsForCleanupCount).foldl (fun e fieldIndex =>
    programSelfCleanupSection family (add64 baseAddressForCleanup (fieldIndex * sizeOfField))
      args.useAtomicsForSelfCleanup e) e
  let e :=
    if args.pipeControlBeforeCleanupCrossTileSync then programPipeControlCommand family false e
    else e
  programTilesSynchronizationWithAtomics family finalSyncTileCountAddress
    (Word.mul 32 2 args.tileCount) e

/-- `postSyncDestination` is the destination address of the walker's post-sync. -/
def programTilesSynchronizationWithPostSyncs (postSyncDestination partitionCount : Nat)
    (e : Emission) : Emission :=
  let postSyncAddress := add64 postSyncDestination 8
  (List.range partitionCount).foldl (fun e partitionId =>
    programWaitForSemaphore family (add64 postSyncAddress (partitionId * 16)) 1 .sadNotEqualSdd e) e

def computeWalkerSectionSize : Nat := family.batchBufferStart + family.computeWalker

def computeControlSectionOffset (args : WalkerPartitionArgs) : Nat :=
  let size :=
    if args.synchronizeBeforeExecution then computeTilesSynchronizationWithAtomicsSectionSize family
    else 0
  let size := size + family.loadRegisterImm
  let size := size + family.miAtomic
  let size := size + family.loadRegisterReg
  let size := size + (family.miSetPredicate * 2 + family.batchBufferStart * 2)
  let size := size +
    (if args.semaphoreProgrammingRequired then family.miSemaphoreWait * args.partitionCount else 0)
  let size := size + computeWalkerSectionSize family
  let size := size + (if args.emitPipeControlStall then getSizeForSingleBarrier family else 0)
  let size :=
    if args.crossTileAtomicSynchronization ∨ args.emitSelfCleanup then
      size + computeTilesSynchronizationWithAtomicsSectionSize family
    else size
  let size :=
    if args.emitSelfCleanup then
      size + computeSelfCleanupSectionSize family args.useAtomicsForSelfCleanup
    else size
  size + (if args.preferredStaticPartitioning then family.loadRegisterMem else 0)

def computeWalkerSectionStart (args : WalkerPartitionArgs) : Nat :=
  computeControlSectionOffset family args - computeWalkerSectionSize family

/-- The walker; what else the function does is to set fields of it. -/
def programPartitionedWalker (args : WalkerPartitionArgs) (e : Emission) : Emission :=
  if args.blockDispatchToCommandBuffer = false then e.putCommand family .computeWalker else e

/-! ### Whole buffers -/

/-- The dwords of a control section when it is written. -/
def zeroFields (fieldCount : Nat) : Command := .controlSection (List.replicate fieldCount 0)

def constructDynamicallyPartitionedCommandBuffer (gpuAddressOfAllocation postSyncDestination : Nat)
    (args : WalkerPartitionArgs) : Emission :=
  let controlSectionOffset := computeControlSectionOffset family args
  let controlSection := add64 gpuAddressOfAllocation controlSectionOffset
  let e : Emission := {}
  let e :=
    if args.synchronizeBeforeExecution then
      programTilesSynchronizationWithAtomics family
        (add64 controlSection BatchBufferControlData.inTileCount) args.tileCount e
    else e
  let e := programWparidMask family args.partitionCount e
  let e := programMiAtomic family controlSection true .increment4B e
  let e := programMiLoadRegisterReg family generalPurposeRegister4 wparidCCSOffset e
  let e := programWparidPredication family true e
  let e := programMiBatchBufferStart family
    (add64 gpuAddressOfAllocation (computeWalkerSectionStart family args)) true
    args.secondaryBatchBuffer e
  let e := programWparidPredication family false e
  let e :=
    if args.emitSelfCleanup then
      programSelfCleanupSection family
        (add64 controlSection BatchBufferControlData.finalSyncTileCount)
        args.useAtomicsForSelfCleanup e
    else e
  let e :=
    if args.emitPipeControlStall then programPipeControlCommand family args.dcFlushEnable e else e
  let e :=
    if args.semaphoreProgrammingRequired then
      programTilesSynchronizationWithPostSyncs family postSyncDestination args.partitionCount e
    else e
  let e :=
    if args.crossTileAtomicSynchronization ∨ args.emitSelfCleanup then
      programTilesSynchronizationWithAtomics family
        (add64 controlSection BatchBufferControlData.tileCount) args.tileCount e
    else e
  let e :=
    if args.preferredStaticPartitioning then
      programMiLoadRegisterMem family args.workPartitionAllocationGpuVa wparidCCSOffset e
    else e
  let e := programMiBatchBufferStart family
    (add64 controlSection (family.size (zeroFields BatchBufferControlData.fieldCount))) false
    args.secondaryBatchBuffer e
  let e := programPartitionedWalker family args e
  let e := programMiBatchBufferStart family gpuAddressOfAllocation false args.secondaryBatchBuffer e
  -- The control section is written at its computed offset, whatever the pointer is.
  let control := zeroFields BatchBufferControlData.fieldCount
  let e : Emission :=
    { items := e.items ++ [(controlSectionOffset, control)]
      currentBatchBufferPointer := e.currentBatchBufferPointer + family.size control
      totalBytesProgrammed := e.totalBytesProgrammed + family.size control }
  let e :=
    if args.emitSelfCleanup then
      programSelfCleanupEndSection family
        (add64 controlSection BatchBufferControlData.finalSyncTileCount) controlSection
        dynamicPartitioningFieldsForCleanupCount args e
    else e
  if args.emitBatchBufferEnd then e.putCommand family .batchBufferEnd else e

def isStartAndControlSectionRequired (args : WalkerPartitionArgs) : Bool :=
  args.synchronizeBeforeExecution || args.crossTileAtomicSynchronization || args.emitSelfCleanup

def computeStaticPartitioningControlSectionOffset (args : WalkerPartitionArgs) : Nat :=
  let beforeExecutionSyncAtomicSize :=
    if args.synchronizeBeforeExecution then computeTilesSynchronizationWithAtomicsSectionSize family
    else 0
  let afterExecutionSyncAtomicSize :=
    if args.crossTileAtomicSynchronization ∨ args.emitSelfCleanup then
      computeTilesSynchronizationWithAtomicsSectionSize family
    else 0
  let afterExecutionSyncPostSyncSize :=
    if args.semaphoreProgrammingRequired then family.miSemaphoreWait * args.partitionCount else 0
  let selfCleanupSectionSize :=
    if args.emitSelfCleanup then computeSelfCleanupSectionSize family args.useAtomicsForSelfCleanup
    else 0
  let wparidRegisterSize := if args.initializeWparidRegister then family.loadRegisterMem else 0
  let pipeControlSize := if args.emitPipeControlStall then getSizeForSingleBarrier family else 0
  let bbStartSize := if isStartAndControlSectionRequired args then family.batchBufferStart else 0
  beforeExecutionSyncAtomicSize + wparidRegisterSize + pipeControlSize + family.computeWalker +
    selfCleanupSectionSize + afterExecutionSyncAtomicSize + afterExecutionSyncPostSyncSize +
    bbStartSize

def constructStaticallyPartitionedCommandBuffer (gpuAddressOfAllocation postSyncDestination : Nat)
    (args : WalkerPartitionArgs) : Emission :=
  let controlSectionOffset :=
    if args.blockDispatchToCommandBuffer then 0
    else computeStaticPartitioningControlSectionOffset family args
  let control := zeroFields StaticPartitioningControlSection.fieldCount
  let afterControlSectionOffset :=
    if args.blockDispatchToCommandBuffer then 0 else controlSectionOffset + family.size control
  let controlSection := add64 gpuAddressOfAllocation controlSectionOffset
  let e : Emission := {}
  if args.blockDispatchToCommandBuffer then programPartitionedWalker family args e
  else
    let e :=
      if args.synchronizeBeforeExecution then
        programTilesSynchronizationWithAtomics family
          (add64 controlSection StaticPartitioningControlSection.synchronizeBeforeWalkerCounter)
          args.tileCount e
      else e
    let e :=
      if args.initializeWparidRegister then
        programMiLoadRegisterMem family args.workPartitionAllocationGpuVa wparidCCSOffset e
      else e
    let e := programPartitionedWalker family args e
    let e :=
      if args.emitSelfCleanup then
        programSelfCleanupSection family
          (add64 controlSection StaticPartitioningControlSection.finalSyncTileCounter)
          args.useAtomicsForSelfCleanup e
      else e
    let e :=
      if args.emitPipeControlStall then programPipeControlCommand family args.dcFlushEnable e
      else e
    let e :=
      if args.semaphoreProgrammingRequired then
        programTilesSynchronizationWithPostSyncs family postSyncDestination args.partitionCount e
      else e
    let e :=
      if args.crossTileAtomicSynchronization ∨ args.emitSelfCleanup then
        programTilesSynchronizationWithAtomics family
          (add64 controlSection StaticPartitioningControlSection.synchronizeAfterWalkerCounter)
          args.tileCount e
      else e
    let e :=
      if isStartAndControlSectionRequired args then
        let e := programMiBatchBufferStart family
          (add64 gpuAddressOfAllocation afterControlSectionOffset) false args.secondaryBatchBuffer e
        e.putCommand family control
      else e
    if args.emitSelfCleanup then
      programSelfCleanupEndSection family
        (add64 controlSection StaticPartitioningControlSection.finalSyncTileCounter) controlSection
        staticPartitioningFieldsForCleanupCount args e
    else e

def estimateSpaceRequiredInCommandBuffer (args : WalkerPartitionArgs) : Nat :=
  if args.staticPartitioning then
    let size := computeStaticPartitioningControlSectionOffset family args
    let size := size +
      (if isStartAndControlSectionRequired args then
        family.size (zeroFields StaticPartitioningControlSection.fieldCount) else 0)
    size +
      (if args.emitSelfCleanup then
        computeSelfCleanupEndSectionSize family staticPartitioningFieldsForCleanupCount args else 0)
  else
    let size := computeControlSectionOffset family args
    let size := size + family.size (zeroFields BatchBufferControlData.fieldCount)
    let size := size + (if args.emitBatchBufferEnd then family.batchBufferEnd else 0)
    size +
      (if args.emitSelfCleanup then
        computeSelfCleanupEndSectionSize family dynamicPartitioningFieldsForCleanupCount args
      else 0)

def computeBarrierControlSectionOffset (args : WalkerPartitionArgs) (env : RootDeviceEnvironment) :
    Nat :=
  let offset :=
    if args.emitSelfCleanup then computeSelfCleanupSectionSize family args.useAtomicsForSelfCleanup
    else 0
  let offset :=
    if args.usePostSync then offset + getSizeForBarrierWithPostSyncOperation family env
    else offset + getSizeForSingleBarrier family
  offset + (computeTilesSynchronizationWithAtomicsSectionSize family + family.batchBufferStart)

def estimateBarrierSpaceRequiredInCommandBuffer (args : WalkerPartitionArgs)
    (env : RootDeviceEnvironment) : Nat :=
  let size := computeBarrierControlSectionOffset family args env +
    family.size (zeroFields BarrierControlSection.fieldCount)
  if args.emitSelfCleanup then
    size + computeSelfCleanupEndSectionSize family barrierControlSectionFieldsForCleanupCount args
  else size

/-- The count of bytes starts at 0, as the caller passes it; `dcFlushEnable` is that of the flush
arguments. -/
def constructBarrierCommandBuffer (gpuAddressOfAllocation : Nat) (args : WalkerPartitionArgs)
    (dcFlushEnable : Bool) (env : RootDeviceEnvironment) : Emission :=
  let controlSectionOffset := computeBarrierControlSectionOffset family args env
  let controlSection := add64 gpuAddressOfAllocation controlSectionOffset
  let finalSyncTileCountField := add64 controlSection BarrierControlSection.finalSyncTileCount
  let e : Emission := {}
  let e :=
    if args.emitSelfCleanup then
      programSelfCleanupSection family finalSyncTileCountField args.useAtomicsForSelfCleanup e
    else e
  let e :=
    if args.usePostSync then programPostSyncPipeControlCommand family args dcFlushEnable env e
    else programPipeControlCommand family dcFlushEnable e
  let e := programTilesSynchronizationWithAtomics family
    (add64 controlSection BarrierControlSection.crossTileSyncCount) args.tileCount e
  let control := zeroFields BarrierControlSection.fieldCount
  let afterControlSectionOffset := controlSectionOffset + family.size control
  let e := programMiBatchBufferStart family (add64 gpuAddressOfAllocation afterControlSectionOffset)
    false args.secondaryBatchBuffer e
  let e := e.putCommand family control
  if args.emitSelfCleanup then
    programSelfCleanupEndSection family finalSyncTileCountField controlSection
      barrierControlSectionFieldsForCleanupCount args e
  else e

end Programming

end ComputeRuntime.WalkerPartition
