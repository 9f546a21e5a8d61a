import ComputeRuntime.Helpers.AlignedMemory

/-! Direct submission: the GPU runs without end in a ring buffer, into which the CPU writes the
next commands while the GPU waits for them at a semaphore. -/
namespace ComputeRuntime

abbrev add32 (a b : Nat) : Nat := Word.add 32 a b

/-- How many bytes the commands have. -/
structure CommandSizes where
  preemption : Nat
  partitionRegisterConfigurationSection : Nat
  systemMemoryFenceAddress : Nat
  disablePrefetcher : Nat
  prefetchMitigation : Nat
  miSemaphoreWait : Nat
  singleAdditionalSynchronization : Nat
  startCommandBuffer : Nat
  stopCommandBuffer : Nat
  monitorFence : Nat
  cacheFlush : Nat
  tlbFlush : Nat
  miLoadRegisterImm : Nat
  miPredicate : Nat
  miStoreDataImm : Nat
  taskStoreSection : Nat
  conditionalDataRegBatchBufferStart : Nat
  stop_le : stopCommandBuffer ≤ startCommandBuffer
  /-- Both commands have 12 bytes, or the second is missing. -/
  fence_le : systemMemoryFenceAddress ≤ startCommandBuffer

/-- What does not change while the submission is in use. `monitorFencesOnStop` and
`dispatchMonitorFenceRequired` are up to the operating system. -/
structure DirectSubmissionSettings where
  sizes : CommandSizes
  maxAvailableSpace : Nat
  maxRingBufferCount : Option Nat
  partitionedMode : Bool
  globalFenceAllocation : Bool
  miMemFenceRequired : Bool
  relaxedOrderingEnabled : Bool
  disableMonitorFence : Bool
  disableCacheFlush : Bool
  isDisablePrefetcherRequired : Bool
  inputMonitorFenceDispatchRequirement : Bool
  monitorFencesOnStop : Nat
  dispatchMonitorFenceRequired : Bool → Bool

namespace DirectSubmission

/-- A command in a ring buffer. `commandBuffer` is a client's command buffer, started or copied;
`startCommandBuffer` goes on in the next ring buffer. -/
inductive Command where
  | preemption
  | partitionRegisterConfiguration
  | systemMemoryFenceAddress
  | relaxedOrderingRegisters
  | queueStallCheck
  | drainRequest
  | tlbFlush
  | pagingFenceSemaphore (value : Nat)
  | returnPtrRegs
  | commandBuffer
  | taskStore
  | queueSizeLimit (newSize : Nat)
  | cacheFlush
  | monitorFence (tagValue : Nat)
  | disablePrefetcher (disable : Bool)
  | semaphoreWait (value : Nat)
  | relaxedOrderingScheduler (value : Nat)
  | memoryFence
  | prefetchMitigation
  | startCommandBuffer
  | stopCommandBuffer
  | noop
  deriving DecidableEq

/-- A command at its place. `limit` is the end of the space that was last checked for. -/
structure Written where
  ring : Nat
  offset : Nat
  size : Nat
  command : Command
  limit : Nat
  deriving DecidableEq

/-- What the CPU does that the GPU sees. The commands are counted in the order they are written
in; `submit` starts the GPU at a position in it. -/
inductive Action where
  | write (written : Written)
  | unblock (queueWorkCount : Nat)
  | submit (position : Nat)
  deriving DecidableEq

/-- An action and the number of the operation that it is a part of. -/
structure Entry where
  operation : Nat
  action : Action
  deriving DecidableEq

def writtenOf : Entry → Option Written
  | ⟨_, .write written⟩ => some written
  | _ => none

/-- The commands that were written. -/
def writes (log : List Entry) : List Written := log.filterMap writtenOf

end DirectSubmission

open DirectSubmission

/-- `ringBuffers` holds the completion fence of each ring buffer, and `ring` is the one that
`ringCommandStream` writes to. -/
structure DirectSubmissionHw where
  ringBuffers : List Nat
  currentRingBuffer : Nat
  previousRingBuffer : Nat
  ring : Nat
  used : Nat
  limit : Nat
  currentQueueWorkCount : Nat
  tagValue : Nat
  currentRelaxedOrderingQueueSize : Nat
  ringStart : Bool
  partitionConfigSet : Bool
  systemMemoryFenceAddressSet : Bool
  relaxedOrderingInitialized : Bool
  relaxedOrderingSchedulerRequired : Bool
  operation : Nat
  log : List Entry

/-- A client's commands. The stream holds them from `startOffset` to `endCmdPtr`, where a jump is
reserved. `requiresFlatRing` says that nothing but its dependencies forbids to copy it. -/
structure BatchBuffer (sizes : CommandSizes) where
  startOffset : Nat
  endCmdPtr : Nat
  used : Nat
  requiresFlatRing : Bool
  hasRelaxedOrderingDependencies : Bool
  hasStallingCmds : Bool
  dispatchMonitorFence : Bool
  pagingFence : Option Nat
  numCsrClients : Nat
  start_le : startOffset ≤ endCmdPtr
  end_le : endCmdPtr + sizes.startCommandBuffer ≤ used

def BatchBuffer.copyCommandBufferIntoRing {sizes : CommandSizes} (batchBuffer : BatchBuffer sizes) :
    Bool :=
  batchBuffer.requiresFlatRing && !batchBuffer.hasRelaxedOrderingDependencies

/-- What a dispatch finds outside: whether the ring is to be restarted for new resources, asked
twice, whether a ring buffer is completed, whether the TLB is to be flushed, and whether the
kernel accepts a submission. -/
structure DispatchInputs where
  restartNeeded : Bool
  restartNeededOnSwitch : Bool
  isCompleted : Nat → Bool
  isTlbFlushRequired : Bool
  submits : Bool

namespace DirectSubmissionHw

variable (settings : DirectSubmissionSettings)

/-- An action of the operation that runs. -/
def act (hw : DirectSubmissionHw) (action : Action) : DirectSubmissionHw :=
  { hw with log := hw.log ++ [⟨hw.operation, action⟩] }

/-- `getSpace` of `ringCommandStream` and the command that is put there. -/
def write (hw : DirectSubmissionHw) (command : Command) (size : Nat) : DirectSubmissionHw :=
  { hw.act (.write ⟨hw.ring, hw.used, size, command, hw.limit⟩) with used := hw.used + size }

/-- How many commands were written: the position of the next one. -/
def getCurrentGpuAddressPosition (hw : DirectSubmissionHw) : Nat := (writes hw.log).length

def dispatchDisablePrefetcher (hw : DirectSubmissionHw) (disable : Bool) : DirectSubmissionHw :=
  if settings.isDisablePrefetcherRequired then
    hw.write (.disablePrefetcher disable) settings.sizes.disablePrefetcher
  else hw

def getSizeDynamicScheduler : Nat :=
  let initSectionSize := 3 * settings.sizes.miLoadRegisterImm + settings.sizes.startCommandBuffer
  let semaphoreSectionSize := settings.sizes.miSemaphoreWait + settings.sizes.miPredicate
  let endSectionSize := settings.sizes.miLoadRegisterImm + settings.sizes.miPredicate
  initSectionSize + semaphoreSectionSize + endSectionSize

def dispatchSemaphoreSection (hw : DirectSubmissionHw) (value : Nat) : DirectSubmissionHw :=
  let hw := hw.dispatchDisablePrefetcher settings true
  let hw :=
    if settings.relaxedOrderingEnabled && hw.relaxedOrderingSchedulerRequired then
      hw.write (.relaxedOrderingScheduler value) (getSizeDynamicScheduler settings)
    else hw.write (.semaphoreWait value) settings.sizes.miSemaphoreWait
  let hw :=
    if settings.miMemFenceRequired then
      hw.write .memoryFence settings.sizes.singleAdditionalSynchronization
    else hw
  let hw := hw.write .prefetchMitigation settings.sizes.prefetchMitigation
  hw.dispatchDisablePrefetcher settings false

def getSizeSemaphoreSection (relaxedOrderingSchedulerRequired : Bool) : Nat :=
  (if settings.relaxedOrderingEnabled && relaxedOrderingSchedulerRequired then
    getSizeDynamicScheduler settings
  else settings.sizes.miSemaphoreWait) +
  settings.sizes.prefetchMitigation +
  (if settings.isDisablePrefetcherRequired then 2 * settings.sizes.disablePrefetcher else 0) +
  (if settings.miMemFenceRequired then settings.sizes.singleAdditionalSynchronization else 0)

def unblockGpu (hw : DirectSubmissionHw) : DirectSubmissionHw :=
  hw.act (.unblock hw.currentQueueWorkCount)

/-- The conditional jump before the section is written at last, to the position behind it. -/
def dispatchRelaxedOrderingQueueStall (hw : DirectSubmissionHw) : DirectSubmissionHw :=
  let hw := hw.write .queueStallCheck settings.sizes.conditionalDataRegBatchBufferStart
  let hw := hw.write .drainRequest settings.sizes.miLoadRegisterImm
  let hw := hw.dispatchSemaphoreSection settings hw.currentQueueWorkCount
  { hw with relaxedOrderingSchedulerRequired := false }

def getSizeDispatchRelaxedOrderingQueueStall : Nat :=
  getSizeSemaphoreSection settings true + settings.sizes.miLoadRegisterImm +
    settings.sizes.conditionalDataRegBatchBufferStart

/-- `getTagAddressValue` gives the next value of the tag. -/
def nextTagValue (hw : DirectSubmissionHw) : Nat := add64 hw.tagValue 1

def dispatchMonitorFence (hw : DirectSubmissionHw) : DirectSubmissionHw :=
  hw.write (.monitorFence hw.nextTagValue) settings.sizes.monitorFence

def dispatchStopRingBufferSection (hw : DirectSubmissionHw) : Nat → DirectSubmissionHw
  | 0 => hw
  | count + 1 => (hw.dispatchMonitorFence settings).dispatchStopRingBufferSection count

def alignToCacheLine (hw : DirectSubmissionHw) : DirectSubmissionHw :=
  let partialCacheline := hw.used % 64
  if partialCacheline = 0 then hw else hw.write .noop (64 - partialCacheline)

def handleStopRingBuffer (hw : DirectSubmissionHw) : DirectSubmissionHw :=
  if settings.disableMonitorFence then { hw with tagValue := hw.nextTagValue } else hw

/-- The commands with which the GPU leaves the ring. -/
def dispatchEnd (hw : DirectSubmissionHw) : DirectSubmissionHw :=
  let hw :=
    if settings.relaxedOrderingEnabled && hw.relaxedOrderingSchedulerRequired then
      hw.dispatchRelaxedOrderingQueueStall settings
    else hw
  let hw := hw.write .cacheFlush settings.sizes.cacheFlush
  let hw :=
    if settings.disableMonitorFence then
      hw.dispatchStopRingBufferSection settings settings.monitorFencesOnStop
    else hw
  let hw := hw.write .stopCommandBuffer settings.sizes.stopCommandBuffer
  let bytesToPad := settings.sizes.startCommandBuffer - settings.sizes.stopCommandBuffer
  (hw.write .noop bytesToPad).alignToCacheLine

/-- The wait of a blocking stop only delays the CPU. -/
def stopRingBuffer (hw : DirectSubmissionHw) : DirectSubmissionHw :=
  if hw.ringStart = false then hw
  else { ((hw.dispatchEnd settings).unblockGpu).handleStopRingBuffer settings with
    ringStart := false }

def getSizeEnd (relaxedOrderingSchedulerRequired : Bool) : Nat :=
  settings.sizes.stopCommandBuffer + settings.sizes.cacheFlush +
  (settings.sizes.startCommandBuffer - settings.sizes.stopCommandBuffer) + 64 +
  (if settings.disableMonitorFence then
    settings.monitorFencesOnStop * settings.sizes.monitorFence
  else 0) +
  (if settings.relaxedOrderingEnabled && relaxedOrderingSchedulerRequired then
    getSizeDispatchRelaxedOrderingQueueStall settings
  else 0)

/-- The result of `submit`, which starts the GPU if the kernel accepts it. -/
def submit (hw : DirectSubmissionHw) (gpuAddress : Nat) (submits : Bool) : DirectSubmissionHw :=
  { (if submits then hw.act (.submit gpuAddress) else hw) with ringStart := submits }

/-- The commands before the first semaphore. -/
def dispatchInitialState (hw : DirectSubmissionHw) : DirectSubmissionHw :=
  let hw := hw.write .preemption settings.sizes.preemption
  let hw :=
    if settings.partitionedMode then
      { hw.write .partitionRegisterConfiguration
          settings.sizes.partitionRegisterConfigurationSection with partitionConfigSet := true }
    else hw
  let hw :=
    if settings.globalFenceAllocation && !hw.systemMemoryFenceAddressSet then
      { hw.write .systemMemoryFenceAddress settings.sizes.systemMemoryFenceAddress with
        systemMemoryFenceAddressSet := true }
    else hw
  if settings.relaxedOrderingEnabled then
    { hw.write .relaxedOrderingRegisters (4 * settings.sizes.miLoadRegisterImm) with
      relaxedOrderingInitialized := true }
  else hw

/-- `initialize` without the allocations. -/
def initializeRing (hw : DirectSubmissionHw) (submitOnInit submits : Bool) : DirectSubmissionHw :=
  if submitOnInit = false then hw
  else
    let startVA := hw.getCurrentGpuAddressPosition
    let hw := hw.dispatchInitialState settings
    let hw := hw.dispatchSemaphoreSection settings hw.currentQueueWorkCount
    hw.submit startVA submits

def handleRingRestartForUllsLightResidency (hw : DirectSubmissionHw) (restartNeeded : Bool) :
    DirectSubmissionHw :=
  if restartNeeded then hw.stopRingBuffer settings else hw

/-- The first completed ring buffer other than the current one, or a new one, or if there may be
no more, the next one. -/
def switchRingBuffersAllocations (hw : DirectSubmissionHw) (isCompleted : Nat → Bool) :
    DirectSubmissionHw :=
  let hw := { hw with previousRingBuffer := hw.currentRingBuffer }
  match (List.range hw.ringBuffers.length).find? fun ringBufferIndex =>
    ringBufferIndex ≠ hw.currentRingBuffer && isCompleted ringBufferIndex with
  | some ringBufferIndex => { hw with currentRingBuffer := ringBufferIndex }
  | none =>
    if settings.maxRingBufferCount = some hw.ringBuffers.length then
      { hw with currentRingBuffer := (hw.currentRingBuffer + 1) % hw.ringBuffers.length }
    else
      { hw with
        currentRingBuffer := hw.ringBuffers.length
        ringBuffers := hw.ringBuffers ++ [0] }

def dispatchSwitchRingBufferSection (hw : DirectSubmissionHw) : DirectSubmissionHw :=
  let hw := if settings.disableMonitorFence then hw.dispatchMonitorFence settings else hw
  hw.write .startCommandBuffer settings.sizes.startCommandBuffer

def getSizeSwitchRingBufferSection : Nat :=
  settings.sizes.startCommandBuffer +
    if settings.disableMonitorFence then settings.sizes.monitorFence else 0

def handleSwitchRingBuffers (hw : DirectSubmissionHw) : DirectSubmissionHw :=
  if settings.disableMonitorFence then
    { hw with
      tagValue := hw.nextTagValue
      ringBuffers := hw.ringBuffers.set hw.previousRingBuffer hw.nextTagValue }
  else hw

def switchRingBuffers (hw : DirectSubmissionHw) (inputs : DispatchInputs) : DirectSubmissionHw :=
  let hw := hw.switchRingBuffersAllocations settings inputs.isCompleted
  let hw := hw.handleRingRestartForUllsLightResidency settings inputs.restartNeededOnSwitch
  let hw := if hw.ringStart then hw.dispatchSwitchRingBufferSection settings else hw
  let hw := { hw with ring := hw.currentRingBuffer, used := 0 }
  hw.handleSwitchRingBuffers settings

/-- The space that was checked for ends at `limit`. -/
def switchRingBuffersNeeded (hw : DirectSubmissionHw) (size : Nat) (inputs : DispatchInputs) :
    DirectSubmissionHw :=
  let hw :=
    if settings.maxAvailableSpace - hw.used < size then hw.switchRingBuffers settings inputs
    else hw
  { hw with limit := hw.used + size }

def getUllsStateSize (hw : DirectSubmissionHw) : Nat :=
  (if hw.partitionConfigSet then 0 else settings.sizes.partitionRegisterConfigurationSection) +
  (if settings.miMemFenceRequired && !hw.systemMemoryFenceAddressSet then
    settings.sizes.systemMemoryFenceAddress
  else 0) +
  (if settings.relaxedOrderingEnabled && !hw.relaxedOrderingInitialized then
    4 * settings.sizes.miLoadRegisterImm
  else 0)

def dispatchUllsState (hw : DirectSubmissionHw) : DirectSubmissionHw :=
  let hw :=
    if hw.partitionConfigSet then hw
    else
      { hw.write .partitionRegisterConfiguration
          settings.sizes.partitionRegisterConfigurationSection with partitionConfigSet := true }
  let hw :=
    if settings.globalFenceAllocation && !hw.systemMemoryFenceAddressSet then
      { hw.write .systemMemoryFenceAddress settings.sizes.systemMemoryFenceAddress with
        systemMemoryFenceAddressSet := true }
    else hw
  if settings.relaxedOrderingEnabled && !hw.relaxedOrderingInitialized then
    { hw.write .relaxedOrderingRegisters (4 * settings.sizes.miLoadRegisterImm) with
      relaxedOrderingInitialized := true }
  else hw

def getSizeDispatch (relaxedOrderingSchedulerRequired returnPtrsRequired
    dispatchMonitorFence : Bool) : Nat :=
  getSizeSemaphoreSection settings relaxedOrderingSchedulerRequired +
  settings.sizes.startCommandBuffer +
  (if settings.relaxedOrderingEnabled && returnPtrsRequired then
    4 * settings.sizes.miLoadRegisterImm
  else 0) +
  (if settings.disableCacheFlush then 0 else settings.sizes.cacheFlush) +
  (if dispatchMonitorFence then settings.sizes.monitorFence else 0) +
  settings.sizes.tlbFlush

def handleNewResourcesSubmission (hw : DirectSubmissionHw) (isTlbFlushRequired : Bool) :
    DirectSubmissionHw :=
  if isTlbFlushRequired then hw.write .tlbFlush settings.sizes.tlbFlush else hw

/-- A client's commands and the way back from them. -/
def dispatchClientCommands (hw : DirectSubmissionHw) (batchBuffer : BatchBuffer settings.sizes)
    (dispatchMonitorFence : Bool) : DirectSubmissionHw :=
  let relaxed := settings.relaxedOrderingEnabled && batchBuffer.hasRelaxedOrderingDependencies
  let hw :=
    match batchBuffer.pagingFence with
    | some pagingFenceValue =>
      hw.write (.pagingFenceSemaphore pagingFenceValue) settings.sizes.miSemaphoreWait
    | none => hw
  let hw :=
    if relaxed then hw.write .returnPtrRegs (4 * settings.sizes.miLoadRegisterImm) else hw
  let hw :=
    if batchBuffer.copyCommandBufferIntoRing then
      hw.write .commandBuffer (batchBuffer.endCmdPtr - batchBuffer.startOffset)
    else hw.write .commandBuffer settings.sizes.startCommandBuffer
  let hw :=
    if relaxed then
      let hw := hw.write .taskStore settings.sizes.taskStoreSection
      let expectedQueueSize := min (batchBuffer.numCsrClients * 4 % 2 ^ 32) 16
      if hw.currentRelaxedOrderingQueueSize < expectedQueueSize then
        { hw.write (.queueSizeLimit expectedQueueSize) settings.sizes.miStoreDataImm with
          currentRelaxedOrderingQueueSize := expectedQueueSize }
      else hw
    else hw
  let hw :=
    if settings.disableCacheFlush then hw else hw.write .cacheFlush settings.sizes.cacheFlush
  if dispatchMonitorFence then hw.dispatchMonitorFence settings else hw

/-- The GPU waits behind a client's commands for the next ones. -/
def dispatchWorkloadSection (hw : DirectSubmissionHw) (batchBuffer : BatchBuffer settings.sizes)
    (dispatchMonitorFence : Bool) : DirectSubmissionHw :=
  let hw := hw.dispatchClientCommands settings batchBuffer dispatchMonitorFence
  hw.dispatchSemaphoreSection settings (add32 hw.currentQueueWorkCount 1)

/-- On Linux. -/
def updateTagValue (hw : DirectSubmissionHw) (requireMonitorFence : Bool) : DirectSubmissionHw :=
  if requireMonitorFence then
    { hw with
      tagValue := hw.nextTagValue
      ringBuffers := hw.ringBuffers.set hw.currentRingBuffer hw.nextTagValue }
  else hw

/-- Whether a monitor fence is to follow the commands. -/
def monitorFenceOf (batchBuffer : BatchBuffer settings.sizes) : Bool :=
  settings.dispatchMonitorFenceRequired
    (if settings.inputMonitorFenceDispatchRequirement then batchBuffer.dispatchMonitorFence
    else batchBuffer.hasStallingCmds)

/-- The space a dispatch checks for: its commands, the jump to the next ring buffer and a stop. -/
def requiredMinimalSize (hw : DirectSubmissionHw) (batchBuffer : BatchBuffer settings.sizes) :
    Nat :=
  let relaxedOrderingSchedulerWillBeNeeded :=
    hw.relaxedOrderingSchedulerRequired || batchBuffer.hasRelaxedOrderingDependencies
  let dispatchSize := hw.getUllsStateSize settings +
    getSizeDispatch settings relaxedOrderingSchedulerWillBeNeeded
      batchBuffer.hasRelaxedOrderingDependencies (monitorFenceOf settings batchBuffer)
  let dispatchSize :=
    if batchBuffer.copyCommandBufferIntoRing then
      add64 dispatchSize (sub64 (batchBuffer.used - batchBuffer.startOffset)
        (2 * settings.sizes.startCommandBuffer))
    else dispatchSize
  let dispatchSize :=
    if batchBuffer.pagingFence.isSome then dispatchSize + settings.sizes.miSemaphoreWait
    else dispatchSize
  let requiredMinimalSize := dispatchSize + getSizeSwitchRingBufferSection settings +
    getSizeEnd settings relaxedOrderingSchedulerWillBeNeeded
  if settings.relaxedOrderingEnabled then
    requiredMinimalSize + 4 * settings.sizes.miLoadRegisterImm +
    (if batchBuffer.hasStallingCmds && hw.relaxedOrderingSchedulerRequired then
      getSizeDispatchRelaxedOrderingQueueStall settings
    else 0) +
    (if batchBuffer.hasRelaxedOrderingDependencies then
      settings.sizes.taskStoreSection + settings.sizes.miStoreDataImm
    else 0)
  else requiredMinimalSize

/-- The state that a ring needs, and the wait for what is pending before stalling commands. -/
def dispatchPreamble (hw : DirectSubmissionHw) (batchBuffer : BatchBuffer settings.sizes)
    (isTlbFlushRequired : Bool) : DirectSubmissionHw :=
  let hw := hw.dispatchUllsState settings
  let hw :=
    if settings.relaxedOrderingEnabled && batchBuffer.hasStallingCmds &&
        hw.relaxedOrderingSchedulerRequired then
      hw.dispatchRelaxedOrderingQueueStall settings
    else hw
  let hw := { hw with
    relaxedOrderingSchedulerRequired :=
      hw.relaxedOrderingSchedulerRequired || batchBuffer.hasRelaxedOrderingDependencies }
  hw.handleNewResourcesSubmission settings isTlbFlushRequired

/-- The commands of a dispatch, in the space that was checked for. -/
def dispatchSections (hw : DirectSubmissionHw) (batchBuffer : BatchBuffer settings.sizes)
    (isTlbFlushRequired : Bool) : DirectSubmissionHw :=
  (hw.dispatchPreamble settings batchBuffer isTlbFlushRequired).dispatchWorkloadSection settings
    batchBuffer (monitorFenceOf settings batchBuffer)

/-- A dispatch from the check for space on. Whether the ring is to be started was decided before. -/
def finishDispatch (hw : DirectSubmissionHw) (batchBuffer : BatchBuffer settings.sizes)
    (needStart : Bool) (inputs : DispatchInputs) : DirectSubmissionHw :=
  let hw := hw.switchRingBuffersNeeded settings (hw.requiredMinimalSize settings batchBuffer) inputs
  let startVA := hw.getCurrentGpuAddressPosition
  let hw := hw.dispatchSections settings batchBuffer inputs.isTlbFlushRequired
  if needStart && !inputs.submits then hw.submit startVA false
  else
    let hw := if needStart then hw.submit startVA true else hw.unblockGpu
    let hw := { hw with currentQueueWorkCount := add32 hw.currentQueueWorkCount 1 }
    hw.updateTagValue (monitorFenceOf settings batchBuffer)

def dispatchCommandBuffer (hw : DirectSubmissionHw) (batchBuffer : BatchBuffer settings.sizes)
    (inputs : DispatchInputs) : DirectSubmissionHw :=
  let hw := hw.handleRingRestartForUllsLightResidency settings inputs.restartNeeded
  hw.finishDispatch settings batchBuffer (!hw.ringStart) inputs

/-- Every operation has a number. -/
def nextOperation (hw : DirectSubmissionHw) : DirectSubmissionHw :=
  { hw with operation := hw.operation + 1 }

/-- A submission that has been made and given its resources. -/
def create (systemMemoryFenceAddressSet : Bool) : DirectSubmissionHw where
  ringBuffers := [0, 0]
  currentRingBuffer := 0
  previousRingBuffer := 0
  ring := 0
  used := 0
  limit := settings.maxAvailableSpace
  currentQueueWorkCount := 1
  tagValue := 0
  currentRelaxedOrderingQueueSize := 4
  ringStart := false
  partitionConfigSet := !settings.partitionedMode
  systemMemoryFenceAddressSet
  relaxedOrderingInitialized := false
  relaxedOrderingSchedulerRequired := false
  operation := 0
  log := []

end DirectSubmissionHw

end ComputeRuntime
