import ComputeRuntime.Library.Chain

/-! Command lists that a compute queue executes: what it writes into its stream, and how the lists
are chained when each of them is a primary batch buffer. -/
namespace ComputeRuntime.QueueExecution

/-! ### Memory -/

/-- A position in the stream of the queue, or the first command buffer of a command list. -/
inductive Address where
  | stream (position : Nat)
  | commandList (id : Nat)
  deriving DecidableEq

inductive StreamCommand (Command : Type) where
  | command (command : Command)
  | batchBufferStart (address : Address)
  /-- The end, or the start that the direct submission continues from. -/
  | batchBufferEnd
  deriving DecidableEq

/-- What the GPU executes. -/
inductive Executed (Command : Type) where
  | command (command : Command)
  | commandList (id : Nat)
  deriving DecidableEq

/-- What is written in one place. Which commands that are depends on the product. -/
inductive Emission where
  | stateCacheFlush
  | instructionCacheFlush
  | heapAddressesOfTags
  | hardwareContext
  | pipelineSelect (cmdListIndex : Option Nat)
  | sbaAddressLoad
  | stateBaseAddress (cmdListIndex : Option Nat)
  | csrBaseAddress
  | stateSip
  | activePartitionConfig
  | frontEnd (cmdListIndex : Option Nat)
  | rayTracingState
  | barrier
  | preemptionMode (cmdListIndex : Nat)
  | stateComputeMode (cmdListIndex : Nat)
  | taskCountPostSync
  deriving DecidableEq

/-! ### What is known when the lists are executed -/

structure CommandListDirtyFlags where
  propertyScmDirty : Bool := false
  propertyFeDirty : Bool := false
  propertyPsDirty : Bool := false
  propertySbaDirty : Bool := false
  frontEndReturnPoint : Bool := false
  preemptionDirty : Bool := false
  deriving DecidableEq

def CommandListDirtyFlags.isAnyDirty (flags : CommandListDirtyFlags) : Bool :=
  flags.propertyScmDirty || flags.propertyFeDirty || flags.propertyPsDirty ||
    flags.propertySbaDirty || flags.frontEndReturnPoint || flags.preemptionDirty

/-- A closed regular command list, and which of its required states the estimation finds to be
others than those before it. -/
structure CommandList where
  id : Nat
  flags : CommandListDirtyFlags := {}
  deriving DecidableEq

structure CommandListRequiredStateChange where
  flags : CommandListDirtyFlags
  cmdListIndex : Nat
  deriving DecidableEq

/-- The queue, its device and its command stream receiver. -/
structure Environment where
  heaplessModeEnabled : Bool := false
  heaplessStateInitEnabled : Bool := false
  pipelineSelectStateTracking : Bool := false
  stateComputeModeTracking : Bool := false
  frontEndTrackingEnabled : Bool := false
  stateBaseAddressTracking : Bool := false
  preemptionCmdSyncProgramming : Bool := false
  enableSWTags : Bool := false
  debugger : Bool := false
  l0Debugger : Bool := false
  isDebugEnabled : Bool := false
  commandQueueDebugCmdsProgrammed : Bool := false
  sipSent : Bool := false
  csrSurfaceProgrammed : Bool := false
  devicePreemptionModeMidThread : Bool := false
  isPreemptionModeInitial : Bool := false
  isProgramActivePartitionConfigRequired : Bool := false
  cmdListScratchAddressPatchingEnabled : Bool := false
  localGsbaDirty : Bool := false
  localFrontEndDirty : Bool := false
  gsbaStateDirty : Bool := false
  frontEndStateDirty : Bool := false
  mediaVfeStateDirty : Bool := false
  stateComputeModeDirty : Bool := false
  preambleSetFlag : Bool := false
  cmdsForHardwareContext : Bool := false
  stateCacheFlushRequired : Bool := false
  instructionCacheFlushRequired : Bool := false
  rayTracingStateProgramingNeeded : Bool := false
  isDispatchTaskCountPostSyncRequired : Bool := false
  deriving DecidableEq

def Environment.isNEODebuggerActive (env : Environment) : Bool :=
  env.debugger && env.isDebugEnabled

def Environment.stateSipRequired (env : Environment) : Bool :=
  (env.isPreemptionModeInitial &&
      (env.devicePreemptionModeMidThread && !env.isNEODebuggerActive)) ||
    (!env.sipSent && env.isNEODebuggerActive)

/-- What a call keeps. The patch is the end of a command list. -/
structure CommandListExecutionContext where
  globalInit : Bool := false
  gsbaStateDirty : Bool := false
  frontEndStateDirty : Bool := false
  rtDispatchRequired : Bool := false
  childGpuAddressPositionBeforeDynamicPreamble : Nat := 0
  currentPatchForChainedBbStart : Option Nat := none
  deriving DecidableEq

/-- The queue. The ends of command lists still hold what earlier calls have written there. -/
structure CommandQueue (Command : Type) where
  forceBbStartJump : Bool
  ends : Nat → Option Address
  startingCmdBuffer : Address := .stream 0
  commandStream : List (StreamCommand Command) := []

section Estimation

variable (env : Environment) (ctx : CommandListExecutionContext)

def estimateLinearStreamSizeInitial : CommandListExecutionContext :=
  { ctx with globalInit := ctx.globalInit || env.cmdsForHardwareContext || env.enableSWTags }

def handleScratchSpaceAndUpdateGSBAStateDirtyFlag : CommandListExecutionContext :=
  if env.heaplessModeEnabled then ctx
  else
    let gsbaStateDirty := ctx.gsbaStateDirty || env.localGsbaDirty || env.gsbaStateDirty
    { ctx with
      gsbaStateDirty := gsbaStateDirty
      frontEndStateDirty := ctx.frontEndStateDirty || env.localFrontEndDirty
      globalInit := ctx.globalInit || gsbaStateDirty }

def setFrontEndStateProperties : CommandListExecutionContext :=
  let frontEndStateDirty :=
    ctx.frontEndStateDirty || (!env.frontEndTrackingEnabled && env.frontEndStateDirty) ||
      env.mediaVfeStateDirty
  { ctx with
    frontEndStateDirty := frontEndStateDirty
    globalInit := ctx.globalInit || frontEndStateDirty }

def estimateLinearStreamSizeComplementary : CommandListExecutionContext :=
  { ctx with
    globalInit :=
      ctx.globalInit || !env.preambleSetFlag || env.stateComputeModeDirty ||
        env.rayTracingStateProgramingNeeded
    rtDispatchRequired := ctx.rtDispatchRequired || env.rayTracingStateProgramingNeeded }

/-- The changes of state that the estimation finds, in the order of the lists. -/
def stateChanges : Nat → List CommandList → List CommandListRequiredStateChange
  | _, [] => []
  | i, commandList :: commandLists =>
    if commandList.flags.isAnyDirty then
      { flags := commandList.flags, cmdListIndex := i } :: stateChanges (i + 1) commandLists
    else stateChanges (i + 1) commandLists

end Estimation

/-! ### What is written -/

section Emission

variable (env : Environment)

def programOneCmdListPipelineSelect (stateChange : CommandListRequiredStateChange) :
    List Emission :=
  if env.pipelineSelectStateTracking && stateChange.flags.propertyPsDirty then
    [.pipelineSelect (some stateChange.cmdListIndex)]
  else []

/-- The change of state that is written ahead of the others, if it is for the first list. -/
def pipelineSelectAhead (changes : List CommandListRequiredStateChange) :
    List Emission × List CommandListRequiredStateChange :=
  match changes with
  | first :: rest =>
    if first.cmdListIndex = 0 && first.flags.propertyPsDirty then
      (programOneCmdListPipelineSelect env first,
        { first with flags := { first.flags with propertyPsDirty := false } } :: rest)
    else ([], changes)
  | [] => ([], [])

/-- The commands that do not belong to a list, and the changes of state that are left. -/
def globalPreamble (ctx : CommandListExecutionContext)
    (changes : List CommandListRequiredStateChange) :
    List Emission × List CommandListRequiredStateChange :=
  if ctx.globalInit then
    let (pipelineSelect, left) :=
      if env.pipelineSelectStateTracking then pipelineSelectAhead env changes
      else (if env.preambleSetFlag then [] else [.pipelineSelect none], changes)
    ((if env.stateCacheFlushRequired then [.stateCacheFlush] else []) ++
      (if env.instructionCacheFlushRequired then [.instructionCacheFlush] else []) ++
      (if env.enableSWTags then [.heapAddressesOfTags] else []) ++
      [.hardwareContext] ++ pipelineSelect ++
      (if env.isDebugEnabled && !env.commandQueueDebugCmdsProgrammed && env.l0Debugger then
        [.sbaAddressLoad] else []) ++
      (if !env.stateBaseAddressTracking && ctx.gsbaStateDirty then [.stateBaseAddress none]
        else []) ++
      (if env.debugger then if env.csrSurfaceProgrammed then [] else [.csrBaseAddress]
        else if env.isPreemptionModeInitial then [.csrBaseAddress] else []) ++
      (if env.stateSipRequired then [.stateSip] else []) ++
      (if env.isProgramActivePartitionConfigRequired then [.activePartitionConfig] else []) ++
      (if !env.frontEndTrackingEnabled && ctx.frontEndStateDirty then [.frontEnd none] else []) ++
      (if ctx.rtDispatchRequired then [.rayTracingState] else []), left)
  else ([], changes)

/-- The preamble of a list whose state changes. -/
def dynamicPreamble (stateChange : CommandListRequiredStateChange) : List Emission :=
  (if stateChange.flags.preemptionDirty then
      (if env.preemptionCmdSyncProgramming then [.barrier] else []) ++
        [.preemptionMode stateChange.cmdListIndex]
    else []) ++
  programOneCmdListPipelineSelect env stateChange ++
  (if env.frontEndTrackingEnabled && stateChange.flags.propertyFeDirty then
    [.frontEnd (some stateChange.cmdListIndex)] else []) ++
  (if env.stateComputeModeTracking && stateChange.flags.propertyScmDirty then
    [.stateComputeMode stateChange.cmdListIndex] else []) ++
  (if env.stateBaseAddressTracking && stateChange.flags.propertySbaDirty then
    [.stateBaseAddress (some stateChange.cmdListIndex)] else [])

/-- The lists with their preambles: the next change of state is for the list of its index. -/
def withPreambles : Nat → List CommandListRequiredStateChange → List CommandList →
    List (CommandList × List Emission)
  | _, _, [] => []
  | i, [], commandList :: commandLists =>
    (commandList, []) :: withPreambles (i + 1) [] commandLists
  | i, change :: changes, commandList :: commandLists =>
    if change.cmdListIndex = i then
      (commandList, dynamicPreamble env change) :: withPreambles (i + 1) changes commandLists
    else (commandList, []) :: withPreambles (i + 1) (change :: changes) commandLists

/-- The commands of the heapless path that do not belong to a list. -/
def heaplessPreamble : List Emission :=
  (if env.isProgramActivePartitionConfigRequired then [.activePartitionConfig] else []) ++
    (if env.instructionCacheFlushRequired then [.instructionCacheFlush] else []) ++
    (if env.stateCacheFlushRequired then [.stateCacheFlush] else [])

def dispatchTaskCountPostSyncRegular : List Emission :=
  if env.isDispatchTaskCountPostSyncRequired then [.taskCountPostSync] else []

end Emission

/-! ### Execution of the lists -/

section Execution

variable {Command : Type} (program : Emission → List Command)

/-- The commands of several emissions. -/
def commandsOf (emissions : List Emission) : List Command := emissions.flatMap program

def CommandQueue.emit (queue : CommandQueue Command) (emissions : List Emission) :
    CommandQueue Command :=
  { queue with
    commandStream := queue.commandStream ++ (commandsOf program emissions).map .command }

/-- A batch buffer start that replaces the end of a command list. -/
def CommandQueue.patch (queue : CommandQueue Command) (bbStartPatchLocation : Nat)
    (address : Address) : CommandQueue Command :=
  { queue with ends := Function.update queue.ends bbStartPatchLocation (some address) }

def CommandQueue.programBatchBufferStart (queue : CommandQueue Command) (address : Address) :
    CommandQueue Command :=
  { queue with commandStream := queue.commandStream ++ [.batchBufferStart address] }

def programOneCmdListBatchBufferStartPrimaryBatchBuffer (commandList : CommandList)
    (queue : CommandQueue Command) (ctx : CommandListExecutionContext) :
    CommandQueue Command × CommandListExecutionContext :=
  let dynamicPreamble :=
    ctx.childGpuAddressPositionBeforeDynamicPreamble ≠ queue.commandStream.length
  let (queue, ctx) :=
    if ctx.globalInit || dynamicPreamble || queue.forceBbStartJump then
      let queue :=
        match ctx.currentPatchForChainedBbStart with
        -- From the list before it to its preamble.
        | some bbStartPatchLocation =>
          queue.patch bbStartPatchLocation
            (.stream ctx.childGpuAddressPositionBeforeDynamicPreamble)
        | none => queue
      ({ queue.programBatchBufferStart (.commandList commandList.id) with
          forceBbStartJump := false },
        { ctx with globalInit := false })
    else
      match ctx.currentPatchForChainedBbStart with
      -- The queue has nothing to dispatch: the first list is submitted itself.
      | none => ({ queue with startingCmdBuffer := .commandList commandList.id }, ctx)
      | some bbStartPatchLocation =>
        (queue.patch bbStartPatchLocation (.commandList commandList.id), ctx)
  (queue, { ctx with currentPatchForChainedBbStart := some commandList.id })

/-- The loop over the lists. -/
def executeLists : List (CommandList × List Emission) → CommandQueue Command →
    CommandListExecutionContext → CommandQueue Command × CommandListExecutionContext
  | [], queue, ctx => (queue, ctx)
  | (commandList, preamble) :: rest, queue, ctx =>
    let ctx :=
      { ctx with childGpuAddressPositionBeforeDynamicPreamble := queue.commandStream.length }
    let (queue, ctx) :=
      programOneCmdListBatchBufferStartPrimaryBatchBuffer commandList
        (queue.emit program preamble) ctx
    executeLists rest queue ctx

/-- Without a list there is no place for the patch. -/
def programLastCommandListReturnBbStart (queue : CommandQueue Command)
    (ctx : CommandListExecutionContext) : Option (CommandQueue Command) :=
  ctx.currentPatchForChainedBbStart.map fun bbStartCmd =>
    queue.patch bbStartCmd (.stream queue.commandStream.length)

def prepareAndSubmitBatchBuffer (queue : CommandQueue Command) : CommandQueue Command :=
  { queue with commandStream := queue.commandStream ++ [.batchBufferEnd] }

/-- What is common to both paths, from the commands that do not belong to a list on. -/
def executeWith (preamble : List Emission) (commandLists : List (CommandList × List Emission))
    (after : List Emission) (queue : CommandQueue Command) (ctx : CommandListExecutionContext) :
    Option (CommandQueue Command) :=
  let (queue, ctx) := executeLists program commandLists (queue.emit program preamble) ctx
  (programLastCommandListReturnBbStart queue ctx).map fun queue =>
    prepareAndSubmitBatchBuffer (queue.emit program after)

end Execution

/-- What a path of the queue writes into its stream before the lists, in front of each list, and
behind them. -/
structure Written where
  preamble : List Emission
  commandLists : List (CommandList × List Emission)
  after : List Emission

section Paths

variable (env : Environment) (commandLists : List CommandList)

/-- The context at the start of a call. -/
def context : CommandListExecutionContext where
  globalInit :=
    env.isProgramActivePartitionConfigRequired || env.isPreemptionModeInitial ||
      env.stateSipRequired ||
      (env.isDebugEnabled && !env.commandQueueDebugCmdsProgrammed && env.l0Debugger)

/-- The context of the regular path when the stream is reserved. -/
def regularContext : CommandListExecutionContext :=
  let ctx := estimateLinearStreamSizeInitial env (context env)
  let ctx :=
    if !env.heaplessModeEnabled || env.cmdListScratchAddressPatchingEnabled then
      handleScratchSpaceAndUpdateGSBAStateDirtyFlag env ctx
    else ctx
  let ctx := setFrontEndStateProperties env ctx
  let ctx :=
    { ctx with
      globalInit :=
        ctx.globalInit || env.stateCacheFlushRequired || env.instructionCacheFlushRequired }
  estimateLinearStreamSizeComplementary env ctx

def heaplessContext : CommandListExecutionContext :=
  if env.cmdListScratchAddressPatchingEnabled then
    handleScratchSpaceAndUpdateGSBAStateDirtyFlag env (context env)
  else context env

def writtenRegular : Written :=
  let (preamble, changes) := globalPreamble env (regularContext env) (stateChanges 0 commandLists)
  { preamble := preamble
    commandLists := withPreambles env 0 changes commandLists
    after := dispatchTaskCountPostSyncRegular env }

def writtenHeapless : Written where
  preamble := heaplessPreamble env
  commandLists := commandLists.map fun commandList => (commandList, [])
  after := dispatchTaskCountPostSyncRegular env

/-- The path of the queue: what it writes, and the context it writes it in. -/
def executeCommandLists : Written × CommandListExecutionContext :=
  if env.heaplessStateInitEnabled then
    (writtenHeapless env commandLists, heaplessContext env)
  else (writtenRegular env commandLists, regularContext env)

end Paths

section Submission

variable {Command : Type}

/-- The queue behind a call, with what it has submitted. -/
def submit (program : Emission → List Command) (env : Environment)
    (queue : CommandQueue Command) (commandLists : List CommandList) :
    Option (CommandQueue Command) :=
  executeWith program (executeCommandLists env commandLists).1.preamble
    (executeCommandLists env commandLists).1.commandLists
    (executeCommandLists env commandLists).1.after queue (executeCommandLists env commandLists).2

/-- What the GPU finds at an address. -/
def CommandQueue.fetch (queue : CommandQueue Command) :
    Address → Option (Chain.Item Address (Executed Command))
  | .stream position =>
    match queue.commandStream[position]? with
    | some (.command command) => some (.execute (.command command) (.stream (position + 1)))
    | some (.batchBufferStart address) => some (.jump address)
    | some .batchBufferEnd => some .stop
    | none => none
  | .commandList id => (queue.ends id).map fun address => .execute (.commandList id) address

end Submission

end ComputeRuntime.QueueExecution
