import ComputeRuntime.UnifiedMemory.AllocationCache
import ComputeRuntime.Library.Transition

/-! Command containers and the command buffers they own: every container has a list of buffers it
writes, an immediate one of buffers to write again once the GPU has finished with them, and all
containers share one list of buffers that nobody writes. -/
namespace ComputeRuntime

open GraphicsAllocation

/-- A command buffer, and where the memory manager has placed it. -/
structure CmdBufferAllocation extends GraphicsAllocation where
  underlyingBufferSize : Nat
  systemMemoryForced : Bool
  isSystemMemoryPool : Bool
  subDeviceBitfield : Nat
  deriving DecidableEq

/-- What the memory manager decides for one request of a command buffer. -/
structure MemoryPlacement where
  isSystemMemoryPool : Bool
  subDeviceBitfield : Nat

/-- The command stream receiver of an immediate command list, with the bits of its tiles. -/
structure ImmediateCsr where
  rootDeviceIndex : Nat
  contextId : Nat
  deviceBitfield : Nat
  deriving DecidableEq

namespace AllocationsList

structure ReusableAllocationRequirements where
  requiredMinimalSize : Nat
  csr : Option ImmediateCsr
  forceSystemMemoryFlag : Bool

/-- What the task counts are when a list is searched: those that the allocations have in every
context, and those that the tiles of the receiver have reported. -/
structure Progress where
  taskCount : CmdBufferAllocation → Nat → Nat
  tags : Nat → Nat

/-- The number of bits of a `std::bitset<4>`. -/
def bitCount (deviceBitfield : Nat) : Nat := ((List.range 4).filter deviceBitfield.testBit).length

def checkTagAddressReady (p : Progress) (csr : ImmediateCsr) (a : CmdBufferAllocation) : Bool :=
  (List.range (bitCount csr.deviceBitfield)).all fun tile =>
    p.taskCount a csr.contextId ≤ p.tags tile

/-- The conditions under which a search takes an allocation. -/
def fits (p : Progress) (req : ReusableAllocationRequirements) (a : CmdBufferAllocation) : Bool :=
  (req.requiredMinimalSize ≤ a.underlyingBufferSize &&
      a.systemMemoryForced == req.forceSystemMemoryFlag) &&
    match req.csr with
    | none => true
    | some csr =>
      let usageMatch := checkTagAddressReady p csr a
      let tileMatch := csr.deviceBitfield == a.subDeviceBitfield || a.subDeviceBitfield == 0
      let placementMatch := csr.rootDeviceIndex == a.rootDeviceIndex && tileMatch
      usageMatch && placementMatch

/-- The first allocation of the list that fits leaves it. -/
def detachAllocation (p : Progress) (req : ReusableAllocationRequirements)
    (list : List CmdBufferAllocation) : Option CmdBufferAllocation × List CmdBufferAllocation :=
  match list.find? (fits p req) with
  | none => (none, list)
  | some a => (some a, list.erase a)

end AllocationsList

open AllocationsList

/-- What all containers share, with the command buffers that were ever obtained and the freed
ones. `attempts` counts the requests to the memory manager. -/
structure SharedBuffers where
  reusableAllocationList : List CmdBufferAllocation := []
  freed : List CmdBufferAllocation := []
  obtained : List CmdBufferAllocation := []
  taskCount : CmdBufferAllocation → Nat → Nat := fun _ _ => objectNotUsed
  attempts : Nat := 0

/-- A container; its streams are known by the command buffers they write to. -/
structure CommandContainer where
  alignedCmdBufferSize : Nat
  rootDeviceIndex : Nat
  immediateCmdListCsr : Option ImmediateCsr := none
  useSecondaryCommandStream : Bool := false
  cmdBufferAllocations : List CmdBufferAllocation := []
  immediateReusableAllocationList : Option (List CmdBufferAllocation) := none
  commandStream : Option CmdBufferAllocation := none
  secondaryCommandStreamForImmediateCmdList : Option CmdBufferAllocation := none

inductive ErrorCode where
  | success
  | outOfDeviceMemory
  deriving DecidableEq

namespace CommandContainer

/-- The memory manager's answer to each request, in order; `none` when it is out of memory. -/
abbrev Memory : Type := Nat → Option MemoryPlacement

variable (memory : Memory) (c : CommandContainer) (s : SharedBuffers)

def allocateCommandBuffer (forceHostMemory : Bool) : Option CmdBufferAllocation × SharedBuffers :=
  match memory s.attempts with
  | none => (none, { s with attempts := s.attempts + 1 })
  | some placement =>
    let allocation : CmdBufferAllocation :=
      { handle := s.attempts
        rootDeviceIndex := c.rootDeviceIndex
        underlyingBufferSize := c.alignedCmdBufferSize
        systemMemoryForced := forceHostMemory && c.useSecondaryCommandStream
        isSystemMemoryPool := placement.isSystemMemoryPool
        subDeviceBitfield := placement.subDeviceBitfield }
    (some allocation,
      { s with attempts := s.attempts + 1, obtained := allocation :: s.obtained })

/-- Without a receiver a search does not look at task counts. -/
def obtainNextCommandBufferAllocation (forceHostMemory : Bool) :
    Option CmdBufferAllocation × SharedBuffers :=
  let forceHostMemory := forceHostMemory && c.useSecondaryCommandStream
  let req : ReusableAllocationRequirements :=
    { requiredMinimalSize := c.alignedCmdBufferSize
      csr := none
      forceSystemMemoryFlag := forceHostMemory }
  match detachAllocation { taskCount := s.taskCount, tags := fun _ => 0 } req
      s.reusableAllocationList with
  | (some allocation, list) => (some allocation, { s with reusableAllocationList := list })
  | (none, _) => c.allocateCommandBuffer memory s forceHostMemory

/-- The command buffers of a new container, the shared list and whether memory was found; the
secondary stream gets a buffer in host memory. -/
def initializeContainer (createSecondaryCmdBufferInHostMem : Bool) :
    CommandContainer × SharedBuffers × ErrorCode :=
  match c.obtainNextCommandBufferAllocation memory s false with
  | (none, s) => (c, s, .outOfDeviceMemory)
  | (some cmdBufferAllocation, s) =>
    let c := { c with
      cmdBufferAllocations := c.cmdBufferAllocations ++ [cmdBufferAllocation]
      commandStream := some cmdBufferAllocation }
    if createSecondaryCmdBufferInHostMem then
      let c := { c with useSecondaryCommandStream := true }
      match c.obtainNextCommandBufferAllocation memory s true with
      | (none, s) => (c, s, .outOfDeviceMemory)
      | (some cmdBufferAllocationHost, s) =>
        ({ c with
          cmdBufferAllocations := c.cmdBufferAllocations ++ [cmdBufferAllocationHost]
          secondaryCommandStreamForImmediateCmdList := some cmdBufferAllocationHost },
          s, .success)
    else (c, s, .success)

def setCmdBuffer (cmdBuffer : CmdBufferAllocation) : CommandContainer :=
  { c with commandStream := some cmdBuffer }

def swapStreams : CommandContainer :=
  if c.useSecondaryCommandStream then
    { c with
      commandStream := c.secondaryCommandStreamForImmediateCmdList
      secondaryCommandStreamForImmediateCmdList := c.commandStream }
  else c

/-- The buffers from the given index on go to the front of the shared list, one after the other;
they stay in the container's own list. -/
def handleCmdBufferAllocations (startIndex : Nat) : CommandContainer × SharedBuffers :=
  let spliced := s.reusableAllocationList ++ c.immediateReusableAllocationList.getD []
  let c := { c with
    immediateReusableAllocationList := c.immediateReusableAllocationList.map fun _ => [] }
  let list := (c.cmdBufferAllocations.drop startIndex).foldl (fun list a => a :: list) spliced
  (c, { s with reusableAllocationList := list })

/-- `none` stands for an abort or an access that C++ leaves undefined. -/
def allocateNextCommandBuffer : Option (CommandContainer × SharedBuffers) :=
  match c.obtainNextCommandBufferAllocation memory s false with
  | (none, _) => none
  | (some cmdBufferAllocation, s) =>
    some ({ c with
      cmdBufferAllocations := c.cmdBufferAllocations ++ [cmdBufferAllocation] }.setCmdBuffer
        cmdBufferAllocation, s)

/-- The jump or the end command written at the end of the old buffer moves no buffer. -/
def closeAndAllocateNextCommandBuffer : Option (CommandContainer × SharedBuffers) := do
  let _ ← c.commandStream
  c.allocateNextCommandBuffer memory s

/-- What `reuseExistingCmdBuffer` asks both lists for. -/
def reuseRequirements (forceHostMemory : Bool) : ReusableAllocationRequirements where
  requiredMinimalSize := c.alignedCmdBufferSize
  csr := c.immediateCmdListCsr
  forceSystemMemoryFlag := forceHostMemory && c.useSecondaryCommandStream

def progress (tags : Nat → Nat) : Progress := { taskCount := s.taskCount, tags }

def reuseExistingCmdBuffer (forceHostMemory : Bool) (tags : Nat → Nat) :
    Option (Option CmdBufferAllocation × CommandContainer × SharedBuffers) := do
  let immediate ← c.immediateReusableAllocationList
  let req := c.reuseRequirements forceHostMemory
  match detachAllocation (progress s tags) req immediate with
  | (some allocation, immediate) =>
    return (some allocation,
      { c with
        immediateReusableAllocationList := some immediate
        cmdBufferAllocations := c.cmdBufferAllocations ++ [allocation] }, s)
  | (none, _) =>
    -- what the second search detaches is not assigned to anything
    let (_, list) := detachAllocation (progress s tags) req s.reusableAllocationList
    return (none, c, { s with reusableAllocationList := list })

/-- The buffer can be written again once the receiver has finished the next task. -/
def storeAllocationAndFlushTagUpdate (allocation : CmdBufferAllocation) (peekTaskCount : Nat) :
    Option (CommandContainer × SharedBuffers) := do
  let csr ← c.immediateCmdListCsr
  let immediate ← c.immediateReusableAllocationList
  let taskCount := fun a contextId =>
    if a = allocation ∧ contextId = csr.contextId then peekTaskCount + 1
    else s.taskCount a contextId
  return ({ c with immediateReusableAllocationList := some (immediate ++ [allocation]) },
    { s with taskCount })

def addCurrentCommandBufferToReusableAllocationList (peekTaskCount : Nat) :
    Option (CommandContainer × SharedBuffers) := do
  let allocation ← c.commandStream
  if allocation ∈ c.cmdBufferAllocations then
    let c := { c with cmdBufferAllocations := c.cmdBufferAllocations.erase allocation }
    c.storeAllocationAndFlushTagUpdate s allocation peekTaskCount
  else none

/-- One buffer for the immediate list. -/
def addReusable (forceHostMemory : Bool) : Option (CommandContainer × SharedBuffers) := do
  let immediate ← c.immediateReusableAllocationList
  match c.obtainNextCommandBufferAllocation memory s forceHostMemory with
  | (none, _) => none
  | (some allocToReuse, s) =>
    return ({ c with immediateReusableAllocationList := some (immediate ++ [allocToReuse]) }, s)

/-- A round of the first loop of `fillReusableAllocationLists`. -/
def fillRound : Option (CommandContainer × SharedBuffers) := do
  let (c, s) ← c.addReusable memory s false
  if c.useSecondaryCommandStream then c.addReusable memory s true else some (c, s)

def fillImmediate : Nat → CommandContainer → SharedBuffers →
    Option (CommandContainer × SharedBuffers)
  | 0, c, s => some (c, s)
  | amount + 1, c, s => do
    let (c, s) ← c.fillRound memory s
    fillImmediate amount c s

def fillReusableAllocationLists (amountToFill : Nat) :
    Option (CommandContainer × SharedBuffers) :=
  if c.immediateReusableAllocationList.isSome then some (c, s)
  else fillImmediate memory amountToFill { c with immediateReusableAllocationList := some [] } s

/-- `reset` keeps the first buffer, and the second one if there is a secondary stream. -/
def reset : Option (CommandContainer × SharedBuffers) := do
  let defaultCmdBuffersCnt := 1 + c.useSecondaryCommandStream.toNat
  let (c, s) := c.handleCmdBufferAllocations s defaultCmdBuffersCnt
  let first ← c.cmdBufferAllocations[0]?
  if c.useSecondaryCommandStream then
    let second ← c.cmdBufferAllocations[1]?
    let current ← c.commandStream
    let c := { c with cmdBufferAllocations := c.cmdBufferAllocations.take defaultCmdBuffersCnt }
    let c := if !current.isSystemMemoryPool then c.swapStreams else c
    return (((c.setCmdBuffer second).swapStreams).setCmdBuffer first, s)
  else
    let c := { c with cmdBufferAllocations := c.cmdBufferAllocations.take defaultCmdBuffersCnt }
    return (c.setCmdBuffer first, s)

end CommandContainer

namespace CommandContainer

/-- All containers with what they share. -/
structure World where
  containers : List CommandContainer := []
  shared : SharedBuffers := {}

/-- The operations. `allocateCommandBuffer`, `setCmdBuffer` and `swapStreams` are what the owner
of an immediate command list does itself; submissions set task counts; the device frees the
shared list. -/
inductive Op where
  | initializeContainer (alignedCmdBufferSize rootDeviceIndex : Nat)
    (immediateCmdListCsr : Option ImmediateCsr) (createSecondaryCmdBufferInHostMem : Bool)
  | allocateNextCommandBuffer (i : Nat)
  | closeAndAllocateNextCommandBuffer (i : Nat)
  | reuseExistingCmdBuffer (i : Nat) (forceHostMemory : Bool) (tags : Nat → Nat)
  | addCurrentCommandBufferToReusableAllocationList (i peekTaskCount : Nat)
  | allocateCommandBuffer (i : Nat) (forceHostMemory : Bool)
  | setCmdBuffer (i : Nat) (cmdBuffer : CmdBufferAllocation)
  | swapStreams (i : Nat)
  | fillReusableAllocationLists (i amountToFill : Nat)
  | reset (i : Nat)
  | destroy (i : Nat)
  | updateTaskCount (taskCount : CmdBufferAllocation → Nat → Nat)
  | freeAllGraphicsAllocations

namespace World

variable (w : World)

def put (i : Nat) (result : CommandContainer × SharedBuffers) : World :=
  { containers := w.containers.set i result.1, shared := result.2 }

/-- An operation on one container. -/
def onContainer (memory : Memory) (c : CommandContainer) :
    Op → Option (CommandContainer × SharedBuffers)
  | .allocateNextCommandBuffer _ => c.allocateNextCommandBuffer memory w.shared
  | .closeAndAllocateNextCommandBuffer _ => c.closeAndAllocateNextCommandBuffer memory w.shared
  | .reuseExistingCmdBuffer _ forceHostMemory tags =>
    (c.reuseExistingCmdBuffer w.shared forceHostMemory tags).map fun result => result.2
  | .addCurrentCommandBufferToReusableAllocationList _ peekTaskCount =>
    c.addCurrentCommandBufferToReusableAllocationList w.shared peekTaskCount
  | .allocateCommandBuffer _ forceHostMemory =>
    match c.allocateCommandBuffer memory w.shared forceHostMemory with
    | (none, _) => none
    | (some a, s) => some ({ c with cmdBufferAllocations := c.cmdBufferAllocations ++ [a] }, s)
  | .setCmdBuffer _ cmdBuffer =>
    if cmdBuffer ∈ c.cmdBufferAllocations then some (c.setCmdBuffer cmdBuffer, w.shared) else none
  | .swapStreams _ => some (c.swapStreams, w.shared)
  | .fillReusableAllocationLists _ amountToFill =>
    c.fillReusableAllocationLists memory w.shared amountToFill
  | .reset _ => c.reset w.shared
  | _ => none

/-- The container an operation works on. -/
def target : Op → Option Nat
  | .allocateNextCommandBuffer i | .closeAndAllocateNextCommandBuffer i
  | .reuseExistingCmdBuffer i _ _ | .addCurrentCommandBufferToReusableAllocationList i _
  | .allocateCommandBuffer i _ | .setCmdBuffer i _ | .swapStreams i
  | .fillReusableAllocationLists i _ | .reset i => some i
  | _ => none

def run (memory : Memory) : Op → Option World
  | .initializeContainer alignedCmdBufferSize rootDeviceIndex csr createSecondary =>
    let c : CommandContainer :=
      { alignedCmdBufferSize, rootDeviceIndex, immediateCmdListCsr := csr }
    let (c, s, _) := c.initializeContainer memory w.shared createSecondary
    some { containers := w.containers ++ [c], shared := s }
  | .destroy i => do
    let c ← w.containers[i]?
    return { containers := w.containers.eraseIdx i
             shared := (c.handleCmdBufferAllocations w.shared 0).2 }
  | .updateTaskCount taskCount => some { w with shared := { w.shared with taskCount } }
  | .freeAllGraphicsAllocations =>
    some { w with shared := { w.shared with
      reusableAllocationList := [], freed := w.shared.freed ++ w.shared.reusableAllocationList } }
  | op => do
    let i ← target op
    let c ← w.containers[i]?
    return w.put i (← w.onContainer memory c op)

end World

/-- The runs with a given memory manager. -/
def system (memory : Memory) : Transition.System World Op where
  init := fun w => w = {}
  step := fun w op w' => w.run memory op = some w'

end CommandContainer

end ComputeRuntime
