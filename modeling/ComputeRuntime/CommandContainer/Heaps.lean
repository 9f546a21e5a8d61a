import ComputeRuntime.Helpers.AlignedMemory
import ComputeRuntime.Helpers.DebugHelpers
import ComputeRuntime.Library.Transition

/-! The heaps of a command container, and what it does with them: it consumes space, and takes a
new heap when the space of the old one does not suffice. -/
namespace ComputeRuntime.IndirectHeaps

def cacheLineSize : Nat := 64

/-- The allocation of a heap. The memory manager places it by cache lines, at addresses of at most
57 bits. -/
structure HeapAllocation where
  underlyingBuffer : Nat
  underlyingBufferSize : Nat
  gpuAddress : Nat
  gpuBaseAddress : Nat
  placed : 0 < underlyingBuffer
  fits : underlyingBuffer + underlyingBufferSize < 2 ^ 57
  bufferLines : cacheLineSize ∣ underlyingBuffer
  sizeLines : cacheLineSize ∣ underlyingBufferSize
  deriving DecidableEq

inductive HeapType where
  | dynamicState
  | indirectObject
  | surfaceState
  deriving DecidableEq

/-- What `getHeapAllocation` hands out, from the list for reuse or from the memory manager: at
least the size asked for, or nothing. -/
structure HeapHelper where
  getHeapAllocation : HeapType → Nat → Option HeapAllocation
  large : ∀ heapType heapSize allocation,
    getHeapAllocation heapType heapSize = some allocation →
    heapSize ≤ allocation.underlyingBufferSize

structure IndirectHeap where
  sizeUsed : Nat
  maxAvailableSpace : Nat
  buffer : Nat
  graphicsAllocation : HeapAllocation
  canBeUtilizedAs4GbHeap : Bool
  deriving DecidableEq

namespace IndirectHeap

variable (heap : IndirectHeap)

/-- The constructor. -/
def ofAllocation (allocation : HeapAllocation) (canBeUtilizedAs4GbHeap : Bool) : IndirectHeap where
  sizeUsed := 0
  maxAvailableSpace := allocation.underlyingBufferSize
  buffer := allocation.underlyingBuffer
  graphicsAllocation := allocation
  canBeUtilizedAs4GbHeap := canBeUtilizedAs4GbHeap

def setUsed (sizeUsed : Nat) : IndirectHeap := { heap with sizeUsed }

@[simp] theorem setUsed_buffer (sizeUsed : Nat) : (heap.setUsed sizeUsed).buffer = heap.buffer :=
  rfl

@[simp] theorem setUsed_maxAvailableSpace (sizeUsed : Nat) :
    (heap.setUsed sizeUsed).maxAvailableSpace = heap.maxAvailableSpace := rfl

/-- The address behind what is used: `getSpace(0)`. -/
def position : Nat := add64 heap.buffer heap.sizeUsed

def getSpace (size : Nat) : Result (Nat × IndirectHeap) :=
  if size = 0 then .ok (heap.position, heap)
  else if heap.maxAvailableSpace < add64 heap.sizeUsed size then .error .unrecoverable
  else if heap.buffer = 0 then .error .unrecoverable
  else .ok (heap.position, heap.setUsed (add64 heap.sizeUsed size))

def getAvailableSpace : Nat := sub64 heap.maxAvailableSpace heap.sizeUsed

def align (alignment : Nat) : IndirectHeap :=
  heap.setUsed (sub64 (alignUp heap.position alignment) heap.buffer)

def replaceBuffer (buffer bufferSize : Nat) : IndirectHeap :=
  { heap with buffer, maxAvailableSpace := bufferSize, sizeUsed := 0 }

def replaceGraphicsAllocation (gfxAllocation : HeapAllocation) : IndirectHeap :=
  { heap with graphicsAllocation := gfxAllocation }

def getHeapGpuBase : Nat :=
  if heap.canBeUtilizedAs4GbHeap then heap.graphicsAllocation.gpuBaseAddress
  else heap.graphicsAllocation.gpuAddress

end IndirectHeap

/-- What is fixed before a container is initialized. -/
structure Settings where
  heapSharingEnabled : Bool
  stateBaseAddressTracking : Bool
  globalBindlessHeapsEnabled : Bool
  supportsImages : Bool
  privateHeaps : Bool
  immediateCmdListCsr : Bool
  reservedSshSize : Nat
  defaultSshSize : Nat
  forceDefaultHeapSize : Option Nat
  deriving DecidableEq

structure CommandContainer where
  settings : Settings
  indirectHeaps : HeapType → Option IndirectHeap := fun _ => none
  allocationIndirectHeaps : HeapType → Option HeapAllocation := fun _ => none
  sharedSshCsrHeap : Option IndirectHeap := none
  sharedDshCsrHeap : Option IndirectHeap := none
  dirtyHeaps : HeapType → Bool := fun _ => true
  residencyContainer : List HeapAllocation := []
  deallocationContainer : List HeapAllocation := []
  sshAllocations : List HeapAllocation := []
  storedForReuse : List HeapAllocation := []

namespace CommandContainer

variable (helper : HeapHelper) (c : CommandContainer)

def immediateCmdListSharedHeap (heapType : HeapType) : Bool :=
  c.settings.heapSharingEnabled && (heapType == .dynamicState || heapType == .surfaceState)

def getIndirectHeap (heapType : HeapType) : Option IndirectHeap :=
  if c.immediateCmdListSharedHeap heapType then
    if heapType = .surfaceState then c.sharedSshCsrHeap else c.sharedDshCsrHeap
  else c.indirectHeaps heapType

def setPrivateHeap (heapType : HeapType) (heap : IndirectHeap) : CommandContainer :=
  { c with indirectHeaps := Function.update c.indirectHeaps heapType (some heap) }

theorem setPrivateHeap_self (heapType : HeapType) (heap : IndirectHeap) :
    (c.setPrivateHeap heapType heap).indirectHeaps heapType = some heap :=
  Function.update_self _ _ _

theorem setPrivateHeap_other {heapType other : HeapType} (different : other ≠ heapType)
    (heap : IndirectHeap) :
    (c.setPrivateHeap heapType heap).indirectHeaps other = c.indirectHeaps other :=
  Function.update_of_ne different _ _

/-- A heap is changed where `getIndirectHeap` finds it. -/
def setIndirectHeap (heapType : HeapType) (heap : IndirectHeap) : CommandContainer :=
  if c.immediateCmdListSharedHeap heapType then
    if heapType = .surfaceState then { c with sharedSshCsrHeap := some heap }
    else { c with sharedDshCsrHeap := some heap }
  else c.setPrivateHeap heapType heap

def setHeapDirty (heapType : HeapType) : CommandContainer :=
  { c with dirtyHeaps := Function.update c.dirtyHeaps heapType true }

def setIndirectHeapAllocation (heapType : HeapType) (allocation : HeapAllocation) :
    CommandContainer :=
  { c with
    allocationIndirectHeaps := Function.update c.allocationIndirectHeaps heapType (some allocation) }

def addToResidencyContainer (allocation : HeapAllocation) : CommandContainer :=
  { c with residencyContainer := c.residencyContainer ++ [allocation] }

/-- The reserved bytes of a surface state heap. -/
def reserveSsh (heapType : HeapType) (heap : IndirectHeap) : Result IndirectHeap :=
  if heapType = .surfaceState then (heap.getSpace c.settings.reservedSshSize).map Prod.snd
  else .ok heap

def skipHeapAllocationCreation (heapType : HeapType) : Bool :=
  heapType != .indirectObject &&
    ((c.settings.globalBindlessHeapsEnabled && heapType == .surfaceState) ||
      c.immediateCmdListSharedHeap heapType ||
      (!c.settings.supportsImages && heapType == .dynamicState) || !c.settings.privateHeaps)

def getHeapSize (heapType : HeapType) : Nat :=
  match c.settings.forceDefaultHeapSize with
  | some kiloBytes => mul64 kiloBytes MemoryConstants.kiloByte
  | none =>
    if heapType = .surfaceState then c.settings.defaultSshSize else 64 * MemoryConstants.kiloByte

/-- The first heap of a type; nothing is left of the container when memory is out. -/
def createHeap (heapType : HeapType) (heapSize : Nat) : Result (Option CommandContainer) :=
  match helper.getHeapAllocation heapType heapSize with
  | none => .ok none
  | some allocation =>
    let heap := IndirectHeap.ofAllocation allocation (heapType == .indirectObject)
    (c.reserveSsh heapType heap).map fun heap =>
      some (((c.setIndirectHeapAllocation heapType allocation).addToResidencyContainer
        allocation).setPrivateHeap heapType heap)

/-- The loop of `initialize` over the types. -/
def initializeHeaps : List HeapType → CommandContainer → Result (Option CommandContainer)
  | [], c => .ok (some c)
  | heapType :: heapTypes, c =>
    if c.skipHeapAllocationCreation heapType then initializeHeaps heapTypes c
    else c.createHeap helper heapType (c.getHeapSize heapType) >>= fun
      | none => .ok none
      | some c => initializeHeaps heapTypes c

/-- `initialize` with heaps; `none` is `outOfDeviceMemory`. -/
def initializeWithHeaps (settings : Settings) : Result (Option CommandContainer) :=
  initializeHeaps helper [.dynamicState, .indirectObject, .surfaceState] { settings }

/-- `prepareBindfulSsh`. -/
def prepareBindfulSsh : Result CommandContainer :=
  if c.settings.globalBindlessHeapsEnabled then
    match c.allocationIndirectHeaps .surfaceState with
    | some _ => .ok c
    | none =>
      c.createHeap helper .surfaceState MemoryConstants.pageSize64k >>= fun
        | none => .error .unrecoverable
        | some c => .ok (c.setHeapDirty .surfaceState)
  else .ok c

/-- What a request asks a heap for: the alignment counts when the position of the heap is not
aligned. -/
def sizeRequested (heap : IndirectHeap) (sizeRequired alignment : Nat) : Nat :=
  if alignment ≠ 0 ∧ heap.position ≠ alignUp heap.position alignment then
    add64 sizeRequired alignment
  else sizeRequired

/-- The size that a request takes a new heap with. -/
def newHeapSize (heap : IndirectHeap) (sizeRequired alignment : Nat) (allowGrow : Bool) : Nat :=
  let newSize := heap.maxAvailableSpace
  let newSize := if allowGrow then
    max newSize (add64 heap.getAvailableSpace (sizeRequested heap sizeRequired alignment))
  else newSize
  alignUp newSize MemoryConstants.pageSize

/-- The heap over a new allocation. An immediate command list stores the old one, others keep it
until they are reset. -/
def createAndAssignNewHeap (heapType : HeapType) (heap : IndirectHeap) (size : Nat) :
    Result (IndirectHeap × CommandContainer) :=
  match c.allocationIndirectHeaps heapType, helper.getHeapAllocation heapType size with
  | some oldAlloc, some newAlloc =>
    let oldBase := heap.getHeapGpuBase
    let heap := (heap.replaceGraphicsAllocation newAlloc).replaceBuffer newAlloc.underlyingBuffer
      newAlloc.underlyingBufferSize
    let c := c.addToResidencyContainer newAlloc
    let c := if c.settings.immediateCmdListCsr then
      { c with storedForReuse := c.storedForReuse ++ [oldAlloc] }
    else { c with deallocationContainer := c.deallocationContainer ++ [oldAlloc] }
    let c := c.setIndirectHeapAllocation heapType newAlloc
    .ok (heap, if oldBase ≠ heap.getHeapGpuBase then c.setHeapDirty heapType else c)
  | _, _ => .error .unrecoverable

/-- A new heap, with the reserved bytes consumed. -/
def takeNewHeap (heapType : HeapType) (heap : IndirectHeap) (size : Nat) :
    Result (IndirectHeap × CommandContainer) := do
  let oldAlloc := c.allocationIndirectHeaps heapType
  let (heap, c) ← c.createAndAssignNewHeap helper heapType heap size
  let heap ← c.reserveSsh heapType heap
  .ok (heap, if heapType = .surfaceState then
    { c with sshAllocations := c.sshAllocations ++ oldAlloc.toList } else c)

def getHeapWithRequiredSize (heapType : HeapType) (sizeRequired alignment : Nat)
    (allowGrow : Bool) : Result CommandContainer := do
  match c.getIndirectHeap heapType with
  | none => .error .unrecoverable
  | some heap =>
    let full := heap.getAvailableSpace < sizeRequested heap sizeRequired alignment
    let (heap, c) ←
      if ¬ full then .ok (heap, c)
      else if c.immediateCmdListSharedHeap heapType then .error .unrecoverable
      else c.takeNewHeap helper heapType heap (newHeapSize heap sizeRequired alignment allowGrow)
    .ok (c.setIndirectHeap heapType (if alignment ≠ 0 then heap.align alignment else heap))

def getHeapSpaceAllowGrow (heapType : HeapType) (size : Nat) : Result (Nat × CommandContainer) := do
  let c ← c.getHeapWithRequiredSize helper heapType size 0 true
  match c.getIndirectHeap heapType with
  | none => .error .unrecoverable
  | some heap => (heap.getSpace size).map fun (pointer, heap) =>
    (pointer, c.setIndirectHeap heapType heap)

/-- A heap starts again from its buffer; with state base addresses tracked, only the indirect
objects do. -/
def resetHeap (c : CommandContainer) (heapType : HeapType) : Result CommandContainer :=
  match c.indirectHeaps heapType with
  | none => .ok c
  | some heap =>
    let kept := heapType ≠ .indirectObject ∧ c.settings.stateBaseAddressTracking
    let heap := if kept then .ok heap
      else c.reserveSsh heapType (heap.replaceBuffer heap.buffer heap.maxAvailableSpace)
    heap.map fun heap =>
      (c.setPrivateHeap heapType heap).addToResidencyContainer heap.graphicsAllocation

def reset : Result CommandContainer :=
  [HeapType.dynamicState, .indirectObject, .surfaceState].foldlM resetHeap
    { c with
      dirtyHeaps := fun _ => true
      residencyContainer := []
      storedForReuse := c.storedForReuse ++ c.deallocationContainer
      deallocationContainer := []
      sshAllocations := [] }

end CommandContainer

end ComputeRuntime.IndirectHeaps
