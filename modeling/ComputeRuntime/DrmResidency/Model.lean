import ComputeRuntime.Library.Transition
import Mathlib.Data.List.Basic
import Mathlib.Algebra.Group.Nat.Defs

/-! Residency on Linux: which buffer objects of an allocation are bound in the VM of which tile,
and the eviction of allocations that are not in use. -/
namespace ComputeRuntime.DrmResidency

def objectNotResident : Nat := 2 ^ 64 - 1
def objectNotUsed : Nat := 2 ^ 64 - 1
def objectAlwaysResident : Nat := 2 ^ 64 - 2

/-- The context of an engine; `deviceBitfield` lists the bits that are set, in ascending order. -/
structure OsContext where
  contextId : Nat
  deviceBitfield : List Nat
  deriving DecidableEq

/-- Buffer objects are numbers, and `none` is a null pointer; `fragments` are the buffer objects
of `fragmentsStorage`. -/
structure DrmAllocation where
  rootDeviceIndex : Nat := 0
  fragments : List Nat := []
  bufferObjects : List (Option Nat) := []
  numBanks : Nat := 1
  tileInstanced : Bool := false
  isChunked : Bool := false
  deriving DecidableEq

namespace DrmAllocation

variable (allocation : DrmAllocation)

def boAt (handleId : Nat) : Option Nat :=
  allocation.bufferObjects[handleId]?.join

def getBO : Option Nat :=
  match allocation.fragments with
  | bo :: _ => some bo
  | [] => allocation.boAt 0

/-- The buffer object that `makeResidentWithinOsContext` looks at. -/
def testedBO (drmIterator : Nat) : Option Nat :=
  if allocation.isChunked then allocation.getBO
  else if allocation.numBanks > 1 then allocation.boAt drmIterator
  else allocation.getBO

/-- The buffer objects that `bindBOs` goes through; `bindBO` skips null pointers. -/
def bindBOs (vmHandleId : Nat) : List Nat :=
  if allocation.numBanks > 1 then
    if allocation.tileInstanced then (allocation.boAt vmHandleId).toList
    else allocation.bufferObjects.reduceOption
  else allocation.getBO.toList

/-- The buffer objects that `makeBOsResident` selects. -/
def selectedBOs (vmHandleId : Nat) : List Nat :=
  if allocation.fragments = [] then allocation.bindBOs vmHandleId else allocation.fragments

end DrmAllocation

inductive Vm where
  | shared (vmHandleId : Nat)
  | ofContext (contextId vmHandleId : Nat)
  deriving DecidableEq

/-- A root device with its registered engines. Allocations may share buffer objects. -/
structure Device where
  perContextVmsUsed : Bool
  rootDeviceIndex : Nat
  subDevicesCount : Nat
  engines : List OsContext
  allocations : Nat → DrmAllocation
  contextIds : ∀ engine ∈ engines, ∀ other ∈ engines, engine.contextId = other.contextId →
    engine = other

inductive MemoryOperationsStatus where
  | success
  | failed
  | outOfMemory
  | gpuHangDetectedDuringOperation
  deriving DecidableEq

/-- `vms` is what the kernel has bound, and `results` are the results of its next calls, which
succeed when there are no more. `resident` belongs to a fragment and a context. -/
structure State where
  vms : Vm → Nat → Bool := fun _ _ => false
  results : List Bool := []
  bindInfo : Nat → Nat → Nat → Bool := fun _ _ _ => false
  resident : Nat → Nat → Bool := fun _ _ => false
  residencyTaskCount : Nat → Nat → Nat := fun _ _ => objectNotResident
  taskCount : Nat → Nat → Nat := fun _ _ => objectNotUsed
  tag : Nat → Nat := fun _ => 0
  lockedMemory : Nat → Bool := fun _ => false
  sysMemAllocs : List Nat := []
  localMemAllocs : List Nat := []

namespace Device

variable (device : Device)

/-- The row of `bindInfo` that belongs to a context. -/
def getOsContextId (osContext : OsContext) : Nat :=
  if device.perContextVmsUsed then osContext.contextId else 0

def vmOf (osContext : OsContext) (vmHandleId : Nat) : Vm :=
  if device.perContextVmsUsed then .ofContext osContext.contextId vmHandleId
  else .shared vmHandleId

end Device

namespace State

variable (device : Device) (s : State)

def isAlwaysResident (a contextId : Nat) : Bool :=
  s.residencyTaskCount a contextId = objectAlwaysResident

def isUsedByOsContext (a contextId : Nat) : Bool :=
  s.taskCount a contextId ≠ objectNotUsed

def updateResidencyTaskCount (a contextId newTaskCount : Nat) : State :=
  if s.residencyTaskCount a contextId ≠ objectAlwaysResident ∨
      newTaskCount = objectNotResident then
    { s with residencyTaskCount := fun b c =>
        if b = a ∧ c = contextId then newTaskCount else s.residencyTaskCount b c }
  else s

/-- `Drm::changeBufferObjectBinding`, one call of the kernel. -/
def changeBufferObjectBinding (osContext : OsContext) (vmHandleId bo : Nat) (bind : Bool) :
    State × Bool :=
  let spent := { s with results := s.results.tail }
  if s.results.headD true then
    ({ spent with vms := fun v b =>
        if v = device.vmOf osContext vmHandleId ∧ b = bo then bind else s.vms v b }, true)
  else (spent, false)

def setBindInfo (osContext : OsContext) (vmHandleId bo : Nat) (bound : Bool) : State :=
  { s with bindInfo := fun b c t =>
      if b = bo ∧ c = device.getOsContextId osContext ∧ t = vmHandleId then bound
      else s.bindInfo b c t }

def isBound (osContext : OsContext) (vmHandleId bo : Nat) : Bool :=
  s.bindInfo bo (device.getOsContextId osContext) vmHandleId

/-- `BufferObject::unbind`. -/
def unbind (osContext : OsContext) (vmHandleId bo : Nat) : State × Bool :=
  if s.isBound device osContext vmHandleId bo then
    match s.changeBufferObjectBinding device osContext vmHandleId bo false with
    | (s, true) => (s.setBindInfo device osContext vmHandleId bo false, true)
    | (s, false) => (s, false)
  else (s, true)

/-- A loop over buffer objects that stops at the first failure. -/
def forEach (op : State → Nat → State × Bool) : State → List Nat → State × Bool
  | s, [] => (s, true)
  | s, bo :: bos =>
    match op s bo with
    | (s, true) => forEach op s bos
    | (s, false) => (s, false)

/-- One fragment in `makeBOsResident`: bind and unbind share the test and the new flag. -/
def fragmentResident (op : State → Nat → State × Bool) (contextId : Nat) (s : State)
    (bo : Nat) : State × Bool :=
  if s.resident bo contextId then (s, true)
  else
    match op s bo with
    | (s, true) =>
      ({ s with resident := fun f c =>
          if f = bo ∧ c = contextId then true else s.resident f c }, true)
    | (s, false) => (s, false)

/-- `DrmAllocation::makeBOsResident` without a container; `op` binds or unbinds. -/
def makeBOsResident (op : State → Nat → State × Bool) (osContext : OsContext)
    (vmHandleId : Nat) (allocation : DrmAllocation) : State × Bool :=
  if allocation.fragments = [] then s.forEach op (allocation.bindBOs vmHandleId)
  else s.forEach (fragmentResident op osContext.contextId) allocation.fragments

/-! ### Eviction -/

def unbindTiles (osContext : OsContext) (a : Nat) : State → List Nat → State × Bool
  | s, [] => (s, true)
  | s, drmIterator :: rest =>
    match s.makeBOsResident (fun s => s.unbind device osContext drmIterator) osContext
        drmIterator (device.allocations a) with
    | (s, true) => unbindTiles osContext a s rest
    | (s, false) => (s, false)

def evictImpl (osContext : OsContext) (a : Nat) (deviceBitfield : List Nat) : State × Bool :=
  match s.unbindTiles device osContext a deviceBitfield with
  | (s, true) => (s.updateResidencyTaskCount a osContext.contextId objectNotResident, true)
  | (s, false) => (s, false)

def evictWithinOsContext (osContext : OsContext) (a : Nat) : State × MemoryOperationsStatus :=
  match s.evictImpl device osContext a osContext.deviceBitfield with
  | (s, true) => (s, .success)
  | (s, false) => (s, .failed)

/-- Whether no engine of a tile needs the allocation, and `none` when waiting for one finds that
the GPU hangs. -/
def evictable (hangs : Nat → Nat → Nat → Bool) (subdeviceIndex a : Nat) :
    List OsContext → Option Bool
  | [] => some true
  | engine :: engines =>
    if subdeviceIndex ∉ engine.deviceBitfield then evictable hangs subdeviceIndex a engines
    else if s.isAlwaysResident a engine.contextId then some false
    else if s.lockedMemory a then some false
    else if hangs subdeviceIndex a engine.contextId then none
    else if s.isUsedByOsContext a engine.contextId ∧
        s.taskCount a engine.contextId > s.tag engine.contextId then some false
    else evictable hangs subdeviceIndex a engines

def evictCandidates (hangs : Nat → Nat → Nat → Bool) (subdeviceIndex : Nat) :
    List Nat → Option (List Nat)
  | [] => some []
  | a :: rest =>
    if (device.allocations a).rootDeviceIndex ≠ device.rootDeviceIndex then
      evictCandidates hangs subdeviceIndex rest
    else
      match s.evictable hangs subdeviceIndex a device.engines with
      | none => none
      | some evict =>
        (evictCandidates hangs subdeviceIndex rest).map fun candidates =>
          if evict then a :: candidates else candidates

/-- The evictions of one candidate; their results are ignored. -/
def evictFromTile (subdeviceIndex a : Nat) : State :=
  device.engines.foldl (fun s engine =>
    if subdeviceIndex ∈ engine.deviceBitfield then
      (s.evictImpl device engine a [subdeviceIndex]).1
    else s) s

def evictTiles (hangs : Nat → Nat → Nat → Bool) (allocationsForEviction : List Nat) :
    State → List Nat → State × MemoryOperationsStatus
  | s, [] => (s, .success)
  | s, subdeviceIndex :: rest =>
    match s.evictCandidates device hangs subdeviceIndex allocationsForEviction with
    | none => (s, .gpuHangDetectedDuringOperation)
    | some candidates =>
      evictTiles hangs allocationsForEviction
        (candidates.foldl (fun s => s.evictFromTile device subdeviceIndex) s) rest

def evictUnusedAllocationsImpl (hangs : Nat → Nat → Nat → Bool)
    (allocationsForEviction : List Nat) : State × MemoryOperationsStatus :=
  s.evictTiles device hangs allocationsForEviction (List.range device.subDevicesCount)

/-- `hangs` says where waiting for the completion of an engine would find a hang, and nowhere when
the call does not wait. -/
def evictUnusedAllocations (hangs : Nat → Nat → Nat → Bool) : State × MemoryOperationsStatus :=
  -- both lists are gone through before a status is looked at
  let (s, first) := s.evictUnusedAllocationsImpl device hangs s.sysMemAllocs
  let (s, second) := s.evictUnusedAllocationsImpl device hangs s.localMemAllocs
  if first = .gpuHangDetectedDuringOperation ∨ second = .gpuHangDetectedDuringOperation then
    (s, .gpuHangDetectedDuringOperation)
  else (s, .success)

/-! ### Binding -/

/-- A binding that fails is tried once more after unused allocations are evicted. -/
def bindBufferObject (osContext : OsContext) (vmHandleId bo : Nat) : State × Bool :=
  match s.changeBufferObjectBinding device osContext vmHandleId bo true with
  | (s, true) => (s, true)
  | (s, false) =>
    (s.evictUnusedAllocations device fun _ _ _ => false).1.changeBufferObjectBinding device
      osContext vmHandleId bo true

/-- `BufferObject::bind`. -/
def bind (osContext : OsContext) (vmHandleId bo : Nat) : State × Bool :=
  if s.isBound device osContext vmHandleId bo then (s, true)
  else
    match s.bindBufferObject device osContext vmHandleId bo with
    | (s, true) => (s.setBindInfo device osContext vmHandleId bo true, true)
    | (s, false) => (s, false)

def isTestedBound (osContext : OsContext) (drmIterator a : Nat) : Bool :=
  ((device.allocations a).testedBO drmIterator).any (s.isBound device osContext drmIterator)

/-- One allocation on one tile in `makeResidentWithinOsContext`; the source does not look at a
null pointer, which counts as not bound here. -/
def makeResidentOnTile (osContext : OsContext) (evictable : Bool) (drmIterator a : Nat) :
    State × Bool :=
  let (s, done) :=
    if s.isTestedBound device osContext drmIterator a then (s, true)
    else s.makeBOsResident (fun s => s.bind device osContext drmIterator) osContext
      drmIterator (device.allocations a)
  if done then
    (if evictable then s
      else s.updateResidencyTaskCount a osContext.contextId objectAlwaysResident, true)
  else (s, false)

def makeResidentLoop (osContext : OsContext) (evictable : Bool) :
    State → List (Nat × Nat) → State × MemoryOperationsStatus
  | s, [] => (s, .success)
  | s, (drmIterator, a) :: rest =>
    match s.makeResidentOnTile device osContext evictable drmIterator a with
    | (s, true) => makeResidentLoop osContext evictable s rest
    | (s, false) => (s, .outOfMemory)

/-- The outer loop goes through the tiles, and the inner one through the allocations. -/
def makeResidentWithinOsContext (osContext : OsContext) (gfxAllocations : List Nat)
    (evictable : Bool) : State × MemoryOperationsStatus :=
  s.makeResidentLoop device osContext evictable
    (osContext.deviceBitfield.flatMap fun drmIterator =>
      gfxAllocations.map fun a => (drmIterator, a))

/-- `DrmCommandStreamReceiver::makeNonResident`. -/
def makeNonResident (osContext : OsContext) (a : Nat) : State :=
  let s :=
    if s.residencyTaskCount a osContext.contextId ≠ objectNotResident then
      { s with resident := fun f c =>
          if f ∈ (device.allocations a).fragments ∧ c = osContext.contextId then false
          else s.resident f c }
    else s
  if s.isAlwaysResident a osContext.contextId then s
  else s.updateResidencyTaskCount a osContext.contextId objectNotResident

end State

/-- `lock` sets the flag of its allocations and then makes them resident in one context after the
other; the other actions without results are what the rest of the driver and the GPU do. -/
inductive Action where
  | makeResidentWithinOsContext (osContext : OsContext) (gfxAllocations : List Nat)
      (evictable : Bool) (results : List Bool)
  | evictWithinOsContext (osContext : OsContext) (a : Nat) (results : List Bool)
  | evictUnusedAllocations (hangs : Nat → Nat → Nat → Bool) (results : List Bool)
  | setLockedMemory (a : Nat) (locked : Bool)
  | makeNonResident (osContext : OsContext) (a : Nat)
  | updateResidencyTaskCount (a contextId taskCount : Nat)
  | updateTaskCount (a contextId taskCount : Nat)
  | complete (contextId tag : Nat)
  | register (sysMemAllocs localMemAllocs : List Nat)

namespace State

def withResults (s : State) (results : List Bool) : State :=
  { s with results := results }

def step (device : Device) (s : State) : Action → Option State
  | .makeResidentWithinOsContext osContext gfxAllocations evictable results =>
    if osContext ∈ device.engines then
      some ((s.withResults results).makeResidentWithinOsContext device osContext gfxAllocations
        evictable).1
    else none
  | .evictWithinOsContext osContext a results =>
    if osContext ∈ device.engines then
      some ((s.withResults results).evictWithinOsContext device osContext a).1
    else none
  | .evictUnusedAllocations hangs results =>
    some ((s.withResults results).evictUnusedAllocations device hangs).1
  | .setLockedMemory a locked =>
    some { s with lockedMemory := fun b => if b = a then locked else s.lockedMemory b }
  | .makeNonResident osContext a => some (s.makeNonResident device osContext a)
  | .updateResidencyTaskCount a contextId taskCount =>
    some (s.updateResidencyTaskCount a contextId taskCount)
  | .updateTaskCount a contextId taskCount =>
    some { s with taskCount := fun b c =>
      if b = a ∧ c = contextId then taskCount else s.taskCount b c }
  | .complete contextId tag =>
    some { s with tag := fun c => if c = contextId then tag else s.tag c }
  | .register sysMemAllocs localMemAllocs =>
    some { s with sysMemAllocs := sysMemAllocs, localMemAllocs := localMemAllocs }

end State

/-- `DrmMemoryOperationsHandlerBind::lock`: the calls it is made of. -/
def lock (deviceEngines : List OsContext) (gfxAllocations : List Nat)
    (results : OsContext → List Bool) : List Action :=
  gfxAllocations.map (.setLockedMemory · true) ++ deviceEngines.map fun engine =>
    .makeResidentWithinOsContext engine gfxAllocations false (results engine)

def system (device : Device) : Transition.System State Action where
  init s := s = {}
  step s action s' := s.step device action = some s'

end ComputeRuntime.DrmResidency
