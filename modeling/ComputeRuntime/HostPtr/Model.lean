import ComputeRuntime.Helpers.AlignedMemory
import ComputeRuntime.Library.OrderedMap
import Mathlib.Data.Prod.Lex

/-! The host pointer manager: memory of the application that the GPU uses is cut into fragments
of whole pages, and fragments are shared between the allocations that need them. -/
namespace ComputeRuntime

inductive FragmentPosition where
  | none
  | leading
  | middle
  | trailing
  deriving DecidableEq

structure PartialAllocation where
  fragmentPosition : FragmentPosition := .none
  allocationPtr : Nat := 0
  allocationSize : Nat := 0
  deriving DecidableEq

structure AllocationRequirements where
  allocationFragments : List PartialAllocation
  totalRequiredSize : Nat
  rootDeviceIndex : Nat
  deriving DecidableEq

inductive OverlapStatus where
  | fragmentNotOverlapingWithAnyOther
  | fragmentWithinStoredFragment
  | fragmentWithExactSizeAsStoredFragment
  | fragmentOverlapingAndBiggerThenStoredFragment
  deriving DecidableEq

inductive RequirementsStatus where
  | success
  | fatal
  deriving DecidableEq

/-- A stored fragment. OS handles and residency data are objects known by their identity. -/
structure FragmentStorage where
  fragmentCpuPointer : Nat
  fragmentSize : Nat
  refCount : Int := 0
  osInternalStorage : Option Nat := none
  residency : Option Nat := none
  deriving DecidableEq

/-- What an allocation keeps of one of its fragments. -/
structure AllocationStorageData where
  osHandleStorage : Option Nat := none
  fragmentSize : Nat := 0
  cpuPtr : Nat := 0
  freeTheFragment : Bool := false
  residency : Option Nat := none
  deriving DecidableEq

structure OsHandleStorage where
  fragmentStorageData : List AllocationStorageData := []
  fragmentCount : Nat := 0
  deriving DecidableEq

@[ext] structure HostPtrEntryKey where
  ptr : Nat
  rootDeviceIndex : Nat
  deriving DecidableEq

/-- Keys are in the order of their root devices, and of their pointers on one root device. -/
instance : LinearOrder HostPtrEntryKey :=
  LinearOrder.lift' (fun key => toLex (key.rootDeviceIndex, key.ptr)) (by
    rintro ⟨ptr, device⟩ ⟨ptr', device'⟩ same
    cases same
    rfl)

theorem HostPtrEntryKey.lt_iff {a b : HostPtrEntryKey} :
    a < b ↔ a.rootDeviceIndex < b.rootDeviceIndex ∨
      a.rootDeviceIndex = b.rootDeviceIndex ∧ a.ptr < b.ptr :=
  Prod.Lex.toLex_lt_toLex

theorem HostPtrEntryKey.le_iff {a b : HostPtrEntryKey} :
    a ≤ b ↔ a.rootDeviceIndex < b.rootDeviceIndex ∨
      a.rootDeviceIndex = b.rootDeviceIndex ∧ a.ptr ≤ b.ptr :=
  Prod.Lex.toLex_le_toLex

def alignSizeWholePage (ptr size : Nat) : Nat :=
  let startPageMisalignedAddressOffset := ptr &&& (MemoryConstants.pageSize - 1)
  alignUp (add64 startPageMisalignedAddressOffset size) MemoryConstants.pageSize

structure HostPtrManager where
  partialAllocations : OrderedMap HostPtrEntryKey FragmentStorage := .empty

namespace HostPtrManager

/-- An element of the container by its key. -/
abbrev Element : Type := HostPtrEntryKey × FragmentStorage

/-- The pages of a range: a leading page, whole pages in the middle and a trailing page. -/
def getAllocationRequirements (rootDeviceIndex inputPtr size : Nat) : AllocationRequirements :=
  let wholeAllocationSize := alignSizeWholePage inputPtr size
  let alignedStartAddress := alignDown inputPtr MemoryConstants.pageSize
  let leadingNeeded : Bool := alignedStartAddress ≠ inputPtr
  let endAddress := add64 inputPtr size
  let alignedEndAddress := alignDown endAddress MemoryConstants.pageSize
  let trailingNeeded : Bool :=
    alignedEndAddress ≠ endAddress ∧ alignedEndAddress ≠ alignedStartAddress
  let middleSize := sub64 wholeAllocationSize
    ((trailingNeeded.toNat + leadingNeeded.toNat) * MemoryConstants.pageSize)
  let leading : List PartialAllocation :=
    if leadingNeeded then [⟨.leading, alignedStartAddress, MemoryConstants.pageSize⟩] else []
  let middle : List PartialAllocation :=
    if middleSize ≠ 0 then
      [⟨.middle, alignUp inputPtr MemoryConstants.pageSize, middleSize⟩]
    else []
  let trailing : List PartialAllocation :=
    if trailingNeeded then [⟨.trailing, alignedEndAddress, MemoryConstants.pageSize⟩] else []
  { allocationFragments := leading ++ middle ++ trailing
    totalRequiredSize := wholeAllocationSize
    rootDeviceIndex }

variable (m : HostPtrManager)

/-- The last part of `findElement`: the element in front of the lower bound, if the pointer lies
below its end. -/
def elementBefore (key : HostPtrEntryKey) : Option Element :=
  match m.partialAllocations.before key with
  | none => none
  | some element =>
    if element.1.rootDeviceIndex ≠ key.rootDeviceIndex then none
    else
      let storedFragment := element.2
      let storedEndAddress := add64 storedFragment.fragmentCpuPointer storedFragment.fragmentSize
      let storedEndAddress :=
        if storedFragment.fragmentSize = 0 then add64 storedEndAddress 1 else storedEndAddress
      if key.ptr < storedEndAddress then some element else none

/-- The stored fragment that holds the pointer. -/
def findElement (key : HostPtrEntryKey) : Option Element :=
  match m.partialAllocations.lowerBound key with
  | none => m.elementBefore key
  | some element =>
    if element.1.rootDeviceIndex = key.rootDeviceIndex ∧
        element.2.fragmentCpuPointer = key.ptr then some element
    else m.elementBefore key

/-- Whether stored fragments overlap the given range: the fragment in front of it is looked at
first, and the one behind only if that belongs to the same root device. -/
def getFragmentAndCheckForOverlaps (rootDeviceIndex inputPtr size : Nat) :
    Option Element × OverlapStatus :=
  let key : HostPtrEntryKey := { ptr := inputPtr, rootDeviceIndex }
  let nextElement := m.partialAllocations.lowerBound key
  let element := (m.partialAllocations.before key).or nextElement
  match element with
  | none => (none, .fragmentNotOverlapingWithAnyOther)
  | some element =>
    let storedFragment := element.2
    let storedEndAddress := add64 storedFragment.fragmentCpuPointer storedFragment.fragmentSize
    let inputEndAddress := add64 inputPtr size
    if element.1.rootDeviceIndex ≠ rootDeviceIndex then (none, .fragmentNotOverlapingWithAnyOther)
    else if storedFragment.fragmentCpuPointer = inputPtr ∧ storedFragment.fragmentSize = size then
      (some element, .fragmentWithExactSizeAsStoredFragment)
    else if storedFragment.fragmentCpuPointer ≤ inputPtr ∧ inputPtr < storedEndAddress then
      if inputEndAddress ≤ storedEndAddress then (some element, .fragmentWithinStoredFragment)
      else (none, .fragmentOverlapingAndBiggerThenStoredFragment)
    else
      match nextElement with
      | none => (none, .fragmentNotOverlapingWithAnyOther)
      | some nextElement =>
        let storedNextStartAddress := nextElement.2.fragmentCpuPointer
        let storedNextEndAddress := add64 storedNextStartAddress nextElement.2.fragmentSize
        if nextElement.1.rootDeviceIndex ≠ rootDeviceIndex then
          (none, .fragmentNotOverlapingWithAnyOther)
        else if inputPtr < storedNextStartAddress then
          if storedNextStartAddress < inputEndAddress then
            (none, .fragmentOverlapingAndBiggerThenStoredFragment)
          else (none, .fragmentNotOverlapingWithAnyOther)
        else if storedNextEndAddress < inputEndAddress then
          (none, .fragmentOverlapingAndBiggerThenStoredFragment)
        else if inputEndAddress < storedNextEndAddress then
          (some nextElement, .fragmentWithinStoredFragment)
        else (some nextElement, .fragmentWithExactSizeAsStoredFragment)

/-- `element->second.refCount++`. -/
def addReference (element : Element) : HostPtrManager where
  partialAllocations := m.partialAllocations.modify element.1 fun fragment =>
    { fragment with refCount := fragment.refCount + 1 }

/-- `element->second.refCount--`. -/
def dropReference (element : Element) : HostPtrManager where
  partialAllocations := m.partialAllocations.modify element.1 fun fragment =>
    { fragment with refCount := fragment.refCount - 1 }

/-- One round of `populateAlreadyAllocatedFragments`; `none` when execution is aborted. -/
def populateFragment (rootDeviceIndex : Nat) (fragment : PartialAllocation) :
    Option (HostPtrManager × AllocationStorageData) :=
  let data : AllocationStorageData :=
    { cpuPtr := fragment.allocationPtr, fragmentSize := fragment.allocationSize }
  match m.getFragmentAndCheckForOverlaps rootDeviceIndex fragment.allocationPtr
      fragment.allocationSize with
  | (_, .fragmentOverlapingAndBiggerThenStoredFragment) => none
  | (none, .fragmentWithinStoredFragment) => none
  | (none, _) => some (m, data)
  | (some element, _) =>
    some (m.addReference element,
      { data with
        osHandleStorage := element.2.osInternalStorage, residency := element.2.residency })

def populateAlreadyAllocatedFragments (rootDeviceIndex : Nat) :
    HostPtrManager → List PartialAllocation →
      Option (HostPtrManager × List AllocationStorageData)
  | m, [] => some (m, [])
  | m, fragment :: fragments => do
    let (m, data) ← m.populateFragment rootDeviceIndex fragment
    let (m, rest) ← populateAlreadyAllocatedFragments rootDeviceIndex m fragments
    return (m, data :: rest)

def storeFragment (rootDeviceIndex : Nat) (fragment : FragmentStorage) : HostPtrManager :=
  let key : HostPtrEntryKey := { ptr := fragment.fragmentCpuPointer, rootDeviceIndex }
  match m.findElement key with
  | some element => m.addReference element
  | none =>
    { partialAllocations :=
        m.partialAllocations.insert key { fragment with refCount := fragment.refCount + 1 } }

def storeStorageData (rootDeviceIndex : Nat) (storageData : AllocationStorageData) :
    HostPtrManager :=
  m.storeFragment rootDeviceIndex
    { fragmentCpuPointer := storageData.cpuPtr
      fragmentSize := storageData.fragmentSize
      osInternalStorage := storageData.osHandleStorage
      residency := storageData.residency }

/-- `none` stands for the access through the end of the container. -/
def releaseHostPtr (rootDeviceIndex ptr : Nat) : Option (HostPtrManager × Bool) :=
  match m.findElement { ptr, rootDeviceIndex } with
  | none => none
  | some element =>
    if element.2.refCount - 1 ≤ 0 then
      some ({ partialAllocations := m.partialAllocations.erase element.1 }, true)
    else some (m.dropReference element, false)

def releaseHandleStorage (rootDeviceIndex : Nat) :
    HostPtrManager → List AllocationStorageData →
      Option (HostPtrManager × List AllocationStorageData)
  | m, [] => some (m, [])
  | m, data :: rest =>
    if data.fragmentSize ≠ 0 ∨ data.cpuPtr ≠ 0 then do
      let (m, freeTheFragment) ← m.releaseHostPtr rootDeviceIndex data.cpuPtr
      let (m, rest) ← releaseHandleStorage rootDeviceIndex m rest
      return (m, { data with freeTheFragment } :: rest)
    else do
      let (m, rest) ← releaseHandleStorage rootDeviceIndex m rest
      return (m, data :: rest)

/-- The memory manager's `populateOsHandles` when it succeeds: fragments without an OS handle get
a new one, with residency data of their own, and are stored. -/
def populateOsHandles (rootDeviceIndex : Nat) (newHandle : Nat → Nat × Nat) :
    HostPtrManager → List AllocationStorageData → HostPtrManager × List AllocationStorageData
  | m, [] => (m, [])
  | m, data :: rest =>
    if data.osHandleStorage = none ∧ data.fragmentSize ≠ 0 then
      let handles := newHandle rest.length
      let data := { data with osHandleStorage := some handles.1, residency := some handles.2 }
      let stored := populateOsHandles rootDeviceIndex newHandle
        (m.storeStorageData rootDeviceIndex data) rest
      (stored.1, data :: stored.2)
    else
      let stored := populateOsHandles rootDeviceIndex newHandle m rest
      (stored.1, data :: stored.2)

end HostPtrManager

/-- A storage that was prepared and not released yet. -/
structure PreparedStorage where
  rootDeviceIndex : Nat
  storage : OsHandleStorage
  deriving DecidableEq

namespace HostPtr

/-- The manager with the prepared storages that its callers hold. -/
structure World where
  manager : HostPtrManager := {}
  live : List PreparedStorage := []

/-- A caller gives a prepared storage back. -/
def World.release (w : World) (prepared : PreparedStorage) : Option World :=
  if prepared ∈ w.live then do
    let (manager, _) ← w.manager.releaseHandleStorage prepared.rootDeviceIndex
      prepared.storage.fragmentStorageData
    return { manager, live := w.live.erase prepared }
  else none

def World.releaseAll : World → List PreparedStorage → Option World
  | w, [] => some w
  | w, prepared :: rest => do (← w.release prepared).releaseAll rest

/-- What a call of `cleanTemporaryAllocationListOnAllEngines` releases depends on the work the GPU
has finished: every call takes the next list of released storages. -/
structure Cleaning where
  world : World
  cleanings : List (List PreparedStorage)

def Cleaning.cleanTemporaryAllocationListOnAllEngines (c : Cleaning) : Option Cleaning :=
  match c.cleanings with
  | [] => none
  | released :: cleanings => do return { world := ← c.world.releaseAll released, cleanings }

def Cleaning.overlapStatus (c : Cleaning) (rootDeviceIndex : Nat) (fragment : PartialAllocation) :
    OverlapStatus :=
  (c.world.manager.getFragmentAndCheckForOverlaps rootDeviceIndex fragment.allocationPtr
    fragment.allocationSize).2

/-- One round of `checkAllocationsForOverlapping`. -/
def Cleaning.checkFragment (c : Cleaning) (rootDeviceIndex : Nat) (fragment : PartialAllocation) :
    Option (Cleaning × RequirementsStatus) :=
  let bigger := OverlapStatus.fragmentOverlapingAndBiggerThenStoredFragment
  if c.overlapStatus rootDeviceIndex fragment = bigger then do
    -- clean temporary allocations and check again
    let c ← c.cleanTemporaryAllocationListOnAllEngines
    if c.overlapStatus rootDeviceIndex fragment = bigger then do
      -- wait for completion and check a last time
      let c ← c.cleanTemporaryAllocationListOnAllEngines
      if c.overlapStatus rootDeviceIndex fragment = bigger then return (c, .fatal)
      else return (c, .success)
    else return (c, .success)
  else return (c, .success)

def Cleaning.checkAllocationsForOverlapping (rootDeviceIndex : Nat) :
    Cleaning → List PartialAllocation → Option (Cleaning × RequirementsStatus)
  | c, [] => some (c, .success)
  | c, fragment :: fragments => do
    match ← c.checkFragment rootDeviceIndex fragment with
    | (c, .fatal) => return (c, .fatal)
    | (c, .success) => checkAllocationsForOverlapping rootDeviceIndex c fragments

/-- A call of `prepareOsStorageForAllocation`: its arguments, what the clean-ups inside it
release, and the new OS handles, or `none` if they cannot be created. -/
structure Preparation where
  ptr : Nat
  size : Nat
  rootDeviceIndex : Nat
  cleanings : List (List PreparedStorage) := []
  populated : Option (Nat → Nat × Nat)

def Preparation.requirements (p : Preparation) : AllocationRequirements :=
  HostPtrManager.getAllocationRequirements p.rootDeviceIndex p.ptr p.size

/-- The range is memory of a process, which the last page of the address space never belongs to. -/
def Preparation.InProcess (p : Preparation) : Prop :=
  p.ptr + p.size + MemoryConstants.pageSize ≤ 2 ^ 64

instance (p : Preparation) : Decidable p.InProcess := inferInstanceAs (Decidable (_ ≤ _))

/-- `none` when execution is aborted, or the clean-ups are not as `p` says. A storage without
fragments is not kept. -/
def World.prepareOsStorageForAllocation (w : World) (p : Preparation) :
    Option (World × OsHandleStorage) := do
  let requirements := p.requirements
  let checked ← Cleaning.checkAllocationsForOverlapping p.rootDeviceIndex
    { world := w, cleanings := p.cleanings } requirements.allocationFragments
  match checked with
  | (_, .fatal) => none
  | ({ world := w, cleanings := [] }, .success) => do
    let (manager, data) ← HostPtrManager.populateAlreadyAllocatedFragments p.rootDeviceIndex
      w.manager requirements.allocationFragments
    let osStorage : OsHandleStorage :=
      { fragmentStorageData := data
        fragmentCount := requirements.allocationFragments.length }
    if 0 < osStorage.fragmentCount then
      match p.populated with
      | none => return ({ w with manager }, { osStorage with fragmentCount := 0 })
      | some newHandle =>
        let (manager, data) := HostPtrManager.populateOsHandles p.rootDeviceIndex newHandle
          manager data
        return ({ w with manager }, { osStorage with fragmentStorageData := data })
    else return ({ w with manager }, osStorage)
  | _ => none

inductive Op where
  | prepare (p : Preparation)
  | release (prepared : PreparedStorage)

def World.run (w : World) : Op → Option World
  | .prepare p => do
    let (w, storage) ← w.prepareOsStorageForAllocation p
    if 0 < storage.fragmentCount then
      return { w with live := ⟨p.rootDeviceIndex, storage⟩ :: w.live }
    else return w
  | .release prepared => w.release prepared

end HostPtr

end ComputeRuntime
