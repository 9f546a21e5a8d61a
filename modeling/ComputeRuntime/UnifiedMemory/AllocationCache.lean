import ComputeRuntime.Helpers.AlignedMemory
import Mathlib.Algebra.Group.Nat.Defs
import Mathlib.Logic.Function.Basic

/-! The reuse cache of unified memory: freed allocations wait in a vector sorted by size until
a request takes one over or a trim frees it. The budget is kept by the device (or, for memory
of no device, by the memory manager), outside the cache. The records that describe an allocation
hold its identity and the parts that never change. -/
namespace ComputeRuntime

/-- A graphics allocation by its identity; `rootDeviceIndex` never changes. -/
structure GraphicsAllocation where
  handle : Nat
  rootDeviceIndex : Nat
  deriving DecidableEq

namespace GraphicsAllocation

def objectNotUsed : Nat := 2 ^ 64 - 1
def objectNotResident : Nat := 2 ^ 64 - 1
def objectAlwaysResident : Nat := 2 ^ 64 - 2

end GraphicsAllocation

/-- One tracked allocation. Ids are unique, so two records with the same contents are the same
object; `device` is `none` for memory that belongs to no device. -/
structure SvmAllocationData where
  allocId : Nat
  gpuAllocations : List GraphicsAllocation
  cpuAllocation : Option GraphicsAllocation := none
  device : Option Nat := none
  allFlags : Nat := 0
  allAllocFlags : Nat := 0
  isImportedAllocation : Bool := false
  isInternalAllocation : Bool := false
  deriving DecidableEq

inductive FreePolicyType where
  | none
  | blocking
  | defer
  deriving DecidableEq

structure UsmReuseInfo where
  maxAllocationsSavedForReuseSize : Nat
  allocationsSavedForReuseSize : Nat := 0
  deriving DecidableEq

def UsmReuseInfo.recordAllocationSaveForReuse (info : UsmReuseInfo) (size : Nat) : UsmReuseInfo :=
  { info with allocationsSavedForReuseSize := add64 info.allocationsSavedForReuseSize size }

def UsmReuseInfo.recordAllocationGetFromReuse (info : UsmReuseInfo) (size : Nat) : UsmReuseInfo :=
  { info with allocationsSavedForReuseSize := sub64 info.allocationsSavedForReuseSize size }

structure SvmCacheAllocationInfo where
  allocationSize : Nat
  allocation : Nat
  svmData : SvmAllocationData
  saveTime : Nat
  completed : Bool
  deriving DecidableEq

def SvmCacheAllocationInfo.markForDelete (info : SvmCacheAllocationInfo) :
    SvmCacheAllocationInfo :=
  { info with allocationSize := 0 }

def SvmCacheAllocationInfo.isMarkedForDelete (info : SvmCacheAllocationInfo) : Bool :=
  info.allocationSize = 0

/-- What a request has to match, from `UnifiedMemoryProperties`. -/
structure ReuseProperties where
  device : Option Nat := none
  allFlags : Nat := 0
  allAllocFlags : Nat := 0
  alignment : Nat := 0
  deriving DecidableEq

/-- The cache with the state of other objects it changes: `usmReuseInfo` of each device (and,
at `none`, of the memory manager), two fields of the tracked allocations, and what
`freeSVMAllocImpl` was called for. -/
structure SvmAllocationCache where
  allocations : List SvmCacheAllocationInfo := []
  usmReuseInfo : Option Nat → UsmReuseInfo
  isSavedForReuse : SvmAllocationData → Bool := fun _ => false
  size : SvmAllocationData → Nat := fun _ => 0
  freed : List (SvmAllocationData × FreePolicyType) := []

namespace SvmAllocationCache

def maxServicedSize : Nat := 256 * MemoryConstants.megaByte
def minimalSizeToCheckUtilization : Nat := 4 * MemoryConstants.pageSize64k

def sizeAllowed (size : Nat) : Bool := size ≤ maxServicedSize

def setReuseInfo (c : SvmAllocationCache) (device : Option Nat) (info : UsmReuseInfo) :
    SvmAllocationCache :=
  { c with usmReuseInfo := Function.update c.usmReuseInfo device info }

@[simp] theorem setReuseInfo_allocations (c : SvmAllocationCache) (device : Option Nat)
    (info : UsmReuseInfo) : (c.setReuseInfo device info).allocations = c.allocations := rfl

@[simp] theorem setReuseInfo_isSavedForReuse (c : SvmAllocationCache) (device : Option Nat)
    (info : UsmReuseInfo) : (c.setReuseInfo device info).isSavedForReuse = c.isSavedForReuse := rfl

@[simp] theorem setReuseInfo_freed (c : SvmAllocationCache) (device : Option Nat)
    (info : UsmReuseInfo) : (c.setReuseInfo device info).freed = c.freed := rfl

/-- The position `std::lower_bound` documents for a sorted vector. -/
def lowerBound (allocations : List SvmCacheAllocationInfo) (size : Nat) : Nat :=
  (allocations.takeWhile fun info => info.allocationSize < size).length

/-- `shouldLimitAllocationsReuse` is what the device or the memory manager answers, `now` the
clock. The result is false when the allocation is not taken into the cache and has to be freed. -/
def insert (c : SvmAllocationCache) (shouldLimitAllocationsReuse : Bool) (now size ptr : Nat)
    (svmData : SvmAllocationData) (waitForCompletion : Bool) : SvmAllocationCache × Bool :=
  if sizeAllowed size = false ∨ svmData.isInternalAllocation ∨ svmData.isImportedAllocation then
    (c, false)
  else if shouldLimitAllocationsReuse then (c, false)
  else if c.isSavedForReuse svmData then (c, true)
  else
    let info := c.usmReuseInfo svmData.device
    if add64 size info.allocationsSavedForReuseSize > info.maxAllocationsSavedForReuseSize then
      (c, false)
    else
      let c := c.setReuseInfo svmData.device (info.recordAllocationSaveForReuse size)
      ({ c with
        isSavedForReuse := Function.update c.isSavedForReuse svmData true
        allocations := c.allocations.insertIdx (lowerBound c.allocations size)
          ⟨size, ptr, svmData, now, waitForCompletion⟩ }, true)

/-- At least half of a large candidate is used. Both sizes are below 2^53, where comparing the
quotient of two doubles with 0.5 is exact. -/
def allocUtilizationAllows (requestedSize reuseCandidateSize : Nat) : Bool :=
  if reuseCandidateSize ≥ minimalSizeToCheckUtilization then
    2 * requestedSize ≥ reuseCandidateSize
  else true

def alignmentAllows (ptr alignment : Nat) : Bool := alignment = 0 || isAligned ptr alignment

/-- `allocInUse` is what the memory manager answers for a graphics allocation. -/
def isInUse (allocInUse : GraphicsAllocation → Bool) (info : SvmCacheAllocationInfo) : Bool :=
  if info.completed then false
  else info.svmData.cpuAllocation.any allocInUse || info.svmData.gpuAllocations.any allocInUse

def matchesRequest (allocInUse : GraphicsAllocation → Bool) (properties : ReuseProperties)
    (info : SvmCacheAllocationInfo) : Bool :=
  info.svmData.device = properties.device && info.svmData.allFlags = properties.allFlags &&
    info.svmData.allAllocFlags = properties.allAllocFlags &&
    alignmentAllows info.allocation properties.alignment && !isInUse allocInUse info

/-- The loop of `get` from index `i` on. -/
def findReusable (allocInUse : GraphicsAllocation → Bool) (size : Nat)
    (properties : ReuseProperties) :
    List SvmCacheAllocationInfo → Nat → Option (Nat × SvmCacheAllocationInfo)
  | [], _ => none
  | info :: rest, i =>
    if allocUtilizationAllows size info.allocationSize = false then none
    else if matchesRequest allocInUse properties info then some (i, info)
    else findReusable allocInUse size properties rest (i + 1)

/-- Gives the budget of one entry back. -/
def recordGet (c : SvmAllocationCache) (info : SvmCacheAllocationInfo) : SvmAllocationCache :=
  c.setReuseInfo info.svmData.device
    ((c.usmReuseInfo info.svmData.device).recordAllocationGetFromReuse info.allocationSize)

@[simp] theorem recordGet_allocations (c : SvmAllocationCache) (info : SvmCacheAllocationInfo) :
    (c.recordGet info).allocations = c.allocations := rfl

@[simp] theorem recordGet_isSavedForReuse (c : SvmAllocationCache)
    (info : SvmCacheAllocationInfo) :
    (c.recordGet info).isSavedForReuse = c.isSavedForReuse := rfl

@[simp] theorem recordGet_freed (c : SvmAllocationCache) (info : SvmCacheAllocationInfo) :
    (c.recordGet info).freed = c.freed := rfl

/-- Returns 0 for a null pointer. -/
def get (c : SvmAllocationCache) (allocInUse : GraphicsAllocation → Bool) (size : Nat)
    (properties : ReuseProperties) : SvmAllocationCache × Nat :=
  if sizeAllowed size = false then (c, 0)
  else
    let start := lowerBound c.allocations size
    match findReusable allocInUse size properties (c.allocations.drop start) start with
    | none => (c, 0)
    | some (i, info) =>
      let c := c.recordGet info
      ({ c with
        size := Function.update c.size info.svmData size
        isSavedForReuse := Function.update c.isSavedForReuse info.svmData false
        allocations := c.allocations.eraseIdx i }, info.allocation)

/-- Gives the budget of one entry back and frees its allocation. -/
def release (policy : FreePolicyType) (c : SvmAllocationCache) (info : SvmCacheAllocationInfo) :
    SvmAllocationCache :=
  { c.recordGet info with freed := (info.svmData, policy) :: c.freed }

def trim (c : SvmAllocationCache) : SvmAllocationCache :=
  { c.allocations.foldl (release .none) c with allocations := [] }

/-- The loop of `trimOldAllocs` over the indices below `allocCleanCandidateIndex`, from the last
to the first. -/
def trimOldLoop (trimTimePoint : Nat) (trimAll : Bool) : Nat → SvmAllocationCache →
    SvmAllocationCache
  | 0, c => c
  | i + 1, c =>
    match c.allocations[i]? with
    | none => c
    | some allocCleanCandidate =>
      if allocCleanCandidate.saveTime > trimTimePoint then trimOldLoop trimTimePoint trimAll i c
      else
        let c := release .defer c allocCleanCandidate
        if trimAll then
          trimOldLoop trimTimePoint trimAll i
            { c with allocations := c.allocations.set i allocCleanCandidate.markForDelete }
        else { c with allocations := c.allocations.eraseIdx i }

def trimOldAllocs (c : SvmAllocationCache) (trimTimePoint : Nat) (trimAll : Bool) :
    SvmAllocationCache :=
  let c := trimOldLoop trimTimePoint trimAll c.allocations.length c
  if trimAll then
    { c with allocations := c.allocations.filter fun info => !info.isMarkedForDelete }
  else c

end SvmAllocationCache

end ComputeRuntime
