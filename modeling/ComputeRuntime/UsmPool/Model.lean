import ComputeRuntime.HeapAllocator.Runs
import ComputeRuntime.Utilities.SortedVector

/-! A pool of unified memory: one large allocation whose chunks are handed out to small requests,
with a sorted vector of the chunks in use. -/
namespace ComputeRuntime

inductive InternalMemoryType where
  | notSpecified
  | svm
  | deviceUnifiedMemory
  | hostUnifiedMemory
  | sharedUnifiedMemory
  | reservedDeviceMemory
  | reservedHostMemory
  deriving DecidableEq

/-- The two sets of flags of `MemoryProperties`, as 32-bit words. -/
structure AllocationFlags where
  allFlags : Nat := 0
  allAllocFlags : Nat := 0
  deriving DecidableEq

namespace MemoryFlags

def compressedHint : Nat := 2 ^ 19
def uncompressedHint : Nat := 2 ^ 20

end MemoryFlags

structure UnifiedMemoryProperties where
  memoryType : InternalMemoryType
  alignment : Nat
  allocationFlags : AllocationFlags := {}
  deriving DecidableEq

structure AllocationInfo where
  address : Nat
  size : Nat
  requestedSize : Nat
  deriving DecidableEq

structure UsmMemAllocPool where
  chunkAllocator : HeapAllocator
  pool : Nat
  poolEnd : Nat
  allocations : List (PointerPair AllocationInfo)
  poolMemoryType : InternalMemoryType
  poolSize : Nat
  minServicedSize : Nat
  maxServicedSize : Nat
  deriving DecidableEq

namespace UsmMemAllocPool

open BaseSortedPointerWithValueVector

def chunkAlignment : Nat := 512
def poolAlignment : Nat := MemoryConstants.pageSize2M

/-- The pool in the allocation at `ptr`; `size` and `memoryType` are those of its `svmData`. -/
def initializePool (ptr size : Nat) (memoryType : InternalMemoryType)
    (minServicedSize maxServicedSize : Nat) : UsmMemAllocPool where
  chunkAllocator := .create ptr size chunkAlignment (maxServicedSize / 2)
  pool := ptr
  poolEnd := add64 ptr size
  allocations := []
  poolMemoryType := memoryType
  poolSize := size
  minServicedSize := minServicedSize
  maxServicedSize := maxServicedSize

def isInitialized (p : UsmMemAllocPool) : Bool := p.pool ≠ 0

def alignmentIsAllowed (alignment : Nat) : Bool :=
  alignment % chunkAlignment = 0 ∧ alignment ≤ poolAlignment

def flagsAreAllowed (memoryProperties : UnifiedMemoryProperties) : Bool :=
  let flagsWithoutCompression := memoryProperties.allocationFlags.allFlags &&&
    Word.not 32 (MemoryFlags.compressedHint ||| MemoryFlags.uncompressedHint)
  flagsWithoutCompression = 0 ∧ memoryProperties.allocationFlags.allAllocFlags = 0

def sizeIsAllowed (p : UsmMemAllocPool) (size : Nat) : Bool :=
  size ≥ p.minServicedSize ∧ size ≤ p.maxServicedSize

def canBePooled (p : UsmMemAllocPool) (size : Nat) (memoryProperties : UnifiedMemoryProperties) :
    Bool :=
  p.sizeIsAllowed size ∧ alignmentIsAllowed memoryProperties.alignment ∧
    flagsAreAllowed memoryProperties ∧ memoryProperties.memoryType = p.poolMemoryType

/-- What `createUnifiedMemoryAllocation` leaves behind, with the size of the chunk that serves the
request; `pooledPtr` is null for a request that is not served. -/
structure CreateResult where
  pool : UsmMemAllocPool
  pooledPtr : Nat
  actualSize : Nat
  deriving DecidableEq

/-- The fuel is that of the retry loop of the chunk allocator. -/
def createUnifiedMemoryAllocation (fuel : Nat) (p : UsmMemAllocPool) (requestedSize : Nat)
    (memoryProperties : UnifiedMemoryProperties) : Result CreateResult := do
  if p.isInitialized = false then return ⟨p, 0, 0⟩
  if p.canBePooled requestedSize memoryProperties = false then return ⟨p, 0, 0⟩
  let r ← p.chunkAllocator.allocateWithCustomAlignment fuel requestedSize memoryProperties.alignment
  let p := { p with chunkAllocator := r.heap }
  if r.ptr = 0 then return ⟨p, 0, 0⟩
  let info : AllocationInfo := ⟨r.ptr, r.sizeToAllocate, requestedSize⟩
  return ⟨{ p with allocations := insert r.ptr info p.allocations }, r.ptr, r.sizeToAllocate⟩

def isInPool (p : UsmMemAllocPool) (ptr : Nat) : Bool := ptr ≥ p.pool ∧ ptr < p.poolEnd

def freeSVMAlloc (p : UsmMemAllocPool) (ptr : Nat) : UsmMemAllocPool × Bool :=
  if p.isInitialized ∧ p.isInPool ptr then
    match extract AllocationInfo.size ptr p.allocations with
    | (some allocationInfo, allocations) =>
      ({ p with
          allocations := allocations
          chunkAllocator := p.chunkAllocator.free allocationInfo.address allocationInfo.size },
        true)
    | (none, allocations) => ({ p with allocations := allocations }, false)
  else (p, false)

def getPooledAllocationSize (p : UsmMemAllocPool) (ptr : Nat) : Nat :=
  if p.isInitialized ∧ p.isInPool ptr then
    match get AllocationInfo.size ptr p.allocations with
    | some allocationInfo => allocationInfo.requestedSize
    | none => 0
  else 0

def getPooledAllocationBasePtr (p : UsmMemAllocPool) (ptr : Nat) : Nat :=
  if p.isInitialized ∧ p.isInPool ptr then
    match get AllocationInfo.size ptr p.allocations with
    | some allocationInfo => allocationInfo.address
    | none => 0
  else 0

/-- What happens when a request passed the checks and its chunk was looked for. -/
theorem createUnifiedMemoryAllocation_ok {fuel : Nat} {p : UsmMemAllocPool} {requestedSize : Nat}
    {memoryProperties : UnifiedMemoryProperties} {r : CreateResult}
    (returned : p.createUnifiedMemoryAllocation fuel requestedSize memoryProperties = .ok r) :
    r = ⟨p, 0, 0⟩ ∨
    p.isInitialized = true ∧ p.canBePooled requestedSize memoryProperties = true ∧
      ∃ chunk, p.chunkAllocator.allocateWithCustomAlignment fuel requestedSize
          memoryProperties.alignment = .ok chunk ∧
        (chunk.ptr = 0 ∧ r = ⟨{ p with chunkAllocator := chunk.heap }, 0, 0⟩ ∨
          chunk.ptr ≠ 0 ∧ r =
            ⟨{ p with
                chunkAllocator := chunk.heap
                allocations := insert chunk.ptr
                  ⟨chunk.ptr, chunk.sizeToAllocate, requestedSize⟩ p.allocations },
              chunk.ptr, chunk.sizeToAllocate⟩) := by
  unfold createUnifiedMemoryAllocation at returned
  split at returned
  next =>
    cases returned
    exact .inl rfl
  next initialized =>
    simp only [Bool.not_eq_false] at initialized
    split at returned
    next =>
      cases returned
      exact .inl rfl
    next pooled =>
      simp only [Bool.not_eq_false] at pooled
      obtain ⟨chunk, found, rest⟩ := bind_eq_ok.mp returned
      refine .inr ⟨initialized, pooled, chunk, found, ?_⟩
      split at rest
      next null =>
        cases rest
        exact .inl ⟨null, rfl⟩
      next served =>
        cases rest
        exact .inr ⟨served, rfl⟩

end UsmMemAllocPool

end ComputeRuntime
