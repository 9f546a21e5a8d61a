import ComputeRuntime.Helpers.AlignedMemory
import ComputeRuntime.Helpers.DebugHelpers

/-! The GPU address-space allocator: two bump pointers that grow towards each other and
two lists of freed chunks, big chunks on the left and small chunks on the right. -/
namespace ComputeRuntime

structure HeapChunk where
  ptr : Nat
  size : Nat
  deriving DecidableEq

structure HeapAllocator where
  baseAddress : Nat
  size : Nat
  availableSize : Nat
  pLeftBound : Nat
  pRightBound : Nat
  allocationAlignment : Nat
  sizeThreshold : Nat
  freedChunksSmall : List HeapChunk
  freedChunksBig : List HeapChunk
  deriving DecidableEq

/-- What a returning `allocateWithCustomAlignment` leaves behind: the new allocator, the
returned pointer (0 for a failure) and the value written back to `sizeToAllocate`. -/
structure AllocateResult where
  heap : HeapAllocator
  ptr : Nat
  sizeToAllocate : Nat
  deriving DecidableEq

/-- Adds a span to the first neighbouring chunk in list order, or as a new last chunk. -/
def storeInFreedChunks (ptr size : Nat) : List HeapChunk → List HeapChunk
  | [] => [⟨ptr, size⟩]
  | freedChunk :: rest =>
    if freedChunk.ptr = add64 ptr size then ⟨ptr, add64 freedChunk.size size⟩ :: rest
    else if add64 freedChunk.ptr freedChunk.size = ptr then
      ⟨freedChunk.ptr, add64 freedChunk.size size⟩ :: rest
    else freedChunk :: storeInFreedChunks ptr size rest

/-- Where the search through a free list ends: at a chunk of exactly the wanted size, or
after the last chunk with the smallest larger one. -/
inductive Fit where
  | exact (index : Nat)
  | best (bestFitIndex bestFitSize : Nat)
  deriving DecidableEq

/-- The loop of `getFromFreedChunks` from index `i` on; `bestFitSize` is 0 while no larger
chunk has been seen. -/
def findFit (size requiredAlignment : Nat) : List HeapChunk → Nat → Nat → Nat → Fit
  | [], _, bestFitIndex, bestFitSize => .best bestFitIndex bestFitSize
  | chunk :: rest, i, bestFitIndex, bestFitSize =>
    if isAligned chunk.ptr requiredAlignment = false then
      findFit size requiredAlignment rest (i + 1) bestFitIndex bestFitSize
    else if chunk.size = size then .exact i
    else if chunk.size > size ∧ (chunk.size < bestFitSize ∨ bestFitSize = 0) then
      findFit size requiredAlignment rest (i + 1) i chunk.size
    else findFit size requiredAlignment rest (i + 1) bestFitIndex bestFitSize

/-- What `getFromFreedChunks` returns and writes. -/
structure FreedFit where
  ptr : Nat
  freedChunks : List HeapChunk
  sizeOfFreedChunk : Nat
  deriving DecidableEq

/-- Serves a request from a chunk larger than needed: the whole chunk when it is less than
twice the request, else its tail, moved down to the required alignment. -/
def splitChunk (size requiredAlignment : Nat) (freedChunks : List HeapChunk)
    (bestFitIndex : Nat) (chunk : HeapChunk) : FreedFit :=
  if chunk.size < mul64 size 2 then
    ⟨chunk.ptr, freedChunks.eraseIdx bestFitIndex, chunk.size⟩
  else
    let sizeDelta := sub64 chunk.size size
    let ptr := add64 chunk.ptr sizeDelta
    if isAligned ptr requiredAlignment = false then
      let alignedPtr := alignDown ptr requiredAlignment
      let alignedDelta := sub64 ptr alignedPtr
      let rest := sub64 sizeDelta alignedDelta
      ⟨alignedPtr,
        if rest = 0 then freedChunks.eraseIdx bestFitIndex
        else freedChunks.set bestFitIndex ⟨chunk.ptr, rest⟩,
        add64 size alignedDelta⟩
    else ⟨ptr, freedChunks.set bestFitIndex ⟨chunk.ptr, sizeDelta⟩, 0⟩

def getFromFreedChunks (size : Nat) (freedChunks : List HeapChunk) (requiredAlignment : Nat) :
    FreedFit :=
  match findFit size requiredAlignment freedChunks 0 (2 ^ 64 - 1) 0 with
  | .exact i =>
    match freedChunks[i]? with
    | some chunk => ⟨chunk.ptr, freedChunks.eraseIdx i, 0⟩
    | none => ⟨0, freedChunks, 0⟩
  | .best bestFitIndex bestFitSize =>
    if bestFitSize ≠ 0 then
      match freedChunks[bestFitIndex]? with
      | some chunk => splitChunk size requiredAlignment freedChunks bestFitIndex chunk
      | none => ⟨0, freedChunks, 0⟩
    else ⟨0, freedChunks, 0⟩

/-- The merging loop of `defragment`, which walks a sorted vector from its last chunk to its
first: `join current next` is the chunk that replaces both when they touch. The argument is
the vector read backwards. -/
def coalesce (join : HeapChunk → HeapChunk → Option HeapChunk) :
    HeapChunk → List HeapChunk → List HeapChunk
  | current, [] => [current]
  | current, next :: rest =>
    match join current next with
    | some merged => coalesce join merged rest
    | none => current :: coalesce join next rest

/-- `freedChunksSmall` is sorted by falling address: the next chunk lies above. -/
def joinSmall (current next : HeapChunk) : Option HeapChunk :=
  if next.ptr = add64 current.ptr current.size then
    some ⟨current.ptr, add64 next.size current.size⟩
  else none

/-- `freedChunksBig` is sorted by rising address: the next chunk lies below. -/
def joinBig (current next : HeapChunk) : Option HeapChunk :=
  if add64 next.ptr next.size = current.ptr then
    some ⟨next.ptr, add64 next.size current.size⟩
  else none

/-- Chunks by rising address. `std::sort` leaves the order of chunks with equal addresses
open; two stored chunks share an address only when one of them is empty. -/
def sortChunks (chunks : List HeapChunk) : List HeapChunk :=
  chunks.mergeSort fun a b => decide (a.ptr ≤ b.ptr)

/-- The vector after sorting and merging; `backwards` is the sorted vector read from its end. -/
def coalesceAll (join : HeapChunk → HeapChunk → Option HeapChunk) (backwards : List HeapChunk) :
    List HeapChunk :=
  match backwards with
  | [] => []
  | last :: rest => (coalesce join last rest).reverse

namespace HeapAllocator

/-- The constructor with an explicit alignment and threshold. -/
def create (address size allocationAlignment threshold : Nat) : HeapAllocator where
  baseAddress := address
  size := size
  availableSize := size
  pLeftBound := address
  pRightBound := add64 address size
  allocationAlignment := allocationAlignment
  sizeThreshold := threshold
  freedChunksSmall := []
  freedChunksBig := []

/-- The threshold of the constructors that do not name one. -/
def defaultThreshold : Nat := 4 * MemoryConstants.megaByte

def mergeLastFreedSmall (h : HeapAllocator) : HeapAllocator :=
  match h.freedChunksSmall.getLast? with
  | some last =>
    if last.ptr = h.pRightBound then
      { h with
        pRightBound := add64 last.ptr last.size
        freedChunksSmall := h.freedChunksSmall.dropLast }
    else h
  | none => h

def mergeLastFreedBig (h : HeapAllocator) : HeapAllocator :=
  match h.freedChunksBig.getLast? with
  | some last =>
    if last.ptr = sub64 h.pLeftBound last.size then
      { h with
        pLeftBound := last.ptr
        freedChunksBig := h.freedChunksBig.dropLast }
    else h
  | none => h

def defragment (h : HeapAllocator) : HeapAllocator :=
  let h :=
    if h.freedChunksSmall.length > 1 then
      { h with freedChunksSmall := coalesceAll joinSmall (sortChunks h.freedChunksSmall) }
    else h
  let h := h.mergeLastFreedSmall
  let h :=
    if h.freedChunksBig.length > 1 then
      { h with freedChunksBig := coalesceAll joinBig (sortChunks h.freedChunksBig).reverse }
    else h
  h.mergeLastFreedBig

/-- The free list a request of this (aligned) size uses. -/
def freedChunks (h : HeapAllocator) (sizeToAllocate : Nat) : List HeapChunk :=
  if sizeToAllocate > h.sizeThreshold then h.freedChunksBig else h.freedChunksSmall

def setFreedChunks (h : HeapAllocator) (sizeToAllocate : Nat) (chunks : List HeapChunk) :
    HeapAllocator :=
  if sizeToAllocate > h.sizeThreshold then { h with freedChunksBig := chunks }
  else { h with freedChunksSmall := chunks }

/-- Takes a request from the gap, at its left end for a big request and at its right end for
a small one; the misaligned remainder becomes a freed chunk. Returns 0 when the gap is too
small. -/
def allocateFromGap (h : HeapAllocator) (sizeToAllocate alignment : Nat) : HeapAllocator × Nat :=
  if sizeToAllocate > h.sizeThreshold then
    let misalignment := sub64 (alignUp h.pLeftBound alignment) h.pLeftBound
    if add64 (add64 h.pLeftBound misalignment) sizeToAllocate ≤ h.pRightBound then
      let h :=
        if misalignment ≠ 0 then
          { h with
            freedChunksBig := storeInFreedChunks h.pLeftBound misalignment h.freedChunksBig
            pLeftBound := add64 h.pLeftBound misalignment }
        else h
      ({ h with pLeftBound := add64 h.pLeftBound sizeToAllocate }, h.pLeftBound)
    else (h, 0)
  else
    let pStart := sub64 h.pRightBound sizeToAllocate
    let misalignment := sub64 pStart (alignDown pStart alignment)
    if add64 (add64 h.pLeftBound sizeToAllocate) misalignment ≤ h.pRightBound then
      let h :=
        if misalignment ≠ 0 then
          { h with
            pRightBound := sub64 h.pRightBound misalignment
            freedChunksSmall :=
              storeInFreedChunks (sub64 h.pRightBound misalignment) misalignment
                h.freedChunksSmall }
        else h
      ({ h with pRightBound := sub64 h.pRightBound sizeToAllocate },
        sub64 h.pRightBound sizeToAllocate)
    else (h, 0)

/-- One round of the retry loop up to its `return ptrReturn`. -/
def tryAllocate (h : HeapAllocator) (sizeToAllocate alignment : Nat) : AllocateResult :=
  let (gap, ptrReturn) := h.allocateFromGap sizeToAllocate alignment
  if ptrReturn ≠ 0 then
    ⟨{ gap with availableSize := sub64 gap.availableSize sizeToAllocate }, ptrReturn,
      sizeToAllocate⟩
  else
    let fit := getFromFreedChunks sizeToAllocate (gap.freedChunks sizeToAllocate) alignment
    let h := gap.setFreedChunks sizeToAllocate fit.freedChunks
    if fit.ptr ≠ 0 then
      let taken := if fit.sizeOfFreedChunk > 0 then fit.sizeOfFreedChunk else sizeToAllocate
      ⟨{ h with availableSize := sub64 h.availableSize taken }, fit.ptr, taken⟩
    else ⟨h, 0, sizeToAllocate⟩

/-- The alignment a request falls back to when the gap is large enough for it but not at the
alignment it asked for. -/
def fallbackAlignment (h : HeapAllocator) (sizeToAllocate : Nat) : Nat :=
  Math.prevPowerOfTwo (add64 (sub64 (sub64 (sub64 h.pRightBound h.pLeftBound) 1) sizeToAllocate)
    (2 * MemoryConstants.pageSize64k))

/-- The retry loop; `defragmented` is `defragmentCount ≠ 0`. The source's loop has no bound,
so a run that exhausts the fuel says nothing. -/
def allocateLoop (sizeToAllocate : Nat) :
    Nat → HeapAllocator → Nat → Bool → Result AllocateResult
  | 0, _, _, _ => .error .outOfFuel
  | fuel + 1, h, alignment, defragmented =>
    let attempt := h.tryAllocate sizeToAllocate alignment
    if attempt.ptr ≠ 0 then .ok attempt
    else if defragmented = false then
      allocateLoop sizeToAllocate fuel attempt.heap.defragment alignment true
    else if alignment > 2 * MemoryConstants.megaByte ∧
        sub64 attempt.heap.pRightBound attempt.heap.pLeftBound ≥ sizeToAllocate then
      allocateLoop sizeToAllocate fuel attempt.heap
        (attempt.heap.fallbackAlignment sizeToAllocate) true
    else .ok attempt

def allocateWithCustomAlignment (fuel : Nat) (h : HeapAllocator)
    (sizeToAllocate alignment : Nat) : Result AllocateResult :=
  let alignment := if alignment < h.allocationAlignment then h.allocationAlignment else alignment
  if alignment % h.allocationAlignment ≠ 0 then .error .unrecoverable
  else
    let sizeToAllocate := alignUp sizeToAllocate h.allocationAlignment
    if h.availableSize < sizeToAllocate then .ok ⟨h, 0, sizeToAllocate⟩
    else allocateLoop sizeToAllocate fuel h alignment false

def allocate (fuel : Nat) (h : HeapAllocator) (sizeToAllocate : Nat) : Result AllocateResult :=
  h.allocateWithCustomAlignment fuel sizeToAllocate 0

def free (h : HeapAllocator) (ptr size : Nat) : HeapAllocator :=
  if ptr = 0 then h
  else
    let h :=
      if ptr = h.pRightBound then
        { h with pRightBound := add64 ptr size }.mergeLastFreedSmall
      else if ptr = sub64 h.pLeftBound size then
        { h with pLeftBound := ptr }.mergeLastFreedBig
      else if ptr < h.pLeftBound then
        { h with freedChunksBig := storeInFreedChunks ptr size h.freedChunksBig }
      else { h with freedChunksSmall := storeInFreedChunks ptr size h.freedChunksSmall }
    { h with availableSize := add64 h.availableSize size }

end HeapAllocator

end ComputeRuntime
