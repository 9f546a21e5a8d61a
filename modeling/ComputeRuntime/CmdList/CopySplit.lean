import ComputeRuntime.Helpers.AlignedMemory
import ComputeRuntime.Library.Transfers

/-! The memory copy of a command list on a compute engine: the copy is split at the cache lines of
the destination into up to three kernel launches, and each work item of a launch copies one
element. -/
namespace ComputeRuntime.CmdList

open Transfers

/-- An address that is aligned for surface states and how far behind it the memory of a pointer
starts. -/
structure AlignedAllocationData where
  alignedAllocationPtr : ℕ
  offset : ℕ
  deriving DecidableEq

/-- The address that the kernels are given, with its offset. -/
def AlignedAllocationData.address (data : AlignedAllocationData) : ℕ :=
  data.alignedAllocationPtr + data.offset

/-- What the driver finds for a pointer: unified memory of the device or of another one, a host
pointer that was imported, system memory that the device shares, or system memory that it maps for
the transfer or, for a source, copies. -/
inductive PointedTo where
  | unified
  | peer (base peerAddress : ℕ)
  | imported (underlyingBuffer gpuAddress : ℕ)
  | sharedSystem
  | externalHostPtr (underlyingBuffer gpuAddress : ℕ)
  | internalHostMemory (gpuAddress : ℕ)
  deriving DecidableEq

def surfaceBaseAddressAlignment : ℕ := 4

def getAlignedAllocationData (ptr : ℕ) (memory : PointedTo) : AlignedAllocationData :=
  let sourcePtr := alignDown ptr surfaceBaseAddressAlignment
  let offset := sub64 ptr sourcePtr
  match memory with
  | .unified => ⟨sourcePtr, offset⟩
  | .peer base peerAddress => ⟨add64 peerAddress (sub64 sourcePtr base), offset⟩
  | .imported underlyingBuffer gpuAddress =>
    let alignedPtr := alignDown gpuAddress surfaceBaseAddressAlignment
    ⟨alignedPtr, add64 (sub64 gpuAddress alignedPtr) (sub64 ptr underlyingBuffer)⟩
  | .sharedSystem => ⟨ptr, 0⟩
  | .externalHostPtr underlyingBuffer gpuAddress =>
    let hostAllocCpuPtr := alignDown underlyingBuffer surfaceBaseAddressAlignment
    ⟨add64 (alignDown gpuAddress surfaceBaseAddressAlignment) (sub64 sourcePtr hostAllocCpuPtr),
      offset⟩
  -- the offset is that of the pointer, also where the bytes were copied to the start
  | .internalHostMemory gpuAddress =>
    ⟨alignDown gpuAddress surfaceBaseAddressAlignment, offset⟩

/-- A launch of one of the two copy kernels, `CopyBufferToBufferSideRegion` with elements of one
byte and `CopyBufferToBufferMiddleRegion` with elements of sixteen, or of its stateless variant. -/
structure CopyLaunch where
  elementSize : ℕ
  stateless : Bool
  dstPtr : ℕ
  srcPtr : ℕ
  elems : ℕ
  dstOffset : ℕ
  srcOffset : ℕ
  groupSizeX : ℕ
  groups : ℕ
  deriving DecidableEq

namespace CopyLaunch

/-- The bits of the kernel's scalar arguments and of its global id: `uint`, or `ulong` in the
stateless variants. An argument is set from the low bytes of a 64-bit value. -/
def argumentBits (l : CopyLaunch) : ℕ := if l.stateless then 64 else 32

/-- What the work item with a global id copies, if anything. -/
def workItem (l : CopyLaunch) (globalId : ℕ) : Option Transfer :=
  let gid := globalId % 2 ^ l.argumentBits
  if gid < l.elems % 2 ^ l.argumentBits then
    some
      { dst := l.dstPtr + l.dstOffset % 2 ^ l.argumentBits + gid * l.elementSize
        src := l.srcPtr + l.srcOffset % 2 ^ l.argumentBits + gid * l.elementSize
        length := l.elementSize }
  else none

def transfers (l : CopyLaunch) : List Transfer :=
  (List.range (l.groups * l.groupSizeX)).filterMap l.workItem

end CopyLaunch

/-- What a copy is called with, what is found for its pointers, and what it asks of the device. -/
structure CopyCall where
  dstptr : ℕ
  dstMemory : PointedTo := .unified
  srcptr : ℕ
  srcMemory : PointedTo := .unified
  size : ℕ
  sideSimdSize : ℕ
  middleSimdSize : ℕ
  /-- The heap model of the command list or its builtins are stateless. -/
  isStatelessEnabled : Bool := false
  isHeapless : Bool := false
  forceNonWalkerSplitMemoryCopy : Bool := false

namespace CopyCall

def dst (c : CopyCall) : AlignedAllocationData := getAlignedAllocationData c.dstptr c.dstMemory

def src (c : CopyCall) : AlignedAllocationData := getAlignedAllocationData c.srcptr c.srcMemory

def isStateless (c : CopyCall) : Bool :=
  c.isStatelessEnabled || decide (c.size ≥ 4 * MemoryConstants.gigaByte)

def appendMemoryCopyKernelWithGA (c : CopyCall) (dstOffset srcOffset size elementSize : ℕ) :
    CopyLaunch :=
  let groupSizeX := if elementSize = 1 then c.sideSimdSize else c.middleSimdSize
  { elementSize := elementSize
    stateless := c.isHeapless || c.isStateless
    dstPtr := c.dst.alignedAllocationPtr
    srcPtr := c.src.alignedAllocationPtr
    elems := size / elementSize
    dstOffset := dstOffset
    srcOffset := srcOffset
    groupSizeX := groupSizeX
    groups := add64 size (groupSizeX * elementSize - 1) / (groupSizeX * elementSize) % 2 ^ 32 }

end CopyCall

/-- The sizes of the three parts of a copy, and how many kernels they take. -/
structure CopyParts where
  leftSize : ℕ
  middleSizeBytes : ℕ
  rightSize : ℕ
  kernelCounter : ℕ
  deriving DecidableEq

def middleElSize : ℕ := 16
def cacheLineSize : ℕ := 64

def countKernels (leftSize middleSizeBytes rightSize : ℕ) : ℕ :=
  (if leftSize > 0 then 1 else 0) + (if middleSizeBytes > 0 then 1 else 0) +
    (if rightSize > 0 then 1 else 0)

def splitCopy (dstptr srcptr size : ℕ) (forceNonWalkerSplitMemoryCopy : Bool) : CopyParts :=
  let start := dstptr
  let middleAlignment := cacheLineSize
  let leftSize := start % middleAlignment
  let leftSize := if leftSize > 0 then middleAlignment - leftSize else 0
  let leftSize := min leftSize size
  let rightSize := add64 start size % middleAlignment
  let rightSize := min rightSize (sub64 size leftSize)
  let middleSizeBytes := sub64 (sub64 size leftSize) rightSize
  let parts : CopyParts :=
    if isAligned (add64 srcptr leftSize) 4 = false then
      ⟨add64 leftSize middleSizeBytes, 0, rightSize,
        countKernels (add64 leftSize middleSizeBytes) 0 rightSize⟩
    else ⟨leftSize, middleSizeBytes, rightSize, countKernels leftSize middleSizeBytes rightSize⟩
  if forceNonWalkerSplitMemoryCopy then ⟨size, 0, 0, 1⟩ else parts

/-- The launches of a copy, and how many of them were announced. -/
structure AppendedKernels where
  numKernelsInSplitLaunch : ℕ
  launches : List CopyLaunch

/-- The compute path of `appendMemoryCopy`, when every launch succeeds. -/
def CopyCall.appendMemoryCopy (c : CopyCall) : AppendedKernels :=
  let parts := splitCopy c.dstptr c.srcptr c.size c.forceNonWalkerSplitMemoryCopy
  let left :=
    if parts.leftSize > 0 then
      [c.appendMemoryCopyKernelWithGA c.dst.offset c.src.offset parts.leftSize 1]
    else []
  let middle :=
    if parts.middleSizeBytes > 0 then
      [c.appendMemoryCopyKernelWithGA (add64 parts.leftSize c.dst.offset)
        (add64 parts.leftSize c.src.offset) parts.middleSizeBytes middleElSize]
    else []
  let right :=
    if parts.rightSize > 0 then
      let before := add64 parts.leftSize parts.middleSizeBytes
      [c.appendMemoryCopyKernelWithGA (add64 before c.dst.offset) (add64 before c.src.offset)
        parts.rightSize 1]
    else []
  ⟨parts.kernelCounter, left ++ middle ++ right⟩

/-- One part of a copy: where it starts, how long it is, and the size of its elements. -/
structure Piece where
  start : ℕ
  size : ℕ
  elementSize : ℕ
  deriving DecidableEq

def CopyParts.pieces (p : CopyParts) : List Piece :=
  (if p.leftSize > 0 then [⟨0, p.leftSize, 1⟩] else []) ++
    (if p.middleSizeBytes > 0 then [⟨p.leftSize, p.middleSizeBytes, middleElSize⟩] else []) ++
    if p.rightSize > 0 then [⟨p.leftSize + p.middleSizeBytes, p.rightSize, 1⟩] else []

/-- The distance to the first cache line at or behind an address. -/
def toCacheLine (address : ℕ) : ℕ := (cacheLineSize - address % cacheLineSize) % cacheLineSize

section Parts

variable {dstptr srcptr size : ℕ}

theorem toCacheLine_lt (address : ℕ) : toCacheLine address < cacheLineSize :=
  Nat.mod_lt _ (by decide)

theorem toCacheLine_dvd (address : ℕ) : cacheLineSize ∣ address + toCacheLine address := by
  simp only [toCacheLine, cacheLineSize]
  omega

/-- The two steps by which the source finds the first boundary. -/
theorem toCacheLine_eq (address : ℕ) :
    (if address % cacheLineSize > 0 then cacheLineSize - address % cacheLineSize else 0) =
      toCacheLine address := by
  have bound : address % cacheLineSize < cacheLineSize := Nat.mod_lt _ (by decide)
  by_cases misaligned : address % cacheLineSize > 0
  · have less : cacheLineSize - address % cacheLineSize < cacheLineSize := by omega
    rw [if_pos misaligned, toCacheLine, Nat.mod_eq_of_lt less]
  · rw [if_neg misaligned, toCacheLine, show address % cacheLineSize = 0 by omega]
    rfl

theorem end_mod (dstptr size : ℕ) : add64 dstptr size % cacheLineSize = (dstptr + size) % 64 :=
  Nat.mod_mod_of_dvd _ (by decide)

theorem isAligned_four (srcptr left : ℕ) :
    isAligned (add64 srcptr left) 4 = true ↔ 4 ∣ srcptr + left := by
  rw [isAligned_iff ⟨2, by decide, by decide⟩]
  exact Word.dvd_add_iff (by decide)

theorem splitCopy_force : splitCopy dstptr srcptr size true = ⟨size, 0, 0, 1⟩ := rfl

/-- A copy that ends before the first boundary has one part. -/
theorem splitCopy_short (short : size ≤ toCacheLine dstptr) :
    splitCopy dstptr srcptr size false = ⟨size, 0, 0, countKernels size 0 0⟩ := by
  have fits : size < 2 ^ 64 := by
    have := toCacheLine_lt dstptr
    simp only [cacheLineSize] at this
    omega
  have none : sub64 size size = 0 := by
    rw [sub64, Word.sub_eq (Nat.le_refl _) fits, Nat.sub_self]
  have zero : sub64 0 0 = 0 := by decide
  have whole : add64 size 0 = size := Word.add_eq fits
  simp only [splitCopy, toCacheLine_eq, Nat.min_eq_right short, none, Nat.min_zero, zero, whole,
    Bool.false_eq_true, if_false, ite_self]

section Long

variable (long : toCacheLine dstptr < size) (fits : size < 2 ^ 64)
include long fits

/-- A copy over a boundary, with what the source computes without a wrap. -/
theorem splitCopy_long : splitCopy dstptr srcptr size false =
    if 4 ∣ srcptr + toCacheLine dstptr then
      ⟨toCacheLine dstptr, size - toCacheLine dstptr - (dstptr + size) % 64, (dstptr + size) % 64,
        countKernels (toCacheLine dstptr) (size - toCacheLine dstptr - (dstptr + size) % 64)
          ((dstptr + size) % 64)⟩
    else
      ⟨size - (dstptr + size) % 64, 0, (dstptr + size) % 64,
        countKernels (size - (dstptr + size) % 64) 0 ((dstptr + size) % 64)⟩ := by
  have aligned := toCacheLine_dvd dstptr
  simp only [cacheLineSize] at aligned
  have right : (dstptr + size) % 64 ≤ size - toCacheLine dstptr := by omega
  have first : sub64 size (toCacheLine dstptr) = size - toCacheLine dstptr :=
    Word.sub_eq (Nat.le_of_lt long) fits
  have second : sub64 (size - toCacheLine dstptr) ((dstptr + size) % 64) =
      size - toCacheLine dstptr - (dstptr + size) % 64 := Word.sub_eq right (by omega)
  have body : add64 (toCacheLine dstptr) (size - toCacheLine dstptr - (dstptr + size) % 64) =
      size - (dstptr + size) % 64 := by
    rw [add64, Word.add_eq (by omega)]
    omega
  simp only [splitCopy, toCacheLine_eq, Nat.min_eq_left (Nat.le_of_lt long), first, end_mod,
    Nat.min_eq_left right, second, body, Bool.false_eq_true, if_false]
  by_cases elements : 4 ∣ srcptr + toCacheLine dstptr
  · rw [if_pos elements, (isAligned_four _ _).mpr elements]
    simp
  · rw [if_neg elements, Bool.eq_false_iff.mpr fun all => elements ((isAligned_four _ _).mp all)]
    simp

end Long

end Parts

end ComputeRuntime.CmdList
