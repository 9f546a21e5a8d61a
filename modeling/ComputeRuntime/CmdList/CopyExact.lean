import ComputeRuntime.CmdList.CopySplit
import Mathlib.Algebra.Order.BigOperators.Group.List

/-! When the kernels of a memory copy copy exactly what was asked for: the parts of a split meet
end to end and are announced as they are launched, but the offset of a part has to fit the
kernel's argument and its groups have to fit the launch. -/
namespace ComputeRuntime.CmdList

open Transfers

/-- How many work items a hardware thread may have. -/
def simdSizes : List ℕ := [1, 8, 16, 32]

namespace PointedTo

/-- The address of the memory at a pointer on the GPU. -/
def address (ptr : ℕ) : PointedTo → ℕ
  | .unified => ptr
  | .peer base peerAddress => peerAddress + (ptr - base)
  | .imported underlyingBuffer gpuAddress => gpuAddress + (ptr - underlyingBuffer)
  | .sharedSystem => ptr
  | .externalHostPtr underlyingBuffer gpuAddress => gpuAddress + (ptr - underlyingBuffer)
  | .internalHostMemory gpuAddress => gpuAddress

/-- How far the memory starts behind what a kernel is given: for an imported host pointer it counts
from the start of the whole allocation. -/
def distance (ptr : ℕ) : PointedTo → ℕ
  | .imported underlyingBuffer gpuAddress =>
    gpuAddress % surfaceBaseAddressAlignment + (ptr - underlyingBuffer)
  | .sharedSystem => 0
  | _ => ptr % surfaceBaseAddressAlignment

/-- Memory is mapped page by page, and a pointer points into what is found for it. -/
def Mapped (ptr : ℕ) : PointedTo → Prop
  | .unified => True
  | .peer base peerAddress =>
    base ≤ ptr ∧ MemoryConstants.pageSize ∣ base ∧ MemoryConstants.pageSize ∣ peerAddress
  | .imported underlyingBuffer gpuAddress => underlyingBuffer ≤ ptr ∧
    gpuAddress % MemoryConstants.pageSize = underlyingBuffer % MemoryConstants.pageSize
  | .sharedSystem => True
  | .externalHostPtr underlyingBuffer gpuAddress => underlyingBuffer ≤ ptr ∧
    gpuAddress % MemoryConstants.pageSize = underlyingBuffer % MemoryConstants.pageSize
  | .internalHostMemory gpuAddress => MemoryConstants.pageSize ∣ gpuAddress

/-- The memory was copied for the transfer. -/
def Copied (memory : PointedTo) : Prop := ∃ gpuAddress, memory = .internalHostMemory gpuAddress

/-- How far the kernels read behind the start of a copy. -/
def shift (ptr : ℕ) : PointedTo → ℕ
  | .internalHostMemory _ => ptr % surfaceBaseAddressAlignment
  | _ => 0

theorem shift_eq_zero_iff {ptr : ℕ} {memory : PointedTo} :
    memory.shift ptr = 0 ↔ (memory.Copied → 4 ∣ ptr) := by
  cases memory with
  | internalHostMemory gpuAddress =>
    simp [shift, Copied, surfaceBaseAddressAlignment, Nat.dvd_iff_mod_eq_zero]
  | _ => simp [shift, Copied]

theorem shift_lt (ptr : ℕ) (memory : PointedTo) : memory.shift ptr < 4 := by
  cases memory with
  | internalHostMemory gpuAddress => exact Nat.mod_lt _ (by decide)
  | _ => exact Nat.zero_lt_succ 3

variable {ptr : ℕ} {memory : PointedTo}

/-- What is computed for a pointer, without a wrap. -/
theorem getAlignedAllocationData_eq (mapped : memory.Mapped ptr) (word : ptr < 2 ^ 64)
    (fits : memory.address ptr < 2 ^ 64) :
    (getAlignedAllocationData ptr memory).offset = memory.distance ptr ∧
      (getAlignedAllocationData ptr memory).address = memory.address ptr + memory.shift ptr := by
  have down {x : ℕ} (fits : x < 2 ^ 64) : alignDown x surfaceBaseAddressAlignment = x / 4 * 4 :=
    alignDown_eq ⟨2, by decide, by decide⟩ fits
  have offset : sub64 ptr (ptr / 4 * 4) = ptr % 4 := by
    rw [sub64, Word.sub_eq (by omega) (by omega)]
    omega
  have page : MemoryConstants.pageSize = 4096 := by decide
  unfold getAlignedAllocationData AlignedAllocationData.address
  cases memory with
  | unified =>
    simp only [down word, offset]
    exact ⟨rfl, by simp only [address, shift]; omega⟩
  | peer base peerAddress =>
    obtain ⟨inside, basePage, _⟩ := mapped
    rw [page] at basePage
    simp only [address] at fits
    have behind : sub64 (ptr / 4 * 4) base = ptr / 4 * 4 - base :=
      Word.sub_eq (by omega) (by omega)
    have start : add64 peerAddress (ptr / 4 * 4 - base) = peerAddress + (ptr / 4 * 4 - base) :=
      Word.add_eq (by omega)
    simp only [down word, offset, behind, start]
    exact ⟨rfl, by simp only [address, shift]; omega⟩
  | imported underlyingBuffer gpuAddress =>
    obtain ⟨inside, _⟩ := mapped
    simp only [address] at fits
    have low : sub64 gpuAddress (gpuAddress / 4 * 4) = gpuAddress % 4 := by
      rw [sub64, Word.sub_eq (by omega) (by omega)]
      omega
    have behind : sub64 ptr underlyingBuffer = ptr - underlyingBuffer := Word.sub_eq inside word
    have sum : add64 (gpuAddress % 4) (ptr - underlyingBuffer) =
        gpuAddress % 4 + (ptr - underlyingBuffer) := Word.add_eq (by omega)
    simp only [down (show gpuAddress < 2 ^ 64 by omega), low, behind, sum]
    exact ⟨rfl, by simp only [address, shift]; omega⟩
  | sharedSystem => exact ⟨rfl, rfl⟩
  | externalHostPtr underlyingBuffer gpuAddress =>
    obtain ⟨inside, same⟩ := mapped
    rw [page] at same
    simp only [address] at fits
    have behind : sub64 (ptr / 4 * 4) (underlyingBuffer / 4 * 4) =
        ptr / 4 * 4 - underlyingBuffer / 4 * 4 := Word.sub_eq (by omega) (by omega)
    have start : add64 (gpuAddress / 4 * 4) (ptr / 4 * 4 - underlyingBuffer / 4 * 4) =
        gpuAddress / 4 * 4 + (ptr / 4 * 4 - underlyingBuffer / 4 * 4) := Word.add_eq (by omega)
    simp only [down word, down (show gpuAddress < 2 ^ 64 by omega),
      down (show underlyingBuffer < 2 ^ 64 by omega), offset, behind, start]
    exact ⟨rfl, by simp only [address, shift]; omega⟩
  | internalHostMemory gpuAddress =>
    have aligned : 4096 ∣ gpuAddress := page ▸ mapped
    simp only [address] at fits
    simp only [down word, down fits, offset]
    exact ⟨rfl, by simp only [address, shift, surfaceBaseAddressAlignment]; omega⟩

/-- What a kernel is given is aligned as the pointer is: to elements where the memory is used in
place, and for surface states where it is a copy. -/
theorem address_mod (mapped : memory.Mapped ptr) :
    (memory.address ptr + memory.shift ptr) % 4 = ptr % 4 ∧
      (¬ memory.Copied → (memory.address ptr + memory.shift ptr) % 16 = ptr % 16) := by
  have page : MemoryConstants.pageSize = 4096 := by decide
  cases memory with
  | unified => exact ⟨rfl, fun _ => rfl⟩
  | sharedSystem => exact ⟨rfl, fun _ => rfl⟩
  | peer base peerAddress =>
    obtain ⟨inside, basePage, peerPage⟩ := mapped
    rw [page] at basePage peerPage
    simp only [address, shift]
    omega
  | imported underlyingBuffer gpuAddress =>
    obtain ⟨inside, same⟩ := mapped
    rw [page] at same
    simp only [address, shift]
    omega
  | externalHostPtr underlyingBuffer gpuAddress =>
    obtain ⟨inside, same⟩ := mapped
    rw [page] at same
    simp only [address, shift]
    omega
  | internalHostMemory gpuAddress =>
    have aligned : 4096 ∣ gpuAddress := page ▸ mapped
    refine ⟨?_, fun inPlace => absurd ⟨gpuAddress, rfl⟩ inPlace⟩
    simp only [address, shift, surfaceBaseAddressAlignment]
    omega

end PointedTo

/-- Neither range runs over the end of the address space, and the destination is used in place. -/
structure CopyCall.Valid (c : CopyCall) : Prop where
  fits : c.size < 2 ^ 64
  dstptr : c.dstptr < 2 ^ 64
  srcptr : c.srcptr < 2 ^ 64
  dst : c.dstMemory.address c.dstptr + c.size ≤ 2 ^ 64
  src : c.srcMemory.address c.srcptr + c.size + 4 ≤ 2 ^ 64
  dstMapped : c.dstMemory.Mapped c.dstptr
  srcMapped : c.srcMemory.Mapped c.srcptr
  inPlace : ¬ c.dstMemory.Copied
  some : 0 < c.size
  sideSimd : c.sideSimdSize ∈ simdSizes
  middleSimd : c.middleSimdSize ∈ simdSizes

namespace CopyCall.Valid

variable {c : CopyCall} (valid : c.Valid)
include valid

theorem dst_offset : c.dst.offset = c.dstMemory.distance c.dstptr :=
  (PointedTo.getAlignedAllocationData_eq valid.dstMapped valid.dstptr
    (Nat.lt_of_lt_of_le (Nat.lt_add_of_pos_right valid.some) valid.dst)).1

theorem dst_address : c.dst.address = c.dstMemory.address c.dstptr := by
  have located := (PointedTo.getAlignedAllocationData_eq valid.dstMapped valid.dstptr
    (Nat.lt_of_lt_of_le (Nat.lt_add_of_pos_right valid.some) valid.dst)).2
  rwa [PointedTo.shift_eq_zero_iff.mpr fun copied => absurd copied valid.inPlace] at located

theorem src_eq : c.src.offset = c.srcMemory.distance c.srcptr ∧
    c.src.address = c.srcMemory.address c.srcptr + c.srcMemory.shift c.srcptr := by
  have src := valid.src
  exact PointedTo.getAlignedAllocationData_eq valid.srcMapped valid.srcptr (by omega)

theorem dst_le : c.dst.address + c.size ≤ 2 ^ 64 := by
  rw [valid.dst_address]
  exact valid.dst

theorem src_le : c.src.address + c.size ≤ 2 ^ 64 := by
  have src := valid.src
  have near := PointedTo.shift_lt c.srcptr c.srcMemory
  rw [valid.src_eq.2]
  omega

end CopyCall.Valid

/-- Kernels that copy what a call asks for, use the wide elements only where these are aligned,
and are as many as were announced. -/
structure AppendedKernels.Exact (k : AppendedKernels) (c : CopyCall) : Prop where
  copied : Transfers.Exact (k.launches.flatMap CopyLaunch.transfers)
    (c.dstMemory.address c.dstptr) (c.srcMemory.address c.srcptr) c.size
  aligned : ∀ l ∈ k.launches, l.elementSize = middleElSize → ∀ t ∈ l.transfers,
    middleElSize ∣ t.dst ∧ 4 ∣ t.src
  announced : k.numKernelsInSplitLaunch = k.launches.length

namespace CopyCall

variable (c : CopyCall)

def parts : CopyParts := splitCopy c.dstptr c.srcptr c.size c.forceNonWalkerSplitMemoryCopy

/-- The bits of the arguments of the kernels that the call launches. -/
def bits : ℕ := if c.isHeapless || c.isStateless then 64 else 32

def groupSizeX (p : Piece) : ℕ := if p.elementSize = 1 then c.sideSimdSize else c.middleSimdSize

/-- The launch for one part of the copy. -/
def launch (p : Piece) : CopyLaunch :=
  c.appendMemoryCopyKernelWithGA (add64 p.start c.dst.offset) (add64 p.start c.src.offset) p.size
    p.elementSize

/-- The largest part that fits a launch. -/
def maxLaunch (p : Piece) : ℕ := (2 ^ 32 - 1) * c.groupSizeX p * p.elementSize

structure Fits (p : Piece) : Prop where
  groups : p.size ≤ c.maxLaunch p
  dstOffset : p.start + c.dst.offset < 2 ^ c.bits
  srcOffset : p.start + c.src.offset < 2 ^ c.bits

/-- What every part of a copy has to be. -/
structure IsPart (p : Piece) : Prop where
  some : 0 < p.size
  inside : p.start + p.size ≤ c.size
  whole : p.elementSize = 1 ∨ p.elementSize = middleElSize ∧ middleElSize ∣ p.size ∧
    middleElSize ∣ c.dstptr + p.start ∧ 4 ∣ c.srcptr + p.start

end CopyCall

def Piece.span (p : Piece) : ℕ × ℕ := (p.start, p.start + p.size)

namespace CopyParts

variable (parts : CopyParts)

theorem forall_pieces {property : Piece → Prop} : (∀ p ∈ parts.pieces, property p) ↔
    (parts.leftSize > 0 → property ⟨0, parts.leftSize, 1⟩) ∧
    (parts.middleSizeBytes > 0 →
      property ⟨parts.leftSize, parts.middleSizeBytes, middleElSize⟩) ∧
    (parts.rightSize > 0 →
      property ⟨parts.leftSize + parts.middleSizeBytes, parts.rightSize, 1⟩) := by
  have optional (condition : Prop) [Decidable condition] (piece : Piece) :
      (∀ p ∈ if condition then [piece] else [], property p) ↔ (condition → property piece) := by
    by_cases holds : condition <;> simp [holds]
  simp only [pieces, List.forall_mem_append, optional, and_assoc]

theorem pieces_length : parts.pieces.length =
    countKernels parts.leftSize parts.middleSizeBytes parts.rightSize := by
  have optional (condition : Prop) [Decidable condition] (piece : Piece) :
      (if condition then [piece] else []).length = if condition then 1 else 0 := by
    by_cases holds : condition <;> simp [holds]
  simp only [pieces, List.length_append, optional, countKernels]

/-- The parts meet end to end, whichever of them are left out. -/
theorem pieces_links : Tiling.Links (parts.pieces.map Piece.span) 0
    (parts.leftSize + parts.middleSizeBytes + parts.rightSize) := by
  have optional (start size elementSize : ℕ) :
      Tiling.Links ((if size > 0 then [Piece.mk start size elementSize] else []).map Piece.span)
        start (start + size) := by
    by_cases some : size > 0
    · rw [if_pos some]
      exact ⟨rfl, rfl⟩
    · rw [if_neg some]
      exact (show start = start + size by omega)
  rw [pieces, List.map_append, List.map_append]
  apply Tiling.links_append.mpr
  refine ⟨parts.leftSize + parts.middleSizeBytes, ?_, optional _ _ _⟩
  apply Tiling.links_append.mpr
  refine ⟨parts.leftSize, ?_, optional _ _ _⟩
  have left := optional 0 parts.leftSize 1
  rwa [Nat.zero_add] at left

theorem pieces_size : (parts.pieces.map Piece.size).sum =
    parts.leftSize + parts.middleSizeBytes + parts.rightSize := by
  have optional (start size elementSize : ℕ) :
      ((if size > 0 then [Piece.mk start size elementSize] else []).map Piece.size).sum = size := by
    by_cases some : size > 0
    · simp [some]
    · rw [if_neg some, Nat.eq_zero_of_not_pos some]
      rfl
  simp only [pieces, List.map_append, List.sum_append, optional]

end CopyParts

namespace CopyCall

variable {c : CopyCall}

/-- The parts of a split add up to the copy, and the middle one is aligned on both sides. -/
structure Split (c : CopyCall) : Prop where
  sum : c.parts.leftSize + c.parts.middleSizeBytes + c.parts.rightSize = c.size
  counted : c.parts.kernelCounter =
    countKernels c.parts.leftSize c.parts.middleSizeBytes c.parts.rightSize
  middle : c.parts.middleSizeBytes > 0 → middleElSize ∣ c.parts.middleSizeBytes ∧
    middleElSize ∣ c.dstptr + c.parts.leftSize ∧ 4 ∣ c.srcptr + c.parts.leftSize

theorem parts_split (some : 0 < c.size) (fits : c.size < 2 ^ 64) : c.Split := by
  cases force : c.forceNonWalkerSplitMemoryCopy with
  | true =>
    have parts : c.parts = ⟨c.size, 0, 0, 1⟩ := by rw [CopyCall.parts, force, splitCopy_force]
    constructor
    · simp [parts]
    · simp [parts, countKernels, some]
    · simp [parts]
  | false =>
    by_cases short : c.size ≤ toCacheLine c.dstptr
    · have parts : c.parts = ⟨c.size, 0, 0, countKernels c.size 0 0⟩ := by
        rw [CopyCall.parts, force, splitCopy_short short]
      constructor <;> simp [parts]
    · have long : toCacheLine c.dstptr < c.size := by omega
      have aligned := toCacheLine_dvd c.dstptr
      have parts := @splitCopy_long c.dstptr c.srcptr c.size long fits
      rw [← force, ← CopyCall.parts] at parts
      simp only [cacheLineSize] at aligned
      by_cases elements : 4 ∣ c.srcptr + toCacheLine c.dstptr
      · rw [if_pos elements] at parts
        constructor
        · simp only [parts]
          omega
        · simp only [parts]
        · simp only [parts, middleElSize]
          intro _
          refine ⟨by omega, by omega, elements⟩
      · rw [if_neg elements] at parts
        constructor
        · simp only [parts]
          omega
        · simp only [parts]
        · simp [parts]

theorem Split.pieces_links (split : c.Split) :
    Tiling.Links (c.parts.pieces.map Piece.span) 0 c.size := by
  have links := c.parts.pieces_links
  rwa [split.sum] at links

theorem Split.isPart (split : c.Split) : ∀ p ∈ c.parts.pieces, c.IsPart p := by
  have sum := split.sum
  refine c.parts.forall_pieces.mpr ⟨?_, ?_, ?_⟩
  · intro some
    exact ⟨some, show 0 + c.parts.leftSize ≤ c.size by omega, Or.inl rfl⟩
  · intro some
    exact ⟨some, show c.parts.leftSize + c.parts.middleSizeBytes ≤ c.size by omega,
      Or.inr ⟨rfl, split.middle some⟩⟩
  · intro some
    refine ⟨some, ?_, Or.inl rfl⟩
    change c.parts.leftSize + c.parts.middleSizeBytes + c.parts.rightSize ≤ c.size
    omega

/-- The call launches one kernel for each part. -/
theorem launches_eq (valid : c.Valid) (split : c.Split) :
    c.appendMemoryCopy.launches = c.parts.pieces.map c.launch := by
  have sum := split.sum
  have dst := valid.dst_le
  have src := valid.src_le
  have fits := valid.fits
  have some := valid.some
  simp only [AlignedAllocationData.address] at dst src
  have first (offset : ℕ) (fits : offset < 2 ^ 64) : add64 0 offset = offset := by
    rw [add64, Word.add_eq (by omega), Nat.zero_add]
  have before : add64 c.parts.leftSize c.parts.middleSizeBytes =
      c.parts.leftSize + c.parts.middleSizeBytes := Word.add_eq (by omega)
  have optional (condition : Prop) [Decidable condition] (piece : Piece) :
      (if condition then [piece] else []).map c.launch =
        if condition then [c.launch piece] else [] := by
    by_cases holds : condition <;> simp [holds]
  simp only [CopyParts.pieces, List.map_append, optional, launch, first c.dst.offset (by omega),
    first c.src.offset (by omega), ← before]
  rfl

section Launch

variable {p : Piece}

/-- How many work items the launch for a part has. -/
def launched (c : CopyCall) (p : Piece) : ℕ := (c.launch p).groups * c.groupSizeX p

theorem Valid.groupSizeX (valid : c.Valid) (p : Piece) : c.groupSizeX p ∈ simdSizes := by
  rw [CopyCall.groupSizeX]
  split
  · exact valid.sideSimd
  · exact valid.middleSimd

/-- A copy with the narrow arguments is shorter than they can count. -/
theorem bits_cases (c : CopyCall) : c.bits = 64 ∨ c.bits = 32 ∧ c.size < 2 ^ 32 := by
  rw [bits]
  by_cases wide : (c.isHeapless || c.isStateless) = true
  · exact Or.inl (if_pos wide)
  · refine Or.inr ⟨if_neg wide, ?_⟩
    simp only [isStateless, Bool.or_eq_true, decide_eq_true_eq, not_or] at wide
    have small : ¬ c.size ≥ 4 * MemoryConstants.gigaByte := wide.2.2
    simp only [MemoryConstants.gigaByte, MemoryConstants.megaByte, MemoryConstants.kiloByte] at small
    omega

theorem Valid.size_lt (valid : c.Valid) : c.size < 2 ^ c.bits := by
  rcases c.bits_cases with wide | ⟨narrow, small⟩
  · rw [wide]
    exact valid.fits
  · rwa [narrow]

/-- The groups of a launch, as far as a simd size is one of those that exist. -/
theorem launched_cases (valid : c.Valid) (part : c.IsPart p) :
    c.launched p ≤ 2 ^ c.bits ∧
      (p.size / p.elementSize ≤ c.launched p ↔ p.size ≤ c.maxLaunch p) := by
  have simd := valid.groupSizeX p
  have inside := part.inside
  have fits := valid.fits
  have groups : (c.launch p).groups = add64 p.size (c.groupSizeX p * p.elementSize - 1) /
      (c.groupSizeX p * p.elementSize) % 2 ^ 32 := rfl
  have element : p.elementSize = 1 ∨ p.elementSize = 16 ∧ 16 ∣ p.size :=
    part.whole.imp_right fun wide => ⟨wide.1, wide.2.1⟩
  rw [launched, maxLaunch, groups, add64, Word.add]
  generalize c.groupSizeX p = simdSize at simd ⊢
  simp only [simdSizes, List.mem_cons, List.not_mem_nil, or_false] at simd
  -- with the sizes at hand everything is linear
  rcases c.bits_cases with wide | ⟨narrow, small⟩
  · rw [wide]
    rcases element with one | ⟨sixteen, aligned⟩
    · rw [one]
      rcases simd with rfl | rfl | rfl | rfl <;> omega
    · rw [sixteen]
      rcases simd with rfl | rfl | rfl | rfl <;> omega
  · rw [narrow]
    rcases element with one | ⟨sixteen, aligned⟩
    · rw [one]
      rcases simd with rfl | rfl | rfl | rfl <;> omega
    · rw [sixteen]
      rcases simd with rfl | rfl | rfl | rfl <;> omega

theorem launch_transfers (valid : c.Valid) (part : c.IsPart p) : (c.launch p).transfers =
    elements (c.dst.alignedAllocationPtr + (p.start + c.dst.offset) % 2 ^ c.bits)
      (c.src.alignedAllocationPtr + (p.start + c.src.offset) % 2 ^ c.bits) p.elementSize
      (min (p.size / p.elementSize) (c.launched p)) := by
  have bound := (launched_cases valid part).1
  have inside := part.inside
  have some := part.some
  have dst := valid.dst_le
  have src := valid.src_le
  simp only [AlignedAllocationData.address] at dst src
  have dstOffset : add64 p.start c.dst.offset = p.start + c.dst.offset := Word.add_eq (by omega)
  have srcOffset : add64 p.start c.src.offset = p.start + c.src.offset := Word.add_eq (by omega)
  have elems : p.size / p.elementSize < 2 ^ c.bits :=
    Nat.lt_of_le_of_lt (Nat.le_trans (Nat.div_le_self _ _) (by omega)) valid.size_lt
  rw [← elements_guarded, CopyLaunch.transfers]
  change List.filterMap _ (List.range (c.launched p)) = _
  apply List.filterMap_congr
  intro i member
  have small : i < 2 ^ c.bits := Nat.lt_of_lt_of_le (List.mem_range.mp member) bound
  have gid : i % 2 ^ (c.launch p).argumentBits = i := Nat.mod_eq_of_lt small
  have limit : (c.launch p).elems % 2 ^ (c.launch p).argumentBits = p.size / p.elementSize :=
    Nat.mod_eq_of_lt elems
  simp only [CopyLaunch.workItem, gid, limit, ← dstOffset, ← srcOffset]
  rfl

/-- Where the launch for a part writes and reads, when the part fits. -/
theorem Fits.transfers (fit : c.Fits p) (valid : c.Valid) (part : c.IsPart p) :
    (c.launch p).transfers = elements (c.dst.address + p.start) (c.src.address + p.start)
      p.elementSize (p.size / p.elementSize) := by
  have covered := (launched_cases valid part).2.mpr fit.groups
  rw [launch_transfers valid part, Nat.mod_eq_of_lt fit.dstOffset, Nat.mod_eq_of_lt fit.srcOffset,
    Nat.min_eq_left covered, AlignedAllocationData.address, AlignedAllocationData.address]
  congr 1 <;> omega

theorem IsPart.elementSize_pos (part : c.IsPart p) : 0 < p.elementSize := by
  rcases part.whole with one | ⟨sixteen, _⟩
  · omega
  · rw [sixteen]
    decide

theorem IsPart.whole_elements (part : c.IsPart p) : p.size / p.elementSize * p.elementSize = p.size := by
  apply Nat.div_mul_cancel
  rcases part.whole with one | ⟨sixteen, aligned, _⟩
  · exact one ▸ Nat.one_dvd _
  · exact sixteen ▸ aligned

/-- A launch copies no more than its part. -/
theorem bytes_le (valid : c.Valid) (part : c.IsPart p) : bytes (c.launch p).transfers ≤ p.size := by
  rw [launch_transfers valid part, bytes_elements]
  calc min (p.size / p.elementSize) (c.launched p) * p.elementSize
      ≤ p.size / p.elementSize * p.elementSize := Nat.mul_le_mul_right _ (Nat.min_le_left _ _)
    _ = p.size := part.whole_elements

theorem groups_of_bytes (valid : c.Valid) (part : c.IsPart p)
    (all : p.size ≤ bytes (c.launch p).transfers) : p.size ≤ c.maxLaunch p := by
  rw [launch_transfers valid part, bytes_elements, ← part.whole_elements] at all
  apply (launched_cases valid part).2.mp
  have count := Nat.le_of_mul_le_mul_right all part.elementSize_pos
  rw [part.whole_elements] at count
  omega

end Launch

/-- A start that is cut to the width of the arguments comes out in front of the copy. -/
theorem offset_fits {bits start offset : ℕ} (small : start < 2 ^ bits)
    (behind : offset ≤ (start + offset) % 2 ^ bits) : start + offset < 2 ^ bits := by
  by_contra wraps
  have bound : offset < 2 ^ bits :=
    Nat.lt_of_le_of_lt behind (Nat.mod_lt _ (Nat.two_pow_pos bits))
  rw [Nat.mod_eq_sub_mod (Nat.le_of_not_lt wraps), Nat.mod_eq_of_lt (by omega)] at behind
  omega

/-- What is cut from an offset would be more than a copy is shifted by. -/
theorem source_fits {bits offset shift : ℕ} (small : shift < 2 ^ bits)
    (read : offset % 2 ^ bits + shift = offset) : offset < 2 ^ bits ∧ shift = 0 := by
  by_cases fits : offset < 2 ^ bits
  · rw [Nat.mod_eq_of_lt fits] at read
    exact ⟨fits, by omega⟩
  · have split := Nat.div_add_mod offset (2 ^ bits)
    have quotient : 1 ≤ offset / 2 ^ bits :=
      (Nat.one_le_div_iff (Nat.two_pow_pos bits)).mpr (Nat.le_of_not_lt fits)
    have whole := Nat.mul_le_mul_left (2 ^ bits) quotient
    omega

section Exactness

variable (valid : c.Valid) (split : c.Split)
include valid split

theorem launches_transfers : c.appendMemoryCopy.launches.flatMap CopyLaunch.transfers =
    c.parts.pieces.flatMap fun p => (c.launch p).transfers := by
  rw [launches_eq valid split, List.flatMap_map]

/-- Parts that all fit are copied one behind the other. -/
theorem copied_of_fits (fits : ∀ p ∈ c.parts.pieces, c.Fits p) :
    Transfers.Exact (c.appendMemoryCopy.launches.flatMap CopyLaunch.transfers) c.dst.address
      c.src.address c.size := by
  have isPart := split.isPart
  rw [launches_transfers valid split]
  apply exact_of_links
  · have links := split.pieces_links
    generalize c.parts.pieces = pieces at fits isPart links
    suffices go : ∀ lo, Tiling.Links (pieces.map Piece.span) lo c.size →
        Tiling.Links ((pieces.flatMap fun p => (c.launch p).transfers).map Transfer.span)
          (c.dst.address + lo) (c.dst.address + c.size) from go 0 links
    clear links
    intro lo links
    induction pieces generalizing lo with
    | nil => exact congrArg _ links
    | cons p pieces ih =>
      obtain ⟨fit, fits⟩ := List.forall_mem_cons.mp fits
      obtain ⟨part, isPart⟩ := List.forall_mem_cons.mp isPart
      obtain ⟨start, rest⟩ := links
      rw [List.flatMap_cons, List.map_append, fit.transfers valid part]
      apply Tiling.links_append.mpr
      refine ⟨_, ?_, ih fits isPart _ rest⟩
      have run := @elements_links (c.dst.address + p.start) (c.src.address + p.start)
        p.elementSize (p.size / p.elementSize)
      rw [part.whole_elements] at run
      obtain rfl : p.start = lo := start
      rwa [Nat.add_assoc] at run
  · intro t member
    obtain ⟨p, piece, inside⟩ := List.mem_flatMap.mp member
    rw [(fits p piece).transfers valid (isPart p piece)] at inside
    have := elements_distance t inside
    omega

/-- In an exact copy no launch copies less than its part. -/
theorem groups_of_copied {src : ℕ} (copied : Transfers.Exact (c.appendMemoryCopy.launches.flatMap
    CopyLaunch.transfers) c.dst.address src c.size) :
    ∀ p ∈ c.parts.pieces, p.size ≤ c.maxLaunch p := by
  have isPart := split.isPart
  rw [launches_transfers valid split] at copied
  have some : ∀ t ∈ c.parts.pieces.flatMap fun p => (c.launch p).transfers, 0 < t.length := by
    intro t member
    obtain ⟨p, piece, inside⟩ := List.mem_flatMap.mp member
    rw [launch_transfers valid (isPart p piece)] at inside
    rw [elements_length t inside]
    exact (isPart p piece).elementSize_pos
  have total := copied.bytes_eq some
  rw [bytes_flatMap, ← split.sum, ← c.parts.pieces_size] at total
  intro p piece
  apply groups_of_bytes valid (isPart p piece)
  by_contra short
  have less := List.sum_lt_sum _ Piece.size
    (fun q member => bytes_le valid (isPart q member)) ⟨p, piece, Nat.lt_of_not_le short⟩
  omega

/-- In an exact copy every part fits, and the source is read from where it is. -/
theorem fits_of_copied (copied : Transfers.Exact (c.appendMemoryCopy.launches.flatMap
    CopyLaunch.transfers) c.dst.address (c.srcMemory.address c.srcptr) c.size) :
    ∀ p ∈ c.parts.pieces, c.Fits p ∧ c.srcMemory.shift c.srcptr = 0 := by
  have groups := groups_of_copied valid split copied
  rw [launches_transfers valid split] at copied
  intro p piece
  have part := split.isPart p piece
  have covered := (launched_cases valid part).2.mpr (groups p piece)
  have count : 0 < p.size / p.elementSize := by
    have whole := part.whole_elements
    have some := part.some
    by_contra none
    rw [Nat.eq_zero_of_not_pos none] at whole
    omega
  -- the first transfer of the launch lies in the destination, and at the right distance
  have first : Transfer.mk (c.dst.alignedAllocationPtr + (p.start + c.dst.offset) % 2 ^ c.bits)
      (c.src.alignedAllocationPtr + (p.start + c.src.offset) % 2 ^ c.bits) p.elementSize ∈
      (c.launch p).transfers := by
    rw [launch_transfers valid part, Nat.min_eq_left covered]
    exact first_element count
  have member : _ ∈ c.parts.pieces.flatMap fun p => (c.launch p).transfers :=
    List.mem_flatMap_of_mem piece first
  have behind := (copied.inside member part.elementSize_pos).1
  have distance := copied.distance _ member
  have inside := part.inside
  have some := part.some
  have small : p.start < 2 ^ c.bits := Nat.lt_of_le_of_lt (by omega) valid.size_lt
  simp only [AlignedAllocationData.address] at behind distance
  have dstFits : p.start + c.dst.offset < 2 ^ c.bits := offset_fits small (by omega)
  rw [Nat.mod_eq_of_lt dstFits] at distance
  have located := valid.src_eq.2
  simp only [AlignedAllocationData.address] at located
  have near := PointedTo.shift_lt c.srcptr c.srcMemory
  have word : 2 ^ 2 ≤ 2 ^ c.bits := by
    rcases c.bits_cases with bits | ⟨bits, _⟩ <;> rw [bits] <;> decide
  obtain ⟨srcFits, unshifted⟩ := @source_fits c.bits (p.start + c.src.offset)
    (c.srcMemory.shift c.srcptr) (by omega) (by omega)
  exact ⟨⟨groups p piece, dstFits, srcFits⟩, unshifted⟩

/-- Wide elements are used from an aligned address on either side, even where an offset is cut. -/
theorem aligned : ∀ l ∈ c.appendMemoryCopy.launches, l.elementSize = middleElSize →
    ∀ t ∈ l.transfers, middleElSize ∣ t.dst ∧ 4 ∣ t.src := by
  rw [launches_eq valid split]
  intro l launched wide t member
  obtain ⟨p, piece, rfl⟩ := List.mem_map.mp launched
  have part := split.isPart p piece
  have sixteen : p.elementSize = 16 := wide
  rw [launch_transfers valid part] at member
  obtain ⟨i, _, rfl⟩ := List.mem_map.mp member
  have dstElements := (PointedTo.address_mod valid.dstMapped).2 valid.inPlace
  have srcAlignment := (PointedTo.address_mod valid.srcMapped).1
  rw [PointedTo.shift_eq_zero_iff.mpr fun copied => absurd copied valid.inPlace, Nat.add_zero,
    ← valid.dst_address] at dstElements
  rw [← valid.src_eq.2] at srcAlignment
  simp only [AlignedAllocationData.address] at dstElements srcAlignment
  simp only [middleElSize]
  rcases part.whole with one | ⟨_, _, dstAligned, srcAligned⟩
  · omega
  · simp only [middleElSize] at dstAligned
    rcases c.bits_cases with bits | ⟨bits, _⟩ <;> rw [bits, sixteen] <;> constructor <;> omega

theorem announced : c.appendMemoryCopy.numKernelsInSplitLaunch =
    c.appendMemoryCopy.launches.length := by
  rw [launches_eq valid split, List.length_map, CopyParts.pieces_length, ← split.counted]
  rfl

theorem exact_iff_fits : c.appendMemoryCopy.Exact c ↔
    (∀ p ∈ c.parts.pieces, c.Fits p) ∧ (c.srcMemory.Copied → 4 ∣ c.srcptr) := by
  rw [← PointedTo.shift_eq_zero_iff]
  constructor
  · intro all
    have copied := all.copied
    rw [← valid.dst_address] at copied
    have every := fits_of_copied valid split copied
    refine ⟨fun p piece => (every p piece).1, ?_⟩
    have links := split.pieces_links
    cases pieces : c.parts.pieces with
    | nil =>
      rw [pieces] at links
      exact absurd valid.some (Nat.not_lt.mpr (Nat.le_of_eq links.symm))
    | cons p rest => exact (every p (pieces ▸ List.mem_cons_self)).2
  · rintro ⟨fits, unshifted⟩
    have copied := copied_of_fits valid split fits
    rw [valid.dst_address, valid.src_eq.2, unshifted, Nat.add_zero] at copied
    exact ⟨copied, aligned valid split, announced valid split⟩

end Exactness

/-! The same in terms of what the call is given. -/

/-- The distance to the first cache line of the destination. -/
def head (c : CopyCall) : ℕ := toCacheLine c.dstptr

/-- What the destination has behind its last cache line boundary. -/
def tail (c : CopyCall) : ℕ := (c.dstptr + c.size) % cacheLineSize

/-- Where the last part of the copy starts: at the last cache line boundary, if something is
behind it, else at the first one, if the source is aligned there. -/
def lastStart (c : CopyCall) : ℕ :=
  if c.forceNonWalkerSplitMemoryCopy ∨ c.size ≤ c.head then 0
  else if 0 < c.tail then c.size - c.tail
  else if 4 ∣ c.srcptr + c.head then c.head else 0

structure OffsetsFit (c : CopyCall) : Prop where
  dst : c.lastStart + c.dstMemory.distance c.dstptr < 2 ^ 32
  src : c.lastStart + c.srcMemory.distance c.srcptr < 2 ^ 32

def GroupsFit (c : CopyCall) : Prop :=
  if c.forceNonWalkerSplitMemoryCopy then c.size ≤ (2 ^ 32 - 1) * c.sideSimdSize
  else if 4 ∣ c.srcptr + c.head then
    c.size - c.head - c.tail ≤ (2 ^ 32 - 1) * c.middleSimdSize * middleElSize
  else c.size - c.tail ≤ (2 ^ 32 - 1) * c.sideSimdSize

/-- What fitting means for a part of bytes and for one of wide elements. -/
theorem fits_iff (valid : c.Valid) {start size elementSize : ℕ} (inside : start < c.size) :
    c.Fits ⟨start, size, elementSize⟩ ↔
      size ≤ c.maxLaunch ⟨start, size, elementSize⟩ ∧
      (c.bits = 32 → start + c.dstMemory.distance c.dstptr < 2 ^ 32 ∧
        start + c.srcMemory.distance c.srcptr < 2 ^ 32) := by
  rw [← valid.dst_offset, ← valid.src_eq.1]
  have dst := valid.dst_le
  have src := valid.src_le
  simp only [AlignedAllocationData.address] at dst src
  constructor
  · intro fit
    refine ⟨fit.groups, fun narrow => ?_⟩
    have dstFits := fit.dstOffset
    have srcFits := fit.srcOffset
    rw [narrow] at dstFits srcFits
    exact ⟨dstFits, srcFits⟩
  · rintro ⟨groups, narrow⟩
    rcases c.bits_cases with bits | ⟨bits, _⟩
    · refine ⟨groups, ?_, ?_⟩ <;> rw [bits] <;> change start + _ < _ <;> omega
    · obtain ⟨dstFits, srcFits⟩ := narrow bits
      refine ⟨groups, ?_, ?_⟩ <;> rw [bits] <;> assumption

theorem offsetsFit_iff : c.OffsetsFit ↔
    c.lastStart + c.dstMemory.distance c.dstptr < 2 ^ 32 ∧
      c.lastStart + c.srcMemory.distance c.srcptr < 2 ^ 32 :=
  ⟨fun fit => ⟨fit.dst, fit.src⟩, fun fit => ⟨fit.1, fit.2⟩⟩

theorem simd_pos {simdSize : ℕ} (simd : simdSize ∈ simdSizes) : 0 < simdSize := by
  simp only [simdSizes, List.mem_cons, List.not_mem_nil, or_false] at simd
  omega

section Long

variable (bytes : c.forceNonWalkerSplitMemoryCopy = false)
include bytes

theorem lastStart_long (long : c.head < c.size) : c.lastStart =
    if 0 < c.tail then c.size - c.tail else if 4 ∣ c.srcptr + c.head then c.head else 0 :=
  if_neg (by simp [bytes, long])

theorem groupsFit_walker : c.GroupsFit ↔ if 4 ∣ c.srcptr + c.head then
    c.size - c.head - c.tail ≤ (2 ^ 32 - 1) * c.middleSimdSize * middleElSize
    else c.size - c.tail ≤ (2 ^ 32 - 1) * c.sideSimdSize := by
  rw [GroupsFit, bytes, if_neg (by decide)]

end Long

theorem tail_le (long : c.head < c.size) : c.tail ≤ c.size - c.head := by
  have line := toCacheLine_dvd c.dstptr
  simp only [tail, head, cacheLineSize] at line long ⊢
  omega

section Inputs

variable (valid : c.Valid) (bytes : c.forceNonWalkerSplitMemoryCopy = false)
include valid bytes

theorem fits_iff_short (short : c.size ≤ c.head) : (∀ p ∈ c.parts.pieces, c.Fits p) ↔
    (c.bits = 32 → c.OffsetsFit) ∧ c.GroupsFit := by
  have side := simd_pos valid.sideSimd
  have some := valid.some
  have near : c.head < 64 := toCacheLine_lt c.dstptr
  have parts : c.parts = ⟨c.size, 0, 0, countKernels c.size 0 0⟩ := by
    rw [CopyCall.parts, bytes, splitCopy_short short]
  have start : c.lastStart = 0 := if_pos (Or.inr short)
  have groups : c.GroupsFit := by
    rw [groupsFit_walker bytes]
    by_cases elements : 4 ∣ c.srcptr + c.head
    · rw [if_pos elements]
      omega
    · rw [if_neg elements]
      omega
  have first : c.size ≤ c.maxLaunch ⟨0, c.size, 1⟩ := by
    simp only [maxLaunch, CopyCall.groupSizeX, if_true]
    omega
  rw [CopyParts.forall_pieces, offsetsFit_iff, start, parts, fits_iff valid some]
  simp [some, groups, first]

variable (long : c.head < c.size)
include long

theorem fits_iff_long : (∀ p ∈ c.parts.pieces, c.Fits p) ↔
    (c.bits = 32 → c.OffsetsFit) ∧ c.GroupsFit := by
  have side := simd_pos valid.sideSimd
  have near : c.head < 64 := toCacheLine_lt c.dstptr
  have last : c.tail < 64 := Nat.mod_lt _ (by decide)
  have body := tail_le long
  have parts := @splitCopy_long c.dstptr c.srcptr c.size long valid.fits
  rw [← bytes, ← CopyCall.parts] at parts
  change c.parts = if 4 ∣ c.srcptr + c.head then
    ⟨c.head, c.size - c.head - c.tail, c.tail, _⟩ else ⟨c.size - c.tail, 0, c.tail, _⟩ at parts
  rw [CopyParts.forall_pieces, offsetsFit_iff, lastStart_long bytes long,
    groupsFit_walker bytes]
  by_cases elements : 4 ∣ c.srcptr + c.head
  · rw [if_pos elements] at parts ⊢
    rw [if_pos elements]
    simp only [parts]
    rw [imp_congr_right fun _ => fits_iff valid valid.some,
      imp_congr_right fun _ => fits_iff valid long,
      imp_congr_right fun some : c.tail > 0 => fits_iff valid (show _ < c.size by omega)]
    simp only [maxLaunch, CopyCall.groupSizeX, if_true, middleElSize, Nat.reduceEqDiff, if_false]
    by_cases behind : 0 < c.tail
    · rw [if_pos behind]
      omega
    · rw [if_neg behind]
      omega
  · rw [if_neg elements] at parts ⊢
    rw [if_neg elements]
    simp only [parts]
    rw [imp_congr_right fun _ => fits_iff valid valid.some,
      imp_congr_right fun some : c.tail > 0 => fits_iff valid (show _ < c.size by omega)]
    simp only [maxLaunch, CopyCall.groupSizeX, if_true]
    by_cases behind : 0 < c.tail
    · rw [if_pos behind]
      omega
    · rw [if_neg behind]
      omega

end Inputs

/-- The parts fit when the last start and the largest part do. -/
theorem fits_iff_inputs (valid : c.Valid) : (∀ p ∈ c.parts.pieces, c.Fits p) ↔
    (c.bits = 32 → c.OffsetsFit) ∧ c.GroupsFit := by
  cases force : c.forceNonWalkerSplitMemoryCopy with
  | true =>
    have parts : c.parts = ⟨c.size, 0, 0, 1⟩ := by rw [CopyCall.parts, force, splitCopy_force]
    have start : c.lastStart = 0 := if_pos (Or.inl force)
    have groups : c.GroupsFit ↔ c.size ≤ (2 ^ 32 - 1) * c.sideSimdSize := by
      rw [GroupsFit, force, if_pos rfl]
    rw [CopyParts.forall_pieces, offsetsFit_iff, start, groups, parts, fits_iff valid valid.some]
    simp [valid.some, maxLaunch, CopyCall.groupSizeX, and_comm]
  | false =>
    by_cases short : c.size ≤ c.head
    · exact fits_iff_short valid force short
    · exact fits_iff_long valid force (Nat.lt_of_not_le short)

/-- The kernels of a memory copy copy the range exactly if and only if no offset is cut to the
width of the arguments and no group count to that of a launch, and a source that was copied is
aligned for surface states. -/
theorem appendMemoryCopy_exact_iff (valid : c.Valid) : c.appendMemoryCopy.Exact c ↔
    (((c.isHeapless || c.isStateless) = false → c.OffsetsFit) ∧ c.GroupsFit) ∧
      (c.srcMemory.Copied → 4 ∣ c.srcptr) := by
  have narrow : c.bits = 32 ↔ (c.isHeapless || c.isStateless) = false := by
    rw [bits]
    cases c.isHeapless || c.isStateless <;> decide
  rw [exact_iff_fits valid (parts_split valid.some valid.fits), fits_iff_inputs valid, narrow]

/-- A small copy from system memory that was copied itself. -/
def nearStart : CopyCall where
  dstptr := 0x7f0000000044
  srcptr := 0x7e0000000100
  srcMemory := .internalHostMemory 0x7d0000000000
  size := 1000
  sideSimdSize := 32
  middleSimdSize := 32

theorem appendMemoryCopy_exact_nearStart : nearStart.Valid ∧
    nearStart.appendMemoryCopy.numKernelsInSplitLaunch = 3 ∧
    nearStart.appendMemoryCopy.Exact nearStart := by
  have valid : nearStart.Valid := by
    constructor
    case dstMapped => trivial
    case srcMapped => exact (by decide : MemoryConstants.pageSize ∣ 0x7d0000000000)
    case inPlace => rintro ⟨_, ⟨⟩⟩
    all_goals decide
  refine ⟨valid, by decide, (appendMemoryCopy_exact_iff valid).mpr ⟨⟨fun _ => ?_, ?_⟩, ?_⟩⟩
  · constructor <;> decide
  · exact (groupsFit_walker rfl).mpr (by decide)
  · exact fun _ => by decide

/-- A small copy four gigabytes into a host pointer that was imported as a whole. -/
def farInside : CopyCall where
  dstptr := 0x7f0100000000
  dstMemory := .imported 0x7f0000000000 0x7f0000000000
  srcptr := 0x7e0000000000
  size := 64
  sideSimdSize := 32
  middleSimdSize := 32

/-- A copy of four bytes from the third byte of a page that cannot be mapped. -/
def unalignedSource : CopyCall where
  dstptr := 0x7f0000000000
  srcptr := 0x7e0000000002
  srcMemory := .internalHostMemory 0x7d0000000000
  size := 4
  sideSimdSize := 32
  middleSimdSize := 32

/-- The offset is cut to 32 bits, and the copy goes to the start of the allocation; and the bytes
of a copied source are read two bytes behind it. -/
theorem appendMemoryCopy_inexact : (farInside.Valid ∧
    ⟨0x7f0000000000, 0x7e0000000000, 16⟩ ∈
      farInside.appendMemoryCopy.launches.flatMap CopyLaunch.transfers ∧
    ¬ farInside.appendMemoryCopy.Exact farInside) ∧
    unalignedSource.Valid ∧ ¬ unalignedSource.appendMemoryCopy.Exact unalignedSource := by
  refine ⟨⟨?_, ?_, fun exact => ?_⟩, ?_, fun exact => ?_⟩
  · constructor
    case dstMapped => exact ⟨by decide, by decide⟩
    case srcMapped => trivial
    case inPlace => rintro ⟨_, ⟨⟩⟩
    all_goals decide
  · decide +kernel
  · have behind := (exact.copied.inside (show Transfer.mk 0x7f0000000000 0x7e0000000000 16 ∈
      farInside.appendMemoryCopy.launches.flatMap CopyLaunch.transfers by decide +kernel)
      (by decide)).1
    revert behind
    decide
  · constructor
    case dstMapped => trivial
    case srcMapped => exact (by decide : MemoryConstants.pageSize ∣ 0x7d0000000000)
    case inPlace => rintro ⟨_, ⟨⟩⟩
    all_goals decide
  · have distance := exact.copied.distance ⟨0x7f0000000000, 0x7d0000000002, 1⟩ (by decide +kernel)
    revert distance
    decide

end CopyCall

end ComputeRuntime.CmdList
