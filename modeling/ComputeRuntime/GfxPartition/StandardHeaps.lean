import ComputeRuntime.GfxPartition.Heaps32

/-! The heaps behind the 32-bit ones, and the shares of two of them that go to each root device. -/
namespace ComputeRuntime

open Placement

namespace GfxHeap

/-- A heap of size 0 hands out nothing. -/
theorem init_handsOut_empty (base allocationAlignment : Nat) :
    (GfxHeap.init base 0 allocationAlignment).handsOut = ∅ := by
  have stay : add64 (add64 base (margin allocationAlignment)) 0 =
      add64 base (margin allocationAlignment) := Word.add_eq (Word.add_lt 64 _ _)
  have small : ¬ 2 * margin allocationAlignment < 0 := Nat.not_lt_zero _
  rw [init_eq, if_neg small, gap_handsOut rfl rfl]
  simp only [HeapAllocator.create, stay]
  exact Set.Ico_self _

end GfxHeap

namespace GfxPartition

/-- Where the heaps behind the 32-bit ones begin, and what each root device gets of them. -/
structure StandardLayout where
  standard : Nat
  standardSize : Nat
  standard64KB : Nat
  share64KB : Nat
  standard2MB : Nat
  share2MB : Nat
  deriving DecidableEq

/-- The layout behind `gfxBase`, the end of the 32-bit heaps. -/
def standardLayout (gpuAddressSpace numRootDevices gfxBase gfxTop : Nat) : StandardLayout :=
  let standard := alignUp gfxBase heapGranularity2MB
  let sizes := standardSizes gpuAddressSpace standard gfxTop
  { standard := standard
    standardSize := sizes.maxStandardHeapSize
    standard64KB := standard + sizes.maxStandardHeapSize
    share64KB := alignDown (sizes.maxStandard64HeapSize / numRootDevices) heapGranularity
    standard2MB := standard + sizes.maxStandardHeapSize + sizes.maxStandard64HeapSize
    share2MB := alignDown (sizes.maxStandard2MBHeapSize / numRootDevices) heapGranularity2MB }

/-- The sizes of the three heaps fit what is left of the range; a heap of size 0 leaves it
empty. -/
structure SizesFit (sizes : StandardSizes) (room : Nat) : Prop where
  sum : sizes.maxStandardHeapSize + sizes.maxStandard64HeapSize + sizes.maxStandard2MBHeapSize ≤
    room
  aligned : heapGranularity2MB ∣ sizes.maxStandardHeapSize
  empty : sizes.maxStandard2MBHeapSize = 0 →
    sizes.maxStandardHeapSize = 0 ∧ sizes.maxStandard64HeapSize = 0
  granule : sizes.maxStandard2MBHeapSize = 0 ∨
    MemoryConstants.megaByte ≤ sizes.maxStandard2MBHeapSize

theorem standardSizes_fit {gpuAddressSpace gfxBase gfxTop : Nat} (ordered : gfxBase ≤ gfxTop)
    (fits : gfxTop < 2 ^ 64) :
    SizesFit (standardSizes gpuAddressSpace gfxBase gfxTop) (gfxTop - gfxBase) := by
  have left : sub64 gfxTop gfxBase = gfxTop - gfxBase := Word.sub_eq ordered fits
  have third : (gfxTop - gfxBase) / 3 < 2 ^ 64 := by omega
  have below := alignDown_le isPow2_pageSize2M third
  have aligned := alignDown_dvd isPow2_pageSize2M third
  unfold standardSizes
  simp only [left, heapGranularity2MB]
  obtain ⟨k, size⟩ := aligned
  rw [size] at below ⊢
  have mega : 2 * MemoryConstants.megaByte = 2097152 := by decide
  have half : MemoryConstants.megaByte = 1048576 := by decide
  rw [mega] at below ⊢
  split
  next =>
    have double : mul64 (2097152 * k) 2 = 2097152 * k * 2 := Word.mul_eq (by omega)
    rw [double]
    refine ⟨?_, ?_, ?_, ?_⟩
    · simp only
      omega
    · exact Dvd.intro _ (Nat.mul_assoc 2097152 k 2).symm
    · simp only
      omega
    · simp only [half]
      omega
  next =>
    refine ⟨?_, ?_, ?_, ?_⟩
    · simp only
      omega
    · exact Dvd.intro _ rfl
    · simp only
      omega
    · simp only [half]
      omega

/-- The shares of all root devices fit the heap they are cut from. -/
theorem share_le {size numRootDevices alignment : Nat} (pow2 : IsPow2 alignment)
    (fits : size < 2 ^ 64) :
    numRootDevices * alignDown (size / numRootDevices) alignment ≤ size := by
  have smaller : size / numRootDevices < 2 ^ 64 := Nat.lt_of_le_of_lt (Nat.div_le_self _ _) fits
  calc numRootDevices * alignDown (size / numRootDevices) alignment
      ≤ numRootDevices * (size / numRootDevices) :=
        Nat.mul_le_mul_left _ (alignDown_le pow2 smaller)
    _ ≤ size := Nat.mul_div_le _ _

/-- The share of one of them ends inside the heap. -/
theorem share_inside {size numRootDevices rootDeviceIndex alignment : Nat}
    (pow2 : IsPow2 alignment) (fits : size < 2 ^ 64) (listed : rootDeviceIndex < numRootDevices) :
    rootDeviceIndex * alignDown (size / numRootDevices) alignment +
      alignDown (size / numRootDevices) alignment ≤ size := by
  rw [← Nat.succ_mul]
  exact (Nat.mul_le_mul_right _ listed).trans (share_le pow2 fits)

/-- What the second part of `initHeaps` leaves behind. -/
structure LaidStandard (args : InitArgs) (layout : StandardLayout) (p q : GfxPartition) :
    Prop where
  standard : q.heaps .heapStandard =
    .init layout.standard layout.standardSize MemoryConstants.pageSize
  standard64KB : q.heaps .heapStandard64KB =
    .init (layout.standard64KB + args.rootDeviceIndex * layout.share64KB) layout.share64KB
      MemoryConstants.pageSize64k
  standard2MB : q.heaps .heapStandard2MB =
    .init (layout.standard2MB + args.rootDeviceIndex * layout.share2MB) layout.share2MB
      (2 * MemoryConstants.megaByte)
  other : ∀ n, n ≠ .heapStandard → n ≠ .heapStandard64KB → n ≠ .heapStandard2MB →
    q.heaps n = p.heaps n
  reserved : q.reservedCpuAddressRangeForHeapSvm = p.reservedCpuAddressRangeForHeapSvm

/-- The three heaps set as `layout` has them. -/
def layStandard (args : InitArgs) (layout : StandardLayout) (p : GfxPartition) : GfxPartition :=
  ((p.heapInit .heapStandard layout.standard layout.standardSize).heapInitWithAllocationAlignment
    .heapStandard64KB (layout.standard64KB + args.rootDeviceIndex * layout.share64KB)
    layout.share64KB MemoryConstants.pageSize64k).heapInitWithAllocationAlignment
    .heapStandard2MB (layout.standard2MB + args.rootDeviceIndex * layout.share2MB)
    layout.share2MB (2 * MemoryConstants.megaByte)

theorem layStandard_laid (args : InitArgs) (layout : StandardLayout) (p : GfxPartition) :
    LaidStandard args layout p (layStandard args layout p) where
  standard := by simp [layStandard, heapInitWithAllocationAlignment, heapInit, setHeap]
  standard64KB := by simp [layStandard, heapInitWithAllocationAlignment, heapInit, setHeap]
  standard2MB := by simp [layStandard, heapInitWithAllocationAlignment, heapInit, setHeap]
  other := by
    intro n not1 not2 not3
    simp [layStandard, heapInitWithAllocationAlignment, heapInit, setHeap, not1, not2, not3]
  reserved := rfl

section Standard

variable {args : InitArgs} {gfxBase gfxTop : Nat} {p : GfxPartition}

/-- The numbers of a layout, in the order of the heaps. -/
structure LayoutFits (args : InitArgs) (layout : StandardLayout) (gfxBase gfxTop : Nat) :
    Prop where
  start : gfxBase ≤ layout.standard
  align : layout.standard < gfxBase + heapGranularity2MB
  aligned : heapGranularity2MB ∣ layout.standardSize
  next64KB : layout.standard64KB = layout.standard + layout.standardSize
  next2MB : layout.standard64KB ≤ layout.standard2MB
  inside64KB : layout.standard64KB + args.rootDeviceIndex * layout.share64KB + layout.share64KB ≤
    layout.standard2MB
  inside2MB : layout.standard2MB + args.rootDeviceIndex * layout.share2MB + layout.share2MB ≤
    gfxTop
  margin64KB : layout.standard2MB + heapGranularity ≤ gfxTop

theorem standardLayout_fits (listed : args.rootDeviceIndex < args.numRootDevices)
    (room : gfxBase + 3 * heapGranularity2MB ≤ gfxTop) (fits : gfxTop < 2 ^ 64) :
    LayoutFits args
      (standardLayout args.gpuAddressSpace args.numRootDevices gfxBase gfxTop) gfxBase gfxTop := by
  obtain ⟨granule, granule2MB, -⟩ := sizes_in_bytes
  have pow2 : IsPow2 heapGranularity2MB := isPow2_pageSize2M
  have high : gfxBase + heapGranularity2MB ≤ 2 ^ 64 := by omega
  have start := le_alignUp pow2 high
  have align := alignUp_lt pow2 high
  have granulePow2 : IsPow2 heapGranularity := isPow2_pageSize64k
  have ordered : alignUp gfxBase heapGranularity2MB ≤ gfxTop := by omega
  obtain ⟨sum, aligned, empty, granular⟩ : SizesFit (standardSizes args.gpuAddressSpace
      (alignUp gfxBase heapGranularity2MB) gfxTop)
      (gfxTop - alignUp gfxBase heapGranularity2MB) := standardSizes_fit ordered fits
  simp only [standardLayout]
  generalize standardSizes args.gpuAddressSpace (alignUp gfxBase heapGranularity2MB) gfxTop =
    sizes at *
  have inside64KB := share_inside granulePow2 (Nat.lt_of_le_of_lt (show
    sizes.maxStandard64HeapSize ≤ gfxTop by omega) fits) listed
  have inside2MB := share_inside pow2 (Nat.lt_of_le_of_lt (show
    sizes.maxStandard2MBHeapSize ≤ gfxTop by omega) fits) listed
  have half : MemoryConstants.megaByte = 1048576 := by decide
  constructor <;> simp only <;> first | assumption | omega

/-- The second part of `initHeaps` always returns, since there is a root device to share for. -/
theorem initStandardHeaps_laid (listed : args.rootDeviceIndex < args.numRootDevices)
    (room : gfxBase + 3 * heapGranularity2MB ≤ gfxTop) (fits : gfxTop < 2 ^ 64) :
    ∃ q, p.initStandardHeaps args gfxTop gfxBase = .ok q ∧
      LaidStandard args
        (standardLayout args.gpuAddressSpace args.numRootDevices gfxBase gfxTop) p q := by
  obtain ⟨start, align, aligned, next64KB, next2MB, inside64KB, inside2MB, margin⟩ :=
    standardLayout_fits listed room fits
  have devices : args.numRootDevices ≠ 0 := by omega
  simp only [standardLayout] at start align next64KB next2MB inside64KB inside2MB margin ⊢
  -- no sum of the code wraps
  generalize sizes : standardSizes args.gpuAddressSpace (alignUp gfxBase heapGranularity2MB)
    gfxTop = s at *
  have start64KB : add64 (alignUp gfxBase heapGranularity2MB) s.maxStandardHeapSize =
      alignUp gfxBase heapGranularity2MB + s.maxStandardHeapSize := Word.add_eq (by omega)
  have start2MB : add64 (alignUp gfxBase heapGranularity2MB + s.maxStandardHeapSize)
      s.maxStandard64HeapSize = alignUp gfxBase heapGranularity2MB + s.maxStandardHeapSize +
        s.maxStandard64HeapSize := Word.add_eq (by omega)
  generalize share64KB : alignDown (s.maxStandard64HeapSize / args.numRootDevices)
    heapGranularity = s64 at *
  generalize share2MB : alignDown (s.maxStandard2MBHeapSize / args.numRootDevices)
    heapGranularity2MB = s2 at *
  have offset64KB : mul64 args.rootDeviceIndex s64 = args.rootDeviceIndex * s64 :=
    Word.mul_eq (by omega)
  have offset2MB : mul64 args.rootDeviceIndex s2 = args.rootDeviceIndex * s2 :=
    Word.mul_eq (by omega)
  have base64KB : add64 (alignUp gfxBase heapGranularity2MB + s.maxStandardHeapSize)
      (args.rootDeviceIndex * s64) = alignUp gfxBase heapGranularity2MB + s.maxStandardHeapSize +
        args.rootDeviceIndex * s64 := Word.add_eq (by omega)
  have base2MB : add64 (alignUp gfxBase heapGranularity2MB + s.maxStandardHeapSize +
      s.maxStandard64HeapSize) (args.rootDeviceIndex * s2) =
        alignUp gfxBase heapGranularity2MB + s.maxStandardHeapSize + s.maxStandard64HeapSize +
          args.rootDeviceIndex * s2 := Word.add_eq (by omega)
  refine ⟨_, ?_, layStandard_laid args _ p⟩
  simp only [initStandardHeaps, checkedDiv_eq devices, sizes, layStandard]
  simp only [bind, Except.bind, share64KB, share2MB, start64KB, start2MB, offset64KB, offset2MB,
    base64KB, base2MB]

/-- The device's share of `heapStandard64KB`, moved up by the margin. -/
theorem LaidStandard.share64KB {layout : StandardLayout} {q : GfxPartition}
    (laid : LaidStandard args layout p q) (fits : LayoutFits args layout gfxBase gfxTop)
    (high : gfxTop < 2 ^ 64) :
    q.handsOut .heapStandard64KB ⊆ Set.Ico
      (layout.standard64KB + heapGranularity + args.rootDeviceIndex * layout.share64KB)
      (layout.standard64KB + heapGranularity + (args.rootDeviceIndex + 1) * layout.share64KB) := by
  have inside := fits.inside64KB
  have above := fits.margin64KB
  have margin : GfxHeap.margin MemoryConstants.pageSize64k = heapGranularity := by decide
  rw [handsOut, laid.standard64KB, Nat.succ_mul args.rootDeviceIndex]
  refine (GfxHeap.init_handsOut_subset (by omega)).trans ?_
  rw [margin]
  exact Set.Ico_subset_Ico (by omega) (by omega)

/-- The device's share of `heapStandard2MB`, without its margins. -/
theorem LaidStandard.share2MB {layout : StandardLayout} {q : GfxPartition}
    (laid : LaidStandard args layout p q) (fits : LayoutFits args layout gfxBase gfxTop)
    (high : gfxTop < 2 ^ 64)
    (large : layout.share2MB = 0 ∨ 2 * heapGranularity2MB < layout.share2MB) :
    q.handsOut .heapStandard2MB ⊆ Set.Ico
      (layout.standard2MB + heapGranularity2MB + args.rootDeviceIndex * layout.share2MB)
      (layout.standard2MB + (args.rootDeviceIndex + 1) * layout.share2MB) := by
  have inside := fits.inside2MB
  have margin : GfxHeap.margin (2 * MemoryConstants.megaByte) = heapGranularity2MB := by decide
  rw [handsOut, laid.standard2MB, Nat.succ_mul args.rootDeviceIndex]
  rcases large with none | large
  · rw [none, GfxHeap.init_handsOut_empty]
    exact Set.empty_subset _
  · rw [GfxHeap.init_handsOut (by rwa [margin]) (by omega), margin]
    exact Set.Ico_subset_Ico (by omega) (by omega)

theorem LaidStandard.standard_inside {layout : StandardLayout} {q : GfxPartition}
    (laid : LaidStandard args layout p q) (fits : LayoutFits args layout gfxBase gfxTop)
    (high : gfxTop < 2 ^ 64) :
    q.handsOut .heapStandard ⊆ Set.Ico layout.standard layout.standard64KB := by
  obtain ⟨granule, granule2MB, -⟩ := sizes_in_bytes
  have margin : GfxHeap.margin MemoryConstants.pageSize = heapGranularity := by decide
  obtain ⟨k, size⟩ := fits.aligned
  have next64KB := fits.next64KB
  have next2MB := fits.next2MB
  have above := fits.margin64KB
  rw [handsOut, laid.standard]
  rcases Nat.eq_zero_or_pos k with rfl | positive
  · rw [size, Nat.mul_zero, GfxHeap.init_handsOut_empty]
    exact Set.empty_subset _
  · have large : 2097152 ≤ layout.standardSize := by
      rw [size, granule2MB]
      omega
    rw [GfxHeap.init_handsOut (by omega) (by omega), margin]
    exact Set.Ico_subset_Ico (by omega) (by omega)

/-- The three heaps lie behind everything below `gfxBase`, up to `gfxTop`. -/
theorem LaidStandard.placed {layout : StandardLayout} {q : GfxPartition} {lo : Nat}
    {names : List HeapIndex} (laid : LaidStandard args layout p q)
    (fits : LayoutFits args layout gfxBase gfxTop) (high : gfxTop < 2 ^ 64)
    (large : layout.share2MB = 0 ∨ 2 * heapGranularity2MB < layout.share2MB)
    (before : Placed q.handsOut names lo gfxBase) :
    Placed q.handsOut (.heapStandard2MB :: .heapStandard64KB :: .heapStandard :: names) lo
      gfxTop := by
  obtain ⟨granule, granule2MB, -⟩ := sizes_in_bytes
  have next64KB := fits.next64KB
  have next2MB := fits.next2MB
  have inside64KB := fits.inside64KB
  have inside2MB := fits.inside2MB
  have margin := fits.margin64KB
  have first : Placed q.handsOut (.heapStandard :: names) lo layout.standard64KB :=
    (before.widen fits.start).next (laid.standard_inside fits high) (by omega)
  have second : Placed q.handsOut (.heapStandard64KB :: .heapStandard :: names) lo
      (layout.standard2MB + heapGranularity) := by
    refine first.next ((laid.share64KB fits high).trans ?_) (by omega)
    rw [Nat.succ_mul args.rootDeviceIndex]
    exact Set.Ico_subset_Ico (by omega) (by omega)
  refine second.next ((laid.share2MB fits high large).trans ?_) margin
  rw [Nat.succ_mul args.rootDeviceIndex]
  exact Set.Ico_subset_Ico (by omega) (by omega)

end Standard

end GfxPartition

end ComputeRuntime
