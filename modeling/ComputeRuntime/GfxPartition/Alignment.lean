import ComputeRuntime.GfxPartition.StandardHeaps

/-! The alignment of the heaps behind the 32-bit ones, which the initialisation checks in debug
builds only. Every step of the layout keeps it but one: a 57-bit GPU halves a size. -/
namespace ComputeRuntime

namespace GfxPartition

/-- What the debug checks of `init` ask for. -/
structure BasesAligned (p : GfxPartition) : Prop where
  standard : heapGranularity ∣ (p.heaps .heapStandard).base
  standard64KB : heapGranularity ∣ (p.heaps .heapStandard64KB).base
  standard2MB : heapGranularity2MB ∣ (p.heaps .heapStandard2MB).base

/-- What is left of a range behind its 32-bit heaps. -/
def roomBehind (range : Nat × Nat) : Nat :=
  sub64 range.2 (alignUp (add64 range.1 (4 * gfxHeap32Size)) heapGranularity2MB)

/-- The range of the heaps of a 57-bit GPU: a 57-bit processor reserves it, or has it from an
earlier device. -/
def range57 (platform : Platform) (os : OsMemory) (args : InitArgs) (p : GfxPartition) :
    Nat × Nat :=
  if platform.is32bit then (maxNBitValue 32 + 1, args.gfxTop)
  else if platform.cpuVirtualAddressSize = 57 ∧ platform.la57 then
    let range := (p.reserve48BitRange os).reservedCpuAddressRangeForHeapSvm
    (range.alignedPtr, add64 range.alignedPtr range.sizeToReserve)
  else (maxNBitValue 47 + 1, maxNBitValue 48 + 1)

/-- The third of the room is halved into parts of whole 2 MB. -/
def HalvesEvenly (range : Nat × Nat) : Prop :=
  Even (roomBehind range / (3 * heapGranularity2MB))

instance (range : Nat × Nat) : Decidable (HalvesEvenly range) := inferInstanceAs (Decidable (Even _))

section Bases

variable {platform : Platform} {os : OsMemory} {args : InitArgs} {p q : GfxPartition}
  {gfxBase gfxTop : Nat} {range : Nat × Nat}

theorem granule_dvd_word : heapGranularity2MB ∣ 2 ^ 64 := by decide

theorem granule_dvd_granule2MB : heapGranularity ∣ heapGranularity2MB := by decide

/-- Aligning up only reads the address modulo 2^64. -/
theorem alignUp_mod (x alignment : Nat) : alignUp (x % 2 ^ 64) alignment = alignUp x alignment := by
  simp only [alignUp, Word.add, Nat.mod_add_mod]

/-- The 32-bit heaps take 4 GB each, also where their addresses wrap. -/
theorem initHeaps32_gfxBase {names : List HeapIndex} {pool : Bool} {next : Nat}
    (placed : initHeaps32 pool names p gfxBase = .ok (q, next)) :
    next % 2 ^ 64 = (gfxBase + names.length * gfxHeap32Size) % 2 ^ 64 := by
  induction names generalizing p gfxBase with
  | nil =>
    obtain ⟨-, rfl⟩ := Prod.mk.inj (Except.ok.inj placed)
    simp
  | cons heap rest ih =>
    obtain ⟨r, -, placed⟩ := bind_eq_ok.mp placed
    have sum : gfxBase + gfxHeap32Size + rest.length * gfxHeap32Size =
        gfxBase + (heap :: rest).length * gfxHeap32Size := by
      rw [List.length_cons, Nat.succ_mul]
      omega
    rw [ih placed, ← sum]
    exact Nat.mod_add_mod ..

/-- Where the three heaps begin. -/
theorem initStandardHeaps_bases (set : p.initStandardHeaps args gfxTop gfxBase = .ok q) :
    let standard := alignUp gfxBase heapGranularity2MB
    let sizes := standardSizes args.gpuAddressSpace standard gfxTop
    let next := add64 standard sizes.maxStandardHeapSize
    (q.heaps .heapStandard).base = standard ∧
    (q.heaps .heapStandard64KB).base = add64 next (mul64 args.rootDeviceIndex
      (alignDown (sizes.maxStandard64HeapSize / args.numRootDevices) heapGranularity)) ∧
    (q.heaps .heapStandard2MB).base = add64 (add64 next sizes.maxStandard64HeapSize)
      (mul64 args.rootDeviceIndex
        (alignDown (sizes.maxStandard2MBHeapSize / args.numRootDevices) heapGranularity2MB)) := by
  obtain ⟨share64KB, divided64KB, set⟩ := bind_eq_ok.mp set
  obtain ⟨share2MB, divided2MB, set⟩ := bind_eq_ok.mp set
  obtain rfl := checkedDiv_ok divided64KB
  obtain rfl := checkedDiv_ok divided2MB
  cases set
  simp [heapInit, heapInitWithAllocationAlignment, setHeap, GfxHeap.init]

/-- The sizes of the heaps: the first one is made of whole granules in any layout, the second one
of a 57-bit GPU only where half the third is. -/
theorem standardSizes_granules (gpuAddressSpace standard gfxTop : Nat) :
    let sizes := standardSizes gpuAddressSpace standard gfxTop
    heapGranularity2MB ∣ sizes.maxStandardHeapSize ∧
    sizes.maxStandard64HeapSize < 2 ^ 64 ∧ sizes.maxStandard2MBHeapSize < 2 ^ 64 ∧
    (heapGranularity2MB ∣ sizes.maxStandard64HeapSize ↔
      (gpuAddressSpace = maxNBitValue 57 →
        Even (sub64 gfxTop standard / (3 * heapGranularity2MB)))) := by
  obtain ⟨-, granule2MB, -⟩ := sizes_in_bytes
  have word : sub64 gfxTop standard < 2 ^ 64 := Word.sub_lt 64 gfxTop standard
  have whole : alignDown (sub64 gfxTop standard / 3) heapGranularity2MB =
      sub64 gfxTop standard / (3 * heapGranularity2MB) * heapGranularity2MB := by
    rw [← Nat.div_div_eq_div_mul]
    exact alignDown_eq isPow2_pageSize2M (by omega)
  have small : sub64 gfxTop standard / (3 * heapGranularity2MB) * heapGranularity2MB < 2 ^ 64 := by
    exact Nat.lt_of_le_of_lt (Nat.le_of_eq whole.symm |>.trans (alignDown_le isPow2_pageSize2M
      (by omega))) (by omega)
  simp only [standardSizes, whole]
  generalize sub64 gfxTop standard / (3 * heapGranularity2MB) = third at *
  split
  next wide =>
    refine ⟨?_, by simp only; omega, by simp only; omega, ?_⟩
    · rw [mul64, Word.mul, Nat.dvd_mod_iff granule_dvd_word]
      exact Dvd.intro_left (2 * third) (by ring)
    · rw [Nat.even_iff]
      simp only [wide, true_imp_iff, granule2MB]
      omega
  next narrow =>
    refine ⟨Nat.dvd_mul_left .., small, small, ?_⟩
    simp only [narrow, false_imp_iff, iff_true]
    exact Nat.dvd_mul_left ..

/-- The bases are aligned whenever the second of the three heaps is made of whole granules. -/
theorem initStandardHeaps_aligned (set : p.initStandardHeaps args gfxTop gfxBase = .ok q) :
    q.BasesAligned ↔ (args.gpuAddressSpace = maxNBitValue 57 →
      Even (sub64 gfxTop (alignUp gfxBase heapGranularity2MB) / (3 * heapGranularity2MB))) := by
  obtain ⟨standard, standard64KB, standard2MB⟩ := initStandardHeaps_bases set
  obtain ⟨first, small64KB, small2MB, second⟩ := standardSizes_granules args.gpuAddressSpace
    (alignUp gfxBase heapGranularity2MB) gfxTop
  rw [← second]
  have start : heapGranularity2MB ∣ alignUp gfxBase heapGranularity2MB :=
    dvd_alignUp isPow2_pageSize2M gfxBase
  generalize standardSizes args.gpuAddressSpace (alignUp gfxBase heapGranularity2MB) gfxTop =
    sizes at *
  have next : heapGranularity2MB ∣
      add64 (alignUp gfxBase heapGranularity2MB) sizes.maxStandardHeapSize :=
    (Word.dvd_add_iff granule_dvd_word).mpr (Nat.dvd_add start first)
  have share64KB : heapGranularity ∣ mul64 args.rootDeviceIndex
      (alignDown (sizes.maxStandard64HeapSize / args.numRootDevices) heapGranularity) := by
    apply Word.dvd_mul (granule_dvd_granule2MB.trans granule_dvd_word)
    exact alignDown_dvd isPow2_pageSize64k (Nat.lt_of_le_of_lt (Nat.div_le_self ..) small64KB)
  have share2MB : heapGranularity2MB ∣ mul64 args.rootDeviceIndex
      (alignDown (sizes.maxStandard2MBHeapSize / args.numRootDevices) heapGranularity2MB) := by
    apply Word.dvd_mul granule_dvd_word
    exact alignDown_dvd isPow2_pageSize2M (Nat.lt_of_le_of_lt (Nat.div_le_self ..) small2MB)
  have base2MB : heapGranularity2MB ∣ (q.heaps .heapStandard2MB).base ↔
      heapGranularity2MB ∣ sizes.maxStandard64HeapSize := by
    rw [standard2MB, Word.dvd_add_iff granule_dvd_word, Nat.dvd_add_left share2MB,
      Word.dvd_add_iff granule_dvd_word, Nat.dvd_add_right next]
  constructor
  · intro aligned
    exact base2MB.mp aligned.standard2MB
  · intro whole
    constructor
    · rw [standard]
      exact granule_dvd_granule2MB.trans start
    · rw [standard64KB, Word.dvd_add_iff (granule_dvd_granule2MB.trans granule_dvd_word)]
      exact Nat.dvd_add (granule_dvd_granule2MB.trans next) share64KB
    · exact base2MB.mpr whole

/-- The range a 57-bit GPU gets. -/
theorem initRange_range57 (wide : args.gpuAddressSpace = maxNBitValue 57)
    (chosen : (p.initRange platform os args).2 = some range) :
    range = range57 platform os args p := by
  have not48 : maxNBitValue 57 ≠ maxNBitValue 48 := by decide
  unfold initRange at chosen
  unfold range57
  rw [wide] at chosen
  split at chosen
  next build32 =>
    rw [if_pos build32]
    exact (Option.some.inj chosen).symm
  next build64 =>
    have not47 : maxNBitValue 57 ≠ maxNBitValue 47 := by decide
    have large : ¬ maxNBitValue 57 < maxNBitValue 47 := by decide
    rw [if_neg (fun both => not48 both.2), if_neg not47, if_neg large] at chosen
    rw [if_neg build64]
    unfold initAdditionalRange at chosen
    split at chosen
    next => cases chosen
    next =>
      split at chosen
      next => cases chosen
      next =>
        split at chosen
        next la57 =>
          rw [if_pos la57]
          simp only at chosen
          split at chosen
          next => cases chosen
          next => exact (Option.some.inj chosen).symm
        next noLa57 =>
          rw [if_neg noLa57]
          exact (Option.some.inj chosen).symm

/-- A successful initialisation aligns the bases unless the GPU has 57 bits and the third of its
room is an odd number of granules. -/
theorem init_basesAligned (initialised : p.init platform os args = .ok (q, true)) :
    q.BasesAligned ↔
      (args.gpuAddressSpace = maxNBitValue 57 → HalvesEvenly (range57 platform os args p)) := by
  unfold init at initialised
  split at initialised
  next => cases initialised
  next r gfxBase gfxTop chosen =>
    obtain ⟨s, heaps, returned⟩ := bind_eq_ok.mp initialised
    cases returned
    obtain ⟨⟨t, next⟩, heaps32, standard⟩ := bind_eq_ok.mp heaps
    have behind : alignUp next heapGranularity2MB =
        alignUp (add64 gfxBase (4 * gfxHeap32Size)) heapGranularity2MB := by
      rw [← alignUp_mod next, initHeaps32_gfxBase heaps32]
      rfl
    rw [initStandardHeaps_aligned standard, behind]
    apply forall_congr'
    intro wide
    have range : (gfxBase, gfxTop) = range57 platform os args p :=
      initRange_range57 wide (by rw [chosen])
    rw [HalvesEvenly, roomBehind, ← range]

end Bases

/-- A 57-bit processor, whose operating system reserves the first range it is asked for where it
is told to. -/
def wideProcessor : Platform := ⟨false, 57, true⟩

def reservesAt (base : Nat) : OsMemory :=
  ⟨fun call _ _ => if call = .high48 then base else 0, fun _ => []⟩

/-- The only 57-bit GPU of its system. -/
def wideGpu : InitArgs := ⟨maxNBitValue 57, 0, 0, 1, false, 0, 0⟩

/-- The base of `heapStandard2MB` after an initialisation that returns. -/
private theorem base_of_init (os : OsMemory) (base : Nat)
    (computed : ((create ⟨0, 0, 0, 0⟩).init wideProcessor os wideGpu).map (fun r =>
      ((r.1.heaps .heapStandard2MB).base, r.2)) = .ok (base, true)) :
    ∃ p, (create ⟨0, 0, 0, 0⟩).init wideProcessor os wideGpu = .ok (p, true) ∧
      (p.heaps .heapStandard2MB).base = base := by
  cases result : (create ⟨0, 0, 0, 0⟩).init wideProcessor os wideGpu with
  | error abort =>
    rw [result] at computed
    cases computed
  | ok r =>
    obtain ⟨p, returned⟩ := r
    rw [result] at computed
    simp only [Except.map, Except.ok.injEq, Prod.mk.injEq] at computed
    obtain ⟨base, rfl⟩ := computed
    exact ⟨p, rfl, base⟩

/-- A terabyte reserved at a multiple of 2 MB leaves 172032 granules for each third. -/
theorem init_basesAligned_terabyte : ∃ p,
    (create ⟨0, 0, 0, 0⟩).init wideProcessor (reservesAt (2 ^ 47)) wideGpu = .ok (p, true) ∧
      p.BasesAligned := by
  obtain ⟨p, initialised, -⟩ := base_of_init (reservesAt (2 ^ 47)) 141656611356672
    (by decide +kernel)
  refine ⟨p, initialised, (init_basesAligned initialised).mpr ?_⟩
  intro _
  decide +kernel

/-- Reserved at the next multiple of 64 KB, it leaves 172031 of them. -/
theorem shifted_terabyte_misaligned : ∃ p,
    (create ⟨0, 0, 0, 0⟩).init wideProcessor (reservesAt (2 ^ 47 + heapGranularity)) wideGpu =
      .ok (p, true) ∧ ¬ p.BasesAligned := by
  obtain ⟨p, initialised, base⟩ := base_of_init (reservesAt (2 ^ 47 + heapGranularity))
    141656608210944 (by decide +kernel)
  refine ⟨p, initialised, fun aligned => ?_⟩
  have granules := aligned.standard2MB
  rw [base] at granules
  exact absurd granules (by decide)

end GfxPartition

end ComputeRuntime
