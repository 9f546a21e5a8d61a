import ComputeRuntime.GfxPartition.Devices
import ComputeRuntime.Library.Search

/-! To which heap a freed range goes back. `freeGpuAddressRange` does not know which heap handed
the range out; it takes the first of the heaps that has the range strictly inside. -/
namespace ComputeRuntime

open Tiling Placement Transition GfxPartition

namespace GfxHeap

/-- The addresses of a heap, its margins and its front window included. -/
def interval (heap : GfxHeap) : Set Nat := Set.Ico heap.base (heap.base + heap.size)

/-- A heap whose callers hold the blocks `live`: it was never initialised, or its allocator's
range is split into the blocks, what its front window took, and the free space. -/
inductive Serves (heap : GfxHeap) (live : List HeapChunk) : Prop where
  | unused (none : heap.alloc = none) (size : heap.size = 0) (nothing : live = [])
  | used {alloc : HeapAllocator} {address bytes allocationAlignment : Nat} (taken : List HeapChunk)
      (serving : heap.alloc = some alloc) (pow2 : IsPow2 allocationAlignment)
      (inv : HeapAllocator.World.Inv address bytes allocationAlignment ⟨alloc, live ++ taken⟩)
      (low : address + 2 * bytes ≤ 2 ^ 63)
      (fits : heap.base + heap.size < 2 ^ 64)

/-- What the callers hold after an allocation. -/
def liveAfter (live : List HeapChunk) (ptr size : Nat) : List HeapChunk :=
  if ptr = 0 then live else ⟨ptr, size⟩ :: live

section Serving

variable {heap after : GfxHeap} {live : List HeapChunk}

theorem Serves.allocate (serves : heap.Serves live) {fuel request alignment ptr size : Nat}
    (asked : alignment = 0 ∨ IsPow2 alignment)
    (returned : heap.allocateWithCustomAlignment fuel request alignment =
      .ok (after, ptr, size)) : after.Serves (liveAfter live ptr size) := by
  unfold allocateWithCustomAlignment at returned
  cases serves with
  | unused none size nothing =>
    rw [none] at returned
    cases returned
  | @used alloc address bytes allocationAlignment taken serving pow2 inv low fits =>
    rw [serving] at returned
    obtain ⟨r, allocated, result⟩ := bind_eq_ok.mp returned
    cases result
    have half {a : Nat} (pow2 : IsPow2 a) : a ≤ 2 ^ 63 := by
      obtain ⟨k, small, rfl⟩ := pow2
      exact Nat.pow_le_pow_right (by decide) (by omega)
    have noWrap : address + 2 * bytes + alignment ≤ 2 ^ 64 := by
      rcases asked with rfl | asked
      · omega
      · have := half asked
        omega
    have own := half pow2
    have next := HeapAllocator.allocate_inv inv pow2 asked (by omega) noWrap allocated
    refine .used taken rfl pow2 ?_ low fits
    unfold HeapAllocator.liveAfter at next
    unfold liveAfter
    split
    next zero =>
      rw [if_pos zero] at next
      exact next
    next nonzero =>
      rw [if_neg nonzero] at next
      exact next

theorem Serves.free (serves : heap.Serves live) {block : HeapChunk} (held : block ∈ live) :
    (heap.free block.ptr block.size).Serves (live.erase block) := by
  cases serves with
  | unused none size nothing =>
    rw [nothing] at held
    cases held
  | used taken serving pow2 inv low fits =>
    have next := HeapAllocator.free_inv inv (List.mem_append_left taken held)
    rw [List.erase_append_left taken held] at next
    refine .used taken ?_ pow2 next low fits
    simp only [GfxHeap.free, serving, Option.map_some]

/-- What giving a held block back does to the heap it came from. -/
structure Returned (heap after : GfxHeap) (block : HeapChunk) : Prop where
  grows : ∃ alloc alloc', heap.alloc = some alloc ∧ after.alloc = some alloc' ∧
    alloc'.availableSize = alloc.availableSize + block.size
  gained : after.handsOut = heap.handsOut ∪ Set.Ico block.ptr (block.ptr + block.size)

theorem Serves.returned (serves : heap.Serves live) {block : HeapChunk} (held : block ∈ live) :
    Returned heap (heap.free block.ptr block.size) block := by
  cases serves with
  | unused none size nothing =>
    rw [nothing] at held
    cases held
  | @used alloc address bytes allocationAlignment taken serving pow2 inv low fits =>
    have member := List.mem_append_left taken held
    have nonzero := inv.nonzero block member
    have gives := inv.toTracked.gives member
    have counted := HeapAllocator.free_balanced inv.wf nonzero gives inv.balanced
    have length : total (fun a b => b - a) (alloc.free block.ptr block.size).freeSpans =
        total (fun a b => b - a) alloc.freeSpans + (block.ptr + block.size - block.ptr) :=
      gives.space _ length_additive
    have before : alloc.availableSize = total (fun a b => b - a) alloc.freeSpans := inv.balanced
    simp only [HeapAllocator.Balanced] at counted
    constructor
    · refine ⟨alloc, alloc.free block.ptr block.size, serving, ?_, by omega⟩
      simp only [GfxHeap.free, serving, Option.map_some]
    · ext a
      have space := gives.space (hits a) (hits_additive a)
      simp only [handsOut, GfxHeap.free, serving, Option.map_some, Option.some.injEq,
        exists_eq_left', Set.mem_union, Set.mem_ofPred_eq, space, ← hits_eq_one]
      have once := hits_le_one a block.ptr (block.ptr + block.size)
      omega

/-- The limit is the last address of the heap. -/
theorem lt_getLimit (fits : heap.base + heap.size < 2 ^ 64) {address : Nat}
    (below : address < heap.getLimit) : address + 1 < heap.base + heap.size := by
  unfold getLimit at below
  split at below
  next nonzero =>
    have last : sub64 (add64 heap.base heap.size) 1 = heap.base + heap.size - 1 := by
      rw [add64, Word.add_eq fits]
      exact Word.sub_eq (by omega) fits
    omega
  next => omega

theorem Serves.fits (serves : heap.Serves live) (start : heap.base < 2 ^ 64) :
    heap.base + heap.size < 2 ^ 64 := by
  cases serves with
  | unused none size nothing =>
    rw [size]
    exact start
  | used taken serving pow2 inv low fits => exact fits

/-- A held block does not wrap. -/
theorem Serves.noWrap (serves : heap.Serves live) {block : HeapChunk} (held : block ∈ live) :
    add64 block.ptr block.size = block.ptr + block.size := by
  cases serves with
  | unused none size nothing =>
    rw [nothing] at held
    cases held
  | used taken serving pow2 inv low fits =>
    have within := (inv.within block (List.mem_append_left taken held)).2
    exact Word.add_eq (by omega)

end Serving

section Fresh

variable {base size allocationAlignment : Nat}

theorem create_serves {address bytes threshold : Nat} (pow2 : IsPow2 allocationAlignment)
    (positive : 0 < address) (low : address + 2 * bytes ≤ 2 ^ 63)
    (fits : base + size < 2 ^ 64) :
    (GfxHeap.mk base size
      (some (.create address bytes allocationAlignment threshold))).Serves [] :=
  .used [] rfl pow2 (HeapAllocator.create_inv positive (by omega)) low fits

theorem init_serves (pow2 : IsPow2 allocationAlignment) (low : base + size ≤ 2 ^ 58) :
    (GfxHeap.init base size allocationAlignment).Serves [] := by
  have small : 0 < margin allocationAlignment ∧ margin allocationAlignment ≤ 2097152 := by
    unfold margin
    split <;> decide
  have start : add64 base (margin allocationAlignment) = base + margin allocationAlignment :=
    Word.add_eq (by omega)
  have managed : (if 2 * margin allocationAlignment < size then
      sub64 size (2 * margin allocationAlignment) else size) ≤ size := by
    split
    next large => exact (Word.sub_eq (by omega) (by omega)).trans_le (Nat.sub_le _ _)
    next => exact Nat.le_refl _
  rw [init_eq, start]
  exact create_serves pow2 (by omega) (by omega) (by omega)

theorem initWithFrontWindow_serves (low : base + gfxHeap32Size ≤ 2 ^ 58) :
    (GfxHeap.initWithFrontWindow base gfxHeap32Size internalFrontWindowPoolSize).Serves [] := by
  obtain ⟨granule, _, _, internal, heap, _⟩ := sizes_in_bytes
  have start : add64 base internalFrontWindowPoolSize = base + internalFrontWindowPoolSize :=
    Word.add_eq (by omega)
  have managed : sub64 (sub64 gfxHeap32Size heapGranularity) internalFrontWindowPoolSize =
    gfxHeap32Size - heapGranularity - internalFrontWindowPoolSize := by decide
  unfold initWithFrontWindow
  rw [start, managed]
  exact create_serves isPow2_pageSize (by omega) (by omega) (by omega)

/-- An external heap serves its callers behind the block its window holds. -/
theorem windowTaken_serves (nonzero : base ≠ 0) (aligned : MemoryConstants.pageSize ∣ base)
    (low : base + gfxHeap32Size ≤ 2 ^ 58) : (windowTaken base).Serves [] := by
  obtain ⟨granule, _, external, _, heap, page⟩ := sizes_in_bytes
  have pages : MemoryConstants.pageSize ∣ externalFrontWindowPoolSize := by decide
  have room : externalFrontWindowPoolSize ≤ gfxHeap32Size - heapGranularity := by omega
  have inv : HeapAllocator.World.Inv base (gfxHeap32Size - heapGranularity)
      MemoryConstants.pageSize ⟨.create base (gfxHeap32Size - heapGranularity)
        MemoryConstants.pageSize 0, []⟩ :=
    HeapAllocator.create_inv (by omega) (by omega)
  have next := HeapAllocator.allocate_inv inv isPow2_pageSize (.inl rfl) (by omega) (by omega)
    (create_allocate nonzero (by omega) aligned pages room (by omega))
  rw [HeapAllocator.liveAfter, if_neg nonzero] at next
  exact .used [⟨base, externalFrontWindowPoolSize⟩] rfl isPow2_pageSize next (by omega) (by
    simp only [windowTaken]
    omega)

end Fresh

end GfxHeap

namespace GfxPartition

/-- A partition and the blocks its callers hold, by the heap that handed them out. -/
structure Holdings where
  partition : GfxPartition
  live : HeapIndex → List HeapChunk

inductive PartitionCall where
  | allocate (heapIndex : HeapIndex) (size alignment : Nat)
  | heapFree (heapIndex : HeapIndex) (block : HeapChunk)
  | freeGpuAddressRange (heapIndex : HeapIndex) (block : HeapChunk)
  deriving DecidableEq

/-- One returning call. Callers ask for power-of-two alignments, or for none, and free what they
hold, naming its heap or leaving that to `freeGpuAddressRange`. -/
inductive Holdings.Step : Holdings → PartitionCall → Holdings → Prop where
  | allocate {s : Holdings} {heapIndex : HeapIndex} {size alignment ptr size' : Nat}
      {p : GfxPartition} (fuel : Nat) (asked : alignment = 0 ∨ IsPow2 alignment)
      (returned : s.partition.heapAllocateWithCustomAlignment fuel heapIndex size alignment =
        .ok (p, ptr, size')) :
      Step s (.allocate heapIndex size alignment)
        ⟨p, Function.update s.live heapIndex (GfxHeap.liveAfter (s.live heapIndex) ptr size')⟩
  | heapFree {s : Holdings} {heapIndex : HeapIndex} {block : HeapChunk}
      (held : block ∈ s.live heapIndex) :
      Step s (.heapFree heapIndex block) ⟨s.partition.heapFree heapIndex block.ptr block.size,
        Function.update s.live heapIndex ((s.live heapIndex).erase block)⟩
  | freeGpuAddressRange {s : Holdings} {heapIndex : HeapIndex} {block : HeapChunk}
      (held : block ∈ s.live heapIndex) :
      Step s (.freeGpuAddressRange heapIndex block)
        ⟨s.partition.freeGpuAddressRange block.ptr block.size,
          Function.update s.live heapIndex ((s.live heapIndex).erase block)⟩

/-- A partition that `init` made, over a range with room for every heap in an address space of at
most 57 bits. -/
inductive Initialised : GfxPartition → Prop where
  | intro {platform : Platform} {os : OsMemory} {args : InitArgs}
      {reserved : ReservedCpuAddressRange} {range : Nat × Nat} {p : GfxPartition}
      (user : os.InUserHalf) (good : GoodReservation args.gpuAddressSpace reserved)
      (listed : args.rootDeviceIndex < args.numRootDevices) (few : ExtendedRoom args)
      (room : range.1 + 4 * gfxHeap32Size + 3 * heapGranularity2MB ≤ range.2)
      (fits : range.2 ≤ 2 ^ 57)
      (chosen : ((create reserved).initRange platform os args).2 = some range)
      (returned : (create reserved).init platform os args = .ok (p, true)) : Initialised p

def holdingsSystem : System Holdings PartitionCall where
  init := fun s => Initialised s.partition ∧ s.live = fun _ => []
  step := Holdings.Step

/-- The block lies strictly inside the heap that handed it out, and that heap is one of those
`freeGpuAddressRange` looks through. -/
structure StrictlyInside (p : GfxPartition) (heapIndex : HeapIndex) (block : HeapChunk) :
    Prop where
  listed : heapIndex ∈ heapNonSvmNames
  above : (p.heaps heapIndex).base < block.ptr
  below : block.ptr + block.size < (p.heaps heapIndex).getLimit

/-- The runs that free by `freeGpuAddressRange` only blocks strictly inside their heaps. -/
def FreesInside (s : Holdings) : PartitionCall → Prop
  | .freeGpuAddressRange heapIndex block => StrictlyInside s.partition heapIndex block
  | _ => True

/-- `freeGpuAddressRange` gives the block back to the heap it came from, and to no other. -/
structure ReturnsToOwner (p : GfxPartition) (heapIndex : HeapIndex) (block : HeapChunk) :
    Prop where
  returned : GfxHeap.Returned (p.heaps heapIndex)
    ((p.freeGpuAddressRange block.ptr block.size).heaps heapIndex) block
  others : ∀ n, n ≠ heapIndex →
    (p.freeGpuAddressRange block.ptr block.size).handsOut n = p.handsOut n

/-- The inductive invariant: the heaps `freeGpuAddressRange` looks through serve their callers,
at places of their own. -/
structure Holdings.Inv (s : Holdings) : Prop where
  serves : ∀ n ∈ heapNonSvmNames, (s.partition.heaps n).Serves (s.live n)
  bases : ∀ n ∈ heapNonSvmNames, (s.partition.heaps n).base < 2 ^ 64
  apart : ∀ m ∈ heapNonSvmNames, ∀ n ∈ heapNonSvmNames, m ≠ n →
    Disjoint (s.partition.heaps m).interval (s.partition.heaps n).interval

section Owner

variable {s : Holdings} {heapIndex : HeapIndex} {block : HeapChunk}

/-- The owner is found when the block lies strictly inside it: no other heap has the block's
address. -/
theorem Holdings.Inv.ownerOf_eq (inv : s.Inv) (held : block ∈ s.live heapIndex)
    (inside : StrictlyInside s.partition heapIndex block) :
    s.partition.ownerOf block.ptr block.size heapNonSvmNames = some heapIndex := by
  have serves := inv.serves heapIndex inside.listed
  have noWrap := serves.noWrap held
  have fits := serves.fits (inv.bases heapIndex inside.listed)
  have own : block.ptr ∈ (s.partition.heaps heapIndex).interval := by
    have limit := GfxHeap.lt_getLimit fits inside.below
    have above := inside.above
    exact Set.mem_Ico.mpr ⟨by omega, by omega⟩
  refine Search.find?_unique inside.listed ?_ ?_
  · simp only [decide_eq_true_eq, noWrap]
    exact ⟨inside.above, inside.below⟩
  · intro n listed test
    simp only [decide_eq_true_eq, noWrap] at test
    by_contra different
    have limit := GfxHeap.lt_getLimit ((inv.serves n listed).fits (inv.bases n listed)) test.2
    have other : block.ptr ∈ (s.partition.heaps n).interval :=
      Set.mem_Ico.mpr ⟨by omega, by omega⟩
    exact Set.disjoint_left.mp (inv.apart n listed heapIndex inside.listed different) other own

theorem Holdings.Inv.freeGpuAddressRange_eq (inv : s.Inv) (held : block ∈ s.live heapIndex)
    (inside : StrictlyInside s.partition heapIndex block) :
    s.partition.freeGpuAddressRange block.ptr block.size =
      s.partition.heapFree heapIndex block.ptr block.size := by
  unfold freeGpuAddressRange
  rw [inv.ownerOf_eq held inside]

theorem Holdings.Inv.returnsToOwner (inv : s.Inv) (held : block ∈ s.live heapIndex)
    (inside : StrictlyInside s.partition heapIndex block) :
    ReturnsToOwner s.partition heapIndex block := by
  have freed := inv.freeGpuAddressRange_eq held inside
  constructor
  · rw [freed, heapFree, setHeap_same]
    exact (inv.serves heapIndex inside.listed).returned held
  · intro n different
    rw [freed, heapFree, handsOut, setHeap_other _ _ different, handsOut]

/-- A block that is not strictly inside its heap does not go back to it. -/
theorem Holdings.Inv.strictlyInside (inv : s.Inv) (held : block ∈ s.live heapIndex)
    (nonempty : 0 < block.size) (returns : ReturnsToOwner s.partition heapIndex block) :
    StrictlyInside s.partition heapIndex block := by
  obtain ⟨alloc, alloc', before, after, grows⟩ := returns.returned.grows
  have changed : (s.partition.freeGpuAddressRange block.ptr block.size).heaps heapIndex ≠
      s.partition.heaps heapIndex := by
    intro same
    rw [same, before] at after
    cases after
    omega
  unfold freeGpuAddressRange at changed
  cases owner : s.partition.ownerOf block.ptr block.size heapNonSvmNames with
  | none =>
    rw [owner] at changed
    exact absurd rfl changed
  | some n =>
    rw [owner] at changed
    obtain rfl : n = heapIndex := by
      by_contra different
      exact changed (setHeap_other _ _ (Ne.symm different))
    have listed := List.mem_of_find?_eq_some owner
    have test := List.find?_some owner
    simp only [decide_eq_true_eq, (inv.serves n listed).noWrap held] at test
    exact ⟨listed, test.1, test.2⟩

end Owner

/-- The place of a heap of the partition. -/
def place (p : GfxPartition) (heapIndex : HeapIndex) : Set Nat := (p.heaps heapIndex).interval

section Start

variable {base : Nat} {pool : Bool}

theorem heap32At_interval (heapIndex : HeapIndex) :
    (heap32At pool heapIndex base).base = base ∧
      (heap32At pool heapIndex base).interval = Set.Ico base (base + gfxHeap32Size) := by
  unfold heap32At
  split
  · exact ⟨rfl, rfl⟩
  · split <;> exact ⟨rfl, rfl⟩

theorem heap32At_serves {heapIndex : HeapIndex}
    (placed : HeapAssigner.isInternalHeap heapIndex = true ∨ base ≠ 0)
    (aligned : MemoryConstants.pageSize ∣ base) (low : base + gfxHeap32Size ≤ 2 ^ 58) :
    (heap32At pool heapIndex base).Serves [] := by
  unfold heap32At
  split
  next external =>
    have nonzero : base ≠ 0 := by
      refine placed.resolve_left fun internal => ?_
      cases heapIndex <;> simp_all [HeapAssigner.isInternalHeap,
        HeapAssigner.heapTypeExternalWithFrontWindowPool]
    exact GfxHeap.windowTaken_serves nonzero aligned low
  next =>
    split
    · exact GfxHeap.initWithFrontWindow_serves low
    · exact GfxHeap.init_serves isPow2_pageSize low

variable {platform : Platform} {args : InitArgs} {range : Nat × Nat} {p₀ p₁ p : GfxPartition}

/-- The intervals of the heaps in the range, one after the other. -/
theorem intervals_placed (laid32 : Laid32 pool heap32Names range.1 p₀ p₁)
    {layout : StandardLayout} (laid : LaidStandard args layout p₁ p)
    (fits : LayoutFits args layout (range.1 + 4 * gfxHeap32Size) range.2) :
    Placed p.place [.heapStandard2MB, .heapStandard64KB, .heapStandard, .heapExternal,
      .heapExternalDeviceMemory, .heapInternal, .heapInternalDeviceMemory] range.1 range.2 := by
  have start := fits.start
  have next64KB := fits.next64KB
  have next2MB := fits.next2MB
  have inside64KB := fits.inside64KB
  have inside2MB := fits.inside2MB
  have place32 (k : Nat) (n : HeapIndex) (found : heap32Names[k]? = some n) :
      p.place n ⊆ Set.Ico (range.1 + k * gfxHeap32Size) (range.1 + (k + 1) * gfxHeap32Size) := by
    have other : ∀ n ∈ heap32Names, n ≠ .heapStandard ∧ n ≠ .heapStandard64KB ∧
      n ≠ .heapStandard2MB := by decide
    obtain ⟨not1, not2, not3⟩ := other n (List.mem_of_getElem? found)
    rw [place, laid.other n not1 not2 not3, laid32.heap k n found, (heap32At_interval n).2,
      Nat.succ_mul, Nat.add_assoc]
  have nothing : Placed p.place [] range.1 (range.1 + 0 * gfxHeap32Size) :=
    .nil (Nat.le_add_right _ _)
  have four : Placed p.place [.heapExternal, .heapExternalDeviceMemory, .heapInternal,
      .heapInternalDeviceMemory] range.1 (range.1 + 4 * gfxHeap32Size) :=
    (((nothing.next (place32 0 _ rfl) (by omega)).next (place32 1 _ rfl) (by omega)).next
      (place32 2 _ rfl) (by omega)).next (place32 3 _ rfl) (by omega)
  have standard : p.place .heapStandard ⊆ Set.Ico layout.standard layout.standard64KB := by
    rw [place, laid.standard]
    exact Set.Ico_subset_Ico (Nat.le_refl _) next64KB.ge
  have standard64KB : p.place .heapStandard64KB ⊆
      Set.Ico layout.standard64KB layout.standard2MB := by
    rw [place, laid.standard64KB]
    exact Set.Ico_subset_Ico (Nat.le_add_right _ _) inside64KB
  have standard2MB : p.place .heapStandard2MB ⊆ Set.Ico layout.standard2MB range.2 := by
    rw [place, laid.standard2MB]
    exact Set.Ico_subset_Ico (Nat.le_add_right _ _) inside2MB
  exact (((four.widen start).next standard (by omega)).next standard64KB next2MB).next standard2MB
    (by omega)

/-- The extended range lies behind the range of the other heaps, if there is one. -/
theorem extended_place {reserved : ReservedCpuAddressRange}
    (chosen : RangeChosen platform args (create reserved) p range) (few : ExtendedRoom args) :
    (p.heaps .heapExtended).Serves [] ∧ (p.heaps .heapExtended).base < 2 ^ 64 ∧
      Disjoint (Set.Ico range.1 range.2) (p.place .heapExtended) := by
  rcases chosen.extended with same | ⟨gpu57, below, extended⟩
  · rw [place, same]
    have nothing : ((create reserved).heaps .heapExtended).interval = ∅ := Set.Ico_self 0
    rw [nothing]
    exact ⟨.unused rfl rfl rfl, Nat.two_pow_pos 64, Set.disjoint_empty _⟩
  · have index := few gpu57
    have size : alignDown (maxNBitValue 48 + 1) heapGranularity = 2 ^ 48 := by decide
    have start : maxNBitValue 56 + 1 = 2 ^ 56 := by decide
    have offset : mul64 args.rootDeviceIndex (2 ^ 48) = args.rootDeviceIndex * 2 ^ 48 :=
      Word.mul_eq (by omega)
    have base : add64 (2 ^ 56) (args.rootDeviceIndex * 2 ^ 48) =
      2 ^ 56 + args.rootDeviceIndex * 2 ^ 48 := Word.add_eq (by omega)
    rw [place, extended, size, start, offset, base]
    refine ⟨GfxHeap.init_serves isPow2_pageSize (by omega), ?_, ?_⟩
    · simp only [GfxHeap.init]
      omega
    · exact apart_of_stretches (le_refl _) (le_refl _) (by
        simp only [GfxHeap.init]
        omega)

/-- After `init` every heap serves its callers and has a place of its own. -/
theorem Initialised.inv {p : GfxPartition} (initialised : Initialised p) :
    Holdings.Inv ⟨p, fun _ => []⟩ := by
  cases initialised with
  | @intro platform os args reserved range _ user good listed few room fits chosen returned =>
    obtain ⟨granule, granule2MB, _, _, size32, page⟩ := sizes_in_bytes
    obtain ⟨p₁, rangeChosen, laid32, laid⟩ := init_steps user good listed room (by omega) chosen
      returned
    have layout := standardLayout_fits listed room (by omega)
    have placed := intervals_placed laid32 laid layout
    have extended : p.heaps .heapExtended =
        ((create reserved).initRange platform os args).1.heaps .heapExtended := by
      rw [laid.other _ (by decide) (by decide) (by decide), laid32.other _ (by decide) (by decide)]
    obtain ⟨servesExtended, baseExtended, behind⟩ := extended_place rangeChosen few
    have placeExtended : p.place .heapExtended =
        ((create reserved).initRange platform os args).1.place .heapExtended := by
      rw [place, extended, place]
    have aligned : MemoryConstants.pageSize ∣ range.1 :=
      Nat.dvd_trans (by decide) rangeChosen.aligned
    have at32 (k : Nat) (n : HeapIndex) (found : heap32Names[k]? = some n) :
        p.heaps n = heap32At args.useExternalFrontWindowPool n (range.1 + k * gfxHeap32Size) := by
      have other : ∀ n ∈ heap32Names, n ≠ .heapStandard ∧ n ≠ .heapStandard64KB ∧
        n ≠ .heapStandard2MB := by decide
      obtain ⟨not1, not2, not3⟩ := other n (List.mem_of_getElem? found)
      rw [laid.other n not1 not2 not3, laid32.heap k n found]
    have serves32 (k : Nat) (n : HeapIndex) (found : heap32Names[k]? = some n) (few : k < 4)
        (positioned : HeapAssigner.isInternalHeap n = true ∨ 0 < k) :
        (p.heaps n).Serves [] ∧ (p.heaps n).base < 2 ^ 64 := by
      have below : k * gfxHeap32Size ≤ 3 * gfxHeap32Size := Nat.mul_le_mul_right _ (by omega)
      have positive : 0 < k → 1 * gfxHeap32Size ≤ k * gfxHeap32Size :=
        fun positive => Nat.mul_le_mul_right _ positive
      rw [at32 k n found]
      refine ⟨heap32At_serves ?_ (Nat.dvd_add aligned (Nat.dvd_mul_left_of_dvd (by decide) k))
        (by omega), ?_⟩
      · exact positioned.imp id fun later => by have := positive later; omega
      · rw [(heap32At_interval n).1]
        omega
    have standard : (p.heaps .heapStandard).Serves [] ∧ (p.heaps .heapStandard).base < 2 ^ 64 := by
      have next64KB := layout.next64KB
      have next2MB := layout.next2MB
      have inside := layout.inside2MB
      rw [laid.standard]
      exact ⟨GfxHeap.init_serves isPow2_pageSize (by omega),
        Nat.lt_of_le_of_lt (show _ ≤ range.2 by simp only [GfxHeap.init]; omega) (by omega)⟩
    have standard64KB : (p.heaps .heapStandard64KB).Serves [] ∧
        (p.heaps .heapStandard64KB).base < 2 ^ 64 := by
      have next2MB := layout.inside64KB
      have inside := layout.inside2MB
      rw [laid.standard64KB]
      exact ⟨GfxHeap.init_serves isPow2_pageSize64k (by omega),
        Nat.lt_of_le_of_lt (show _ ≤ range.2 by simp only [GfxHeap.init]; omega) (by omega)⟩
    have standard2MB : (p.heaps .heapStandard2MB).Serves [] ∧
        (p.heaps .heapStandard2MB).base < 2 ^ 64 := by
      have inside := layout.inside2MB
      rw [laid.standard2MB]
      exact ⟨GfxHeap.init_serves isPow2_pageSize2M (by omega),
        Nat.lt_of_le_of_lt (show _ ≤ range.2 by simp only [GfxHeap.init]; omega) (by omega)⟩
    have each : ∀ n ∈ heapNonSvmNames,
        (p.heaps n).Serves [] ∧ (p.heaps n).base < 2 ^ 64 := by
      intro n member
      simp only [heapNonSvmNames, List.mem_cons, List.not_mem_nil, or_false] at member
      rcases member with rfl | rfl | rfl | rfl | rfl | rfl | rfl | rfl
      · exact serves32 0 _ rfl (by omega) (.inl rfl)
      · exact serves32 1 _ rfl (by omega) (.inl rfl)
      · exact serves32 2 _ rfl (by omega) (.inr (by omega))
      · exact serves32 3 _ rfl (by omega) (.inr (by omega))
      · exact standard
      · exact standard64KB
      · exact standard2MB
      · rw [extended]
        exact ⟨servesExtended, baseExtended⟩
    refine ⟨fun n member => (each n member).1, fun n member => (each n member).2, ?_⟩
    have pairwise : heapNonSvmNames.Pairwise fun m n => Disjoint (p.place m) (p.place n) := by
      have perm : [HeapIndex.heapExtended, .heapStandard2MB, .heapStandard64KB, .heapStandard,
        .heapExternal, .heapExternalDeviceMemory, .heapInternal,
        .heapInternalDeviceMemory].Perm heapNonSvmNames := by decide
      refine (perm.pairwise_iff fun apart => apart.symm).mp (.cons ?_ placed.apart)
      intro n member
      rw [placeExtended]
      exact (behind.mono_left (placed.inside n member)).symm
    have symmetric : Std.Symm fun m n => Disjoint (p.place m) (p.place n) :=
      ⟨fun _ _ apart => apart.symm⟩
    exact fun m first n second different => pairwise.forall first second different

end Start

section Runs

variable {s : Holdings} {heapIndex : HeapIndex} {block : HeapChunk}

/-- A heap that changes keeps its place, and the other heaps stay as they are. -/
theorem Holdings.Inv.update (inv : s.Inv) {heap : GfxHeap} {live : List HeapChunk}
    (base : heap.base = (s.partition.heaps heapIndex).base)
    (size : heap.size = (s.partition.heaps heapIndex).size)
    (serves : heapIndex ∈ heapNonSvmNames → heap.Serves live) :
    Holdings.Inv ⟨s.partition.setHeap heapIndex heap, Function.update s.live heapIndex live⟩ := by
  have interval (n : HeapIndex) : ((s.partition.setHeap heapIndex heap).heaps n).interval =
      (s.partition.heaps n).interval := by
    by_cases same : n = heapIndex
    · subst same
      rw [setHeap_same, GfxHeap.interval, GfxHeap.interval, base, size]
    · rw [setHeap_other _ _ same]
  constructor
  · intro n listed
    by_cases same : n = heapIndex
    · subst same
      simpa using serves listed
    · simpa [setHeap, same] using inv.serves n listed
  · intro n listed
    by_cases same : n = heapIndex
    · subst same
      rw [setHeap_same, base]
      exact inv.bases n listed
    · rw [setHeap_other _ _ same]
      exact inv.bases n listed
  · intro m first n second different
    simp only [interval]
    exact inv.apart m first n second different

theorem Holdings.Inv.heapFree (inv : s.Inv) (held : block ∈ s.live heapIndex) :
    Holdings.Inv ⟨s.partition.heapFree heapIndex block.ptr block.size,
      Function.update s.live heapIndex ((s.live heapIndex).erase block)⟩ :=
  inv.update rfl rfl fun listed => (inv.serves heapIndex listed).free held

theorem Holdings.Inv.step {call : PartitionCall} {s' : Holdings} (inv : s.Inv)
    (step : Holdings.Step s call s') (inside : FreesInside s call) : s'.Inv := by
  cases step with
  | @allocate heapIndex size alignment ptr size' p fuel asked returned =>
    obtain ⟨⟨heap, ptr, size'⟩, allocated, result⟩ := bind_eq_ok.mp returned
    cases result
    have kept : heap.base = (s.partition.heaps heapIndex).base ∧
        heap.size = (s.partition.heaps heapIndex).size := by
      unfold GfxHeap.allocateWithCustomAlignment at allocated
      split at allocated
      next => cases allocated
      next =>
        obtain ⟨r, _, result⟩ := bind_eq_ok.mp allocated
        cases result
        exact ⟨rfl, rfl⟩
    exact inv.update kept.1 kept.2 fun listed =>
      (inv.serves heapIndex listed).allocate asked allocated
  | heapFree held => exact inv.heapFree held
  | freeGpuAddressRange held =>
    rw [inv.freeGpuAddressRange_eq held inside]
    exact inv.heapFree held

theorem holdings_invariant : Invariant (holdingsSystem.restrict FreesInside) Holdings.Inv where
  initial := by
    rintro ⟨p, live⟩ ⟨initialised, nothing⟩
    obtain rfl : live = fun _ => [] := nothing
    exact initialised.inv
  preserved := fun _ _ _ _ inv step => inv.step step.2 step.1

/-- In every run that frees through `freeGpuAddressRange` only blocks strictly inside their
heaps, every block that somebody holds goes back to its owner exactly when it lies so. -/
theorem reachable_returnsToOwner (reachable : Reachable (holdingsSystem.restrict FreesInside) s)
    (held : block ∈ s.live heapIndex) :
    (StrictlyInside s.partition heapIndex block →
      ReturnsToOwner s.partition heapIndex block) ∧
    (0 < block.size → ReturnsToOwner s.partition heapIndex block →
      StrictlyInside s.partition heapIndex block) := by
  have inv := holdings_invariant.holds reachable
  exact ⟨inv.returnsToOwner held, inv.strictlyInside held⟩

end Runs

/-- The second 32-bit heap of a 48-bit GPU and its front window. -/
private theorem fullRange48_internal : ∃ p, Initialised p ∧
    p.heaps .heapInternal = .initWithFrontWindow (2 ^ 47 + gfxHeap32Size) gfxHeap32Size
      internalFrontWindowPoolSize ∧
    p.heaps .heapInternalFrontWindow = .initFrontWindow (2 ^ 47 + gfxHeap32Size)
      internalFrontWindowPoolSize := by
  have user : nothingReserved.InUserHalf := fun _ _ _ => .inl rfl
  have good : GoodReservation (fullRange48 0).gpuAddressSpace ⟨0, 0, 0, 0⟩ :=
    ⟨Nat.dvd_zero _, fun _ nonzero => absurd rfl nonzero⟩
  have few : ExtendedRoom (fullRange48 0) := fun gpu57 => absurd gpu57 (by decide)
  have chosen : ((create ⟨0, 0, 0, 0⟩).initRange processor48 nothingReserved (fullRange48 0)).2 =
      some (2 ^ 47, 2 ^ 48) := rfl
  obtain ⟨p, returned⟩ : ∃ p, (create ⟨0, 0, 0, 0⟩).init processor48 nothingReserved
      (fullRange48 0) = .ok (p, true) :=
    init_returns user good (by decide) (by decide) (by decide) chosen
  obtain ⟨p₁, _, laid32, laid⟩ := init_steps user good (by decide) (by decide) (by decide) chosen
    returned
  refine ⟨p, .intro user good (by decide) few (by decide) (by decide) chosen returned, ?_, ?_⟩
  · rw [laid.other _ (by decide) (by decide) (by decide), laid32.heap 1 .heapInternal rfl]
    rfl
  · exact (laid.other _ (by decide) (by decide) (by decide)).trans
      (laid32.window 1 .heapInternal rfl)

/-- The state after a page was taken from a heap of a new partition. -/
private theorem page_taken {p : GfxPartition} (initialised : Initialised p)
    {heapIndex : HeapIndex} {after : GfxHeap} {ptr : Nat} (nonzero : ptr ≠ 0)
    (allocated : (p.heaps heapIndex).allocateWithCustomAlignment 1 0x1000 0 =
      .ok (after, ptr, 0x1000)) :
    ∃ s, Reachable (holdingsSystem.restrict FreesInside) s ∧ ⟨ptr, 0x1000⟩ ∈ s.live heapIndex ∧
      s.partition.heaps heapIndex = after := by
  have start : Reachable (holdingsSystem.restrict FreesInside) ⟨p, fun _ => []⟩ :=
    .start ⟨initialised, rfl⟩
  have step : Holdings.Step ⟨p, fun _ => []⟩ (.allocate heapIndex 0x1000 0)
      ⟨p.setHeap heapIndex after, Function.update (fun _ => []) heapIndex
        (GfxHeap.liveAfter [] ptr 0x1000)⟩ := by
    refine .allocate 1 (.inl rfl) ?_
    simp only [heapAllocateWithCustomAlignment, allocated]
    rfl
  have inside : FreesInside ⟨p, fun _ => []⟩ (.allocate heapIndex 0x1000 0) := trivial
  refine ⟨_, start.next ⟨inside, step⟩, ?_, setHeap_same _ _ _⟩
  simp [GfxHeap.liveAfter, nonzero]

/-- `heapInternal` and its front window after each handed out a page. -/
def internalPageTaken : GfxHeap :=
  ⟨2 ^ 47 + gfxHeap32Size, gfxHeap32Size, some
    { HeapAllocator.create 0x800100100000 0xffef0000 0x1000 HeapAllocator.defaultThreshold with
      availableSize := 0xffeef000
      pRightBound := 0x8001fffef000 }⟩

def windowPageTaken : GfxHeap :=
  ⟨2 ^ 47 + gfxHeap32Size, internalFrontWindowPoolSize, some
    { HeapAllocator.create 0x800100000000 0x100000 0x1000 0 with
      availableSize := 0xff000
      pLeftBound := 0x800100001000 }⟩

/-- A page from inside the heap goes back to it. -/
theorem reachable_returnsToOwner_internalPage : ∃ (s : Holdings) (block : HeapChunk),
    block ∈ s.live .heapInternal ∧ StrictlyInside s.partition .heapInternal block ∧
      ReturnsToOwner s.partition .heapInternal block := by
  obtain ⟨p, initialised, heap, _⟩ := fullRange48_internal
  have allocated : (p.heaps .heapInternal).allocateWithCustomAlignment 1 0x1000 0 =
      .ok (internalPageTaken, 0x8001fffef000, 0x1000) := by
    rw [heap]
    decide +kernel
  obtain ⟨s, reachable, held, after⟩ := page_taken initialised (by decide) allocated
  have inside : StrictlyInside s.partition .heapInternal ⟨0x8001fffef000, 0x1000⟩ :=
    ⟨by decide, by rw [after]; decide, by rw [after]; decide⟩
  exact ⟨s, _, held, inside, (reachable_returnsToOwner reachable held).1 inside⟩

/-- A page of a front window does not go back to it: the window is not among the heaps that
`freeGpuAddressRange` looks through. -/
theorem windowPage_is_lost : ∃ (s : Holdings) (block : HeapChunk),
    Reachable (holdingsSystem.restrict FreesInside) s ∧
      block ∈ s.live .heapInternalFrontWindow ∧
      ¬ ReturnsToOwner s.partition .heapInternalFrontWindow block := by
  obtain ⟨p, initialised, _, window⟩ := fullRange48_internal
  have allocated : (p.heaps .heapInternalFrontWindow).allocateWithCustomAlignment 1 0x1000 0 =
      .ok (windowPageTaken, 0x800100000000, 0x1000) := by
    rw [window]
    decide +kernel
  obtain ⟨s, reachable, held, -⟩ := page_taken initialised (by decide) allocated
  refine ⟨s, _, reachable, held, fun returns => ?_⟩
  have inside := (holdings_invariant.holds reachable).strictlyInside held (by decide) returns
  exact absurd inside.listed (by decide)

end GfxPartition

end ComputeRuntime
