import ComputeRuntime.GfxPartition.Layout

/-! The four 32-bit heaps and their front windows, laid out one after the other. -/
namespace ComputeRuntime

open Tiling Placement

namespace GfxPartition

/-- The granules and fixed sizes in bytes. -/
theorem sizes_in_bytes : heapGranularity = 65536 ∧ heapGranularity2MB = 2097152 ∧
    externalFrontWindowPoolSize = 131072 ∧ internalFrontWindowPoolSize = 1048576 ∧
    gfxHeap32Size = 4294967296 ∧ MemoryConstants.pageSize = 4096 := by decide

/-- The front window that belongs to a 32-bit heap. -/
def frontWindow : HeapIndex → HeapIndex
  | .heapInternalDeviceMemory => .heapInternalDeviceFrontWindow
  | .heapInternal => .heapInternalFrontWindow
  | .heapExternalDeviceMemory => .heapExternalDeviceFrontWindow
  | .heapExternal => .heapExternalFrontWindow
  | heapIndex => heapIndex

/-- The addresses each heap's allocator can hand out. -/
def handsOut (p : GfxPartition) (heapIndex : HeapIndex) : Set Nat := (p.heaps heapIndex).handsOut

@[simp] theorem setHeap_same (p : GfxPartition) (heapIndex : HeapIndex) (heap : GfxHeap) :
    (p.setHeap heapIndex heap).heaps heapIndex = heap := by
  simp [setHeap]

theorem setHeap_other (p : GfxPartition) {heapIndex other : HeapIndex} (heap : GfxHeap)
    (different : other ≠ heapIndex) : (p.setHeap heapIndex heap).heaps other = p.heaps other := by
  simp [setHeap, different]

@[simp] theorem setHeap_reserved (p : GfxPartition) (heapIndex : HeapIndex) (heap : GfxHeap) :
    (p.setHeap heapIndex heap).reservedCpuAddressRangeForHeapSvm =
      p.reservedCpuAddressRangeForHeapSvm := rfl

@[simp] theorem setHeap_twice (p : GfxPartition) (heapIndex : HeapIndex) (first second : GfxHeap) :
    (p.setHeap heapIndex first).setHeap heapIndex second = p.setHeap heapIndex second := by
  simp [setHeap]

/-- An external heap at `base` whose first 128 KB its front window has taken. -/
def windowTaken (base : Nat) : GfxHeap :=
  ⟨base, gfxHeap32Size, some
    { HeapAllocator.create base (gfxHeap32Size - heapGranularity) MemoryConstants.pageSize 0 with
      availableSize := gfxHeap32Size - heapGranularity - externalFrontWindowPoolSize
      pLeftBound := base + externalFrontWindowPoolSize }⟩

/-- The first allocation from a heap whose requests are all big is taken at its start. -/
theorem create_allocate {base size request : Nat} (nonzero : base ≠ 0) (positive : 0 < request)
    (aligned : MemoryConstants.pageSize ∣ base) (pages : MemoryConstants.pageSize ∣ request)
    (room : request ≤ size) (fits : base + size + MemoryConstants.pageSize ≤ 2 ^ 64) :
    (HeapAllocator.create base size MemoryConstants.pageSize 0).allocateWithCustomAlignment 2
        request 0 =
      .ok ⟨{ HeapAllocator.create base size MemoryConstants.pageSize 0 with
        availableSize := size - request
        pLeftBound := base + request }, base, request⟩ := by
  have page : 0 < MemoryConstants.pageSize := by decide
  have up : alignUp request MemoryConstants.pageSize = request :=
    alignUp_self isPow2_pageSize (by omega) pages
  have left : alignUp base MemoryConstants.pageSize = base :=
    alignUp_self isPow2_pageSize (by omega) aligned
  have nothing : sub64 base base = 0 :=
    (Word.sub_eq (Nat.le_refl _) (by omega)).trans (Nat.sub_self _)
  have stay : add64 base 0 = base := Word.add_eq (by omega)
  have bound : add64 base request = base + request := Word.add_eq (by omega)
  have right : add64 base size = base + size := Word.add_eq (by omega)
  have rest : sub64 size request = size - request := Word.sub_eq room (by omega)
  have gap : (HeapAllocator.create base size MemoryConstants.pageSize 0).tryAllocate request
      MemoryConstants.pageSize = ⟨{ HeapAllocator.create base size MemoryConstants.pageSize 0 with
        availableSize := size - request
        pLeftBound := base + request }, base, request⟩ := by
    simp only [HeapAllocator.tryAllocate, HeapAllocator.allocateFromGap, HeapAllocator.create,
      gt_iff_lt, positive, if_true, left, nothing, stay, bound, right, Nat.add_le_add_left room,
      rest, ne_eq, not_true_eq_false, if_false, nonzero, not_false_eq_true]
  simp only [HeapAllocator.allocateWithCustomAlignment, HeapAllocator.create] at gap ⊢
  simp only [page, if_true, Nat.mod_self, ne_eq, not_true_eq_false, if_false, up,
    Nat.not_lt.mpr room, HeapAllocator.allocateLoop, gap, nonzero, not_false_eq_true]

/-- The front window of an external heap lies at the heap's base. -/
theorem externalWindow_allocated {base : Nat} (nonzero : base ≠ 0)
    (aligned : MemoryConstants.pageSize ∣ base) (fits : base + gfxHeap32Size < 2 ^ 64) :
    (GfxHeap.initExternalWithFrontWindow base gfxHeap32Size).allocateWithCustomAlignment 2
        externalFrontWindowPoolSize 0 =
      .ok (windowTaken base, base, externalFrontWindowPoolSize) := by
  obtain ⟨granule, _, external, _, heap, page⟩ := sizes_in_bytes
  have size : sub64 gfxHeap32Size heapGranularity = gfxHeap32Size - heapGranularity := by decide
  have pages : MemoryConstants.pageSize ∣ externalFrontWindowPoolSize := by decide
  have room : externalFrontWindowPoolSize ≤ gfxHeap32Size - heapGranularity := by omega
  have allocated := create_allocate nonzero (by omega) aligned pages room (by omega)
  unfold GfxHeap.allocateWithCustomAlignment GfxHeap.initExternalWithFrontWindow
  simp only [size, allocated]
  rfl

/-- The 32-bit heap that ends up at `base`. -/
def heap32At (useExternalFrontWindowPool : Bool) (heapIndex : HeapIndex) (base : Nat) : GfxHeap :=
  if useExternalFrontWindowPool && HeapAssigner.heapTypeExternalWithFrontWindowPool heapIndex then
    windowTaken base
  else if HeapAssigner.isInternalHeap heapIndex then
    .initWithFrontWindow base gfxHeap32Size internalFrontWindowPoolSize
  else .init base gfxHeap32Size MemoryConstants.pageSize

/-- The front window of the heap at `base`, if it gets one. -/
def window32At (useExternalFrontWindowPool : Bool) (heapIndex : HeapIndex) (base : Nat) :
    Option GfxHeap :=
  if useExternalFrontWindowPool && HeapAssigner.heapTypeExternalWithFrontWindowPool heapIndex then
    some (.initExternalWithFrontWindow base externalFrontWindowPoolSize)
  else if HeapAssigner.isInternalHeap heapIndex then
    some (.initFrontWindow base internalFrontWindowPoolSize)
  else none

/-- What one round of the loop over the 32-bit heaps does. -/
structure Laid1 (useExternalFrontWindowPool : Bool) (heapIndex : HeapIndex) (base : Nat)
    (p q : GfxPartition) : Prop where
  heap : q.heaps heapIndex = heap32At useExternalFrontWindowPool heapIndex base
  window : q.heaps (frontWindow heapIndex) =
    (window32At useExternalFrontWindowPool heapIndex base).getD (p.heaps (frontWindow heapIndex))
  other : ∀ n, n ≠ heapIndex → n ≠ frontWindow heapIndex → q.heaps n = p.heaps n
  reserved : q.reservedCpuAddressRangeForHeapSvm = p.reservedCpuAddressRangeForHeapSvm

/-- What the loop does to the heaps `names`, the first of them at `base`. -/
structure Laid32 (useExternalFrontWindowPool : Bool) (names : List HeapIndex) (base : Nat)
    (p q : GfxPartition) : Prop where
  heap : ∀ k heapIndex, names[k]? = some heapIndex →
    q.heaps heapIndex =
      heap32At useExternalFrontWindowPool heapIndex (base + k * gfxHeap32Size)
  window : ∀ k heapIndex, names[k]? = some heapIndex →
    q.heaps (frontWindow heapIndex) =
      (window32At useExternalFrontWindowPool heapIndex (base + k * gfxHeap32Size)).getD
        (p.heaps (frontWindow heapIndex))
  other : ∀ heapIndex, heapIndex ∉ names → heapIndex ∉ names.map frontWindow →
    q.heaps heapIndex = p.heaps heapIndex
  reserved : q.reservedCpuAddressRangeForHeapSvm = p.reservedCpuAddressRangeForHeapSvm

section Loop

variable {useExternalFrontWindowPool : Bool} {base : Nat} {p : GfxPartition}

/-- A heap that is set, and set again after its window was cut out. -/
private theorem setHeap_laid (first heap window : GfxHeap) {heapIndex : HeapIndex}
    (different : frontWindow heapIndex ≠ heapIndex)
    (heapAt : heap = heap32At useExternalFrontWindowPool heapIndex base)
    (windowAt : some window = window32At useExternalFrontWindowPool heapIndex base) :
    Laid1 useExternalFrontWindowPool heapIndex base p
      (((p.setHeap heapIndex first).setHeap heapIndex heap).setHeap (frontWindow heapIndex)
        window) where
  heap := by rw [setHeap_other _ _ different.symm, setHeap_same, heapAt]
  window := by rw [setHeap_same, ← windowAt, Option.getD_some]
  other := by
    intro n notHeap notWindow
    rw [setHeap_other _ _ notWindow, setHeap_other _ _ notHeap, setHeap_other _ _ notHeap]
  reserved := rfl

private theorem externalHeap_laid {heapIndex : HeapIndex}
    (external : HeapAssigner.heapTypeExternalWithFrontWindowPool heapIndex = true)
    (mapped : HeapAssigner.mapExternalWindowIndex heapIndex = .ok (frontWindow heapIndex))
    (different : frontWindow heapIndex ≠ heapIndex)
    (aligned : MemoryConstants.pageSize ∣ base) (fits : base + gfxHeap32Size < 2 ^ 64)
    (nonzero : base ≠ 0) :
    ∃ q, p.initHeap32 true base heapIndex = .ok q ∧ Laid1 true heapIndex base p q := by
  refine ⟨_, ?_, setHeap_laid (.initExternalWithFrontWindow base gfxHeap32Size)
    (windowTaken base) (.initExternalWithFrontWindow base externalFrontWindowPoolSize)
    different ?_ ?_⟩
  · have allocated := externalWindow_allocated nonzero aligned fits
    unfold initHeap32 heapAllocate heapAllocateWithCustomAlignment
    simp only [external, Bool.and_true, if_true, setHeap_same, allocated, mapped]
    rfl
  · simp [heap32At, external]
  · simp [window32At, external]

private theorem internalHeap_laid {heapIndex : HeapIndex}
    (internal : HeapAssigner.isInternalHeap heapIndex = true)
    (external : HeapAssigner.heapTypeExternalWithFrontWindowPool heapIndex = false)
    (mapped : HeapAssigner.mapInternalWindowIndex heapIndex = .ok (frontWindow heapIndex))
    (different : frontWindow heapIndex ≠ heapIndex) :
    ∃ q, p.initHeap32 useExternalFrontWindowPool base heapIndex = .ok q ∧
      Laid1 useExternalFrontWindowPool heapIndex base p q := by
  refine ⟨_, ?_, setHeap_laid
    (.initWithFrontWindow base gfxHeap32Size internalFrontWindowPoolSize)
    (.initWithFrontWindow base gfxHeap32Size internalFrontWindowPoolSize)
    (.initFrontWindow base internalFrontWindowPoolSize) different ?_ ?_⟩
  · unfold initHeap32
    simp only [external, Bool.and_false, Bool.false_eq_true, if_false, internal, if_true, mapped,
      setHeap_twice]
    rfl
  · simp [heap32At, external, internal]
  · simp [window32At, external, internal]

private theorem plainHeap_laid {heapIndex : HeapIndex}
    (internal : HeapAssigner.isInternalHeap heapIndex = false)
    (different : frontWindow heapIndex ≠ heapIndex) :
    ∃ q, p.initHeap32 false base heapIndex = .ok q ∧ Laid1 false heapIndex base p q := by
  refine ⟨p.heapInit heapIndex base gfxHeap32Size, ?_, ?_, ?_, ?_, rfl⟩
  · simp [initHeap32, internal]
  · simp [heapInit, heapInitWithAllocationAlignment, heap32At, internal]
  · simp [heapInit, heapInitWithAllocationAlignment, window32At, internal,
      setHeap_other _ _ different]
  · intro n notHeap _
    exact setHeap_other _ _ notHeap

/-- One round of the loop. Only an external heap at address 0 would miss its window. -/
theorem initHeap32_laid {heapIndex : HeapIndex} (listed : heapIndex ∈ heap32Names)
    (aligned : MemoryConstants.pageSize ∣ base) (fits : base + gfxHeap32Size < 2 ^ 64)
    (placed : HeapAssigner.isInternalHeap heapIndex = true ∨ base ≠ 0) :
    ∃ q, p.initHeap32 useExternalFrontWindowPool base heapIndex = .ok q ∧
      Laid1 useExternalFrontWindowPool heapIndex base p q := by
  simp only [heap32Names, List.mem_cons, List.not_mem_nil, or_false] at listed
  rcases listed with rfl | rfl | rfl | rfl
  · exact internalHeap_laid rfl rfl rfl (by decide)
  · exact internalHeap_laid rfl rfl rfl (by decide)
  · cases useExternalFrontWindowPool with
    | true => exact externalHeap_laid rfl rfl (by decide) aligned fits (placed.resolve_left nofun)
    | false => exact plainHeap_laid rfl (by decide)
  · cases useExternalFrontWindowPool with
    | true => exact externalHeap_laid rfl rfl (by decide) aligned fits (placed.resolve_left nofun)
    | false => exact plainHeap_laid rfl (by decide)

/-- The whole loop. -/
theorem initHeaps32_laid {names : List HeapIndex} (listed : ∀ n ∈ names, n ∈ heap32Names)
    (distinct : (names ++ names.map frontWindow).Nodup)
    (aligned : MemoryConstants.pageSize ∣ base)
    (fits : base + names.length * gfxHeap32Size < 2 ^ 64)
    (placed : ∀ k n, names[k]? = some n →
      HeapAssigner.isInternalHeap n = true ∨ base + k * gfxHeap32Size ≠ 0) :
    ∃ q, initHeaps32 useExternalFrontWindowPool names p base =
        .ok (q, base + names.length * gfxHeap32Size) ∧
      Laid32 useExternalFrontWindowPool names base p q := by
  induction names generalizing p base with
  | nil =>
    refine ⟨p, ?_, ⟨by simp, by simp, fun _ _ _ => rfl, rfl⟩⟩
    simp [initHeaps32]
  | cons heapIndex rest ih =>
    rw [List.length_cons, Nat.succ_mul] at fits
    have start := placed 0 heapIndex rfl
    rw [Nat.zero_mul, Nat.add_zero] at start
    obtain ⟨p₁, first, laid⟩ :
        ∃ q, p.initHeap32 useExternalFrontWindowPool base heapIndex = .ok q ∧
          Laid1 useExternalFrontWindowPool heapIndex base p q :=
      initHeap32_laid (listed heapIndex (by simp)) aligned (by omega) start
    have next : add64 base gfxHeap32Size = base + gfxHeap32Size := Word.add_eq (by omega)
    have place (k : Nat) : base + gfxHeap32Size + k * gfxHeap32Size =
        base + (k + 1) * gfxHeap32Size := by
      rw [Nat.succ_mul]
      omega
    rw [List.map_cons, List.cons_append, List.nodup_cons, List.nodup_middle,
      List.nodup_cons] at distinct
    obtain ⟨heapFresh, windowFresh, restDistinct⟩ := distinct
    simp only [List.mem_append, List.mem_cons, not_or] at heapFresh windowFresh
    obtain ⟨q, run, laidRest⟩ :
        ∃ q, initHeaps32 useExternalFrontWindowPool rest p₁ (base + gfxHeap32Size) =
            .ok (q, base + gfxHeap32Size + rest.length * gfxHeap32Size) ∧
          Laid32 useExternalFrontWindowPool rest (base + gfxHeap32Size) p₁ q := by
      apply ih (fun n member => listed n (by simp [member])) restDistinct
        (Nat.dvd_add aligned (by decide)) (by omega)
      intro k n found
      rw [place]
      exact placed (k + 1) n found
    refine ⟨q, ?_, ?_, ?_, ?_, laidRest.reserved.trans laid.reserved⟩
    · rw [List.length_cons, ← place]
      simp only [initHeaps32, first, next]
      exact run
    · intro k n found
      cases k with
      | zero =>
        obtain rfl : heapIndex = n := by simpa using found
        rw [laidRest.other _ heapFresh.1 heapFresh.2.2, laid.heap, Nat.zero_mul, Nat.add_zero]
      | succ k => rw [laidRest.heap k n found, place]
    · intro k n found
      cases k with
      | zero =>
        obtain rfl : heapIndex = n := by simpa using found
        rw [laidRest.other _ windowFresh.1 windowFresh.2, laid.window, Nat.zero_mul, Nat.add_zero]
      | succ k =>
        -- the windows of the later heaps are as the first round found them
        have member : n ∈ rest := List.mem_of_getElem? found
        have mapped : frontWindow n ∈ rest.map frontWindow := List.mem_map_of_mem member
        have untouched : p₁.heaps (frontWindow n) = p.heaps (frontWindow n) :=
          laid.other _ (fun same => heapFresh.2.2 (same ▸ mapped))
            (fun same => windowFresh.2 (same ▸ mapped))
        rw [laidRest.window k n found, place, untouched]
    · intro n notHeap notWindow
      simp only [List.mem_cons, List.map_cons, not_or] at notHeap notWindow
      rw [laidRest.other n notHeap.2 notWindow.2, laid.other n notHeap.1 notWindow.1]

end Loop

section Places

variable {useExternalFrontWindowPool : Bool} {base : Nat}

/-- What the front window takes off the heap's start. -/
def windowSize (useExternalFrontWindowPool : Bool) (heapIndex : HeapIndex) : Nat :=
  if useExternalFrontWindowPool && HeapAssigner.heapTypeExternalWithFrontWindowPool heapIndex then
    externalFrontWindowPoolSize
  else if HeapAssigner.isInternalHeap heapIndex then internalFrontWindowPoolSize
  else 0

theorem windowSize_le (heapIndex : HeapIndex) :
    windowSize useExternalFrontWindowPool heapIndex ≤ gfxHeap32Size := by
  unfold windowSize
  split
  · decide
  · split <;> decide

theorem windowTaken_handsOut (fits : base + gfxHeap32Size < 2 ^ 64) :
    (windowTaken base).handsOut = Set.Ico (base + externalFrontWindowPoolSize)
      (base + gfxHeap32Size - heapGranularity) := by
  obtain ⟨granule, _, external, _, heap, page⟩ := sizes_in_bytes
  have right : add64 base (gfxHeap32Size - heapGranularity) =
    base + gfxHeap32Size - heapGranularity := by
    have whole : base + (gfxHeap32Size - heapGranularity) =
      base + gfxHeap32Size - heapGranularity := by omega
    rw [← whole]
    exact Word.add_eq (by omega)
  unfold windowTaken
  rw [GfxHeap.gap_handsOut rfl rfl]
  simp only [HeapAllocator.create, right]

theorem heap32At_handsOut (heapIndex : HeapIndex) (fits : base + gfxHeap32Size < 2 ^ 64) :
    (heap32At useExternalFrontWindowPool heapIndex base).handsOut ⊆
      Set.Ico (base + windowSize useExternalFrontWindowPool heapIndex) (base + gfxHeap32Size) := by
  obtain ⟨granule, _, external, internal, heap, page⟩ := sizes_in_bytes
  unfold heap32At windowSize
  split
  next =>
    rw [windowTaken_handsOut fits]
    exact Set.Ico_subset_Ico (Nat.le_refl _) (by omega)
  next =>
    split
    next =>
      rw [GfxHeap.initWithFrontWindow_handsOut (by omega) fits]
      exact Set.Ico_subset_Ico (Nat.le_refl _) (by omega)
    next =>
      have margin : GfxHeap.margin MemoryConstants.pageSize = 65536 := by decide
      rw [GfxHeap.init_handsOut (by omega) fits, margin]
      exact Set.Ico_subset_Ico (by omega) (by omega)

theorem window32At_handsOut {heapIndex : HeapIndex} {heap : GfxHeap}
    (window : window32At useExternalFrontWindowPool heapIndex base = some heap)
    (fits : base + gfxHeap32Size < 2 ^ 64) :
    heap.handsOut ⊆ Set.Ico base (base + windowSize useExternalFrontWindowPool heapIndex) := by
  obtain ⟨granule, _, external, internal, size, page⟩ := sizes_in_bytes
  unfold window32At at window
  unfold windowSize
  split at window
  next isExternal =>
    cases window
    rw [if_pos isExternal, GfxHeap.initExternalWithFrontWindow_handsOut (by omega) (by omega)]
    exact Set.Ico_subset_Ico (Nat.le_refl _) (by omega)
  next isExternal =>
    split at window
    next isInternal =>
      cases window
      rw [if_neg isExternal, if_pos isInternal, GfxHeap.initFrontWindow_handsOut (by omega)]
    next => cases window

/-- Each round of the loop lays out a front window and behind it the rest of its heap. -/
theorem Laid32.placed_next {names placed : List HeapIndex} {p q : GfxPartition} {lo k : Nat}
    {heapIndex : HeapIndex} (laid : Laid32 useExternalFrontWindowPool names base p q)
    (found : names[k]? = some heapIndex) (fresh : p.heaps (frontWindow heapIndex) = .empty)
    (fits : base + (k + 1) * gfxHeap32Size < 2 ^ 64)
    (before : Placed q.handsOut placed lo (base + k * gfxHeap32Size)) :
    Placed q.handsOut (heapIndex :: frontWindow heapIndex :: placed) lo
      (base + (k + 1) * gfxHeap32Size) := by
  rw [Nat.succ_mul] at fits
  have size : windowSize useExternalFrontWindowPool heapIndex ≤ gfxHeap32Size :=
    windowSize_le heapIndex
  have stop : base + (k + 1) * gfxHeap32Size = base + k * gfxHeap32Size + gfxHeap32Size := by
    rw [Nat.succ_mul, Nat.add_assoc]
  rw [stop]
  have window : Placed q.handsOut (frontWindow heapIndex :: placed) lo
      (base + k * gfxHeap32Size + windowSize useExternalFrontWindowPool heapIndex) := by
    refine before.next ?_ (by omega)
    rw [handsOut, laid.window k heapIndex found]
    cases window : window32At useExternalFrontWindowPool heapIndex (base + k * gfxHeap32Size) with
    | none => simp [fresh]
    | some heap => exact window32At_handsOut window (by omega)
  refine window.next ?_ (by omega)
  rw [handsOut, laid.heap k heapIndex found]
  exact heap32At_handsOut heapIndex (by omega)

end Places

end GfxPartition

end ComputeRuntime
