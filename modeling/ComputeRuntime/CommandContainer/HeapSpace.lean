import ComputeRuntime.CommandContainer.Heaps
import ComputeRuntime.Library.Layout
import ComputeRuntime.Library.Outcome

/-! Whether a request for heap space is honoured. A heap that grows counts the space left in the
old buffer, but the reservation and the alignment are taken from the new one. -/
namespace ComputeRuntime.IndirectHeaps

/-- The heap is a part of memory, and no more than all of it is used. -/
structure IndirectHeap.Ok (heap : IndirectHeap) : Prop where
  placed : 0 < heap.buffer
  inMemory : heap.buffer + heap.maxAvailableSpace < 2 ^ 57
  bufferLines : cacheLineSize ∣ heap.buffer
  sizeLines : cacheLineSize ∣ heap.maxAvailableSpace
  used : heap.sizeUsed ≤ heap.maxAvailableSpace

/-- Where the space of a heap begins after an alignment, which may be none. -/
def alignedEnd (buffer used alignment : ℕ) : ℕ :=
  if alignment = 0 then used else alignUp (buffer + used) alignment - buffer

theorem isPow2_cacheLineSize : IsPow2 cacheLineSize := ⟨6, by decide, by decide⟩

theorem line_straight {buffer used size alignment : ℕ} (inMemory : buffer + size < 2 ^ 57)
    (inside : used ≤ size) (small : alignment ≤ cacheLineSize) :
    buffer + used + (alignment - 1) < 2 ^ 64 := by
  have line : cacheLineSize ≤ 64 := by decide
  omega

theorem alignUp_sub_le {buffer used size alignment : ℕ} (pow2 : IsPow2 alignment)
    (straight : buffer + used + (alignment - 1) < 2 ^ 64) (stop : alignment ∣ buffer + size)
    (inside : used ≤ size) : alignUp (buffer + used) alignment - buffer ≤ size := by
  have le := alignUp_le pow2 straight stop (Nat.add_le_add_left inside _)
  exact Nat.sub_le_iff_le_add'.mpr le

/-- An alignment that a caller asks for. -/
def IsAlignment (alignment : ℕ) : Prop := alignment = 0 ∨ IsPow2 alignment

theorem IsAlignment.le {alignment : ℕ} (isAlignment : IsAlignment alignment) : alignment ≤ 2 ^ 63 := by
  rcases isAlignment with rfl | ⟨k, bound, rfl⟩
  · exact Nat.zero_le _
  · exact Nat.pow_le_pow_right (by decide) (by omega)

theorem alignedEnd_bounds {buffer used alignment : ℕ} (isAlignment : IsAlignment alignment)
    (inMemory : buffer + used < 2 ^ 63) :
    used ≤ alignedEnd buffer used alignment ∧ alignedEnd buffer used alignment ≤ used + alignment ∧
      buffer + alignedEnd buffer used alignment < 2 ^ 64 := by
  unfold alignedEnd
  rcases isAlignment with rfl | pow2
  · rw [if_pos rfl]
    omega
  · rw [if_neg (Nat.ne_of_gt pow2.pos)]
    have half := IsAlignment.le (.inr pow2)
    have low := le_alignUp pow2 (x := buffer + used) (by omega)
    have high := alignUp_lt pow2 (x := buffer + used) (by omega)
    omega

namespace IndirectHeap.Ok

variable {heap : IndirectHeap} (ok : heap.Ok)

include ok

theorem position_eq : heap.position = heap.buffer + heap.sizeUsed := by
  have inMemory := ok.inMemory
  have used := ok.used
  exact Word.add_eq (by omega)

theorem available_eq : heap.getAvailableSpace = heap.maxAvailableSpace - heap.sizeUsed := by
  have inMemory := ok.inMemory
  exact Word.sub_eq ok.used (by omega)

theorem align_sizeUsed {alignment : ℕ} (pow2 : IsPow2 alignment) :
    (heap.align alignment).sizeUsed = alignedEnd heap.buffer heap.sizeUsed alignment := by
  have inMemory := ok.inMemory
  have used := ok.used
  have bounds := alignedEnd_bounds (.inr pow2) (by omega : heap.buffer + heap.sizeUsed < 2 ^ 63)
  unfold alignedEnd at bounds ⊢
  rw [if_neg (Nat.ne_of_gt pow2.pos)] at bounds ⊢
  have low := le_alignUp pow2 (x := heap.buffer + heap.sizeUsed) (by
    have := pow2.lt
    obtain ⟨k, small, rfl⟩ := pow2
    have half : 2 ^ k ≤ 2 ^ 63 := Nat.pow_le_pow_right (by decide) (by omega)
    omega)
  unfold align
  rw [ok.position_eq]
  exact Word.sub_eq (by omega) (by omega)

/-- The heap is in order as long as it is the same part of memory. -/
theorem of_same {after : IndirectHeap} (buffer : after.buffer = heap.buffer)
    (size : after.maxAvailableSpace = heap.maxAvailableSpace)
    (used : after.sizeUsed ≤ heap.maxAvailableSpace) : after.Ok where
  placed := by
    rw [buffer]
    exact ok.placed
  inMemory := by
    rw [buffer, size]
    exact ok.inMemory
  bufferLines := by
    rw [buffer]
    exact ok.bufferLines
  sizeLines := by
    rw [size]
    exact ok.sizeLines
  used := by
    rw [size]
    exact used

/-- Space that is consumed is in the heap, also where the sum wraps around. -/
theorem getSpace {size : ℕ} {served : ℕ × IndirectHeap} (call : heap.getSpace size = .ok served) :
    served.2.Ok := by
  unfold IndirectHeap.getSpace at call
  split at call
  next =>
    cases call
    exact ok
  next =>
    split at call
    next => cases call
    next room =>
      split at call
      next => cases call
      next =>
        cases call
        exact ok.of_same (setUsed_buffer heap _) (setUsed_maxAvailableSpace heap _)
          (Nat.not_lt.mp room)

/-- Space that is there is served. -/
theorem getSpace_of_room {size : ℕ} (room : heap.sizeUsed + size ≤ heap.maxAvailableSpace) :
    ∃ served, heap.getSpace size = .ok served := by
  have inMemory := ok.inMemory
  unfold IndirectHeap.getSpace
  split
  next => exact ⟨_, rfl⟩
  next =>
    rw [if_neg (Nat.not_lt.mpr (by rw [add64, Word.add_eq (by omega)]; exact room)),
      if_neg (Nat.ne_of_gt ok.placed)]
    exact ⟨_, rfl⟩

/-- An alignment to a cache line or less stays in the heap, which ends with one. -/
theorem align {alignment : ℕ} (pow2 : IsPow2 alignment) (small : alignment ≤ cacheLineSize) :
    (heap.align alignment).Ok := by
  have stop : alignment ∣ heap.buffer + heap.maxAvailableSpace :=
    (pow2.dvd isPow2_cacheLineSize small).trans (Nat.dvd_add ok.bufferLines ok.sizeLines)
  have straight := line_straight ok.inMemory ok.used small
  have stays := alignUp_sub_le pow2 straight stop ok.used
  refine ok.of_same (setUsed_buffer heap _) (setUsed_maxAvailableSpace heap _) ?_
  rw [ok.align_sizeUsed pow2, alignedEnd, if_neg (Nat.ne_of_gt pow2.pos)]
  exact stays

end IndirectHeap.Ok

namespace IndirectHeap

/-- The first space of a heap. -/
theorem getSpace_of_fresh {heap : IndirectHeap} (placed : 0 < heap.buffer)
    (fresh : heap.sizeUsed = 0) {size : ℕ} (small : size < 2 ^ 64) :
    (heap.getSpace size).map Prod.snd =
      if size ≤ heap.maxAvailableSpace then .ok (heap.setUsed size)
      else .error .unrecoverable := by
  have sum : add64 heap.sizeUsed size = size := by
    rw [fresh, add64, Word.add_eq (by omega), Nat.zero_add]
  unfold getSpace
  rw [sum]
  split
  next zero =>
    subst zero
    rw [if_pos (Nat.zero_le _), ← fresh]
    rfl
  next =>
    split
    next large =>
      rw [if_neg (Nat.not_le.mpr large)]
      rfl
    next room =>
      rw [if_neg (Nat.ne_of_gt placed), if_pos (Nat.not_lt.mp room)]
      rfl

end IndirectHeap

/-- The heap over a new allocation, before anything of it is consumed. -/
def IndirectHeap.over (heap : IndirectHeap) (allocation : HeapAllocation) : IndirectHeap :=
  (heap.replaceGraphicsAllocation allocation).replaceBuffer allocation.underlyingBuffer
    allocation.underlyingBufferSize

@[simp] theorem IndirectHeap.over_maxAvailableSpace (heap : IndirectHeap)
    (allocation : HeapAllocation) :
    (heap.over allocation).maxAvailableSpace = allocation.underlyingBufferSize := rfl

theorem IndirectHeap.over_ok (heap : IndirectHeap) (allocation : HeapAllocation) :
    (heap.over allocation).Ok :=
  ⟨allocation.placed, allocation.fits, allocation.bufferLines, allocation.sizeLines,
    Nat.zero_le _⟩

/-- The bytes that a new heap of a type begins with. -/
def Settings.reservedSize (settings : Settings) (heapType : HeapType) : ℕ :=
  if heapType = .surfaceState then settings.reservedSshSize else 0

/-- A container whose heaps are in order. -/
structure CommandContainer.Ok (c : CommandContainer) : Prop where
  heaps : ∀ heapType heap, c.indirectHeaps heapType = some heap → heap.Ok
  allocations : ∀ heapType heap, c.indirectHeaps heapType = some heap →
    (c.allocationIndirectHeaps heapType).isSome = true
  reserved : c.settings.reservedSshSize < 2 ^ 64

/-- Nothing about the heaps has changed but where they are allocated. -/
structure CommandContainer.SameHeaps (c c' : CommandContainer) : Prop where
  settings : c'.settings = c.settings
  heaps : c'.indirectHeaps = c.indirectHeaps
  allocations : ∀ heapType, (c.allocationIndirectHeaps heapType).isSome = true →
    (c'.allocationIndirectHeaps heapType).isSome = true

namespace CommandContainer

variable {helper : HeapHelper} {c : CommandContainer} {heapType : HeapType} {heap : IndirectHeap}

theorem setUsed_self (fresh : heap.sizeUsed = 0) : heap.setUsed 0 = heap := by
  rw [← fresh]
  rfl

theorem reserveSsh_of_fresh (reserved : c.settings.reservedSshSize < 2 ^ 64)
    (placed : 0 < heap.buffer) (fresh : heap.sizeUsed = 0) :
    c.reserveSsh heapType heap =
      if c.settings.reservedSize heapType ≤ heap.maxAvailableSpace then
        .ok (heap.setUsed (c.settings.reservedSize heapType))
      else .error .unrecoverable := by
  unfold reserveSsh Settings.reservedSize
  split
  next => exact IndirectHeap.getSpace_of_fresh placed fresh reserved
  next => rw [if_pos (Nat.zero_le _), setUsed_self fresh]

theorem createAndAssignNewHeap_eq {size : ℕ} {oldAlloc newAlloc : HeapAllocation}
    (old : c.allocationIndirectHeaps heapType = some oldAlloc)
    (new : helper.getHeapAllocation heapType size = some newAlloc) :
    ∃ c', c.createAndAssignNewHeap helper heapType heap size =
      .ok (heap.over newAlloc, c') ∧ c.SameHeaps c' := by
  unfold createAndAssignNewHeap
  rw [old, new]
  refine ⟨_, rfl, ?_⟩
  -- Whether the receiver is there and the base is new makes no difference to the heaps.
  have allocated (heapType' : HeapType)
      (isSome : (c.allocationIndirectHeaps heapType').isSome = true) :
      (Function.update c.allocationIndirectHeaps heapType (some newAlloc) heapType').isSome =
        true := by
    by_cases same : heapType' = heapType
    · rw [same, Function.update_self]
      rfl
    · rwa [Function.update_of_ne same]
  split
  next =>
    split
    next => exact ⟨rfl, rfl, allocated⟩
    next => exact ⟨rfl, rfl, allocated⟩
  next =>
    split
    next => exact ⟨rfl, rfl, allocated⟩
    next => exact ⟨rfl, rfl, allocated⟩

/-- The heap as a request leaves it to its caller. -/
def aligned (heap : IndirectHeap) (alignment : ℕ) : IndirectHeap :=
  if alignment ≠ 0 then heap.align alignment else heap

/-- The request needs a new heap. -/
abbrev Full (heap : IndirectHeap) (sizeRequired alignment : ℕ) : Prop :=
  heap.getAvailableSpace < sizeRequested heap sizeRequired alignment

theorem aligned_ok (ok : heap.Ok) {alignment : ℕ} (isAlignment : IsAlignment alignment)
    (inside : alignedEnd heap.buffer heap.sizeUsed alignment ≤ heap.maxAvailableSpace) :
    (aligned heap alignment).Ok := by
  unfold aligned
  rcases isAlignment with rfl | pow2
  · exact ok
  · rw [if_pos (Nat.ne_of_gt pow2.pos)]
    refine ok.of_same (IndirectHeap.setUsed_buffer heap _)
      (IndirectHeap.setUsed_maxAvailableSpace heap _) ?_
    rwa [ok.align_sizeUsed pow2]

theorem aligned_sizeUsed (ok : heap.Ok) {alignment : ℕ} (isAlignment : IsAlignment alignment) :
    (aligned heap alignment).sizeUsed = alignedEnd heap.buffer heap.sizeUsed alignment := by
  unfold aligned
  rcases isAlignment with rfl | pow2
  · rfl
  · rw [if_pos (Nat.ne_of_gt pow2.pos)]
    exact ok.align_sizeUsed pow2

theorem aligned_maxAvailableSpace (heap : IndirectHeap) (alignment : ℕ) :
    (aligned heap alignment).maxAvailableSpace = heap.maxAvailableSpace := by
  unfold aligned
  split
  next => exact IndirectHeap.setUsed_maxAvailableSpace heap _
  next => rfl

section Request

variable {sizeRequired alignment : ℕ} {allowGrow : Bool}
  (isPrivate : c.immediateCmdListSharedHeap heapType = false)
  (found : c.indirectHeaps heapType = some heap)

include isPrivate

theorem getIndirectHeap_private : c.getIndirectHeap heapType = c.indirectHeaps heapType := by
  unfold getIndirectHeap
  rw [isPrivate, if_neg Bool.false_ne_true]

theorem setIndirectHeap_private (heap : IndirectHeap) :
    c.setIndirectHeap heapType heap = c.setPrivateHeap heapType heap := by
  unfold setIndirectHeap
  rw [isPrivate, if_neg Bool.false_ne_true]

include found

/-- A request that finds room aligns the heap. -/
theorem getHeapWithRequiredSize_of_room (room : ¬ Full heap sizeRequired alignment) :
    c.getHeapWithRequiredSize helper heapType sizeRequired alignment allowGrow =
      .ok (c.setPrivateHeap heapType (aligned heap alignment)) := by
  unfold getHeapWithRequiredSize
  rw [getIndirectHeap_private isPrivate, found]
  simp only [if_pos room]
  show Except.ok (c.setIndirectHeap heapType _) = _
  rw [setIndirectHeap_private isPrivate]
  rfl

/-- Without an allocation the request aborts. -/
theorem getHeapWithRequiredSize_of_none (full : Full heap sizeRequired alignment)
    (none : helper.getHeapAllocation heapType
      (newHeapSize heap sizeRequired alignment allowGrow) = none) :
    c.getHeapWithRequiredSize helper heapType sizeRequired alignment allowGrow =
      .error .unrecoverable := by
  unfold getHeapWithRequiredSize
  rw [getIndirectHeap_private isPrivate, found]
  simp only [if_neg (not_not_intro full), isPrivate, Bool.false_eq_true, if_false]
  unfold takeNewHeap createAndAssignNewHeap
  rw [none]
  cases c.allocationIndirectHeaps heapType <;> rfl

/-- A request that finds none takes the heap that the helper hands out, and reserves and aligns
in there. -/
theorem getHeapWithRequiredSize_of_full (full : Full heap sizeRequired alignment)
    (reserved : c.settings.reservedSshSize < 2 ^ 64) {oldAlloc newAlloc : HeapAllocation}
    (old : c.allocationIndirectHeaps heapType = some oldAlloc)
    (new : helper.getHeapAllocation heapType
      (newHeapSize heap sizeRequired alignment allowGrow) = some newAlloc) :
    ∃ c', c.SameHeaps c' ∧
      c.getHeapWithRequiredSize helper heapType sizeRequired alignment allowGrow =
        if c.settings.reservedSize heapType ≤ newAlloc.underlyingBufferSize then
          .ok (c'.setPrivateHeap heapType (aligned
            ((heap.over newAlloc).setUsed (c.settings.reservedSize heapType)) alignment))
        else .error .unrecoverable := by
  obtain ⟨c', taken, same⟩ := @createAndAssignNewHeap_eq helper c heapType heap _ _ _ old new
  have reserve := @reserveSsh_of_fresh c' heapType (heap.over newAlloc)
    (by rw [same.settings]; exact reserved) newAlloc.placed rfl
  rw [same.settings, IndirectHeap.over_maxAvailableSpace] at reserve
  let after : CommandContainer := if heapType = .surfaceState then
    { c' with sshAllocations := c'.sshAllocations ++ [oldAlloc] } else c'
  have kept : c.SameHeaps after := by
    show c.SameHeaps (if heapType = .surfaceState then _ else _)
    split
    next => exact ⟨same.settings, same.heaps, same.allocations⟩
    next => exact same
  have stillPrivate : after.immediateCmdListSharedHeap heapType = false := by
    unfold immediateCmdListSharedHeap at isPrivate ⊢
    rw [kept.settings]
    exact isPrivate
  refine ⟨after, kept, ?_⟩
  unfold getHeapWithRequiredSize
  rw [getIndirectHeap_private isPrivate, found]
  simp only [if_neg (not_not_intro full), isPrivate, Bool.false_eq_true, if_false]
  unfold takeNewHeap
  rw [taken, old]
  show ((c'.reserveSsh heapType (heap.over newAlloc) >>= fun heap => _) >>= fun taken => _) = _
  rw [reserve]
  by_cases fits : c.settings.reservedSize heapType ≤ newAlloc.underlyingBufferSize
  · rw [if_pos fits, if_pos fits]
    exact congrArg Except.ok (setIndirectHeap_private stillPrivate _)
  · rw [if_neg fits, if_neg fits]
    rfl

end Request

/-- A size in whole pages. -/
def pages (size : ℕ) : ℕ := Layout.roundUp size MemoryConstants.pageSize

/-- What is left of a heap. -/
def left (heap : IndirectHeap) : ℕ := heap.maxAvailableSpace - heap.sizeUsed

/-- What is asked of a heap, with the alignment unless the heap stands at one. -/
def needed (sizeRequired alignment : ℕ) (heap : IndirectHeap) : ℕ :=
  sizeRequired + if alignment ≠ 0 ∧ ¬ alignment ∣ heap.buffer + heap.sizeUsed then alignment else 0

section Honoured

variable (helper : HeapHelper) (c : CommandContainer) (heapType : HeapType)
  (sizeRequired alignment : ℕ) (allowGrow : Bool)

/-- The request returns a heap with the bytes, and taking them does not abort. -/
def Honours : Prop :=
  ∃ c' heap', c.getHeapWithRequiredSize helper heapType sizeRequired alignment allowGrow = .ok c' ∧
    c'.getIndirectHeap heapType = some heap' ∧
    heap'.sizeUsed + sizeRequired ≤ heap'.maxAvailableSpace ∧
    ∃ served, heap'.getSpace sizeRequired = .ok served

/-- A heap of a size, placed at an address, has room behind the reservation and the alignment. -/
def RoomIn (base size : ℕ) : Prop :=
  c.settings.reservedSize heapType ≤ size ∧
    alignedEnd base (c.settings.reservedSize heapType) alignment + sizeRequired ≤ size

/-- The request fits, should a new heap be placed at an address: what is left of the old heap and
what is asked for do not wrap around when they are added up, and if the one is less than the other,
there is room in a heap as large as the old one, or as large as that sum if it may grow. -/
structure Fits (base : ℕ) (heap : IndirectHeap) : Prop where
  straight : pages (left heap + needed sizeRequired alignment heap) < 2 ^ 64
  next : left heap < needed sizeRequired alignment heap →
    RoomIn c heapType sizeRequired alignment base (pages heap.maxAvailableSpace) ∨
    allowGrow = true ∧ RoomIn c heapType sizeRequired alignment base
      (pages (left heap + needed sizeRequired alignment heap))

/-- The memory manager places a new heap at an address. -/
def Places (base size : ℕ) : Prop :=
  ∃ allocation, helper.getHeapAllocation heapType size = some allocation ∧
    allocation.underlyingBuffer = base

/-- The request fits wherever the memory manager places the heap that is taken. -/
def FitsPlaced (heap : IndirectHeap) : Prop :=
  ∀ base, (Full heap sizeRequired alignment →
    Places helper heapType base (newHeapSize heap sizeRequired alignment allowGrow)) →
    Fits c heapType sizeRequired alignment allowGrow base heap

/-- What is asked of a request: one that may not grow the heap has to fit the heap, with all that
is reserved of it. -/
def Promised (heap : IndirectHeap) : Prop :=
  allowGrow = true ∨
    sizeRequired + c.settings.reservedSshSize + alignment ≤ heap.maxAvailableSpace

end Honoured

variable {sizeRequired alignment : ℕ} {allowGrow : Bool}

/-- A heap that a call left is honoured by its sizes. -/
theorem honours_iff_of_call {c' : CommandContainer} {heap' : IndirectHeap}
    (call : c.getHeapWithRequiredSize helper heapType sizeRequired alignment allowGrow =
      .ok (c'.setPrivateHeap heapType heap'))
    (isPrivate : c'.immediateCmdListSharedHeap heapType = false)
    (ok : heap'.sizeUsed ≤ heap'.maxAvailableSpace → heap'.Ok) :
    Honours helper c heapType sizeRequired alignment allowGrow ↔
      heap'.sizeUsed + sizeRequired ≤ heap'.maxAvailableSpace := by
  have there : (c'.setPrivateHeap heapType heap').getIndirectHeap heapType = some heap' := by
    have stillPrivate : (c'.setPrivateHeap heapType heap').immediateCmdListSharedHeap heapType =
      false := isPrivate
    rw [getIndirectHeap_private stillPrivate]
    exact setPrivateHeap_self c' heapType heap'
  constructor
  · rintro ⟨after, heap, call', found, room, _⟩
    rw [call] at call'
    cases call'
    rw [there] at found
    cases found
    exact room
  · intro room
    exact ⟨_, heap', call, there, room, (ok (by omega)).getSpace_of_room room⟩

section Sizes

theorem le_pages (size : ℕ) : size ≤ pages size := Layout.le_roundUp (by decide) size

theorem pages_le {size bound : ℕ} (le : size ≤ pages bound) : pages size ≤ pages bound :=
  Layout.roundUp_le (Layout.dvd_roundUp bound _) le

theorem pages_lt (size : ℕ) : pages size < size + 2 ^ 12 := by
  have rounded := Nat.div_mul_le_self (size + MemoryConstants.pageSize - 1) MemoryConstants.pageSize
  have page : MemoryConstants.pageSize = 2 ^ 12 := by decide
  unfold pages Layout.roundUp
  omega

theorem alignUp_eq_pages {size : ℕ} (fits : pages size < 2 ^ 64) :
    alignUp size MemoryConstants.pageSize = pages size := by
  have page : MemoryConstants.pageSize = 2 ^ 12 := by decide
  -- the last page that is a word leaves room for the mask
  have room : size + (MemoryConstants.pageSize - 1) < 2 ^ 64 := by
    obtain ⟨count, whole⟩ := Layout.dvd_roundUp size MemoryConstants.pageSize
    have above := le_pages size
    unfold pages at fits above
    rw [whole, page] at fits above
    omega
  rw [alignUp_eq isPow2_pageSize room, alignDown_eq isPow2_pageSize room, pages, Layout.roundUp]
  rfl

variable (heapOk : heap.Ok) (isAlignment : IsAlignment alignment)

include heapOk

theorem left_lt : left heap < 2 ^ 57 := by
  have inMemory := heapOk.inMemory
  unfold left
  omega

include isAlignment

/-- The code counts the alignment where it is needed. -/
theorem counted_iff : alignment ≠ 0 ∧ heap.position ≠ alignUp heap.position alignment ↔
    alignment ≠ 0 ∧ ¬ alignment ∣ heap.buffer + heap.sizeUsed := by
  apply and_congr_right
  intro nonzero
  have pow2 := isAlignment.resolve_left nonzero
  have half := isAlignment.le
  have inMemory := heapOk.inMemory
  have used := heapOk.used
  rw [heapOk.position_eq, ne_eq, not_iff_not]
  constructor
  · intro same
    rw [same]
    exact dvd_alignUp pow2 _
  · exact fun aligned => (alignUp_self pow2 (by omega) aligned).symm

omit heapOk in
theorem needed_le : needed sizeRequired alignment heap ≤ sizeRequired + 2 ^ 63 := by
  have half := isAlignment.le
  unfold needed
  split <;> omega

omit isAlignment in
/-- A heap that stands at an alignment is left where it is. -/
theorem alignedEnd_of_aligned
    (still : ¬ (alignment ≠ 0 ∧ ¬ alignment ∣ heap.buffer + heap.sizeUsed))
    (isAlignment : IsAlignment alignment) :
    alignedEnd heap.buffer heap.sizeUsed alignment = heap.sizeUsed := by
  unfold alignedEnd
  split
  next => rfl
  next nonzero =>
    have pow2 := isAlignment.resolve_left nonzero
    have half := isAlignment.le
    have inMemory := heapOk.inMemory
    have used := heapOk.used
    have aligned : alignment ∣ heap.buffer + heap.sizeUsed :=
      not_not.mp fun moved => still ⟨nonzero, moved⟩
    rw [alignUp_self pow2 (by omega) aligned, Nat.add_sub_cancel_left]

theorem sizeRequested_eq (straight : needed sizeRequired alignment heap < 2 ^ 64) :
    sizeRequested heap sizeRequired alignment = needed sizeRequired alignment heap := by
  unfold sizeRequested
  unfold needed at straight ⊢
  rw [if_congr (counted_iff heapOk isAlignment) rfl rfl]
  split at straight
  next counted => rw [if_pos counted, if_pos counted, add64, Word.add_eq straight]
  next still => rw [if_neg still, if_neg still, Nat.add_zero]

theorem full_iff (straight : needed sizeRequired alignment heap < 2 ^ 64) :
    Full heap sizeRequired alignment ↔ left heap < needed sizeRequired alignment heap := by
  rw [Full, heapOk.available_eq, sizeRequested_eq heapOk isAlignment straight, left]

/-- The size of a new heap. -/
theorem newHeapSize_eq
    (straight : pages (left heap + needed sizeRequired alignment heap) < 2 ^ 64) :
    newHeapSize heap sizeRequired alignment allowGrow =
      pages (if allowGrow = true then
        max heap.maxAvailableSpace (left heap + needed sizeRequired alignment heap)
      else heap.maxAvailableSpace) := by
  have inMemory := heapOk.inMemory
  have sum := le_pages (left heap + needed sizeRequired alignment heap)
  have old := pages_lt heap.maxAvailableSpace
  unfold newHeapSize
  rw [sizeRequested_eq heapOk isAlignment (by omega), heapOk.available_eq, ← left, add64,
    Word.add_eq (Nat.lt_of_le_of_lt sum straight)]
  show alignUp (if allowGrow = true then
    max heap.maxAvailableSpace (left heap + needed sizeRequired alignment heap)
    else heap.maxAvailableSpace) MemoryConstants.pageSize = _
  apply alignUp_eq_pages
  split
  next =>
    rcases Nat.le_total heap.maxAvailableSpace
      (left heap + needed sizeRequired alignment heap) with more | less
    · simpa only [Nat.max_eq_right more] using straight
    · rw [Nat.max_eq_left less]
      omega
  next => omega

omit heapOk isAlignment in
theorem RoomIn.mono {base size larger : ℕ}
    (room : RoomIn c heapType sizeRequired alignment base size) (le : size ≤ larger) :
    RoomIn c heapType sizeRequired alignment base larger :=
  ⟨Nat.le_trans room.1 le, Nat.le_trans room.2 le⟩

/-- A heap that is as large as two has room when one of the two has. -/
theorem roomIn_newHeapSize {base : ℕ}
    (straight : pages (left heap + needed sizeRequired alignment heap) < 2 ^ 64) :
    RoomIn c heapType sizeRequired alignment base
      (newHeapSize heap sizeRequired alignment allowGrow) ↔
    RoomIn c heapType sizeRequired alignment base (pages heap.maxAvailableSpace) ∨
      allowGrow = true ∧ RoomIn c heapType sizeRequired alignment base
        (pages (left heap + needed sizeRequired alignment heap)) := by
  rw [newHeapSize_eq heapOk isAlignment straight]
  cases allowGrow with
  | false => simp
  | true =>
    rw [if_pos rfl, and_iff_right rfl]
    constructor
    · rcases Nat.le_total heap.maxAvailableSpace
        (left heap + needed sizeRequired alignment heap) with more | less
      · rw [Nat.max_eq_right more]
        exact Or.inr
      · rw [Nat.max_eq_left less]
        exact Or.inl
    · rintro (room | room)
      · exact room.mono (pages_le (Nat.le_trans (Nat.le_max_left _ _) (le_pages _)))
      · exact room.mono (pages_le (Nat.le_trans (Nat.le_max_right _ _) (le_pages _)))

end Sizes

section Exact

variable (ok : c.Ok) (isPrivate : c.immediateCmdListSharedHeap heapType = false)
  (found : c.indirectHeaps heapType = some heap) (isAlignment : IsAlignment alignment)

include ok isPrivate found isAlignment

omit isPrivate in
/-- The room that a heap has suffices behind an alignment, unless the sum wraps around. -/
theorem room_iff (room : ¬ Full heap sizeRequired alignment) :
    alignedEnd heap.buffer heap.sizeUsed alignment + sizeRequired ≤ heap.maxAvailableSpace ↔
      pages (left heap + needed sizeRequired alignment heap) < 2 ^ 64 := by
  have heapOk := ok.heaps heapType heap found
  have inMemory := heapOk.inMemory
  have used := heapOk.used
  have bounds := alignedEnd_bounds isAlignment
    (by omega : heap.buffer + heap.sizeUsed < 2 ^ 63)
  have rounded := pages_lt (left heap + needed sizeRequired alignment heap)
  have some := left_lt heapOk
  constructor
  · intro fits
    have few := @needed_le heap sizeRequired alignment isAlignment
    omega
  · intro straight
    have sum := le_pages (left heap + needed sizeRequired alignment heap)
    rw [full_iff heapOk isAlignment (by omega), Nat.not_lt] at room
    unfold left needed at room
    split at room
    next => omega
    next still =>
      rw [alignedEnd_of_aligned heapOk still isAlignment]
      omega

theorem honours_iff_of_room (room : ¬ Full heap sizeRequired alignment) :
    Honours helper c heapType sizeRequired alignment allowGrow ↔
      pages (left heap + needed sizeRequired alignment heap) < 2 ^ 64 := by
  have heapOk := ok.heaps heapType heap found
  rw [← room_iff ok found isAlignment room,
    honours_iff_of_call (getHeapWithRequiredSize_of_room isPrivate found room) isPrivate
    (fun inside => aligned_ok heapOk isAlignment (by
      rwa [aligned_sizeUsed heapOk isAlignment, aligned_maxAvailableSpace] at inside)),
    aligned_sizeUsed heapOk isAlignment, aligned_maxAvailableSpace]

/-- A new heap honours the request when it has room. -/
theorem honours_iff_of_full (full : Full heap sizeRequired alignment) {newAlloc : HeapAllocation}
    (new : helper.getHeapAllocation heapType
      (newHeapSize heap sizeRequired alignment allowGrow) = some newAlloc) :
    Honours helper c heapType sizeRequired alignment allowGrow ↔
      RoomIn c heapType sizeRequired alignment newAlloc.underlyingBuffer
        newAlloc.underlyingBufferSize := by
  obtain ⟨oldAlloc, old⟩ := Option.isSome_iff_exists.mp (ok.allocations heapType heap found)
  obtain ⟨c', same, call⟩ := getHeapWithRequiredSize_of_full isPrivate found full ok.reserved old new
  have fits := newAlloc.fits
  unfold RoomIn
  by_cases reserved : c.settings.reservedSize heapType ≤ newAlloc.underlyingBufferSize
  · have stillPrivate : c'.immediateCmdListSharedHeap heapType = false := by
      unfold immediateCmdListSharedHeap at isPrivate ⊢
      rw [same.settings]
      exact isPrivate
    have newOk : ((heap.over newAlloc).setUsed (c.settings.reservedSize heapType)).Ok :=
      (heap.over_ok newAlloc).of_same (IndirectHeap.setUsed_buffer _ _)
        (IndirectHeap.setUsed_maxAvailableSpace _ _) reserved
    rw [if_pos reserved] at call
    rw [honours_iff_of_call call stillPrivate (fun inside => aligned_ok newOk isAlignment (by
        rwa [aligned_sizeUsed newOk isAlignment, aligned_maxAvailableSpace] at inside)),
      aligned_sizeUsed newOk isAlignment, aligned_maxAvailableSpace]
    exact (and_iff_right reserved).symm
  · rw [if_neg reserved] at call
    constructor
    · rintro ⟨_, _, call', _⟩
      rw [call] at call'
      cases call'
    · exact fun room => absurd room.1 reserved

omit isPrivate in
/-- A request that fits has room in the heap that is taken for it. -/
theorem roomIn_of_fits (full : Full heap sizeRequired alignment) {newAlloc : HeapAllocation}
    (new : helper.getHeapAllocation heapType
      (newHeapSize heap sizeRequired alignment allowGrow) = some newAlloc)
    (fits : Fits c heapType sizeRequired alignment allowGrow newAlloc.underlyingBuffer heap) :
    RoomIn c heapType sizeRequired alignment newAlloc.underlyingBuffer
      newAlloc.underlyingBufferSize := by
  have heapOk := ok.heaps heapType heap found
  have straight := fits.straight
  have sum := le_pages (left heap + needed sizeRequired alignment heap)
  have exact := (roomIn_newHeapSize heapOk isAlignment straight).mpr
    (fits.next ((full_iff heapOk isAlignment (by omega)).mp full))
  exact exact.mono (helper.large _ _ _ new)

/-- A request that fits is honoured wherever the new heap is placed so. -/
theorem honours_of_fits {base : ℕ}
    (placed : Full heap sizeRequired alignment →
      Places helper heapType base (newHeapSize heap sizeRequired alignment allowGrow))
    (fits : Fits c heapType sizeRequired alignment allowGrow base heap) :
    Honours helper c heapType sizeRequired alignment allowGrow := by
  by_cases full : Full heap sizeRequired alignment
  · obtain ⟨newAlloc, new, rfl⟩ := placed full
    rw [honours_iff_of_full ok isPrivate found isAlignment full new]
    exact roomIn_of_fits ok found isAlignment full new fits
  · rw [honours_iff_of_room ok isPrivate found isAlignment full]
    exact fits.straight

/-- A request that is honoured although the new heap is just as large as asked for fits. -/
theorem fits_of_honours {base : ℕ}
    (exact : Full heap sizeRequired alignment → ∃ allocation, helper.getHeapAllocation heapType
      (newHeapSize heap sizeRequired alignment allowGrow) = some allocation ∧
        allocation.underlyingBuffer = base ∧
        allocation.underlyingBufferSize = newHeapSize heap sizeRequired alignment allowGrow)
    (honoured : Honours helper c heapType sizeRequired alignment allowGrow) :
    Fits c heapType sizeRequired alignment allowGrow base heap := by
  have heapOk := ok.heaps heapType heap found
  have rounded := pages_lt (left heap + needed sizeRequired alignment heap)
  have some := left_lt heapOk
  have few := @needed_le heap sizeRequired alignment isAlignment
  by_cases full : Full heap sizeRequired alignment
  · obtain ⟨newAlloc, new, rfl, size⟩ := exact full
    rw [honours_iff_of_full ok isPrivate found isAlignment full new] at honoured
    have inMemory := newAlloc.fits
    have straight : pages (left heap + needed sizeRequired alignment heap) < 2 ^ 64 := by
      have inside := honoured.2
      omega
    rw [size, roomIn_newHeapSize heapOk isAlignment straight] at honoured
    exact ⟨straight, fun _ => honoured⟩
  · rw [honours_iff_of_room ok isPrivate found isAlignment full] at honoured
    have sum := le_pages (left heap + needed sizeRequired alignment heap)
    exact ⟨honoured, fun more => absurd ((full_iff heapOk isAlignment (by omega)).mpr more) full⟩

omit isPrivate in
/-- A request that is small enough for the heap fits without growth. -/
theorem fits_of_small {base : ℕ} (inMemory : base < 2 ^ 57)
    (small : sizeRequired + c.settings.reservedSshSize + alignment ≤ heap.maxAvailableSpace) :
    Fits c heapType sizeRequired alignment allowGrow base heap := by
  have heapOk := ok.heaps heapType heap found
  have heapInMemory := heapOk.inMemory
  have rounded := pages_lt (left heap + needed sizeRequired alignment heap)
  have some := left_lt heapOk
  have few := @needed_le heap sizeRequired alignment isAlignment
  have grown := le_pages heap.maxAvailableSpace
  have reserved : c.settings.reservedSize heapType ≤ c.settings.reservedSshSize := by
    unfold Settings.reservedSize
    split
    next => exact Nat.le_refl _
    next => exact Nat.zero_le _
  have bounds := alignedEnd_bounds isAlignment (by omega :
    base + c.settings.reservedSize heapType < 2 ^ 63)
  refine ⟨by omega, fun _ => .inl ⟨by omega, by omega⟩⟩

end Exact

/-- What is done to the heaps of a container. The encoders consume space and align to at most a
cache line on their own. -/
inductive Action where
  | getSpace (heapType : HeapType) (size : ℕ)
  | align (heapType : HeapType) (alignment : ℕ)
  | getHeapWithRequiredSize (helper : HeapHelper) (heapType : HeapType)
    (sizeRequired alignment : ℕ) (allowGrow : Bool)
  | getHeapSpaceAllowGrow (helper : HeapHelper) (heapType : HeapType) (size : ℕ)
  | prepareBindfulSsh (helper : HeapHelper)
  | reset

/-- A change of a private heap. -/
def changeHeap (c : CommandContainer) (heapType : HeapType)
    (change : IndirectHeap → Result IndirectHeap) : Result CommandContainer :=
  match c.indirectHeaps heapType with
  | none => .error .nullAccess
  | some heap => (change heap).map fun heap => c.setPrivateHeap heapType heap

def perform (c : CommandContainer) : Action → Result CommandContainer
  | .getSpace heapType size => c.changeHeap heapType fun heap => (heap.getSpace size).map Prod.snd
  | .align heapType alignment => c.changeHeap heapType fun heap => .ok (heap.align alignment)
  | .getHeapWithRequiredSize helper heapType sizeRequired alignment allowGrow =>
    c.getHeapWithRequiredSize helper heapType sizeRequired alignment allowGrow
  | .getHeapSpaceAllowGrow helper heapType size =>
    (c.getHeapSpaceAllowGrow helper heapType size).map Prod.snd
  | .prepareBindfulSsh helper => c.prepareBindfulSsh helper
  | .reset => c.reset

/-- The sizes and alignments that callers have. -/
def Legal : Action → Prop
  | .align _ alignment => IsPow2 alignment ∧ alignment ≤ cacheLineSize
  | .getHeapWithRequiredSize _ _ sizeRequired alignment _ =>
    sizeRequired < 2 ^ 64 ∧ IsAlignment alignment
  | .getHeapSpaceAllowGrow _ _ size => size < 2 ^ 64
  | _ => True

/-- A container from its initialization on. -/
def system : Transition.System CommandContainer Action where
  init := fun c => ∃ helper settings, settings.reservedSshSize < 2 ^ 64 ∧
    initializeWithHeaps helper settings = .ok (some c)
  step := fun c action c' => Legal action ∧ c.perform action = .ok c'

/-- A request of a private heap fits. -/
def Fitting (c : CommandContainer) : Action → Prop
  | .getHeapWithRequiredSize helper heapType sizeRequired alignment allowGrow =>
    ∀ heap, c.indirectHeaps heapType = some heap →
      FitsPlaced helper c heapType sizeRequired alignment allowGrow heap
  | .getHeapSpaceAllowGrow helper heapType size =>
    ∀ heap, c.indirectHeaps heapType = some heap → FitsPlaced helper c heapType size 0 true heap
  | _ => True

section Preserved

variable {c' : CommandContainer}

/-- A heap in order is put in the place of another. -/
theorem Ok.setPrivateHeap (ok : c.Ok) (same : c.SameHeaps c') (heapOk : heap.Ok)
    (allocated : (c'.allocationIndirectHeaps heapType).isSome = true) :
    (c'.setPrivateHeap heapType heap).Ok := by
  refine ⟨fun other heap' there => ?_, fun other heap' there => ?_, ?_⟩
  · by_cases here : other = heapType
    · subst here
      rw [setPrivateHeap_self] at there
      cases there
      exact heapOk
    · rw [setPrivateHeap_other c' here, same.heaps] at there
      exact ok.heaps other heap' there
  · by_cases here : other = heapType
    · rw [here]
      exact allocated
    · rw [setPrivateHeap_other c' here, same.heaps] at there
      exact same.allocations other (ok.allocations other heap' there)
  · show c'.settings.reservedSshSize < 2 ^ 64
    rw [same.settings]
    exact ok.reserved

theorem SameHeaps.refl (c : CommandContainer) : c.SameHeaps c := ⟨rfl, rfl, fun _ isSome => isSome⟩

theorem Ok.sameHeaps (ok : c.Ok) (same : c.SameHeaps c') : c'.Ok := by
  refine ⟨fun other heap there => ?_, fun other heap there => ?_, ?_⟩
  · rw [same.heaps] at there
    exact ok.heaps other heap there
  · rw [same.heaps] at there
    exact same.allocations other (ok.allocations other heap there)
  · rw [same.settings]
    exact ok.reserved

theorem reserveSsh_ok {after : IndirectHeap} (ok : heap.Ok)
    (call : c.reserveSsh heapType heap = .ok after) : after.Ok := by
  unfold reserveSsh at call
  split at call
  next =>
    cases served : heap.getSpace c.settings.reservedSshSize with
    | error abort =>
      rw [served] at call
      cases call
    | ok result =>
      rw [served] at call
      cases call
      exact ok.getSpace served
  next =>
    cases call
    exact ok

theorem createHeap_ok (ok : c.Ok) {heapSize : ℕ}
    (call : c.createHeap helper heapType heapSize = .ok (some c')) :
    c'.Ok ∧ c'.settings = c.settings := by
  unfold createHeap at call
  split at call
  next => cases call
  next allocation _ =>
    simp only at call
    cases reserve : c.reserveSsh heapType
      (IndirectHeap.ofAllocation allocation (heapType == .indirectObject)) with
    | error abort =>
      rw [reserve] at call
      cases call
    | ok heap =>
      rw [reserve] at call
      cases call
      have fresh : (IndirectHeap.ofAllocation allocation (heapType == .indirectObject)).Ok :=
        ⟨allocation.placed, allocation.fits, allocation.bufferLines, allocation.sizeLines,
          Nat.zero_le _⟩
      refine ⟨ok.setPrivateHeap ⟨rfl, rfl, fun other isSome => ?_⟩ (reserveSsh_ok fresh reserve)
        ?_, rfl⟩
      · show (Function.update c.allocationIndirectHeaps heapType (some allocation) other).isSome =
          true
        by_cases here : other = heapType
        · rw [here, Function.update_self]
          rfl
        · rwa [Function.update_of_ne here]
      · show (Function.update c.allocationIndirectHeaps heapType (some allocation)
          heapType).isSome = true
        rw [Function.update_self]
        rfl

theorem initializeHeaps_ok {heapTypes : List HeapType} (ok : c.Ok)
    (call : initializeHeaps helper heapTypes c = .ok (some c')) : c'.Ok := by
  induction heapTypes generalizing c with
  | nil =>
    cases call
    exact ok
  | cons heapType heapTypes ih =>
    unfold initializeHeaps at call
    split at call
    next => exact ih ok call
    next =>
      obtain ⟨created, create, rest⟩ := bind_eq_ok.mp call
      cases created with
      | none => cases rest
      | some created => exact ih (createHeap_ok ok create).1 rest

theorem changeHeap_ok (ok : c.Ok) {change : IndirectHeap → Result IndirectHeap}
    (keeps : ∀ heap after, heap.Ok → change heap = .ok after → after.Ok)
    (call : c.changeHeap heapType change = .ok c') : c'.Ok := by
  unfold changeHeap at call
  split at call
  next => cases call
  next heap found =>
    cases changed : change heap with
    | error abort =>
      rw [changed] at call
      cases call
    | ok after =>
      rw [changed] at call
      cases call
      exact ok.setPrivateHeap (SameHeaps.refl c) (keeps heap after (ok.heaps _ heap found) changed)
        (ok.allocations _ heap found)

theorem resetHeap_ok (ok : c.Ok) (call : c.resetHeap heapType = .ok c') : c'.Ok := by
  unfold resetHeap at call
  split at call
  next =>
    cases call
    exact ok
  next heap found =>
    have heapOk := ok.heaps heapType heap found
    have allocated := ok.allocations heapType heap found
    have start : (heap.replaceBuffer heap.buffer heap.maxAvailableSpace).Ok :=
      ⟨heapOk.placed, heapOk.inMemory, heapOk.bufferLines, heapOk.sizeLines, Nat.zero_le _⟩
    simp only at call
    split at call
    next =>
      cases call
      exact (ok.setPrivateHeap (SameHeaps.refl c) heapOk allocated).sameHeaps
        ⟨rfl, rfl, fun _ isSome => isSome⟩
    next =>
      cases reserve : c.reserveSsh heapType
        (heap.replaceBuffer heap.buffer heap.maxAvailableSpace) with
      | error abort =>
        rw [reserve] at call
        cases call
      | ok after =>
        rw [reserve] at call
        cases call
        exact (ok.setPrivateHeap (SameHeaps.refl c) (reserveSsh_ok start reserve)
          allocated).sameHeaps ⟨rfl, rfl, fun _ isSome => isSome⟩

/-- A request that fits leaves the heaps in order. -/
theorem getHeapWithRequiredSize_ok (ok : c.Ok) (isAlignment : IsAlignment alignment)
    (fits : ∀ heap, c.indirectHeaps heapType = some heap →
      FitsPlaced helper c heapType sizeRequired alignment allowGrow heap)
    (call : c.getHeapWithRequiredSize helper heapType sizeRequired alignment allowGrow = .ok c') :
    c'.Ok := by
  by_cases isPrivate : c.immediateCmdListSharedHeap heapType = false
  · cases found : c.indirectHeaps heapType with
    | none =>
      unfold getHeapWithRequiredSize at call
      rw [getIndirectHeap_private isPrivate, found] at call
      cases call
    | some heap =>
      have heapOk := ok.heaps heapType heap found
      have allocated := ok.allocations heapType heap found
      by_cases full : Full heap sizeRequired alignment
      · cases new : helper.getHeapAllocation heapType
          (newHeapSize heap sizeRequired alignment allowGrow) with
        | none =>
          rw [getHeapWithRequiredSize_of_none isPrivate found full new] at call
          cases call
        | some newAlloc =>
          obtain ⟨oldAlloc, old⟩ := Option.isSome_iff_exists.mp allocated
          obtain ⟨after, same, call'⟩ :=
            getHeapWithRequiredSize_of_full isPrivate found full ok.reserved old new
          have room := roomIn_of_fits ok found isAlignment full new
            (fits heap found newAlloc.underlyingBuffer fun _ => ⟨newAlloc, new, rfl⟩)
          rw [call', if_pos room.1] at call
          cases call
          have newOk : ((heap.over newAlloc).setUsed (c.settings.reservedSize heapType)).Ok :=
            (heap.over_ok newAlloc).of_same (IndirectHeap.setUsed_buffer _ _)
              (IndirectHeap.setUsed_maxAvailableSpace _ _) room.1
          exact ok.setPrivateHeap same
            (aligned_ok newOk isAlignment (Nat.le_of_add_right_le room.2))
            (same.allocations heapType allocated)
      · have room := (room_iff ok found isAlignment full).mpr
          (fits heap found 0 fun other => absurd other full).straight
        rw [getHeapWithRequiredSize_of_room isPrivate found full] at call
        cases call
        exact ok.setPrivateHeap (SameHeaps.refl c)
          (aligned_ok heapOk isAlignment (Nat.le_of_add_right_le room)) allocated
  · -- A shared heap is no heap of the container.
    rw [Bool.not_eq_false] at isPrivate
    have same (heap : IndirectHeap) : c.SameHeaps (c.setIndirectHeap heapType heap) := by
      unfold setIndirectHeap
      rw [if_pos isPrivate]
      split
      next => exact ⟨rfl, rfl, fun _ isSome => isSome⟩
      next => exact ⟨rfl, rfl, fun _ isSome => isSome⟩
    unfold getHeapWithRequiredSize at call
    split at call
    next => cases call
    next heap _ =>
      simp only [isPrivate, if_true] at call
      split at call
      next =>
        cases call
        exact ok.sameHeaps (same _)
      next => cases call

theorem getHeapSpaceAllowGrow_ok (ok : c.Ok) {size : ℕ}
    (fits : ∀ heap, c.indirectHeaps heapType = some heap →
      FitsPlaced helper c heapType size 0 true heap) {result : ℕ × CommandContainer}
    (call : c.getHeapSpaceAllowGrow helper heapType size = .ok result) : result.2.Ok := by
  unfold getHeapSpaceAllowGrow at call
  obtain ⟨taken, take, rest⟩ := bind_eq_ok.mp call
  have takenOk := getHeapWithRequiredSize_ok ok (.inl rfl) fits take
  split at rest
  next => cases rest
  next heap found =>
    cases served : heap.getSpace size with
    | error abort =>
      rw [served] at rest
      cases rest
    | ok result =>
      rw [served] at rest
      cases rest
      unfold getIndirectHeap at found
      show (taken.setIndirectHeap heapType _).Ok
      unfold setIndirectHeap
      split
      next =>
        split
        next => exact takenOk.sameHeaps ⟨rfl, rfl, fun _ isSome => isSome⟩
        next => exact takenOk.sameHeaps ⟨rfl, rfl, fun _ isSome => isSome⟩
      next isPrivate =>
        rw [if_neg isPrivate] at found
        exact takenOk.setPrivateHeap (SameHeaps.refl taken)
          ((takenOk.heaps _ heap found).getSpace served) (takenOk.allocations _ heap found)

theorem prepareBindfulSsh_ok (ok : c.Ok) (call : c.prepareBindfulSsh helper = .ok c') : c'.Ok := by
  unfold prepareBindfulSsh at call
  split at call
  next =>
    split at call
    next =>
      cases call
      exact ok
    next =>
      obtain ⟨created, create, rest⟩ := bind_eq_ok.mp call
      cases created with
      | none => cases rest
      | some created =>
        cases rest
        exact (createHeap_ok ok create).1.sameHeaps ⟨rfl, rfl, fun _ isSome => isSome⟩
  next =>
    cases call
    exact ok

theorem reset_ok (ok : c.Ok) (call : c.reset = .ok c') : c'.Ok := by
  have rounds : Outcome.Holds CommandContainer.Ok (fun _ => True) c.reset := by
    apply Outcome.foldlM_keeps
    · exact ok.sameHeaps ⟨rfl, rfl, fun _ isSome => isSome⟩
    · intro heapType _ c ok
      cases call : c.resetHeap heapType with
      | error abort => trivial
      | ok after => exact resetHeap_ok ok call
  exact Outcome.of_ok rounds call

end Preserved

theorem perform_getSpace {size : ℕ} {after : IndirectHeap}
    (found : c.indirectHeaps heapType = some heap)
    (served : (heap.getSpace size).map Prod.snd = .ok after) :
    c.perform (.getSpace heapType size) = .ok (c.setPrivateHeap heapType after) := by
  simp only [perform, changeHeap, found, served]
  rfl

theorem perform_ok {c' : CommandContainer} (ok : c.Ok) {action : Action} (legal : Legal action)
    (fits : c.Fitting action) (call : c.perform action = .ok c') : c'.Ok := by
  cases action with
  | getSpace heapType size =>
    refine changeHeap_ok ok (fun heap after heapOk call => ?_) call
    cases served : heap.getSpace size with
    | error abort =>
      rw [served] at call
      cases call
    | ok result =>
      rw [served] at call
      cases call
      exact heapOk.getSpace served
  | align heapType alignment =>
    refine changeHeap_ok ok (fun heap after heapOk call => ?_) call
    cases call
    exact heapOk.align legal.1 legal.2
  | getHeapWithRequiredSize helper heapType sizeRequired alignment allowGrow =>
    exact getHeapWithRequiredSize_ok ok legal.2 fits call
  | getHeapSpaceAllowGrow helper heapType size =>
    cases served : c.getHeapSpaceAllowGrow helper heapType size with
    | error abort =>
      simp only [perform, served] at call
      cases call
    | ok result =>
      simp only [perform, served] at call
      cases call
      exact getHeapSpaceAllowGrow_ok ok fits served
  | prepareBindfulSsh helper => exact prepareBindfulSsh_ok ok call
  | reset => exact reset_ok ok call

/-- The heaps of a container stay in order in all runs whose requests fit. -/
theorem ok_of_reachable (reachable : Transition.Reachable (system.restrict Fitting) c) : c.Ok := by
  refine Transition.Invariant.holds ⟨?_, ?_⟩ reachable
  · rintro c ⟨helper, settings, small, call⟩
    refine initializeHeaps_ok ⟨?_, ?_, small⟩ call
    · rintro _ _ ⟨⟩
    · rintro _ _ ⟨⟩
  · rintro c action c' _ ok ⟨fits, legal, call⟩
    exact perform_ok ok legal fits call

/-- A memory manager that places what it is asked for at an address, and makes it no larger. -/
def exactHelper (base : ℕ) (placed : 0 < base ∧ cacheLineSize ∣ base) : HeapHelper where
  getHeapAllocation := fun _ heapSize =>
    if sized : base + heapSize < 2 ^ 57 ∧ cacheLineSize ∣ heapSize then
      some {
        underlyingBuffer := base
        underlyingBufferSize := heapSize
        gpuAddress := base
        gpuBaseAddress := 0
        placed := placed.1
        fits := sized.1
        bufferLines := placed.2
        sizeLines := sized.2 }
    else none
  large := by
    intro heapType heapSize allocation handed
    split at handed
    next =>
      cases handed
      exact Nat.le_refl _
    next => cases handed

/-- In every run whose requests fit, a further request of a private heap is honoured, as far as it
is promised, by every memory manager that places its new heap at an address, exactly when it fits
there if it may grow the heap. -/
theorem getHeapWithRequiredSize_honoured_iff (base : ℕ)
    (reachable : Transition.Reachable (system.restrict Fitting) c)
    (isPrivate : c.immediateCmdListSharedHeap heapType = false)
    (found : c.indirectHeaps heapType = some heap) (isAlignment : IsAlignment alignment)
    (placed : 0 < base ∧ cacheLineSize ∣ base) (inMemory : base < 2 ^ 57)
    (memory : Full heap sizeRequired alignment →
      base + newHeapSize heap sizeRequired alignment allowGrow < 2 ^ 57) :
    (∀ helper, (Full heap sizeRequired alignment →
        Places helper heapType base (newHeapSize heap sizeRequired alignment allowGrow)) →
      Promised c sizeRequired alignment allowGrow heap →
        Honours helper c heapType sizeRequired alignment allowGrow) ↔
    (allowGrow = true → Fits c heapType sizeRequired alignment allowGrow base heap) := by
  have ok := ok_of_reachable reachable
  constructor
  · intro honoured grows
    have exact (full : Full heap sizeRequired alignment) :
        ∃ allocation, (exactHelper base placed).getHeapAllocation heapType
          (newHeapSize heap sizeRequired alignment allowGrow) = some allocation ∧
            allocation.underlyingBuffer = base ∧
            allocation.underlyingBufferSize =
              newHeapSize heap sizeRequired alignment allowGrow := by
      have lines : cacheLineSize ∣ newHeapSize heap sizeRequired alignment allowGrow :=
        Nat.dvd_trans (by decide) (dvd_alignUp isPow2_pageSize _)
      exact ⟨_, dif_pos ⟨memory full, lines⟩, rfl, rfl⟩
    refine fits_of_honours ok isPrivate found isAlignment exact
      (honoured _ (fun full => ?_) (.inl grows))
    obtain ⟨allocation, handed, here, _⟩ := exact full
    exact ⟨allocation, handed, here⟩
  · intro fits helper places promised
    apply honours_of_fits ok isPrivate found isAlignment places
    cases allowGrow with
    | true => exact fits rfl
    | false =>
      rcases promised with grows | inHeap
      · cases grows
      · exact fits_of_small ok found isAlignment inMemory inHeap

/-- The reservation of a list with scratch space, and heaps of the default size. -/
def privateSettings : Settings where
  heapSharingEnabled := false
  stateBaseAddressTracking := false
  globalBindlessHeapsEnabled := false
  supportsImages := true
  privateHeaps := true
  immediateCmdListCsr := false
  reservedSshSize := 4224
  defaultSshSize := 65536
  forceDefaultHeapSize := none

def startOf (call : Result (Option CommandContainer)) : CommandContainer :=
  match call with
  | .ok (some c) => c
  | _ => { settings := privateSettings }

/-- Every new heap is placed at one megabyte. -/
def atMegabyte : HeapHelper := exactHelper (2 ^ 20) (by decide)

def privateContainer : CommandContainer := startOf (initializeWithHeaps atMegabyte privateSettings)

theorem privateContainer_reachable :
    Transition.Reachable (system.restrict Fitting) privateContainer :=
  .start ⟨atMegabyte, privateSettings, by decide, by rfl⟩

/-- A surface state heap over the default allocation. -/
def surfaceHeap (sizeUsed : ℕ) : IndirectHeap where
  sizeUsed := sizeUsed
  maxAvailableSpace := 65536
  buffer := 2 ^ 20
  graphicsAllocation := ⟨2 ^ 20, 65536, 2 ^ 20, 0, by decide, by decide, by decide, by decide⟩
  canBeUtilizedAs4GbHeap := false

theorem privateContainer_surfaceHeap :
    privateContainer.indirectHeaps .surfaceState = some (surfaceHeap 4224) := rfl

/-- The container after the encoders have used up its surface state heap. -/
def usedContainer : CommandContainer :=
  privateContainer.setPrivateHeap .surfaceState (surfaceHeap 65536)

theorem usedContainer_reachable : Transition.Reachable (system.restrict Fitting) usedContainer := by
  have served : ((surfaceHeap 4224).getSpace 61312).map Prod.snd = .ok (surfaceHeap 65536) := by
    decide
  refine .next (a := .getSpace .surfaceState 61312) privateContainer_reachable
    ⟨trivial, trivial, ?_⟩
  exact perform_getSpace privateContainer_surfaceHeap served

/-- What a new heap has left beside the reservation is honoured when nothing is left of the old
one. -/
theorem getHeapWithRequiredSize_honours_aligned :
    Honours atMegabyte usedContainer .surfaceState 61312 64 true := by
  have size : newHeapSize (surfaceHeap 65536) 61312 64 true = 65536 := by decide
  have fits : Fits usedContainer .surfaceState 61312 64 true (2 ^ 20) (surfaceHeap 65536) :=
    ⟨by decide, fun _ => .inl ⟨by decide, by decide⟩⟩
  refine (getHeapWithRequiredSize_honoured_iff (2 ^ 20) usedContainer_reachable rfl
    (show usedContainer.indirectHeaps .surfaceState = some (surfaceHeap 65536) from rfl)
    (show IsAlignment 64 from .inr isPow2_cacheLineSize) (by decide) (by decide) fun _ => ?_).mpr
    (fun _ => fits) atMegabyte (fun _ => ?_) (.inl rfl)
  · rw [size]
    decide
  · rw [size]
    exact ⟨(surfaceHeap 65536).graphicsAllocation, rfl, rfl⟩

/-- A request for a whole heap, when nothing is left of the old one, gets a heap of that size, of
which the reservation is taken. -/
theorem getHeapSpaceAllowGrow_reservation_aborts :
    Transition.Reachable (system.restrict Fitting) usedContainer ∧
    usedContainer.immediateCmdListSharedHeap .surfaceState = false ∧
    usedContainer.indirectHeaps .surfaceState = some (surfaceHeap 65536) ∧
    Promised usedContainer 65536 0 true (surfaceHeap 65536) ∧
    ¬ Honours atMegabyte usedContainer .surfaceState 65536 0 true := by
  refine ⟨usedContainer_reachable, rfl, rfl, .inl rfl, ?_⟩
  have size : newHeapSize (surfaceHeap 65536) 65536 0 true = 65536 := by decide
  have new : atMegabyte.getHeapAllocation .surfaceState
      (newHeapSize (surfaceHeap 65536) 65536 0 true) =
        some (surfaceHeap 65536).graphicsAllocation := by
    rw [size]
    rfl
  rw [honours_iff_of_full (ok_of_reachable usedContainer_reachable) rfl
    (show usedContainer.indirectHeaps .surfaceState = some (surfaceHeap 65536) from rfl)
    (.inl rfl) (by decide) new]
  rintro ⟨_, room⟩
  revert room
  decide

end CommandContainer

end ComputeRuntime.IndirectHeaps
