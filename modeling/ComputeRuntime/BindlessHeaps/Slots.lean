import ComputeRuntime.BindlessHeaps.Model
import Mathlib.Data.List.Count
import Mathlib.Data.List.Infix
import Mathlib.Algebra.GroupWithZero.Nat

/-! What one call does to the slots of the pools: none is lost, and each comes from the vector of
its size. -/
namespace ComputeRuntime.BindlessHeaps

variable {setup : Setup} {helper helper' : BindlessHeapsHelper} {slot : SurfaceStateInHeapInfo}

theorem zero_or_one (i : Fin 2) : i = 0 ∨ i = 1 := by omega

theorem index_eq_of_size {size size' : Nat} {index : Fin 2}
    (first : setup.getReusedSshVectorIndex size = some index)
    (second : setup.getReusedSshVectorIndex size' = some index) : size = size' := by
  unfold Setup.getReusedSshVectorIndex at first second
  split at first
  next large =>
    cases first
    split at second
    next large' => rw [large, large']
    next =>
      split at second
      · cases second
      · cases second
  next =>
    split at first
    next small =>
      cases first
      split at second
      next => cases second
      next =>
        split at second
        next small' => rw [small, small']
        next => cases second
    next => cases first

namespace BindlessHeapsHelper

local instance two_neZero : NeZero 2 := ⟨Nat.succ_ne_zero 1⟩

/-- How often a slot stands in the four vectors. -/
def pooled (helper : BindlessHeapsHelper) (slot : SurfaceStateInHeapInfo) : Nat :=
  (helper.surfaceStateInHeapVectorReuse 0 0).count slot +
    (helper.surfaceStateInHeapVectorReuse 0 1).count slot +
    (helper.surfaceStateInHeapVectorReuse 1 0).count slot +
    (helper.surfaceStateInHeapVectorReuse 1 1).count slot

@[simp] theorem setVector_same (pool index : Fin 2) (slots : List SurfaceStateInHeapInfo) :
    (helper.setVector pool index slots).surfaceStateInHeapVectorReuse pool index = slots := by
  simp [setVector]

theorem setVector_pool {pool pool' : Fin 2} (different : pool' ≠ pool) (index index' : Fin 2)
    (slots : List SurfaceStateInHeapInfo) :
    (helper.setVector pool index slots).surfaceStateInHeapVectorReuse pool' index' =
      helper.surfaceStateInHeapVectorReuse pool' index' := by
  simp [setVector, different]

theorem setVector_index (pool : Fin 2) {index index' : Fin 2} (different : index' ≠ index)
    (slots : List SurfaceStateInHeapInfo) :
    (helper.setVector pool index slots).surfaceStateInHeapVectorReuse pool index' =
      helper.surfaceStateInHeapVectorReuse pool index' := by
  simp [setVector, different]

/-- One vector is exchanged. -/
theorem pooled_setVector (helper : BindlessHeapsHelper) (pool index : Fin 2) (slots : List SurfaceStateInHeapInfo)
    (slot : SurfaceStateInHeapInfo) :
    (helper.setVector pool index slots).pooled slot +
        (helper.surfaceStateInHeapVectorReuse pool index).count slot =
      helper.pooled slot + slots.count slot := by
  unfold pooled setVector
  rcases zero_or_one pool with rfl | rfl
  · rcases zero_or_one index with rfl | rfl <;> simp [Function.update] <;> omega
  · rcases zero_or_one index with rfl | rfl <;> simp [Function.update] <;> omega

/-- Each vector has slots of one size. -/
def Sized (setup : Setup) (helper : BindlessHeapsHelper) : Prop :=
  ∀ pool index, ∀ slot ∈ helper.surfaceStateInHeapVectorReuse pool index,
    setup.getReusedSshVectorIndex slot.ssSize = some index

theorem Sized.setVector (sized : helper.Sized setup) (pool : Fin 2) {index : Fin 2}
    {slots : List SurfaceStateInHeapInfo}
    (fits : ∀ slot ∈ slots, setup.getReusedSshVectorIndex slot.ssSize = some index) :
    (helper.setVector pool index slots).Sized setup := by
  intro pool' index' slot member
  by_cases samePool : pool' = pool
  · subst samePool
    by_cases sameIndex : index' = index
    · subst sameIndex
      rw [setVector_same] at member
      exact fits slot member
    · rw [setVector_index pool' sameIndex] at member
      exact sized pool' index' slot member
  · rw [setVector_pool samePool] at member
    exact sized pool' index' slot member

/-! ### The pools -/

/-- While slots are reused the two pools are different; otherwise one pool is empty. -/
structure Phased (helper : BindlessHeapsHelper) : Prop where
  reusing : helper.allocateFromReusePool = true →
    helper.allocatePoolIndex ≠ helper.releasePoolIndex
  collecting : helper.allocateFromReusePool = false → ∀ pool ≠ helper.releasePoolIndex,
    ∀ index, helper.surfaceStateInHeapVectorReuse pool index = []

theorem Phased.exchangePools (phased : helper.Phased) : (helper.exchangePools setup).Phased := by
  unfold BindlessHeapsHelper.exchangePools
  split
  next =>
    constructor
    · intro _
      rcases zero_or_one helper.releasePoolIndex with zero | one
      · simp [zero]
      · simp [one]
    · nofun
  next => exact phased

theorem endReuse_pooled (helper : BindlessHeapsHelper)
    (different : helper.allocatePoolIndex ≠ helper.releasePoolIndex)
    (index : Fin 2) (slot : SurfaceStateInHeapInfo) :
    (helper.endReuse index).pooled slot = helper.pooled slot := by
  let other : Fin 2 := if index = 0 then 1 else 0
  let remaining := helper.surfaceStateInHeapVectorReuse helper.allocatePoolIndex other
  let released := helper.surfaceStateInHeapVectorReuse helper.releasePoolIndex other
  let moved := helper.setVector helper.releasePoolIndex other (released ++ remaining)
  have first : moved.pooled slot + released.count slot =
      helper.pooled slot + (released ++ remaining).count slot :=
    pooled_setVector helper helper.releasePoolIndex other _ slot
  have second := pooled_setVector moved helper.allocatePoolIndex other [] slot
  have kept : moved.surfaceStateInHeapVectorReuse helper.allocatePoolIndex other = remaining :=
    setVector_pool different other other _
  have same : (helper.endReuse index).pooled slot =
      (moved.setVector helper.allocatePoolIndex other []).pooled slot := rfl
  rw [kept, List.count_nil] at second
  rw [List.count_append] at first
  omega

theorem endReuse_phased (helper : BindlessHeapsHelper)
    (different : helper.allocatePoolIndex ≠ helper.releasePoolIndex)
    {index : Fin 2}
    (empty : helper.surfaceStateInHeapVectorReuse helper.allocatePoolIndex index = []) :
    (helper.endReuse index).Phased := by
  constructor
  · nofun
  · intro _ pool apart index'
    have pool : pool = helper.allocatePoolIndex := by
      have apart : pool ≠ helper.releasePoolIndex := apart
      omega
    subst pool
    unfold endReuse
    simp only
    by_cases same : index' = if index = 0 then 1 else 0
    · rw [same, setVector_same]
    · have index' : index' = index := by
        rcases zero_or_one index with rfl | rfl
        · simpa using zero_or_one index' |>.resolve_right same
        · simpa using zero_or_one index' |>.resolve_left same
      subst index'
      rw [setVector_index _ same, setVector_pool different, empty]

theorem Sized.endReuse (sized : helper.Sized setup) (index : Fin 2) :
    (helper.endReuse index).Sized setup := by
  apply Sized.setVector _ helper.allocatePoolIndex (by simp)
  apply sized.setVector
  intro slot member
  rcases List.mem_append.mp member with released | remaining
  · exact sized _ _ slot released
  · exact sized _ _ slot remaining

/-- A slot from a pool: the others stay, and as long as slots are reused, in their vectors. -/
structure Popped (setup : Setup) (helper : BindlessHeapsHelper) (index : Fin 2)
    (slot : SurfaceStateInHeapInfo) (helper' : BindlessHeapsHelper) : Prop where
  member : slot ∈ helper.surfaceStateInHeapVectorReuse helper.allocatePoolIndex index
  conserved : ∀ other, helper'.pooled other + [slot].count other = helper.pooled other
  remaining : helper'.allocateFromReusePool = true →
    helper'.allocatePoolIndex = helper.allocatePoolIndex ∧
      ∀ index, ∀ other ∈ helper'.surfaceStateInHeapVectorReuse helper.allocatePoolIndex index,
        other ∈ helper.surfaceStateInHeapVectorReuse helper.allocatePoolIndex index
  sized : helper'.Sized setup
  phased : helper'.Phased
  heap : helper'.surfaceStateHeap = helper.surfaceStateHeap
  dirty : helper'.stateCacheDirtyForContext = helper.stateCacheDirtyForContext

theorem popReused_popped {index : Fin 2} (phased : helper.Phased) (sized : helper.Sized setup)
    (reusing : helper.allocateFromReusePool = true)
    (found : helper.popReused index = some (slot, helper')) :
    helper.Popped setup index slot helper' := by
  have different := phased.reusing reusing
  obtain ⟨slot', last, equal⟩ := Option.map_eq_some_iff.mp found
  generalize taken : helper.surfaceStateInHeapVectorReuse helper.allocatePoolIndex index = slots
    at last equal
  obtain ⟨rfl, left⟩ := Prod.mk.inj equal
  have split : slots = slots.dropLast ++ [slot'] := (List.dropLast_append_getLast? slot' last).symm
  have fits : ∀ slot ∈ slots, setup.getReusedSshVectorIndex slot.ssSize = some index := by
    intro slot member
    exact sized _ index slot (taken ▸ member)
  have poppedSized := sized.setVector helper.allocatePoolIndex fun slot member =>
    fits slot (List.mem_of_mem_dropLast member)
  have conserved : ∀ other, (helper.setVector helper.allocatePoolIndex index
      slots.dropLast).pooled other + [slot'].count other = helper.pooled other := by
    intro other
    have moved := pooled_setVector helper helper.allocatePoolIndex index slots.dropLast other
    have counts := congrArg (List.count other) split
    rw [List.count_append] at counts
    rw [taken] at moved
    omega
  have member : slot' ∈ helper.surfaceStateInHeapVectorReuse helper.allocatePoolIndex index := by
    rw [taken, split]
    exact List.mem_append_right _ (List.mem_singleton_self _)
  cases empty : slots.dropLast.isEmpty with
  | true =>
    rw [empty, if_pos rfl] at left
    subst left
    constructor
    · exact member
    · intro other
      rw [endReuse_pooled (helper.setVector helper.allocatePoolIndex index slots.dropLast)
        different]
      exact conserved other
    · nofun
    · exact poppedSized.endReuse index
    · apply endReuse_phased (helper.setVector helper.allocatePoolIndex index slots.dropLast) different
      rw [List.isEmpty_iff.mp empty]
      exact setVector_same _ _ _
    · rfl
    · rfl
  | false =>
    rw [empty, if_neg Bool.false_ne_true] at left
    subst left
    constructor
    · exact member
    · exact conserved
    · intro _
      refine ⟨rfl, ?_⟩
      intro index' other inside
      by_cases same : index' = index
      · subst same
        rw [setVector_same] at inside
        rw [taken]
        exact List.mem_of_mem_dropLast inside
      · rwa [setVector_index _ same] at inside
    · exact poppedSized
    · constructor
      · exact fun _ => different
      · intro collecting
        exact absurd (reusing.symm.trans collecting) Bool.noConfusion
    · rfl
    · rfl

/-! ### New slots -/

/-- Where the slots stand that were carved before. -/
def Below (heap : IndirectHeap) (slot : SurfaceStateInHeapInfo) : Prop :=
  slot.heapAllocation < heap.graphicsAllocation ∨
    slot.heapAllocation = heap.graphicsAllocation ∧ slot.ssPtr + slot.ssSize ≤ heap.sizeUsed

end BindlessHeapsHelper

/-- Two slots without a common byte. -/
def Apart (slot slot' : SurfaceStateInHeapInfo) : Prop :=
  slot.heapAllocation ≠ slot'.heapAllocation ∨ slot.ssPtr + slot.ssSize ≤ slot'.ssPtr ∨
    slot'.ssPtr + slot'.ssSize ≤ slot.ssPtr

instance : Std.Symm Apart where
  symm _ _ apart := by
    rcases apart with allocation | before | behind
    · exact .inl allocation.symm
    · exact .inr (.inr before)
    · exact .inr (.inl behind)

namespace BindlessHeapsHelper

/-- A new slot stands behind all others. -/
structure Carved (heap : IndirectHeap) (ssSize : Nat) (slot : SurfaceStateInHeapInfo)
    (heap' : IndirectHeap) : Prop where
  size : slot.ssSize = ssSize
  below : Below heap' slot
  behind : ∀ other, Below heap other → Below heap' other ∧ Apart other slot
  grows : 0 < ssSize → heap' ≠ heap

theorem getSpace_carved {heap heap' : IndirectHeap} {ssSize ssPtr : Nat}
    (space : heap.getSpace ssSize = some (ssPtr, heap')) (offset : Nat) :
    Carved heap ssSize ⟨heap'.graphicsAllocation, offset, ssPtr, ssSize⟩ heap' := by
  unfold IndirectHeap.getSpace at space
  split at space
  next => cases space
  next =>
    cases space
    constructor
    · rfl
    · exact .inr ⟨rfl, Nat.le_refl _⟩
    · rintro other (before | ⟨same, fits⟩)
      · exact ⟨.inl before, .inl (Nat.ne_of_lt before)⟩
      · exact ⟨.inr ⟨same, Nat.le_add_right_of_le fits⟩, .inr (.inl fits)⟩
    · intro positive same
      have used := congrArg IndirectHeap.sizeUsed same
      simp only at used
      omega

/-- A heap in a new allocation is behind all slots. -/
theorem Carved.grown {heap heap' heap'' : IndirectHeap} {ssSize : Nat}
    (carved : Carved heap' ssSize slot heap'')
    (next : heap'.graphicsAllocation = heap.graphicsAllocation + 1)
    (stays : heap''.graphicsAllocation = heap'.graphicsAllocation) :
    Carved heap ssSize slot heap'' := by
  constructor
  · exact carved.size
  · exact carved.below
  · intro other below
    apply carved.behind
    left
    rcases below with before | ⟨same, _⟩
    · omega
    · omega
  · intro _ same
    rw [same] at stays
    omega

/-- A slot is carved behind all others, unless the heap cannot grow. -/
theorem carve_cases {ssSize : Nat} {grows : Bool} {result : Option SurfaceStateInHeapInfo}
    (carved : helper.carve setup ssSize grows = some (result, helper')) :
    (result = none ∧ helper' = helper) ∨
      ∃ slot heap, result = some slot ∧ Carved helper.surfaceStateHeap ssSize slot heap ∧
        helper' = { helper with surfaceStateHeap := heap } := by
  unfold carve at carved
  simp only at carved
  split at carved
  next =>
    cases carved
    exact .inl ⟨rfl, rfl⟩
  next grown enough =>
    obtain ⟨⟨ssPtr, heap⟩, space, equal⟩ := Option.map_eq_some_iff.mp carved
    cases equal
    right
    split at enough
    next =>
      unfold growHeap at enough
      split at enough
      next =>
        cases enough
        refine ⟨_, heap, rfl, (getSpace_carved space _).grown rfl ?_, rfl⟩
        unfold IndirectHeap.getSpace at space
        split at space
        next => cases space
        next =>
          cases space
          rfl
      next => cases enough
    next =>
      cases enough
      exact ⟨_, heap, rfl, getSpace_carved space _, rfl⟩

/-- Where a slot comes from. -/
theorem allocate_cases {ssSize : Nat} {grows : Bool} {result : Option SurfaceStateInHeapInfo}
    (allocated : helper.allocateSSInHeap setup ssSize grows = some (result, helper')) :
    (∃ slot index, result = some slot ∧
      (helper.exchangePools setup).allocateFromReusePool = true ∧
      setup.getReusedSshVectorIndex ssSize = some index ∧
      (helper.exchangePools setup).popReused index = some (slot, helper')) ∨
    (helper.exchangePools setup).carve setup ssSize grows = some (result, helper') := by
  unfold allocateSSInHeap at allocated
  simp only at allocated
  split at allocated
  next reusing =>
    split at allocated
    next => cases allocated
    next index size =>
      split at allocated
      next slot left found =>
        cases allocated
        exact .inl ⟨slot, index, rfl, reusing, size, found⟩
      next => exact .inr allocated
  next => exact .inr allocated

end BindlessHeapsHelper

end ComputeRuntime.BindlessHeaps
