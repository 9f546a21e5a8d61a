import ComputeRuntime.GfxPartition.Model
import ComputeRuntime.Library.Placement

/-! What the heaps of an initialised partition can hand out: each heap has a place of its own in
the range the partition was given, and the front windows are cut out of their heaps. -/
namespace ComputeRuntime

open Tiling

namespace GfxHeap

open GfxPartition

/-- The addresses the heap's allocator can hand out. -/
def handsOut (heap : GfxHeap) : Set Nat :=
  {a | ∃ alloc, heap.alloc = some alloc ∧ 0 < total (hits a) alloc.freeSpans}

section Ranges

variable {base size address bytes allocationAlignment threshold : Nat}

@[simp] theorem empty_handsOut : GfxHeap.empty.handsOut = ∅ := by
  ext a
  simp [handsOut, empty]

/-- An allocator nothing was given back to can hand out its gap. -/
theorem gap_handsOut {alloc : HeapAllocator} (small : alloc.freedChunksSmall = [])
    (big : alloc.freedChunksBig = []) :
    (GfxHeap.mk base size (some alloc)).handsOut =
      Set.Ico alloc.pLeftBound alloc.pRightBound := by
  ext a
  rw [← hits_eq_one]
  have once := hits_le_one a alloc.pLeftBound alloc.pRightBound
  simp only [handsOut, Option.some.injEq, exists_eq_left', HeapAllocator.freeSpans, small, big,
    spans_nil, List.append_nil, total_cons, total_nil, Nat.add_zero, Set.mem_ofPred_eq]
  omega

/-- A new allocator can hand out its whole range. -/
theorem create_handsOut (fits : address + bytes < 2 ^ 64) :
    (GfxHeap.mk base size (some (.create address bytes allocationAlignment threshold))).handsOut =
      Set.Ico address (address + bytes) := by
  rw [gap_handsOut rfl rfl]
  have right : add64 address bytes = address + bytes := Word.add_eq fits
  simp only [HeapAllocator.create, right]

/-- The margin `init` leaves at both ends of a heap. -/
def margin (allocationAlignment : Nat) : Nat :=
  if allocationAlignment > heapGranularity then heapGranularity2MB else heapGranularity

theorem init_eq (base size allocationAlignment : Nat) :
    GfxHeap.init base size allocationAlignment =
      ⟨base, size, some (.create (add64 base (margin allocationAlignment))
        (if 2 * margin allocationAlignment < size then
          sub64 size (2 * margin allocationAlignment) else size)
        allocationAlignment HeapAllocator.defaultThreshold)⟩ := rfl

/-- A heap larger than its margins keeps them free. -/
theorem init_handsOut (large : 2 * margin allocationAlignment < size)
    (fits : base + size < 2 ^ 64) :
    (GfxHeap.init base size allocationAlignment).handsOut =
      Set.Ico (base + margin allocationAlignment) (base + size - margin allocationAlignment) := by
  have start : add64 base (margin allocationAlignment) = base + margin allocationAlignment :=
    Word.add_eq (by omega)
  have managed : sub64 size (2 * margin allocationAlignment) =
      size - 2 * margin allocationAlignment := Word.sub_eq (by omega) (by omega)
  have stop : base + margin allocationAlignment + (size - 2 * margin allocationAlignment) =
      base + size - margin allocationAlignment := by omega
  rw [init_eq, if_pos large, start, managed, create_handsOut (by omega), stop]

/-- A smaller heap is moved by its margin as a whole. -/
theorem init_handsOut_small (small : size ≤ 2 * margin allocationAlignment)
    (fits : base + margin allocationAlignment + size < 2 ^ 64) :
    (GfxHeap.init base size allocationAlignment).handsOut =
      Set.Ico (base + margin allocationAlignment) (base + margin allocationAlignment + size) := by
  have start : add64 base (margin allocationAlignment) = base + margin allocationAlignment :=
    Word.add_eq (by omega)
  rw [init_eq, if_neg (Nat.not_lt.mpr small), start, create_handsOut fits]

/-- In any case the addresses lie above the first margin, and at most one margin too high. -/
theorem init_handsOut_subset (fits : base + margin allocationAlignment + size < 2 ^ 64) :
    (GfxHeap.init base size allocationAlignment).handsOut ⊆
      Set.Ico (base + margin allocationAlignment) (base + margin allocationAlignment + size) := by
  by_cases large : 2 * margin allocationAlignment < size
  · rw [init_handsOut large (by omega)]
    exact Set.Ico_subset_Ico (Nat.le_refl _) (by omega)
  · rw [init_handsOut_small (by omega) fits]

theorem initFrontWindow_handsOut (fits : base + size < 2 ^ 64) :
    (GfxHeap.initFrontWindow base size).handsOut = Set.Ico base (base + size) :=
  create_handsOut fits

theorem initWithFrontWindow_handsOut {frontWindowSize : Nat}
    (room : heapGranularity + frontWindowSize ≤ size) (fits : base + size < 2 ^ 64) :
    (GfxHeap.initWithFrontWindow base size frontWindowSize).handsOut =
      Set.Ico (base + frontWindowSize) (base + size - heapGranularity) := by
  have start : add64 base frontWindowSize = base + frontWindowSize := Word.add_eq (by omega)
  have whole : sub64 size heapGranularity = size - heapGranularity :=
    Word.sub_eq (by omega) (by omega)
  have managed : sub64 (size - heapGranularity) frontWindowSize =
      size - heapGranularity - frontWindowSize := Word.sub_eq (by omega) (by omega)
  have stop : base + frontWindowSize + (size - heapGranularity - frontWindowSize) =
      base + size - heapGranularity := by omega
  unfold initWithFrontWindow
  rw [start, whole, managed, create_handsOut (by omega), stop]

theorem initExternalWithFrontWindow_handsOut (room : heapGranularity ≤ size)
    (fits : base + size < 2 ^ 64) :
    (GfxHeap.initExternalWithFrontWindow base size).handsOut =
      Set.Ico base (base + size - heapGranularity) := by
  have managed : sub64 size heapGranularity = size - heapGranularity :=
    Word.sub_eq (by omega) (by omega)
  have stop : base + (size - heapGranularity) = base + size - heapGranularity := by omega
  unfold initExternalWithFrontWindow
  rw [managed, create_handsOut (by omega), stop]

end Ranges

end GfxHeap

end ComputeRuntime
