import ComputeRuntime.HeapAllocator.Recovery
import ComputeRuntime.PoolAllocator.Model
import Mathlib.Logic.Function.Basic

/-! What the chunks of a pool keep: those that are handed out and those that wait are the blocks
of the pool's allocator, which is a heap that recovers. -/
namespace ComputeRuntime.PoolAllocator

open HeapAllocator Tiling

section Heap

variable {address size allocationAlignment threshold : ℕ} {w : HeapAllocator.World}

/-- In which order the blocks are listed does not matter. -/
theorem recoverable_perm {live : List HeapChunk}
    (inv : w.Recoverable address size allocationAlignment threshold) (perm : w.live.Perm live) :
    World.Recoverable address size allocationAlignment threshold ⟨w.heap, live⟩ where
  wf := inv.wf
  balanced := inv.balanced
  baseAddress := inv.baseAddress
  heapSize := inv.heapSize
  alignment := inv.alignment
  nonzero := fun b held => inv.nonzero b (perm.mem_iff.mpr held)
  side := fun b held => inv.side b (perm.mem_iff.mpr held)
  within := fun b held => inv.within b (perm.mem_iff.mpr held)
  tiles := inv.tiles.perm ((spans_perm perm).append_right _)
  positive := inv.positive
  sizeThreshold := inv.sizeThreshold
  filled := inv.filled
  blocks := fun b held => inv.blocks b (perm.mem_iff.mpr held)

theorem pageSize64k_le : MemoryConstants.pageSize64k ≤ 2 * MemoryConstants.megaByte := by decide

/-- A heap of small alignment answers within two rounds. -/
theorem allocate_returns (h : HeapAllocator) (some : 0 < h.allocationAlignment)
    (small : h.allocationAlignment ≤ 2 * MemoryConstants.megaByte) (request : ℕ) :
    ∃ r, h.allocate 2 request = .ok r := by
  simp only [HeapAllocator.allocate, allocateWithCustomAlignment, if_pos some, Nat.mod_self, ne_eq,
    not_true_eq_false, if_false]
  split
  next => exact ⟨_, rfl⟩
  next =>
    simp only [allocateLoop, if_true, Bool.true_eq_false, if_false,
      show ¬(h.allocationAlignment > 2 * MemoryConstants.megaByte) from Nat.not_lt.mpr small,
      false_and]
    split
    next => exact ⟨_, rfl⟩
    next =>
      split
      next => exact ⟨_, rfl⟩
      next => exact ⟨_, rfl⟩

/-- What the loop returned it also returns with more fuel. -/
theorem allocateLoop_fuel {size fuel more : ℕ} (enough : fuel ≤ more) {h : HeapAllocator}
    {alignment : ℕ} {defragmented : Bool} {r : AllocateResult}
    (returned : allocateLoop size fuel h alignment defragmented = .ok r) :
    allocateLoop size more h alignment defragmented = .ok r := by
  induction fuel generalizing more h alignment defragmented with
  | zero => cases returned
  | succ fuel ih =>
    cases more with
    | zero => omega
    | succ more =>
      have rest : fuel ≤ more := by omega
      simp only [allocateLoop] at returned ⊢
      split at returned
      next found =>
        rw [if_pos found]
        exact returned
      next found =>
        rw [if_neg found]
        split at returned
        next fresh =>
          rw [if_pos fresh]
          exact ih rest returned
        next fresh =>
          rw [if_neg fresh]
          split at returned
          next large =>
            rw [if_pos large]
            exact ih rest returned
          next large =>
            rw [if_neg large]
            exact returned

theorem allocate_fuel {fuel more : ℕ} (enough : fuel ≤ more) {h : HeapAllocator} {request : ℕ}
    {r : AllocateResult} (returned : h.allocate fuel request = .ok r) :
    h.allocate more request = .ok r := by
  unfold HeapAllocator.allocate allocateWithCustomAlignment at returned ⊢
  dsimp only at returned ⊢
  generalize (if 0 < h.allocationAlignment then h.allocationAlignment else 0) = alignment at *
  split at returned
  next => cases returned
  next aligned =>
    rw [if_neg aligned]
    split at returned
    next full =>
      rw [if_pos full]
      exact returned
    next full =>
      rw [if_neg full]
      exact allocateLoop_fuel enough returned

/-- Whatever fuel supplies a request, the fuel for which the call returned does. -/
theorem supplies_returned {h : HeapAllocator} {request fuel : ℕ} {r : AllocateResult}
    (supplies : Supplies h request) (returned : h.allocate fuel request = .ok r) :
    r.ptr ≠ 0 ∧ request ≤ r.sizeToAllocate := by
  obtain ⟨other, r', found, nonzero, enough⟩ := supplies
  have same : r' = r := by
    rcases Nat.le_total other fuel with le | le
    · exact Except.ok.inj ((allocate_fuel le found).symm.trans returned)
    · exact Except.ok.inj (found.symm.trans (allocate_fuel le returned))
  exact same ▸ ⟨nonzero, enough⟩

end Heap

/-- A chunk as a block of the pool's allocator. -/
def Chunk.block (start : ℕ) (chunk : Chunk) : HeapChunk := ⟨chunk.1 + start, chunk.2⟩

/-- The chunks that are handed out from a pool and those that wait are the blocks of its heap,
which its storage has room for. -/
structure Pool.Keeps (p : Pool) (handed : List Chunk) : Prop where
  heap : World.Recoverable p.params.startingOffset p.chunkAllocator.size
    p.chunkAllocator.allocationAlignment p.chunkAllocator.sizeThreshold
    ⟨p.chunkAllocator, (handed ++ p.chunksToFree).map (Chunk.block p.params.startingOffset)⟩
  storage : p.chunkAllocator.size ≤ p.storageSize
  fits : p.params.startingOffset + 2 * p.chunkAllocator.size +
    p.chunkAllocator.allocationAlignment ≤ 2 ^ 64
  pow2 : IsPow2 p.chunkAllocator.allocationAlignment
  small : p.chunkAllocator.allocationAlignment ≤ MemoryConstants.pageSize64k
  alignedStart : p.chunkAllocator.allocationAlignment ∣ p.params.startingOffset
  alignedSize : p.chunkAllocator.allocationAlignment ∣ p.chunkAllocator.size

/-- The properties of an allocator's heap that its calls leave as they are. -/
structure SameHeap (before after : HeapAllocator) : Prop where
  size : after.size = before.size
  alignment : after.allocationAlignment = before.allocationAlignment
  threshold : after.sizeThreshold = before.sizeThreshold

section Keeps

variable {p : Pool} {handed : List Chunk} {chunk : Chunk}

/-- Another heap in the place of the pool's, with the same blocks or others. -/
theorem Pool.Keeps.replace (keeps : p.Keeps handed) {after : HeapAllocator}
    {now waiting : List Chunk} (same : SameHeap p.chunkAllocator after)
    (heap : World.Recoverable p.params.startingOffset p.chunkAllocator.size
      p.chunkAllocator.allocationAlignment p.chunkAllocator.sizeThreshold
      ⟨after, (now ++ waiting).map (Chunk.block p.params.startingOffset)⟩) :
    Pool.Keeps { p with chunkAllocator := after, chunksToFree := waiting } now := by
  obtain ⟨size, alignment, threshold⟩ := same
  constructor
  · dsimp only
    rw [size, alignment, threshold]
    exact heap
  · exact size ▸ keeps.storage
  · exact (size ▸ alignment ▸ keeps.fits : _)
  · exact alignment ▸ keeps.pow2
  · exact alignment ▸ keeps.small
  · exact alignment ▸ keeps.alignedStart
  · dsimp only
    rw [size, alignment]
    exact keeps.alignedSize

theorem recoverable_same {address size allocationAlignment threshold : ℕ} {h : HeapAllocator}
    {before after : HeapAllocator.World}
    (first : before.Recoverable address size allocationAlignment threshold)
    (second : after.Recoverable address size allocationAlignment threshold)
    (heap : after.heap = h) : SameHeap before.heap h := by
  subst heap
  exact ⟨second.heapSize.trans first.heapSize.symm, second.alignment.trans first.alignment.symm,
    second.sizeThreshold.trans first.sizeThreshold.symm⟩

theorem Pool.Keeps.perm (keeps : p.Keeps handed) {now waiting : List Chunk}
    (perm : (handed ++ p.chunksToFree).Perm (now ++ waiting)) :
    Pool.Keeps { p with chunksToFree := waiting } now :=
  keeps.replace ⟨rfl, rfl, rfl⟩ (recoverable_perm keeps.heap (perm.map _))

/-- A request that the rounding to the pool's alignment does not lose. -/
def Asks (requestedSize : ℕ) : Prop :=
  0 < requestedSize ∧ requestedSize + MemoryConstants.pageSize64k ≤ 2 ^ 64

/-- An allocation from a pool hands out a chunk that is large enough, or none. -/
theorem Pool.Keeps.allocate (keeps : p.Keeps handed) {request : ℕ} (asks : Asks request) :
    ∃ h, SameHeap p.chunkAllocator h ∧
      ((p.allocate request = (none, { p with chunkAllocator := h }) ∧
          Pool.Keeps { p with chunkAllocator := h } handed) ∨
        ∃ chunk, p.allocate request = (some chunk, { p with chunkAllocator := h }) ∧
          request ≤ chunk.2 ∧ Pool.Keeps { p with chunkAllocator := h } (chunk :: handed)) := by
  have inv := keeps.heap
  have pos := keeps.pow2.pos
  have small := keeps.small
  obtain ⟨r, returned⟩ := allocate_returns p.chunkAllocator pos (Nat.le_trans small pageSize64k_le)
    request
  have room : request + (p.chunkAllocator.allocationAlignment - 1) < 2 ^ 64 := by
    have asks := asks.2
    omega
  have rounded := le_alignUp keeps.pow2 room
  have noWrap : p.params.startingOffset + 2 * p.chunkAllocator.size + 0 ≤ 2 ^ 64 := by
    have fits := keeps.fits
    omega
  have proper : Proper ⟨p.chunkAllocator,
      (handed ++ p.chunksToFree).map (Chunk.block p.params.startingOffset)⟩
      (.allocateWithCustomAlignment request 0) := by
    refine ⟨?_, ?_⟩
    · have base : p.chunkAllocator.baseAddress = p.params.startingOffset := inv.baseAddress
      simp only [NoWrap, base]
      exact noWrap
    · have asks := asks.1
      dsimp only
      omega
  have next := inv.allocate keeps.pow2 (Or.inl rfl) keeps.fits proper returned
  have same := recoverable_same inv next rfl
  refine ⟨r.heap, same, ?_⟩
  rw [Pool.allocate, returned]
  dsimp only
  by_cases failed : r.ptr = 0
  · rw [if_pos failed]
    rw [liveAfter, if_pos failed] at next
    exact Or.inl ⟨rfl, keeps.replace same next⟩
  · rw [if_neg failed]
    rw [liveAfter, if_neg failed] at next
    refine Or.inr ⟨_, rfl, ?_, ?_⟩
    · rcases allocate_spec inv.toInv keeps.pow2 (Or.inl rfl) keeps.fits noWrap returned with
        ⟨zero, -⟩ | ⟨_, _, served⟩
      · exact absurd zero failed
      · exact Nat.le_trans rounded served.enough
    · have within := next.within _ List.mem_cons_self
      have offset : Word.sub 64 r.ptr p.params.startingOffset + p.params.startingOffset =
          r.ptr := by
        have fits := keeps.fits
        have low := within.1
        have high := within.2
        dsimp only at low high
        rw [Word.sub_eq low (by omega), Nat.sub_add_cancel low]
      apply keeps.replace same
      rw [List.cons_append, List.map_cons, Chunk.block, offset]
      exact next

/-- A chunk that is freed waits. -/
theorem Pool.Keeps.tryFree (keeps : p.Keeps (chunk :: handed)) :
    Pool.Keeps { p with chunksToFree := p.chunksToFree ++ [chunk] } handed := by
  apply keeps.perm
  rw [List.cons_append, ← List.append_assoc]
  exact (List.perm_append_singleton chunk (handed ++ p.chunksToFree)).symm

theorem perm_waiting (chunk : Chunk) (handed waiting : List Chunk) :
    (handed ++ chunk :: waiting).Perm (chunk :: (handed ++ waiting)) :=
  List.perm_middle

/-- The chunks that wait are given back one after the other. -/
theorem Pool.Keeps.drain (keeps : p.Keeps handed) (allocInUse : ℕ → Bool) :
    (p.drain allocInUse).Keeps handed := by
  unfold Pool.drain
  split
  next => exact keeps
  next =>
    have fits := keeps.fits
    have pos := keeps.pow2.pos
    have freed (h : HeapAllocator) (waiting : List Chunk)
        (inv : World.Recoverable p.params.startingOffset p.chunkAllocator.size
          p.chunkAllocator.allocationAlignment p.chunkAllocator.sizeThreshold
          ⟨h, (handed ++ waiting).map (Chunk.block p.params.startingOffset)⟩) :
        World.Recoverable p.params.startingOffset p.chunkAllocator.size
          p.chunkAllocator.allocationAlignment p.chunkAllocator.sizeThreshold
          ⟨waiting.foldl (fun h chunk =>
              h.free (Word.add 64 chunk.1 p.params.startingOffset) chunk.2) h,
            (handed ++ []).map (Chunk.block p.params.startingOffset)⟩ := by
      induction waiting generalizing h with
      | nil => exact inv
      | cons chunk waiting ih =>
        have first := recoverable_perm inv
          ((perm_waiting chunk handed waiting).map _)
        rw [List.map_cons] at first
        have given := first.free List.mem_cons_self
        rw [List.erase_cons_head] at given
        have within := first.within _ List.mem_cons_self
        have address : Word.add 64 chunk.1 p.params.startingOffset =
            chunk.1 + p.params.startingOffset := by
          have high := within.2
          simp only [Chunk.block] at high
          exact Word.add_eq (by omega)
        rw [List.foldl_cons, address]
        exact ih _ given
    have heap := freed p.chunkAllocator p.chunksToFree keeps.heap
    exact keeps.replace (recoverable_same keeps.heap heap rfl) heap

/-- Once nothing of a pool is handed out or waits, it serves a request of its full size. -/
theorem Pool.Keeps.serves (keeps : p.Keeps []) (drained : p.chunksToFree = []) :
    ∃ chunk ∈ (p.allocate p.chunkAllocator.size).1, p.chunkAllocator.size ≤ chunk.2 := by
  have inv := keeps.heap
  rw [drained] at inv
  have fits := keeps.fits
  have pos := keeps.pow2.pos
  have same := inv.defragment_eq (by omega) rfl
  have available : p.chunkAllocator.availableSize = p.chunkAllocator.size :=
    inv.availableSize_eq rfl
  have rounded : alignUp p.chunkAllocator.size p.chunkAllocator.allocationAlignment ≤
      p.chunkAllocator.size := alignUp_le keeps.pow2 (by omega) keeps.alignedSize le_rfl
  have supplies : Supplies p.chunkAllocator p.chunkAllocator.size := by
    refine inv.supplies keeps.pow2 keeps.fits inv.positive le_rfl ?_ ?_
    · dsimp only
      rw [available]
      exact rounded
    · rw [same]
      exact create_fits keeps.pow2 keeps.fits keeps.alignedStart rounded
  have small : p.chunkAllocator.allocationAlignment ≤ 2 * MemoryConstants.megaByte :=
    Nat.le_trans keeps.small pageSize64k_le
  obtain ⟨r, returned⟩ := allocate_returns p.chunkAllocator pos small p.chunkAllocator.size
  obtain ⟨nonzero, enough⟩ := supplies_returned supplies returned
  refine ⟨(Word.sub 64 r.ptr p.params.startingOffset, r.sizeToAllocate), ?_, enough⟩
  simp only [Pool.allocate, returned, if_neg nonzero, Option.mem_def]

/-- A new pool has handed out nothing. -/
theorem create_keeps {params : SmallBuffersParams} {isBuiltin : Bool} {allocations : List ℕ}
    {storageSize size alignment threshold : ℕ} (positive : 0 < params.startingOffset)
    (storage : size ≤ storageSize) (fits : params.startingOffset + 2 * size + alignment ≤ 2 ^ 64)
    (pow2 : IsPow2 alignment) (small : alignment ≤ MemoryConstants.pageSize64k)
    (alignedStart : alignment ∣ params.startingOffset) (alignedSize : alignment ∣ size) :
    Pool.Keeps ⟨params, isBuiltin, storageSize, allocations,
      .create params.startingOffset size alignment threshold, []⟩ [] where
  heap := by
    have pos := pow2.pos
    have room : params.startingOffset + size < 2 ^ 64 := by omega
    exact .create positive room
  storage := storage
  fits := fits
  pow2 := pow2
  small := small
  alignedStart := alignedStart
  alignedSize := alignedSize

/-- The chunks lie apart and inside the storage. -/
theorem Pool.Keeps.apart (keeps : p.Keeps handed) :
    (handed ++ p.chunksToFree).Pairwise fun a b => a.1 + a.2 ≤ b.1 ∨ b.1 + b.2 ≤ a.1 := by
  have inv := keeps.heap
  have disjoint := inv.tiles.disjoint
  rw [World.pieces, List.pairwise_append] at disjoint
  have blocks := disjoint.1
  simp only [spans, List.map_map, List.pairwise_map] at blocks
  have filled : ∀ chunk ∈ handed ++ p.chunksToFree, 0 < chunk.2 := fun chunk member =>
    inv.blocks _ (List.mem_map_of_mem member)
  refine blocks.imp_of_mem fun {a b} first second disjoint => ?_
  have a_filled := filled a first
  have b_filled := filled b second
  by_contra overlap
  simp only [Function.comp_apply, HeapChunk.span, Chunk.block] at disjoint
  have shared : max a.1 b.1 + p.params.startingOffset ∈ (∅ : Set ℕ) := by
    rw [← Set.disjoint_iff_inter_eq_empty.mp disjoint]
    simp only [Set.mem_inter_iff, Set.mem_Ico]
    omega
  exact shared

theorem Pool.Keeps.inside (keeps : p.Keeps handed) :
    ∀ chunk ∈ handed ++ p.chunksToFree, chunk.1 + chunk.2 ≤ p.storageSize := by
  intro chunk member
  have within := keeps.heap.within _ (List.mem_map_of_mem member)
  have storage := keeps.storage
  have high := within.2
  simp only [Chunk.block] at high
  omega

end Keeps

end ComputeRuntime.PoolAllocator
