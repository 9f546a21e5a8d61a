import ComputeRuntime.HeapAllocator.Invariant

/-! Freeing a block adds exactly its addresses to the free space. -/
namespace ComputeRuntime

open Tiling

namespace HeapAllocator

variable {h : HeapAllocator} {block : HeapChunk}

/-- `availableSize` is no part of what a block is given to. -/
theorem Gives.withAvailable {h' : HeapAllocator} (gives : Gives h h' block) (available : Nat) :
    Gives h { h' with availableSize := available } block :=
  ⟨⟨gives.wf.low, gives.wf.middle, gives.wf.high, gives.wf.fits,
    gives.wf.bigWithin, gives.wf.smallWithin, gives.wf.bigLeft, gives.wf.smallRight,
    gives.wf.once⟩, ⟨gives.config.baseAddress, gives.config.size,
    gives.config.allocationAlignment, gives.config.sizeThreshold⟩, gives.space, gives.sides⟩

/-- Rewriting the chunk lists over the same bounds gives a block back. -/
theorem gives_of_relist {h' : HeapAllocator} (wf : h.Wf) (config : SameConfig h h')
    (left : h'.pLeftBound = h.pLeftBound) (right : h'.pRightBound = h.pRightBound)
    (big : ∀ c ∈ h'.freedChunksBig, c.Within h.lowest h.top ∧ c.Below h.pLeftBound)
    (small : ∀ c ∈ h'.freedChunksSmall, c.Within h.lowest h.top ∧ c.Above h.pRightBound)
    (apart : h.Apart block)
    (space : ∀ f : Nat → Nat → Nat, Additive f → total f h'.freeSpans =
      total f h.freeSpans + f block.ptr (block.ptr + block.size)) :
    Gives h h' block where
  wf :=
    { low := by rw [config.baseAddress, left]; exact wf.low
      middle := by rw [left, right]; exact wf.middle
      high := by rw [config.top, right]; exact wf.high
      fits := config.top ▸ wf.fits
      bigWithin := by
        rw [config.lowest, config.top]
        exact fun c member => (big c member).1
      smallWithin := by
        rw [config.lowest, config.top]
        exact fun c member => (small c member).1
      bigLeft := left ▸ fun c member => (big c member).2
      smallRight := right ▸ fun c member => (small c member).2
      once := by
        intro x
        rw [space _ (hits_additive x)]
        exact wf.once_with apart x }
  config := config
  space := space
  sides := by
    intro other side _
    simpa only [OnSide, left, right] using side

section Block

variable (wf : h.Wf) (apart : h.Apart block) (within : block.Within h.lowest h.top)

include wf apart within

theorem growRight_gives (touches : block.ptr = h.pRightBound) :
    Gives h { h with pRightBound := block.ptr + block.size } block := by
  have middle := wf.middle
  refine gives_of_widen wf ⟨rfl, rfl, rfl, rfl⟩ wf.low (Nat.le_refl _) (by simp only; omega)
    within.2 (List.Subset.refl _) (List.Subset.refl _) apart fun f additive => ?_
  have cut := additive.cut (show h.pLeftBound ≤ block.ptr by omega)
    (show block.ptr ≤ block.ptr + block.size by omega)
  simp only [freeSpans, total_cons, cut, ← touches]
  omega

theorem growLeft_gives (touches : block.ptr + block.size = h.pLeftBound) :
    Gives h { h with pLeftBound := block.ptr } block := by
  have middle := wf.middle
  refine gives_of_widen wf ⟨rfl, rfl, rfl, rfl⟩ ((Nat.le_max_right _ _).trans within.1)
    (by simp only; omega) (Nat.le_refl _)
    wf.high (List.Subset.refl _) (List.Subset.refl _) apart fun f additive => ?_
  have cut := additive.cut (show block.ptr ≤ h.pLeftBound by omega) middle
  simp only [freeSpans, total_cons, cut, touches]
  omega

theorem storeBig_gives (below : block.Below h.pLeftBound) :
    Gives h { h with
      freedChunksBig := storeInFreedChunks block.ptr block.size h.freedChunksBig } block := by
  refine gives_of_relist wf ⟨rfl, rfl, rfl, rfl⟩ rfl rfl
    (store_forall (joins_and (joins_within _ _) (joins_below _)) wf.fits wf.bigWithin within.2
      ⟨within, below⟩ fun c member => ⟨wf.bigWithin c member, wf.bigLeft c member⟩)
    (fun c member => ⟨wf.smallWithin c member, wf.smallRight c member⟩) apart fun f additive => ?_
  simp only [freeSpans, total_cons, total_append,
    store_total additive wf.fits wf.bigWithin within.2]
  omega

theorem storeSmall_gives (above : block.Above h.pRightBound) :
    Gives h { h with
      freedChunksSmall := storeInFreedChunks block.ptr block.size h.freedChunksSmall } block := by
  refine gives_of_relist wf ⟨rfl, rfl, rfl, rfl⟩ rfl rfl
    (fun c member => ⟨wf.bigWithin c member, wf.bigLeft c member⟩)
    (store_forall (joins_and (joins_within _ _) (joins_above _)) wf.fits wf.smallWithin within.2
      ⟨within, above⟩ fun c member => ⟨wf.smallWithin c member, wf.smallRight c member⟩)
    apart fun f additive => ?_
  simp only [freeSpans, total_cons, total_append,
    store_total additive wf.fits wf.smallWithin within.2]
  omega

/-- Freeing a block of the range that is on one side of the gap and not free yet. -/
theorem free_gives (nonzero : block.ptr ≠ 0) (side : h.OnSide block) :
    Gives h (h.free block.ptr block.size) block := by
  have fits := wf.fits
  have middle := wf.middle
  have high := wf.high
  have bounds := within
  simp only [HeapChunk.Within] at bounds
  simp only [OnSide, HeapChunk.Below, HeapChunk.Above] at side
  have stop : add64 block.ptr block.size = block.ptr + block.size := Word.add_eq (by omega)
  unfold free
  rw [if_neg nonzero, stop]
  refine Gives.withAvailable ?_ _
  split
  next atRight =>
    have grown := growRight_gives wf apart within atRight
    exact grown.after (mergeLastFreedSmall_takes grown.wf)
  next =>
    split
    next atLeft =>
      have touches : block.ptr + block.size = h.pLeftBound := by
        by_cases short : block.size ≤ h.pLeftBound
        · rw [sub64, Word.sub_eq short (by omega)] at atLeft
          omega
        · rw [sub64, Word.sub_borrow (by omega) (by omega)] at atLeft
          omega
      have grown := growLeft_gives wf apart within touches
      exact grown.after (mergeLastFreedBig_takes grown.wf)
    next =>
      split
      next left =>
        exact storeBig_gives wf apart within (by simp only [HeapChunk.Below]; omega)
      next right =>
        exact storeSmall_gives wf apart within (by simp only [HeapChunk.Above]; omega)

end Block

theorem mergeLastFreedSmall_availableSize (h : HeapAllocator) :
    h.mergeLastFreedSmall.availableSize = h.availableSize := by
  unfold mergeLastFreedSmall
  split
  · split <;> rfl
  · rfl

theorem mergeLastFreedBig_availableSize (h : HeapAllocator) :
    h.mergeLastFreedBig.availableSize = h.availableSize := by
  unfold mergeLastFreedBig
  split
  · split <;> rfl
  · rfl

theorem free_availableSize {ptr size : Nat} (nonzero : ptr ≠ 0) :
    (h.free ptr size).availableSize = add64 h.availableSize size := by
  unfold free
  rw [if_neg nonzero]
  split
  · simp only [mergeLastFreedSmall_availableSize]
  · split
    · simp only [mergeLastFreedBig_availableSize]
    · split <;> rfl

/-- A freed block is counted as available again. -/
theorem free_balanced (wf : h.Wf) (nonzero : block.ptr ≠ 0)
    (gives : Gives h (h.free block.ptr block.size) block) (balanced : h.Balanced) :
    (h.free block.ptr block.size).Balanced := by
  have length := gives.space _ length_additive
  have bound := gives.wf.freeLength_le
  have size := gives.config.size
  have fits := wf.fits
  simp only [Balanced, top] at *
  rw [free_availableSize nonzero, add64, Word.add_eq (by omega)]
  omega

end HeapAllocator

end ComputeRuntime
