import ComputeRuntime.HeapAllocator.Invariant

/-! Every way an allocation can be served takes exactly the returned block out of the free
space, and a failing one only rearranges it. -/
namespace ComputeRuntime

open Tiling

namespace HeapAllocator

/-! ### The gap -/

section Bounds

variable {h : HeapAllocator} (size : Nat)

/-- Setting a misaligned remainder at the left end of the gap aside. -/
theorem storeLeft_takes (wf : h.Wf) (nonzero : h.pLeftBound ≠ 0)
    (room : h.pLeftBound + size ≤ h.pRightBound) :
    Takes h { h with
      freedChunksBig := storeInFreedChunks h.pLeftBound size h.freedChunksBig
      pLeftBound := h.pLeftBound + size } noBlock := by
  have fits := wf.fits
  have low := wf.low
  have high := wf.high
  have space : ∀ f : Nat → Nat → Nat, Additive f → total f h.freeSpans = total f
      (freeSpans { h with
        freedChunksBig := storeInFreedChunks h.pLeftBound size h.freedChunksBig
        pLeftBound := h.pLeftBound + size }) := by
    intro f additive
    have cut := additive.cut (show h.pLeftBound ≤ h.pLeftBound + size by omega) room
    simp only [freeSpans, total_cons, total_append,
      store_total additive fits wf.bigWithin (show h.pLeftBound + size ≤ h.top by omega), cut]
    omega
  refine takes_of_narrow wf ⟨rfl, rfl, rfl, rfl⟩ (balanced_of_space rfl space)
    (Nat.le_add_right _ _) room (Nat.le_refl _) ?_
    (fun c member => ⟨wf.smallWithin c member, wf.smallRight c member⟩) ?_
    (onSide_empty _ rfl) (by intro nonzero; cases nonzero rfl)
  · refine store_forall (joins_and (joins_within _ _) (joins_below _)) fits wf.bigWithin
      (show h.pLeftBound + size ≤ h.top by omega)
      ⟨⟨by simp only [lowest]; omega, by simp only; omega⟩, Or.inr (Nat.le_refl _)⟩
      fun c member => ⟨wf.bigWithin c member, (wf.bigLeft c member).imp_right fun le => ?_⟩
    exact Nat.le_trans le (Nat.le_add_right _ _)
  · intro f additive
    rw [space f additive]
    simp [noBlock, additive_empty additive]

/-- Setting a misaligned remainder at the right end of the gap aside. -/
theorem storeRight_takes (wf : h.Wf) (nonzero : h.pRightBound - size ≠ 0)
    (room : h.pLeftBound + size ≤ h.pRightBound) :
    Takes h { h with
      pRightBound := h.pRightBound - size
      freedChunksSmall :=
        storeInFreedChunks (h.pRightBound - size) size h.freedChunksSmall } noBlock := by
  have fits := wf.fits
  have low := wf.low
  have high := wf.high
  have space : ∀ f : Nat → Nat → Nat, Additive f → total f h.freeSpans = total f
      (freeSpans { h with
        pRightBound := h.pRightBound - size
        freedChunksSmall :=
          storeInFreedChunks (h.pRightBound - size) size h.freedChunksSmall }) := by
    intro f additive
    have cut := additive.cut (show h.pLeftBound ≤ h.pRightBound - size by omega)
      (show h.pRightBound - size ≤ h.pRightBound by omega)
    simp only [freeSpans, total_cons, total_append, store_total additive fits wf.smallWithin
      (show h.pRightBound - size + size ≤ h.top by omega), cut]
    rw [show h.pRightBound - size + size = h.pRightBound by omega]
    omega
  refine takes_of_narrow wf ⟨rfl, rfl, rfl, rfl⟩ (balanced_of_space rfl space)
    (Nat.le_refl _) (by simp only; omega) (Nat.sub_le _ _)
    (fun c member => ⟨wf.bigWithin c member, wf.bigLeft c member⟩) ?_ ?_
    (onSide_empty _ rfl) (by intro nonzero; cases nonzero rfl)
  · refine store_forall (joins_and (joins_within _ _) (joins_above _)) fits wf.smallWithin
      (show h.pRightBound - size + size ≤ h.top by omega)
      ⟨⟨by simp only [lowest]; omega, by simp only; omega⟩, Or.inr (Nat.le_refl _)⟩
      fun c member => ⟨wf.smallWithin c member, (wf.smallRight c member).imp_right fun le => ?_⟩
    exact Nat.le_trans (Nat.sub_le _ _) le
  · intro f additive
    rw [space f additive]
    simp [noBlock, additive_empty additive]

/-- Moving the left bound over a big request. -/
theorem bumpLeft_takes (wf : h.Wf) (room : h.pLeftBound + size ≤ h.pRightBound) :
    Takes h { h with
      pLeftBound := h.pLeftBound + size
      availableSize := sub64 h.availableSize size } ⟨h.pLeftBound, size⟩ := by
  have low := wf.low
  have high := wf.high
  have space : ∀ f : Nat → Nat → Nat, Additive f → total f h.freeSpans = total f
      (freeSpans { h with
        pLeftBound := h.pLeftBound + size
        availableSize := sub64 h.availableSize size }) +
      f h.pLeftBound (h.pLeftBound + size) := by
    intro f additive
    have cut := additive.cut (show h.pLeftBound ≤ h.pLeftBound + size by omega) room
    simp only [freeSpans, total_cons, cut]
    omega
  refine takes_of_narrow wf ⟨rfl, rfl, rfl, rfl⟩ (balanced_of_taken ⟨_, _⟩ wf rfl space)
    (Nat.le_add_right _ _) room (Nat.le_refl _) (fun c member => ⟨wf.bigWithin c member, ?_⟩)
    (fun c member => ⟨wf.smallWithin c member, wf.smallRight c member⟩) space
    (Or.inl (Or.inr (Nat.le_refl _))) fun _ => ⟨low, by simp only; omega⟩
  exact (wf.bigLeft c member).imp_right fun le => Nat.le_trans le (Nat.le_add_right _ _)

/-- Moving the right bound over a small request. -/
theorem bumpRight_takes (wf : h.Wf) (room : h.pLeftBound + size ≤ h.pRightBound) :
    Takes h { h with
      pRightBound := h.pRightBound - size
      availableSize := sub64 h.availableSize size } ⟨h.pRightBound - size, size⟩ := by
  have low := wf.low
  have high := wf.high
  have space : ∀ f : Nat → Nat → Nat, Additive f → total f h.freeSpans = total f
      (freeSpans { h with
        pRightBound := h.pRightBound - size
        availableSize := sub64 h.availableSize size }) +
      f (h.pRightBound - size) (h.pRightBound - size + size) := by
    intro f additive
    have cut := additive.cut (show h.pLeftBound ≤ h.pRightBound - size by omega)
      (show h.pRightBound - size ≤ h.pRightBound by omega)
    rw [show h.pRightBound - size + size = h.pRightBound by omega]
    simp only [freeSpans, total_cons, cut]
    omega
  refine takes_of_narrow wf ⟨rfl, rfl, rfl, rfl⟩ (balanced_of_taken ⟨_, _⟩ wf rfl space)
    (Nat.le_refl _) (by simp only; omega) (Nat.sub_le _ _)
    (fun c member => ⟨wf.bigWithin c member, wf.bigLeft c member⟩)
    (fun c member => ⟨wf.smallWithin c member, ?_⟩) space
    (Or.inr (Or.inr (Nat.le_refl _))) fun _ => ⟨by simp only; omega, by simp only; omega⟩
  exact (wf.smallRight c member).imp_right fun le => Nat.le_trans (Nat.sub_le _ _) le

end Bounds

/-- Where the gap serves a request: at its left end a big one, at its right end a small one. -/
def gapAddress (h : HeapAllocator) (sizeToAllocate alignment : Nat) : Nat :=
  if sizeToAllocate > h.sizeThreshold then alignUp h.pLeftBound alignment
  else alignDown (h.pRightBound - sizeToAllocate) alignment

/-- The gap holds a request at its alignment. -/
def FitsGap (h : HeapAllocator) (sizeToAllocate alignment : Nat) : Prop :=
  if sizeToAllocate > h.sizeThreshold then
    alignUp h.pLeftBound alignment + sizeToAllocate ≤ h.pRightBound
  else
    sizeToAllocate ≤ h.pRightBound ∧
      h.pLeftBound ≤ alignDown (h.pRightBound - sizeToAllocate) alignment

/-- A freed chunk of the request's list holds it at its alignment. -/
def FitsChunk (h : HeapAllocator) (sizeToAllocate alignment : Nat) : Prop :=
  ∃ c ∈ h.freedChunks sizeToAllocate, alignment ∣ c.ptr ∧ sizeToAllocate ≤ c.size

/-- There is room for a request at its alignment. -/
def Fits (h : HeapAllocator) (sizeToAllocate alignment : Nat) : Prop :=
  h.FitsGap sizeToAllocate alignment ∨ h.FitsChunk sizeToAllocate alignment

/-- The gap serves a request at address 0, which its caller takes for a failure. -/
def ServesZero (h : HeapAllocator) (sizeToAllocate alignment : Nat) : Prop :=
  h.FitsGap sizeToAllocate alignment ∧ h.gapAddress sizeToAllocate alignment = 0

instance (h : HeapAllocator) (sizeToAllocate alignment : Nat) :
    Decidable (h.FitsGap sizeToAllocate alignment) := by
  unfold FitsGap
  infer_instance

instance (h : HeapAllocator) (sizeToAllocate alignment : Nat) :
    Decidable (h.FitsChunk sizeToAllocate alignment) := by
  unfold FitsChunk
  infer_instance

instance (h : HeapAllocator) (sizeToAllocate alignment : Nat) :
    Decidable (h.Fits sizeToAllocate alignment) := by
  unfold Fits
  infer_instance

instance (h : HeapAllocator) (sizeToAllocate alignment : Nat) :
    Decidable (h.ServesZero sizeToAllocate alignment) := by
  unfold ServesZero
  infer_instance

section Gap

variable {h : HeapAllocator} {sizeToAllocate alignment : Nat} (wf : h.Wf) (pow2 : IsPow2 alignment)
  (fits : h.top + sizeToAllocate + alignment ≤ 2 ^ 64)

include wf pow2 fits

/-- The gap serves a request inside it. -/
theorem FitsGap.address (room : h.FitsGap sizeToAllocate alignment) :
    h.pLeftBound ≤ h.gapAddress sizeToAllocate alignment ∧
      alignment ∣ h.gapAddress sizeToAllocate alignment := by
  have middle := wf.middle
  have high := wf.high
  have word := wf.fits
  unfold FitsGap at room
  unfold gapAddress
  split at room
  next big =>
    rw [if_pos big]
    exact ⟨le_alignUp pow2 (by omega), alignUp_dvd pow2 (by omega)⟩
  next small =>
    rw [if_neg small]
    exact ⟨room.2, alignDown_dvd pow2 (by omega)⟩

/-- A gap that does not hold a request is too small for it and its alignment. -/
theorem bound_of_not_fitsGap (full : ¬ h.FitsGap sizeToAllocate alignment) :
    h.pRightBound < h.pLeftBound + sizeToAllocate + alignment := by
  have middle := wf.middle
  have high := wf.high
  have pos := pow2.pos
  by_contra room
  refine full ?_
  unfold FitsGap
  split
  next big =>
    have near := alignUp_lt (x := h.pLeftBound) pow2 (by omega)
    omega
  next small =>
    have near := lt_alignDown_add (x := h.pRightBound - sizeToAllocate) pow2 (by omega)
    exact ⟨by omega, by omega⟩

omit wf in
/-- A gap that begins at address 0 holds whatever is no larger than it. -/
theorem fitsGap_of_zero (zero : h.pLeftBound = 0) (room : sizeToAllocate ≤ h.pRightBound) :
    h.FitsGap sizeToAllocate alignment := by
  have pos := pow2.pos
  unfold FitsGap
  split
  next =>
    have same : alignUp 0 alignment = 0 := alignUp_self pow2 (by omega) (Nat.dvd_zero _)
    rw [zero, same]
    omega
  next => exact ⟨room, by omega⟩

/-- A big request takes an aligned block off the left end of the gap. -/
private theorem allocateLeft_spec (big : sizeToAllocate > h.sizeThreshold) :
    (¬ h.FitsGap sizeToAllocate alignment ∧
      h.allocateFromGap sizeToAllocate alignment = (h, 0)) ∨
    (h.FitsGap sizeToAllocate alignment ∧ ∃ gap, h.allocateFromGap sizeToAllocate alignment =
        (gap, h.gapAddress sizeToAllocate alignment) ∧
      (h.gapAddress sizeToAllocate alignment ≠ 0 →
        Takes h { gap with availableSize := sub64 gap.availableSize sizeToAllocate }
          ⟨h.gapAddress sizeToAllocate alignment, sizeToAllocate⟩)) := by
  have middle := wf.middle
  have high := wf.high
  have pos := pow2.pos
  have up := le_alignUp (x := h.pLeftBound) pow2 (by omega)
  have near := alignUp_lt (x := h.pLeftBound) pow2 (by omega)
  have misalignment : sub64 (alignUp h.pLeftBound alignment) h.pLeftBound =
      alignUp h.pLeftBound alignment - h.pLeftBound := Word.sub_eq up (by omega)
  have start : add64 h.pLeftBound (alignUp h.pLeftBound alignment - h.pLeftBound) =
      alignUp h.pLeftBound alignment := by rw [add64, Word.add_eq (by omega)]; omega
  have stop : add64 (alignUp h.pLeftBound alignment) sizeToAllocate =
      alignUp h.pLeftBound alignment + sizeToAllocate := Word.add_eq (by omega)
  unfold allocateFromGap FitsGap gapAddress
  simp only [if_pos big, misalignment, start, stop]
  split
  next room =>
    refine Or.inr ⟨room, ?_⟩
    split
    next misaligned =>
      -- an aligned left bound has no misalignment, so this one is not 0
      have nonzero : h.pLeftBound ≠ 0 := by
        intro zero
        have same : alignUp 0 alignment = 0 := alignUp_self pow2 (by omega) (Nat.dvd_zero _)
        rw [zero, same] at misaligned
        exact misaligned rfl
      refine ⟨_, rfl, fun _ => ?_⟩
      have stored := storeLeft_takes (alignUp h.pLeftBound alignment - h.pLeftBound) wf nonzero
        (by omega)
      have bumped := stored.after (bumpLeft_takes sizeToAllocate stored.wf
        (show h.pLeftBound + (alignUp h.pLeftBound alignment - h.pLeftBound) + sizeToAllocate ≤
          h.pRightBound by omega))
      simp only [Nat.add_sub_cancel' up] at bumped
      simp only [stop]
      exact bumped
    next onBoundary =>
      have same : alignUp h.pLeftBound alignment = h.pLeftBound := by omega
      rw [same] at stop room ⊢
      refine ⟨_, rfl, fun _ => ?_⟩
      simp only [stop]
      exact bumpLeft_takes _ wf room
  next full => exact Or.inl ⟨full, rfl⟩

/-- A small request takes an aligned block off the right end of the gap. -/
private theorem allocateRight_spec (small : ¬ sizeToAllocate > h.sizeThreshold) :
    (¬ h.FitsGap sizeToAllocate alignment ∧
      h.allocateFromGap sizeToAllocate alignment = (h, 0)) ∨
    (h.FitsGap sizeToAllocate alignment ∧ ∃ gap, h.allocateFromGap sizeToAllocate alignment =
        (gap, h.gapAddress sizeToAllocate alignment) ∧
      (h.gapAddress sizeToAllocate alignment ≠ 0 →
        Takes h { gap with availableSize := sub64 gap.availableSize sizeToAllocate }
          ⟨h.gapAddress sizeToAllocate alignment, sizeToAllocate⟩)) := by
  have middle := wf.middle
  have high := wf.high
  have pos := pow2.pos
  unfold allocateFromGap FitsGap gapAddress
  simp only [if_neg small]
  by_cases holds : sizeToAllocate ≤ h.pRightBound
  · have pStart : sub64 h.pRightBound sizeToAllocate = h.pRightBound - sizeToAllocate :=
      Word.sub_eq holds (by omega)
    have down := alignDown_le (x := h.pRightBound - sizeToAllocate) pow2 (by omega)
    have near := lt_alignDown_add (x := h.pRightBound - sizeToAllocate) pow2 (by omega)
    simp only [pStart]
    generalize alignDown (h.pRightBound - sizeToAllocate) alignment = start at *
    have misalignment : sub64 (h.pRightBound - sizeToAllocate) start =
        h.pRightBound - sizeToAllocate - start := Word.sub_eq down (by omega)
    have stop : add64 (add64 h.pLeftBound sizeToAllocate)
        (h.pRightBound - sizeToAllocate - start) =
        h.pLeftBound + sizeToAllocate + (h.pRightBound - sizeToAllocate - start) := by
      simp only [add64]
      rw [Word.add_eq (show h.pLeftBound + sizeToAllocate < 2 ^ 64 by omega),
        Word.add_eq (by omega)]
    have moved : sub64 h.pRightBound (h.pRightBound - sizeToAllocate - start) =
        start + sizeToAllocate := by rw [sub64, Word.sub_eq (by omega) (by omega)]; omega
    simp only [misalignment, stop, moved]
    split
    next room =>
      refine Or.inr ⟨⟨holds, by omega⟩, ?_⟩
      split
      next misaligned =>
        have returned : sub64 (start + sizeToAllocate) sizeToAllocate = start := by
          rw [sub64, Word.sub_eq (by omega) (by omega)]
          omega
        simp only [returned]
        refine ⟨_, rfl, fun nonzero => ?_⟩
        have stored := storeRight_takes (h.pRightBound - sizeToAllocate - start) wf (by omega)
          (by omega)
        have right : h.pRightBound - (h.pRightBound - sizeToAllocate - start) =
            start + sizeToAllocate := by omega
        have bumped := stored.after (bumpRight_takes sizeToAllocate stored.wf
          (show h.pLeftBound + sizeToAllocate ≤
            h.pRightBound - (h.pRightBound - sizeToAllocate - start) by omega))
        simp only [right, Nat.add_sub_cancel] at bumped
        exact bumped
      next onBoundary =>
        have same : start = h.pRightBound - sizeToAllocate := by omega
        subst same
        simp only [pStart]
        exact ⟨_, rfl, fun _ => bumpRight_takes _ wf (by omega)⟩
    next full => exact Or.inl ⟨by omega, rfl⟩
  · -- the request is larger than the right bound itself: `pStart` wraps around
    have pStart : sub64 h.pRightBound sizeToAllocate =
        h.pRightBound + 2 ^ 64 - sizeToAllocate := Word.sub_borrow (by omega) (by omega)
    have near := lt_alignDown_add (x := h.pRightBound + 2 ^ 64 - sizeToAllocate) pow2 (by omega)
    have down := alignDown_le (x := h.pRightBound + 2 ^ 64 - sizeToAllocate) pow2 (by omega)
    have misalignment : sub64 (h.pRightBound + 2 ^ 64 - sizeToAllocate)
        (alignDown (h.pRightBound + 2 ^ 64 - sizeToAllocate) alignment) =
        h.pRightBound + 2 ^ 64 - sizeToAllocate -
          alignDown (h.pRightBound + 2 ^ 64 - sizeToAllocate) alignment :=
      Word.sub_eq down (by omega)
    have stop : add64 (add64 h.pLeftBound sizeToAllocate)
        (h.pRightBound + 2 ^ 64 - sizeToAllocate -
          alignDown (h.pRightBound + 2 ^ 64 - sizeToAllocate) alignment) =
        h.pLeftBound + sizeToAllocate + (h.pRightBound + 2 ^ 64 - sizeToAllocate -
          alignDown (h.pRightBound + 2 ^ 64 - sizeToAllocate) alignment) := by
      simp only [add64]
      rw [Word.add_eq (show h.pLeftBound + sizeToAllocate < 2 ^ 64 by omega),
        Word.add_eq (by omega)]
    simp only [pStart, misalignment, stop]
    rw [if_neg (by omega)]
    exact Or.inl ⟨fun room => holds room.1, rfl⟩

/-- A request the gap cannot hold leaves the allocator alone; another one takes an aligned
block off one end of the gap. -/
theorem allocateFromGap_spec :
    (¬ h.FitsGap sizeToAllocate alignment ∧
      h.allocateFromGap sizeToAllocate alignment = (h, 0)) ∨
    (h.FitsGap sizeToAllocate alignment ∧ ∃ gap, h.allocateFromGap sizeToAllocate alignment =
        (gap, h.gapAddress sizeToAllocate alignment) ∧
      (h.gapAddress sizeToAllocate alignment ≠ 0 →
        Takes h { gap with availableSize := sub64 gap.availableSize sizeToAllocate }
          ⟨h.gapAddress sizeToAllocate alignment, sizeToAllocate⟩)) := by
  by_cases big : sizeToAllocate > h.sizeThreshold
  · exact allocateLeft_spec wf pow2 fits big
  · exact allocateRight_spec wf pow2 fits big

/-- A range above address 0 is served above it. -/
theorem not_servesZero (positive : 0 < h.baseAddress) :
    ¬ h.ServesZero sizeToAllocate alignment := by
  rintro ⟨room, zero⟩
  have low := wf.low
  have above := (room.address wf pow2 fits).1
  omega

end Gap

/-! ### The free lists -/

/-- Serving a request from its free list takes the served block. -/
theorem fromFreed_takes {h : HeapAllocator} {sizeToAllocate alignment taken : Nat}
    {fit : FreedFit} (wf : h.Wf)
    (served : Served sizeToAllocate alignment (h.freedChunks sizeToAllocate) fit taken) :
    Takes h { h.setFreedChunks sizeToAllocate fit.freedChunks with
      availableSize := sub64 h.availableSize taken } ⟨fit.ptr, taken⟩ := by
  unfold freedChunks at served
  unfold setFreedChunks
  split at served
  next big =>
    rw [if_pos big]
    have inside : ∀ c ∈ h.freedChunksBig, c.Within h.lowest h.top ∧ c.Below h.pLeftBound :=
      fun c member => ⟨wf.bigWithin c member, wf.bigLeft c member⟩
    have kept := served.keeps (P := fun c => c.Within h.lowest h.top ∧ c.Below h.pLeftBound)
      (by simp only [HeapChunk.Within, HeapChunk.Below]; omega) inside
    have handed := served.handed
      (P := fun c => c.Within h.lowest h.top ∧ c.Below h.pLeftBound)
      (by simp only [HeapChunk.Within, HeapChunk.Below]; omega) inside
    have space : ∀ f : Nat → Nat → Nat, Additive f → total f h.freeSpans = total f
        (freeSpans { h with
          freedChunksBig := fit.freedChunks
          availableSize := sub64 h.availableSize taken }) + f fit.ptr (fit.ptr + taken) := by
      intro f additive
      simp only [freeSpans, total_cons, total_append, served.total additive]
      omega
    exact takes_of_narrow wf ⟨rfl, rfl, rfl, rfl⟩ (balanced_of_taken ⟨_, _⟩ wf rfl space)
      (Nat.le_refl _) wf.middle (Nat.le_refl _) kept
      (fun c member => ⟨wf.smallWithin c member, wf.smallRight c member⟩) space
      (Or.inl handed.2) fun _ => ⟨(Nat.le_max_right _ _).trans handed.1.1, handed.1.2⟩
  next small =>
    rw [if_neg small]
    have inside : ∀ c ∈ h.freedChunksSmall,
        c.Within h.lowest h.top ∧ c.Above h.pRightBound :=
      fun c member => ⟨wf.smallWithin c member, wf.smallRight c member⟩
    have kept := served.keeps (P := fun c => c.Within h.lowest h.top ∧ c.Above h.pRightBound)
      (by simp only [HeapChunk.Within, HeapChunk.Above]; omega) inside
    have handed := served.handed
      (P := fun c => c.Within h.lowest h.top ∧ c.Above h.pRightBound)
      (by simp only [HeapChunk.Within, HeapChunk.Above]; omega) inside
    have space : ∀ f : Nat → Nat → Nat, Additive f → total f h.freeSpans = total f
        (freeSpans { h with
          freedChunksSmall := fit.freedChunks
          availableSize := sub64 h.availableSize taken }) + f fit.ptr (fit.ptr + taken) := by
      intro f additive
      simp only [freeSpans, total_cons, total_append, served.total additive]
      omega
    exact takes_of_narrow wf ⟨rfl, rfl, rfl, rfl⟩ (balanced_of_taken ⟨_, _⟩ wf rfl space)
      (Nat.le_refl _) wf.middle (Nat.le_refl _)
      (fun c member => ⟨wf.bigWithin c member, wf.bigLeft c member⟩) kept space
      (Or.inr handed.2) fun _ => ⟨(Nat.le_max_right _ _).trans handed.1.1, handed.1.2⟩

theorem setFreedChunks_freedChunks (h : HeapAllocator) (sizeToAllocate : Nat) :
    h.setFreedChunks sizeToAllocate (h.freedChunks sizeToAllocate) = h := by
  unfold setFreedChunks freedChunks
  split <;> rfl

theorem setFreedChunks_availableSize (h : HeapAllocator) (sizeToAllocate : Nat)
    (chunks : List HeapChunk) :
    (h.setFreedChunks sizeToAllocate chunks).availableSize = h.availableSize := by
  unfold setFreedChunks
  split <;> rfl

/-! ### The retry loop -/

/-- What a served request leaves behind: an aligned block of at least the wanted size, taken
out of the free space. -/
structure Allocated (h : HeapAllocator) (sizeToAllocate alignment : Nat) (r : AllocateResult) :
    Prop where
  nonzero : r.ptr ≠ 0
  aligned : alignment ∣ r.ptr
  enough : sizeToAllocate ≤ r.sizeToAllocate
  takes : Takes h r.heap ⟨r.ptr, r.sizeToAllocate⟩

/-- One round serves the request if there is room for it at its alignment, and else leaves the
allocator alone. -/
theorem tryAllocate_spec {h : HeapAllocator} {sizeToAllocate alignment : Nat} (wf : h.Wf)
    (pow2 : IsPow2 alignment) (fits : h.top + sizeToAllocate + alignment ≤ 2 ^ 64)
    (noZero : ¬ h.ServesZero sizeToAllocate alignment) :
    (¬ h.Fits sizeToAllocate alignment ∧
      h.tryAllocate sizeToAllocate alignment = ⟨h, 0, sizeToAllocate⟩) ∨
    (h.Fits sizeToAllocate alignment ∧
      Allocated h sizeToAllocate alignment (h.tryAllocate sizeToAllocate alignment)) := by
  unfold tryAllocate
  rcases allocateFromGap_spec wf pow2 fits with ⟨full, same⟩ | ⟨room, gap, served, rest⟩
  · simp only [same, ne_eq, not_true_eq_false, if_false]
    have within : ∀ c ∈ h.freedChunks sizeToAllocate, c.Within h.lowest h.top := by
      unfold freedChunks
      split
      · exact wf.bigWithin
      · exact wf.smallWithin
    have positive : 0 < h.lowest := Nat.le_max_left 1 h.baseAddress
    have search := getFromFreedChunks_spec sizeToAllocate pow2 wf.fits positive within
    generalize getFromFreedChunks sizeToAllocate (h.freedChunks sizeToAllocate) alignment = fit
      at search
    rcases search with ⟨zero, same, none⟩ | ⟨nonzero, served, large⟩
    · refine Or.inl ⟨not_or.mpr ⟨full, ?_⟩, ?_⟩
      · rintro ⟨c, member, aligned, enough⟩
        exact Nat.not_lt.mpr enough (none c member aligned)
      · rw [if_neg (by simp [zero]), same, setFreedChunks_freedChunks]
    · rw [if_pos nonzero, setFreedChunks_availableSize]
      exact Or.inr ⟨.inr large, nonzero, served.aligned, served.enough,
        fromFreed_takes wf served⟩
  · have nonzero : h.gapAddress sizeToAllocate alignment ≠ 0 := fun zero => noZero ⟨room, zero⟩
    simp only [served, ne_eq, nonzero, not_false_eq_true, if_true]
    exact Or.inr ⟨.inl room, nonzero, (room.address wf pow2 fits).2, Nat.le_refl _, rest nonzero⟩

section Fallback

variable {h : HeapAllocator} {sizeToAllocate alignment : Nat}

/-- The alignment a request falls back to is a power of two no larger than the one that did
not fit. -/
theorem fallbackAlignment_spec (wf : h.Wf)
    (pow2 : IsPow2 alignment) (large : 2 * MemoryConstants.megaByte < alignment)
    (full : h.pRightBound < h.pLeftBound + sizeToAllocate + alignment)
    (room : sizeToAllocate ≤ h.pRightBound - h.pLeftBound) :
    IsPow2 (h.fallbackAlignment sizeToAllocate) ∧
      h.fallbackAlignment sizeToAllocate ≤ alignment := by
  have middle := wf.middle
  have high := wf.high
  have fits := wf.fits
  have value : add64 (sub64 (sub64 (sub64 h.pRightBound h.pLeftBound) 1) sizeToAllocate)
      (2 * MemoryConstants.pageSize64k) =
      h.pRightBound - h.pLeftBound - sizeToAllocate + 131071 := by
    simp only [add64, sub64, Word.add, Word.sub, MemoryConstants.pageSize64k,
      MemoryConstants.kiloByte]
    obtain ⟨k, below, rfl⟩ := pow2
    have := Nat.pow_le_pow_right (n := 2) (by omega) (show k ≤ 63 by omega)
    omega
  unfold fallbackAlignment
  rw [value]
  have small : h.pRightBound - h.pLeftBound - sizeToAllocate + 131071 < 2 * alignment := by
    simp only [MemoryConstants.megaByte, MemoryConstants.kiloByte] at large
    omega
  obtain ⟨k, below, rfl⟩ := pow2
  have word : h.pRightBound - h.pLeftBound - sizeToAllocate + 131071 < 2 ^ 64 := by
    have := Nat.pow_le_pow_right (n := 2) (by omega) (show k ≤ 63 by omega)
    omega
  refine ⟨Math.prevPowerOfTwo_pow2 (by omega) word, ?_⟩
  rw [Math.prevPowerOfTwo_eq (by omega) word]
  refine Nat.pow_le_pow_right (by omega) (Nat.lt_succ_iff.mp ?_)
  exact (Nat.log2_lt (by omega)).mpr (by rw [Nat.pow_succ]; omega)

/-- The gap as the loop computes it. -/
theorem Wf.gap_eq (wf : h.Wf) :
    sub64 h.pRightBound h.pLeftBound = h.pRightBound - h.pLeftBound :=
  Word.sub_eq wf.middle (Nat.lt_of_le_of_lt wf.high wf.fits)

/-- A request that the gap does not hold at its alignment, though it has the bytes, is not served
at address 0 at another alignment. -/
theorem not_servesZero_of_full (wf : h.Wf) (pow2 : IsPow2 alignment) {other : Nat}
    (pow2' : IsPow2 other) (fits : h.top + sizeToAllocate + alignment ≤ 2 ^ 64)
    (fits' : h.top + sizeToAllocate + other ≤ 2 ^ 64)
    (full : ¬ h.FitsGap sizeToAllocate alignment)
    (room : sizeToAllocate ≤ h.pRightBound - h.pLeftBound) :
    ¬ h.ServesZero sizeToAllocate other := by
  rintro ⟨holds, zero⟩
  have low := (holds.address wf pow2' fits').1
  exact full (fitsGap_of_zero pow2 fits (by omega) (by omega))

end Fallback

/-- Up to two megabytes of alignment the loop makes at most one more round. -/
theorem allocateLoop_returns (sizeToAllocate fuel : Nat) (h : HeapAllocator) {alignment : Nat}
    (small : alignment ≤ 2 * MemoryConstants.megaByte) :
    ∃ r, allocateLoop sizeToAllocate (fuel + 2) h alignment false = .ok r := by
  have moderate : ¬ alignment > 2 * MemoryConstants.megaByte := by omega
  by_cases first : (h.tryAllocate sizeToAllocate alignment).ptr = 0
  · by_cases second : ((h.tryAllocate sizeToAllocate alignment).heap.defragment.tryAllocate
        sizeToAllocate alignment).ptr = 0
    · simp [allocateLoop, first, second, moderate]
    · simp [allocateLoop, first, second]
  · simp [allocateLoop, first]

/-- No round of the loop serves the request at address 0. -/
def AvoidsZero (h : HeapAllocator) (sizeToAllocate alignment : Nat) : Prop :=
  ¬ h.ServesZero sizeToAllocate alignment ∧
    (¬ h.Fits sizeToAllocate alignment → ¬ h.defragment.ServesZero sizeToAllocate alignment)

instance (h : HeapAllocator) (sizeToAllocate alignment : Nat) :
    Decidable (h.AvoidsZero sizeToAllocate alignment) := by
  unfold AvoidsZero
  infer_instance

/-- A range above address 0 is never served at it. -/
theorem Wf.avoidsZero {h : HeapAllocator} {sizeToAllocate alignment : Nat} (wf : h.Wf)
    (pow2 : IsPow2 alignment) (fits : h.top + sizeToAllocate + alignment ≤ 2 ^ 64)
    (positive : 0 < h.baseAddress) : h.AvoidsZero sizeToAllocate alignment := by
  have moved := defragment_takes wf
  have top := moved.config.top
  refine ⟨not_servesZero wf pow2 fits positive, fun _ => ?_⟩
  exact not_servesZero moved.wf pow2 (by omega) (moved.config.baseAddress ▸ positive)

section Loop

variable {sizeToAllocate alignment : Nat} {r : AllocateResult}

/-- A finished loop that no longer defragments has served the request or left the allocator
alone. -/
theorem allocateLoop_defragmented (fuel : Nat) {h : HeapAllocator} (wf : h.Wf)
    (pow2 : IsPow2 alignment) (fits : h.top + sizeToAllocate + alignment ≤ 2 ^ 64)
    (noZero : ¬ h.ServesZero sizeToAllocate alignment)
    (returned : allocateLoop sizeToAllocate fuel h alignment true = .ok r) :
    r = ⟨h, 0, sizeToAllocate⟩ ∨
    ∃ used ≤ alignment, (used = alignment ∨ 2 * MemoryConstants.megaByte < alignment) ∧
      Allocated h sizeToAllocate used r := by
  induction fuel generalizing alignment with
  | zero => cases returned
  | succ fuel ih =>
    unfold allocateLoop at returned
    rcases tryAllocate_spec wf pow2 fits noZero with ⟨full, failed⟩ | ⟨-, served⟩
    · simp only [failed, ne_eq, not_true_eq_false, if_false, Bool.true_eq_false] at returned
      split at returned
      next retry =>
        rw [wf.gap_eq] at retry
        have full := (not_or.mp full).1
        obtain ⟨pow2', le⟩ := fallbackAlignment_spec wf pow2 retry.1
          (bound_of_not_fitsGap wf pow2 fits full) retry.2
        have fits' : h.top + sizeToAllocate + h.fallbackAlignment sizeToAllocate ≤ 2 ^ 64 := by
          omega
        rcases ih pow2' fits' (not_servesZero_of_full wf pow2 pow2' fits fits' full retry.2)
          returned with same | ⟨used, below, _, served⟩
        · exact Or.inl same
        · exact Or.inr ⟨used, by omega, Or.inr retry.1, served⟩
      next =>
        cases returned
        exact Or.inl rfl
    · simp only [ne_eq, served.nonzero, not_false_eq_true, if_true] at returned
      cases returned
      exact Or.inr ⟨alignment, Nat.le_refl _, Or.inl rfl, served⟩

/-- A finished loop has served the request, or it failed and only defragmented. -/
theorem allocateLoop_spec (fuel : Nat) {h : HeapAllocator} (wf : h.Wf)
    (pow2 : IsPow2 alignment) (fits : h.top + sizeToAllocate + alignment ≤ 2 ^ 64)
    (avoids : h.AvoidsZero sizeToAllocate alignment)
    (returned : allocateLoop sizeToAllocate fuel h alignment false = .ok r) :
    r = ⟨h.defragment, 0, sizeToAllocate⟩ ∨
    ∃ used ≤ alignment, (used = alignment ∨ 2 * MemoryConstants.megaByte < alignment) ∧
      Allocated h sizeToAllocate used r := by
  cases fuel with
  | zero => cases returned
  | succ fuel =>
    unfold allocateLoop at returned
    rcases tryAllocate_spec wf pow2 fits avoids.1 with ⟨full, failed⟩ | ⟨-, served⟩
    · simp only [failed, ne_eq, not_true_eq_false, if_false, if_true] at returned
      have moved := defragment_takes wf
      have top := moved.config.top
      rcases allocateLoop_defragmented fuel moved.wf pow2 (by omega) (avoids.2 full) returned with
        failed | ⟨used, le, which, served⟩
      · exact Or.inl failed
      · exact Or.inr ⟨used, le, which, served.nonzero, served.aligned, served.enough,
          moved.after served.takes⟩
    · simp only [ne_eq, served.nonzero, not_false_eq_true, if_true] at returned
      cases returned
      exact Or.inr ⟨alignment, Nat.le_refl _, Or.inl rfl, served⟩

end Loop

end HeapAllocator

end ComputeRuntime
