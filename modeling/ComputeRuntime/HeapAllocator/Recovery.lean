import ComputeRuntime.HeapAllocator.Runs

/-! Recovery: once every block was given back, a defragmentation makes the allocator what it was
when it was created. No chunk is empty, so the chunks on each side of the gap lead, in the order
of their addresses, from the end of the range to the gap, and all of them merge into it. -/
namespace ComputeRuntime

open Tiling Transition

/-- The chunk has a byte. -/
def HeapChunk.Filled (c : HeapChunk) : Prop := 0 < c.size

theorem joins_filled : Joins HeapChunk.Filled where
  join := by intro a b first second _; simp only [HeapChunk.Filled] at *; omega

/-! ### Chunks that lead from one address to another -/

section Links

variable {lo hi : Nat} {chunks : List HeapChunk}

@[simp] theorem links_nil : Links (spans []) lo hi ↔ lo = hi := Iff.rfl

@[simp] theorem links_cons {c : HeapChunk} : Links (spans (c :: chunks)) lo hi ↔
    c.ptr = lo ∧ Links (spans chunks) (c.ptr + c.size) hi := Iff.rfl

theorem links_le (links : Links (spans chunks) lo hi) : lo ≤ hi := by
  induction chunks generalizing lo with
  | nil => exact le_of_eq links
  | cons c rest ih =>
    obtain ⟨start, links⟩ := links_cons.mp links
    have stop := ih links
    omega

/-- One chunk that leads from `lo` to `hi`. -/
theorem links_single {c : HeapChunk} (links : Links (spans [c]) lo hi) : c = ⟨lo, hi - lo⟩ := by
  obtain ⟨ptr, size⟩ := c
  obtain ⟨start, stop⟩ := links_cons.mp links
  rw [links_nil] at stop
  simp only at start stop
  rw [HeapChunk.mk.injEq]
  omega

/-- A run of chunks in rising order merges into one. -/
theorem coalesce_joinSmall (fits : hi < 2 ^ 64) {current : HeapChunk} {rest : List HeapChunk}
    (links : Links (spans (current :: rest)) lo hi) :
    coalesce joinSmall current rest = [⟨lo, hi - lo⟩] := by
  induction rest generalizing current with
  | nil => rw [coalesce, links_single links]
  | cons next rest ih =>
    obtain ⟨start, links⟩ := links_cons.mp links
    obtain ⟨touches, links⟩ := links_cons.mp links
    have stop := links_le links
    have joined : joinSmall current next = some ⟨current.ptr, next.size + current.size⟩ := by
      simp only [joinSmall, add64]
      rw [Word.add_eq (by omega), if_pos touches, Word.add_eq (by omega)]
    simp only [coalesce, joined]
    refine ih (links_cons.mpr ⟨start, ?_⟩)
    rwa [show current.ptr + (next.size + current.size) = next.ptr + next.size by omega]

/-- A run of chunks in falling order merges into one. -/
theorem coalesce_joinBig (fits : hi < 2 ^ 64) {current : HeapChunk} {rest : List HeapChunk}
    (links : Links (spans (current :: rest).reverse) lo hi) :
    coalesce joinBig current rest = [⟨lo, hi - lo⟩] := by
  induction rest generalizing current with
  | nil => rw [coalesce, links_single links]
  | cons next rest ih =>
    simp only [List.reverse_cons, List.append_assoc, spans_append, links_append] at links ih
    obtain ⟨mid, before, middle, first, last⟩ := links
    simp only [links_cons, links_nil] at first last
    have joined : joinBig current next = some ⟨next.ptr, next.size + current.size⟩ := by
      simp only [joinBig, add64]
      rw [Word.add_eq (by omega), if_pos (by omega), Word.add_eq (by omega)]
    simp only [coalesce, joined]
    refine ih ⟨mid, before, links_cons.mpr ⟨first.1, ?_⟩⟩
    simp only [links_nil]
    omega

/-- Filled chunks that tile a range lead, once sorted, from one end of it to the other. -/
theorem sortChunks_links (filled : ∀ c ∈ chunks, c.Filled) (tiles : Tiles (spans chunks) lo hi)
    (le : lo ≤ hi) : Links (spans (sortChunks chunks)) lo hi := by
  refine (tiles.perm (spans_perm (sortChunks_perm chunks)).symm).links ?_ ?_ le
  · have sorted : (sortChunks chunks).Pairwise fun a b => decide (a.ptr ≤ b.ptr) = true :=
      List.pairwise_mergeSort (by intro a b c; simp; omega) (by intro a b; simp; omega) chunks
    exact List.pairwise_map.mpr (sorted.imp fun le => of_decide_eq_true le)
  · intro s member
    obtain ⟨c, inside, rfl⟩ := List.mem_map.mp member
    have full := filled c ((sortChunks_perm chunks).mem_iff.mp inside)
    simp only [HeapChunk.Filled] at full
    simp only [HeapChunk.span]
    omega

/-- A filled chunk is part of a range with a byte. -/
theorem tiles_proper (tiles : Tiles (spans chunks) lo hi)
    (filled : ∀ c ∈ chunks, c.Filled) {c : HeapChunk} (member : c ∈ chunks) : lo ≠ hi := by
  rintro rfl
  have full := filled c member
  simp only [HeapChunk.Filled] at full
  have hit : 0 < total (hits c.ptr) (spans chunks) :=
    total_hits_pos.mpr ⟨c.span, List.mem_map_of_mem member, Nat.le_refl _, by
      simp only [HeapChunk.span]
      omega⟩
  rw [tiles, hits_empty] at hit
  exact Nat.lt_irrefl 0 hit

/-- The free list of a range that is all free: one chunk, or none when the range is empty. -/
def whole (lo hi : Nat) : List HeapChunk := if lo = hi then [] else [⟨lo, hi - lo⟩]

/-- What defragmenting makes of a list that covers a range, if `merges` merges any run. -/
theorem coalesced_whole (join : HeapChunk → HeapChunk → Option HeapChunk)
    (order : List HeapChunk → List HeapChunk) (perm : ∀ chunks, (order chunks).Perm chunks)
    (merges : ∀ current rest, order (sortChunks chunks) = current :: rest →
      Links (spans (sortChunks chunks)) lo hi → coalesce join current rest = [⟨lo, hi - lo⟩])
    (filled : ∀ c ∈ chunks, c.Filled) (tiles : Tiles (spans chunks) lo hi) (le : lo ≤ hi) :
    (if chunks.length > 1 then coalesceAll join (order (sortChunks chunks)) else chunks) =
      whole lo hi := by
  have links := sortChunks_links filled tiles le
  match chunks with
  | [] =>
    have empty : lo = hi := by simpa [sortChunks, Links] using links
    rw [whole, if_pos empty]
    rfl
  | [c] =>
    have same : c = ⟨lo, hi - lo⟩ := links_single (by simpa [sortChunks] using links)
    have proper := tiles_proper tiles filled (List.mem_singleton_self c)
    rw [if_neg (show ¬ [c].length > 1 from Nat.lt_irrefl 1), whole, if_neg proper, same]
  | c :: d :: rest =>
    have many : (c :: d :: rest).length > 1 := by simp
    have proper := tiles_proper tiles filled List.mem_cons_self
    rw [if_pos many]
    cases sorted : order (sortChunks (c :: d :: rest)) with
    | nil =>
      have none := ((perm _).trans (sortChunks_perm (c :: d :: rest))).length_eq
      rw [sorted] at none
      cases none
    | cons first others =>
      rw [coalesceAll, merges first others sorted links, whole, if_neg proper]
      rfl

end Links

namespace HeapAllocator

/-! ### Defragmenting a range that is all free -/

/-- No freed chunk is empty. -/
structure Filled (h : HeapAllocator) : Prop where
  big : ∀ c ∈ h.freedChunksBig, c.Filled
  small : ∀ c ∈ h.freedChunksSmall, c.Filled

section Free

variable {h : HeapAllocator} (wf : h.Wf) (free : Tiles h.freeSpans h.baseAddress h.top)

include wf free

/-- The small chunks cover what is right of the gap. -/
theorem small_tiles : Tiles (spans h.freedChunksSmall) h.pRightBound h.top := by
  intro x
  have all := free x
  have low := wf.low
  have middle := wf.middle
  simp only [freeSpans, total_cons, total_append] at all
  by_cases right : h.pRightBound ≤ x
  · have big : total (hits x) (spans h.freedChunksBig) = 0 := by
      refine Nat.eq_zero_of_not_pos fun hit => ?_
      obtain ⟨s, member, inside⟩ := total_hits_pos.mp hit
      obtain ⟨c, chunk, rfl⟩ := List.mem_map.mp member
      have below := wf.bigLeft c chunk
      simp only [HeapChunk.span, HeapChunk.Below, Set.mem_Ico] at below inside
      omega
    simp only [hits] at all ⊢
    rw [big] at all
    split at all <;> split at all <;> split <;> omega
  · have small : total (hits x) (spans h.freedChunksSmall) = 0 := by
      refine Nat.eq_zero_of_not_pos fun hit => ?_
      obtain ⟨s, member, inside⟩ := total_hits_pos.mp hit
      obtain ⟨c, chunk, rfl⟩ := List.mem_map.mp member
      have above := wf.smallRight c chunk
      simp only [HeapChunk.span, HeapChunk.Above, Set.mem_Ico] at above inside
      omega
    rw [small, eq_comm, hits_eq_zero]
    exact fun inside => right inside.1

/-- The big chunks cover what is left of the gap. -/
theorem big_tiles : Tiles (spans h.freedChunksBig) h.baseAddress h.pLeftBound := by
  intro x
  have all := free x
  have small := small_tiles wf free x
  have middle := wf.middle
  have high := wf.high
  have low := wf.low
  simp only [freeSpans, total_cons, total_append, small] at all
  rw [(hits_additive x).cut low (Nat.le_trans middle high),
    (hits_additive x).cut middle high] at all
  omega

end Free

theorem mergeLastFreedSmall_whole {h : HeapAllocator} {hi : Nat} (le : h.pRightBound ≤ hi)
    (fits : hi < 2 ^ 64) (chunks : h.freedChunksSmall = whole h.pRightBound hi) :
    h.mergeLastFreedSmall = { h with pRightBound := hi, freedChunksSmall := [] } := by
  unfold whole at chunks
  split at chunks
  next empty =>
    simp only [mergeLastFreedSmall, chunks, List.getLast?_nil]
    rw [← empty, ← chunks]
  next =>
    have grown : add64 h.pRightBound (hi - h.pRightBound) = hi := by
      rw [add64, Word.add_eq (by omega)]
      omega
    simp only [mergeLastFreedSmall, chunks, List.getLast?_singleton, if_true, grown,
      List.dropLast_singleton]

theorem mergeLastFreedBig_whole {h : HeapAllocator} {lo : Nat} (le : lo ≤ h.pLeftBound)
    (fits : h.pLeftBound < 2 ^ 64) (chunks : h.freedChunksBig = whole lo h.pLeftBound) :
    h.mergeLastFreedBig = { h with pLeftBound := lo, freedChunksBig := [] } := by
  unfold whole at chunks
  split at chunks
  next empty =>
    simp only [mergeLastFreedBig, chunks, List.getLast?_nil]
    rw [empty, ← chunks]
  next =>
    have start : lo = sub64 h.pLeftBound (h.pLeftBound - lo) := by
      rw [sub64, Word.sub_eq (by omega) fits]
      omega
    simp only [mergeLastFreedBig, chunks, List.getLast?_singleton, List.dropLast_singleton]
    rw [if_pos start]

/-- Defragmenting gives the whole range back to the gap. -/
theorem defragment_free {h : HeapAllocator} (wf : h.Wf) (filled : h.Filled)
    (free : Tiles h.freeSpans h.baseAddress h.top) :
    h.defragment = { h with
      pLeftBound := h.baseAddress
      pRightBound := h.top
      freedChunksSmall := []
      freedChunksBig := [] } := by
  have low := wf.low
  have middle := wf.middle
  have high := wf.high
  have fits := wf.fits
  have small := coalesced_whole joinSmall id (fun _ => .refl _)
    (fun current rest sorted links => coalesce_joinSmall fits (sorted ▸ links)) filled.small
    (small_tiles wf free) high
  have big := coalesced_whole joinBig List.reverse List.reverse_perm
    (fun current rest sorted links => coalesce_joinBig (by omega) (by
      rw [← sorted, List.reverse_reverse]
      exact links)) filled.big (big_tiles wf free) low
  have first : (if h.freedChunksSmall.length > 1 then
      { h with freedChunksSmall := coalesceAll joinSmall (sortChunks h.freedChunksSmall) }
    else h) = { h with freedChunksSmall := whole h.pRightBound h.top } := by
    rw [← small]
    split <;> rfl
  have second := mergeLastFreedSmall_whole
    (h := { h with freedChunksSmall := whole h.pRightBound h.top }) high fits rfl
  unfold defragment
  simp only [first, second]
  have third : (if h.freedChunksBig.length > 1 then
      { h with
        pRightBound := h.top
        freedChunksSmall := []
        freedChunksBig := coalesceAll joinBig (sortChunks h.freedChunksBig).reverse }
    else { h with pRightBound := h.top, freedChunksSmall := [] }) =
      { h with
        pRightBound := h.top
        freedChunksSmall := []
        freedChunksBig := whole h.baseAddress h.pLeftBound } := by
    rw [← big]
    split <;> rfl
  rw [third]
  exact mergeLastFreedBig_whole low (by simp only; omega) rfl

/-! ### No chunk is ever empty -/

section Filled

variable {h : HeapAllocator}

theorem Filled.mergeLastFreedSmall (filled : h.Filled) : h.mergeLastFreedSmall.Filled := by
  unfold HeapAllocator.mergeLastFreedSmall
  split
  next =>
    split
    next => exact ⟨filled.big, fun c member => filled.small c (List.mem_of_mem_dropLast member)⟩
    next => exact filled
  next => exact filled

theorem Filled.mergeLastFreedBig (filled : h.Filled) : h.mergeLastFreedBig.Filled := by
  unfold HeapAllocator.mergeLastFreedBig
  split
  next =>
    split
    next => exact ⟨fun c member => filled.big c (List.mem_of_mem_dropLast member), filled.small⟩
    next => exact filled
  next => exact filled

theorem mergeLastFreedSmall_freedChunksBig (h : HeapAllocator) :
    h.mergeLastFreedSmall.freedChunksBig = h.freedChunksBig := by
  unfold mergeLastFreedSmall
  split
  · split <;> rfl
  · rfl

theorem Filled.defragment (wf : h.Wf) (filled : h.Filled) : h.defragment.Filled := by
  have small := (coalesceAll_spec joins_filled (joinSmall_sound wf.fits) (sortChunks_perm _)
    wf.smallWithin filled.small).1
  have big := (coalesceAll_spec joins_filled (joinBig_sound wf.fits)
    ((List.reverse_perm _).trans (sortChunks_perm _)) wf.bigWithin filled.big).1
  unfold HeapAllocator.defragment
  refine Filled.mergeLastFreedBig ?_
  have first : Filled (if h.freedChunksSmall.length > 1 then
      { h with freedChunksSmall := coalesceAll joinSmall (sortChunks h.freedChunksSmall) }
      else h) ∧
    (if h.freedChunksSmall.length > 1 then
      { h with freedChunksSmall := coalesceAll joinSmall (sortChunks h.freedChunksSmall) }
      else h).freedChunksBig = h.freedChunksBig := by
    split
    next => exact ⟨⟨filled.big, small⟩, rfl⟩
    next => exact ⟨filled, rfl⟩
  generalize (if h.freedChunksSmall.length > 1 then
    { h with freedChunksSmall := coalesceAll joinSmall (sortChunks h.freedChunksSmall) }
    else h) = sorted at first ⊢
  have merged := first.1.mergeLastFreedSmall
  have same := (mergeLastFreedSmall_freedChunksBig sorted).trans first.2
  split
  next =>
    refine ⟨?_, merged.small⟩
    simp only [same]
    exact big
  next => exact merged

/-- A span with a byte is stored as a chunk with one, or makes one longer. -/
theorem store_filled {lo hi ptr size : Nat} {chunks : List HeapChunk} (fits : hi < 2 ^ 64)
    (within : ∀ c ∈ chunks, c.Within lo hi) (top : ptr + size ≤ hi) (full : size ≠ 0)
    (filled : ∀ c ∈ chunks, c.Filled) : ∀ c ∈ storeInFreedChunks ptr size chunks, c.Filled :=
  store_forall joins_filled fits within top (Nat.pos_of_ne_zero full) filled

theorem Filled.free (wf : h.Wf) (filled : h.Filled) {ptr size : Nat} (full : size ≠ 0)
    (top : ptr + size ≤ h.top) : (h.free ptr size).Filled := by
  unfold HeapAllocator.free
  split
  next => exact filled
  next =>
    simp only
    split
    next =>
      have grown : Filled { h with pRightBound := add64 ptr size } := ⟨filled.big, filled.small⟩
      exact ⟨grown.mergeLastFreedSmall.big, grown.mergeLastFreedSmall.small⟩
    next =>
      split
      next =>
        have grown : Filled { h with pLeftBound := ptr } := ⟨filled.big, filled.small⟩
        exact ⟨grown.mergeLastFreedBig.big, grown.mergeLastFreedBig.small⟩
      next =>
        split
        next => exact ⟨store_filled wf.fits wf.bigWithin top full filled.big, filled.small⟩
        next => exact ⟨filled.big, store_filled wf.fits wf.smallWithin top full filled.small⟩

section Allocate

variable {sizeToAllocate alignment : Nat}

theorem Filled.setFreedChunks (filled : h.Filled) (sizeToAllocate : Nat)
    {chunks : List HeapChunk} (full : ∀ c ∈ chunks, c.Filled) :
    (h.setFreedChunks sizeToAllocate chunks).Filled := by
  unfold HeapAllocator.setFreedChunks
  split
  next => exact ⟨full, filled.small⟩
  next => exact ⟨filled.big, full⟩

/-- The bounds are no chunks. -/
theorem Filled.bounds (filled : h.Filled) (left right : Nat) :
    Filled { h with
      pLeftBound := left
      pRightBound := right } := ⟨filled.big, filled.small⟩

/-- Only a remainder with a byte is set aside, at the left end of the gap or at its right end. -/
private theorem Filled.allocateLeft (wf : h.Wf) (filled : h.Filled) (pow2 : IsPow2 alignment)
    (fits : h.top + sizeToAllocate + alignment ≤ 2 ^ 64) (big : sizeToAllocate > h.sizeThreshold)
    (room : alignUp h.pLeftBound alignment + sizeToAllocate ≤ h.pRightBound) :
    (h.allocateFromGap sizeToAllocate alignment).1.Filled := by
  have middle := wf.middle
  have high := wf.high
  have word := wf.fits
  have up := le_alignUp (x := h.pLeftBound) pow2 (by omega)
  have misalignment : sub64 (alignUp h.pLeftBound alignment) h.pLeftBound =
      alignUp h.pLeftBound alignment - h.pLeftBound := Word.sub_eq up (by omega)
  unfold HeapAllocator.allocateFromGap
  simp only [if_pos big]
  generalize sub64 (alignUp h.pLeftBound alignment) h.pLeftBound = rest at misalignment ⊢
  have top : h.pLeftBound + rest ≤ h.top := by
    rw [misalignment, Nat.add_sub_cancel' up]
    omega
  split
  next =>
    refine Filled.bounds ?_ _ _
    split
    next left =>
      have stored : Filled { h with
          freedChunksBig := storeInFreedChunks h.pLeftBound rest h.freedChunksBig } :=
        ⟨store_filled word wf.bigWithin top left filled.big, filled.small⟩
      exact stored.bounds _ _
    next => exact filled
  next => exact filled

private theorem Filled.allocateRight (wf : h.Wf) (filled : h.Filled) (pow2 : IsPow2 alignment)
    (fits : h.top + sizeToAllocate + alignment ≤ 2 ^ 64)
    (small : ¬ sizeToAllocate > h.sizeThreshold) (room : sizeToAllocate ≤ h.pRightBound) :
    (h.allocateFromGap sizeToAllocate alignment).1.Filled := by
  have high := wf.high
  have word := wf.fits
  have pStart : sub64 h.pRightBound sizeToAllocate = h.pRightBound - sizeToAllocate :=
    Word.sub_eq room (by omega)
  have down := alignDown_le (x := h.pRightBound - sizeToAllocate) pow2 (by omega)
  have misalignment : sub64 (h.pRightBound - sizeToAllocate)
      (alignDown (h.pRightBound - sizeToAllocate) alignment) =
      h.pRightBound - sizeToAllocate -
        alignDown (h.pRightBound - sizeToAllocate) alignment := Word.sub_eq down (by omega)
  have top : sub64 h.pRightBound (h.pRightBound - sizeToAllocate -
        alignDown (h.pRightBound - sizeToAllocate) alignment) +
      (h.pRightBound - sizeToAllocate -
        alignDown (h.pRightBound - sizeToAllocate) alignment) ≤ h.top := by
    rw [sub64, Word.sub_eq (by omega) (by omega)]
    omega
  unfold HeapAllocator.allocateFromGap
  simp only [if_neg small, pStart, misalignment]
  split
  next =>
    split
    next rest =>
      exact ⟨filled.big, store_filled word wf.smallWithin top rest filled.small⟩
    next => exact ⟨filled.big, filled.small⟩
  next => exact filled

theorem Filled.allocateFromGap (wf : h.Wf) (filled : h.Filled) (pow2 : IsPow2 alignment)
    (fits : h.top + sizeToAllocate + alignment ≤ 2 ^ 64) :
    (h.allocateFromGap sizeToAllocate alignment).1.Filled := by
  rcases allocateFromGap_spec wf pow2 fits with ⟨-, same⟩ | ⟨room, -⟩
  · rw [same]
    exact filled
  · unfold FitsGap at room
    split at room
    next big => exact filled.allocateLeft wf pow2 fits big room
    next small => exact filled.allocateRight wf pow2 fits small room.1

theorem Filled.tryAllocate (wf : h.Wf) (filled : h.Filled) (pow2 : IsPow2 alignment)
    (fits : h.top + sizeToAllocate + alignment ≤ 2 ^ 64)
    (noZero : ¬ h.ServesZero sizeToAllocate alignment) :
    (h.tryAllocate sizeToAllocate alignment).heap.Filled := by
  have gap := filled.allocateFromGap wf pow2 fits
  unfold HeapAllocator.tryAllocate
  rcases allocateFromGap_spec wf pow2 fits with ⟨-, same⟩ | ⟨room, after, served, -⟩
  · have within : ∀ c ∈ h.freedChunks sizeToAllocate, c.Within h.lowest h.top ∧ c.Filled := by
      unfold freedChunks
      split
      · exact fun c member => ⟨wf.bigWithin c member, filled.big c member⟩
      · exact fun c member => ⟨wf.smallWithin c member, filled.small c member⟩
    have search := getFromFreedChunks_spec sizeToAllocate pow2 wf.fits
      (Nat.le_max_left 1 h.baseAddress) fun c member => (within c member).1
    have kept : ∀ c ∈ (getFromFreedChunks sizeToAllocate (h.freedChunks sizeToAllocate)
        alignment).freedChunks, c.Filled := by
      rcases search with ⟨-, same, -⟩ | ⟨-, served, -⟩
      · rw [same]
        exact fun c member => (within c member).2
      · exact served.keeps (fun _ pos _ => pos) fun c member => (within c member).2
    have after := filled.setFreedChunks sizeToAllocate kept
    simp only [same, ne_eq, not_true_eq_false, if_false]
    split
    next => exact ⟨after.big, after.small⟩
    next => exact after
  · have nonzero : h.gapAddress sizeToAllocate alignment ≠ 0 := fun zero => noZero ⟨room, zero⟩
    rw [served] at gap
    simp only [served, ne_eq, nonzero, not_false_eq_true, if_true]
    exact ⟨gap.big, gap.small⟩

theorem Filled.allocateLoop (fuel : Nat) {r : AllocateResult} {defragmented : Bool} (wf : h.Wf)
    (filled : h.Filled) (positive : 0 < h.baseAddress) (pow2 : IsPow2 alignment)
    (fits : h.top + sizeToAllocate + alignment ≤ 2 ^ 64)
    (returned : allocateLoop sizeToAllocate fuel h alignment defragmented = .ok r) :
    r.heap.Filled := by
  induction fuel generalizing h alignment defragmented with
  | zero => cases returned
  | succ fuel ih =>
    have noZero := not_servesZero wf pow2 fits positive
    unfold HeapAllocator.allocateLoop at returned
    rcases tryAllocate_spec wf pow2 fits noZero with ⟨full, failed⟩ | ⟨-, served⟩
    · simp only [failed, ne_eq, not_true_eq_false, if_false] at returned
      split at returned
      next =>
        have moved := defragment_takes wf
        have top := moved.config.top
        exact ih moved.wf (filled.defragment wf) (moved.config.baseAddress ▸ positive) pow2
          (by omega) returned
      next =>
        split at returned
        next retry =>
          rw [wf.gap_eq] at retry
          obtain ⟨pow2', le⟩ := fallbackAlignment_spec wf pow2 retry.1
            (bound_of_not_fitsGap wf pow2 fits (not_or.mp full).1) retry.2
          exact ih wf filled positive pow2' (by omega) returned
        next =>
          cases returned
          exact filled
    · simp only [ne_eq, served.nonzero, not_false_eq_true, if_true] at returned
      cases returned
      exact filled.tryAllocate wf pow2 fits noZero

end Allocate

end Filled

/-! ### Runs -/

/-- The calls that stay inside the address space and ask for a byte at least. -/
def Proper (w : World) : Call → Prop
  | .allocateWithCustomAlignment size alignment =>
    NoWrap w (.allocateWithCustomAlignment size alignment) ∧
      0 < alignUp size w.heap.allocationAlignment
  | .free _ => True

/-- What a run of such calls keeps. -/
structure World.Recoverable (address size allocationAlignment threshold : Nat) (w : World) : Prop
    extends World.Inv address size allocationAlignment w where
  sizeThreshold : w.heap.sizeThreshold = threshold
  filled : w.heap.Filled
  blocks : ∀ b ∈ w.live, b.Filled

/-- The heap has a block for the request. -/
def Supplies (h : HeapAllocator) (request : Nat) : Prop :=
  ∃ fuel r, h.allocate fuel request = .ok r ∧ r.ptr ≠ 0 ∧ request ≤ r.sizeToAllocate

section Runs

variable {address size allocationAlignment threshold : Nat} {w : World}

theorem World.Recoverable.create (positive : 0 < address) (fits : address + size < 2 ^ 64) :
    World.Recoverable address size allocationAlignment threshold
      ⟨.create address size allocationAlignment threshold, []⟩ where
  toInv := create_inv positive fits
  sizeThreshold := rfl
  filled := ⟨by simp [HeapAllocator.create], by simp [HeapAllocator.create]⟩
  blocks := by simp

theorem World.Recoverable.allocate
    (inv : w.Recoverable address size allocationAlignment threshold)
    (pow2 : IsPow2 allocationAlignment) {request alignment fuel : Nat} {r : AllocateResult}
    (asked : alignment = 0 ∨ IsPow2 alignment)
    (fits : address + 2 * size + allocationAlignment ≤ 2 ^ 64)
    (proper : Proper w (.allocateWithCustomAlignment request alignment))
    (returned : w.heap.allocateWithCustomAlignment fuel request alignment = .ok r) :
    World.Recoverable address size allocationAlignment threshold
      ⟨r.heap, liveAfter w.live r⟩ := by
  obtain ⟨noWrap, byte⟩ := proper
  simp only [NoWrap, inv.baseAddress, inv.heapSize] at noWrap
  rw [inv.alignment] at byte
  have config : r.heap.sizeThreshold = w.heap.sizeThreshold ∧
      (r.ptr ≠ 0 → alignUp request allocationAlignment ≤ r.sizeToAllocate) := by
    rcases allocate_spec inv.toInv pow2 asked fits noWrap returned with
      ⟨zero, moved⟩ | ⟨_, _, served⟩
    · exact ⟨moved.config.sizeThreshold, fun nonzero => absurd zero nonzero⟩
    · exact ⟨served.takes.config.sizeThreshold, fun _ => served.enough⟩
  refine ⟨allocate_inv inv.toInv pow2 asked fits noWrap returned,
    config.1.trans inv.sizeThreshold, ?_, ?_⟩
  · have wanted : (if alignment < allocationAlignment then allocationAlignment else alignment) =
        max alignment allocationAlignment := by
      split <;> omega
    unfold allocateWithCustomAlignment at returned
    rw [inv.alignment] at returned
    simp only [wanted] at returned
    split at returned
    next => cases returned
    next =>
      split at returned
      next =>
        cases returned
        exact inv.filled
      next enough =>
        have available := inv.available_le
        have room : w.heap.top + alignUp request allocationAlignment +
            max alignment allocationAlignment ≤ 2 ^ 64 := by
          rw [inv.top]
          omega
        exact inv.filled.allocateLoop fuel inv.wf (inv.baseAddress ▸ inv.positive)
          (wanted_pow2 pow2 asked) room returned
  · unfold liveAfter
    split
    next => exact inv.blocks
    next nonzero =>
      refine List.forall_mem_cons.mpr ⟨?_, inv.blocks⟩
      have enough := config.2 nonzero
      simp only [HeapChunk.Filled]
      omega

theorem World.Recoverable.free
    (inv : w.Recoverable address size allocationAlignment threshold) {block : HeapChunk}
    (held : block ∈ w.live) :
    World.Recoverable address size allocationAlignment threshold
      ⟨w.heap.free block.ptr block.size, w.live.erase block⟩ where
  toInv := free_inv inv.toInv held
  sizeThreshold := (inv.gives held).config.sizeThreshold.trans inv.sizeThreshold
  filled := inv.filled.free inv.wf (Nat.pos_iff_ne_zero.mp (inv.blocks block held))
    (inv.top ▸ (inv.within block held).2)
  blocks := fun b other => inv.blocks b (List.mem_of_mem_erase other)

theorem recoverable_invariant (positive : 0 < address) (pow2 : IsPow2 allocationAlignment)
    (fits : address + 2 * size + allocationAlignment ≤ 2 ^ 64) :
    Invariant ((anySystem address size allocationAlignment threshold).restrict Proper)
      (World.Recoverable address size allocationAlignment threshold) where
  initial := by
    rintro w rfl
    have := pow2.pos
    exact .create positive (by omega)
  preserved := by
    rintro w call w' _ inv ⟨proper, step⟩
    cases step with
    | allocate fuel asked returned => exact inv.allocate pow2 asked fits proper returned
    | free held => exact inv.free held
    | freeNull => exact inv

/-- What nobody holds is free. -/
theorem World.Tracked.free_of_freed (tracked : w.Tracked address size allocationAlignment)
    (freed : w.live = []) : Tiles w.heap.freeSpans w.heap.baseAddress w.heap.top := by
  have tiles := tracked.tiles
  rw [World.pieces, freed] at tiles
  rw [tracked.baseAddress, tracked.top]
  exact tiles

theorem World.Recoverable.availableSize_eq
    (inv : w.Recoverable address size allocationAlignment threshold) (freed : w.live = []) :
    w.heap.availableSize = size := by
  have whole := defragment_free inv.wf inv.filled (inv.free_of_freed freed)
  have moved := (defragment_takes inv.wf).balanced inv.balanced
  have same : w.heap.defragment.availableSize = w.heap.availableSize := by rw [whole]
  rw [Balanced, same, whole] at moved
  simp only [freeSpans, spans_nil, List.append_nil, total_cons, total_nil, inv.top,
    inv.baseAddress] at moved
  omega

/-- Defragmenting a heap nobody holds a block of gives it back as it was created. -/
theorem World.Recoverable.defragment_eq
    (inv : w.Recoverable address size allocationAlignment threshold)
    (fits : address + size < 2 ^ 64) (freed : w.live = []) :
    w.heap.defragment = .create address size allocationAlignment threshold := by
  have available := inv.availableSize_eq freed
  have top : add64 address size = address + size := Word.add_eq fits
  rw [defragment_free inv.wf inv.filled (inv.free_of_freed freed)]
  simp only [HeapAllocator.create, inv.baseAddress, inv.heapSize, inv.alignment,
    inv.sizeThreshold, available, inv.top, top]

section Supply

variable {request : Nat} (pow2 : IsPow2 allocationAlignment)
  (fits : address + 2 * size + allocationAlignment ≤ 2 ^ 64)

include pow2 fits

/-- A new heap has room for all its bytes at their alignment. -/
theorem create_fits {sizeToAllocate : Nat} (aligned : allocationAlignment ∣ address)
    (small : sizeToAllocate ≤ size) : (HeapAllocator.create address size allocationAlignment
      threshold).Fits sizeToAllocate allocationAlignment := by
  have pos := pow2.pos
  have top : add64 address size = address + size := Word.add_eq (by omega)
  have same : alignUp address allocationAlignment = address :=
    alignUp_self pow2 (by omega) aligned
  have low : address ≤ alignDown (address + size - sizeToAllocate) allocationAlignment :=
    le_alignDown pow2 (by omega) aligned (by omega)
  refine .inl ?_
  simp only [FitsGap, HeapAllocator.create, top, same]
  split
  next => exact Nat.add_le_add_left small address
  next => exact ⟨by omega, low⟩

/-- A heap with room for a request after it was defragmented supplies it. -/
theorem World.Tracked.supplies (tracked : w.Tracked address size allocationAlignment)
    (positive : 0 < address) (small : request ≤ size)
    (enough : alignUp request allocationAlignment ≤ w.heap.availableSize)
    (room : w.heap.defragment.Fits (alignUp request allocationAlignment) allocationAlignment) :
    Supplies w.heap request := by
  have pos := pow2.pos
  have above : request ≤ alignUp request allocationAlignment := le_alignUp pow2 (by omega)
  have available := tracked.available_le
  have moved := defragment_takes tracked.wf
  have first : w.heap.top + alignUp request allocationAlignment + allocationAlignment ≤ 2 ^ 64 := by
    rw [tracked.top]
    omega
  have second : w.heap.defragment.top + alignUp request allocationAlignment +
      allocationAlignment ≤ 2 ^ 64 := by
    rw [moved.config.top]
    exact first
  have base : 0 < w.heap.baseAddress := tracked.baseAddress ▸ positive
  have base' : 0 < w.heap.defragment.baseAddress := moved.config.baseAddress ▸ base
  simp only [Supplies, HeapAllocator.allocate, allocateWithCustomAlignment, tracked.alignment,
    if_pos pos, Nat.mod_self, ne_eq, not_true_eq_false, if_false, Nat.not_lt.mpr enough]
  rcases tryAllocate_spec tracked.wf pow2 first (not_servesZero tracked.wf pow2 first base) with
    ⟨-, failed⟩ | ⟨-, served⟩
  · rcases tryAllocate_spec moved.wf pow2 second (not_servesZero moved.wf pow2 second base') with
      ⟨full, -⟩ | ⟨-, served⟩
    · exact absurd room full
    · refine ⟨2, _, ?_, served.nonzero, Nat.le_trans above served.enough⟩
      simp only [allocateLoop, failed, served.nonzero, ne_eq, not_true_eq_false,
        not_false_eq_true, if_true, if_false]
  · refine ⟨1, _, ?_, served.nonzero, Nat.le_trans above served.enough⟩
    simp only [allocateLoop, served.nonzero, ne_eq, not_false_eq_true, if_true]

end Supply

/-- Once every block was given back, in any order, defragmenting gives the heap back as it was
created, and before and after that it supplies any request up to all of it. -/
theorem reachable_recovers (positive : 0 < address) (pow2 : IsPow2 allocationAlignment)
    (fits : address + 2 * size + allocationAlignment ≤ 2 ^ 64)
    (alignedBase : allocationAlignment ∣ address) (alignedSize : allocationAlignment ∣ size)
    (reachable : Reachable
      ((anySystem address size allocationAlignment threshold).restrict Proper) w)
    (freed : w.live = []) :
    w.heap.defragment = .create address size allocationAlignment threshold ∧
      ∀ request ≤ size, Supplies w.heap request ∧ Supplies w.heap.defragment request := by
  have pos := pow2.pos
  have start : Reachable ((anySystem address size allocationAlignment threshold).restrict Proper)
      ⟨.create address size allocationAlignment threshold, []⟩ := .start rfl
  have supplied {v : World} (inv : v.Recoverable address size allocationAlignment threshold)
      (free : v.live = []) {request : Nat} (small : request ≤ size) :
      Supplies v.heap request := by
    have same := inv.defragment_eq (by omega) free
    have rounded : alignUp request allocationAlignment ≤ size :=
      alignUp_le pow2 (by omega) alignedSize small
    have available := inv.availableSize_eq free
    refine inv.supplies pow2 fits positive small (available ▸ rounded) ?_
    rw [same]
    exact create_fits pow2 fits alignedBase rounded
  have invariant : Invariant
      ((anySystem address size allocationAlignment threshold).restrict Proper) _ :=
    recoverable_invariant positive pow2 fits
  have inv := invariant.holds reachable
  have same := inv.defragment_eq (by omega) freed
  refine ⟨same, fun request small => ⟨supplied inv freed small, ?_⟩⟩
  rw [same]
  exact supplied (invariant.holds start) rfl small

end Runs

private theorem smallRange_anyPage : World.AnyStep ⟨smallRange, []⟩
    (.allocateWithCustomAlignment 0x1000 0) ⟨smallRangeUsed, [⟨0x100000, 0x1000⟩]⟩ :=
  .allocate (r := ⟨smallRangeUsed, 0x100000, 0x1000⟩) 1 (Or.inl rfl) (by decide)

theorem reachable_recovers_page :
    (smallRangeUsed.free 0x100000 0x1000).defragment = smallRange ∧
      ∀ request ≤ 0x100000, Supplies (smallRangeUsed.free 0x100000 0x1000) request ∧
        Supplies (smallRangeUsed.free 0x100000 0x1000).defragment request := by
  have start : Reachable ((anySystem 0x1000 0x100000 0x1000 0x4000).restrict Proper)
      ⟨smallRange, []⟩ := .start rfl
  have proper : Proper ⟨smallRange, []⟩ (.allocateWithCustomAlignment 0x1000 0) :=
    ⟨by simp [NoWrap, smallRange, create], by decide⟩
  have taken := start.next ⟨proper, smallRange_anyPage⟩
  have free : World.AnyStep ⟨smallRangeUsed, [⟨0x100000, 0x1000⟩]⟩ (.free ⟨0x100000, 0x1000⟩)
      ⟨smallRangeUsed.free 0x100000 0x1000, []⟩ := .free (by decide)
  have any : Proper ⟨smallRangeUsed, [⟨0x100000, 0x1000⟩]⟩ (.free ⟨0x100000, 0x1000⟩) := trivial
  have freed := taken.next ⟨any, free⟩
  have recovered := reachable_recovers (by decide) ⟨12, by decide, rfl⟩ (by decide) (by decide)
    (by decide) freed rfl
  exact recovered

/-- A range in the upper half after a request aligned to half of the address space. -/
def wrappedRange : HeapAllocator :=
  { create (2 ^ 63 + 0x100000) 0x100000 0x1000 0 with
    availableSize := 0xff000
    pLeftBound := 2 ^ 63 + 0x1000
    freedChunksBig := [⟨2 ^ 63 + 0x100000, 2 ^ 63 - 0x100000⟩, ⟨0x1000, 2 ^ 63 - 0x1000⟩] }

/-- Two limits. A request of no bytes can leave an empty chunk for good; an alignment so large
that aligning the left bound up wraps around leaves the left bound below the range. -/
theorem empty_request_and_wrapping_alignment_never_recover :
    (∃ w, Reachable (anySystem 0x1000 0x100000 0x1000 0x4000) w ∧ w.live = [] ∧
      w.heap.defragment.freedChunksSmall = [⟨0x100000, 0⟩]) ∧
    ∃ w, Reachable (anySystem (2 ^ 63 + 0x100000) 0x100000 0x1000 0) w ∧ w.live = [] ∧
      w.heap.defragment.pLeftBound = 0x1000 := by
  constructor
  · have start : Reachable (anySystem 0x1000 0x100000 0x1000 0x4000) ⟨smallRange, []⟩ :=
      .start rfl
    have empty : World.AnyStep ⟨smallRangeUsed, [⟨0x100000, 0x1000⟩]⟩
        (.allocateWithCustomAlignment 0 0)
        ⟨smallRangeUsed, [⟨0x100000, 0⟩, ⟨0x100000, 0x1000⟩]⟩ :=
      .allocate (r := ⟨smallRangeUsed, 0x100000, 0⟩) 1 (Or.inl rfl) (by decide)
    have freePage : World.AnyStep ⟨smallRangeUsed, [⟨0x100000, 0⟩, ⟨0x100000, 0x1000⟩]⟩
        (.free ⟨0x100000, 0x1000⟩)
        ⟨smallRangeUsed.free 0x100000 0x1000, [⟨0x100000, 0⟩]⟩ := .free (by decide)
    have freeEmpty : World.AnyStep ⟨smallRangeUsed.free 0x100000 0x1000, [⟨0x100000, 0⟩]⟩
        (.free ⟨0x100000, 0⟩)
        ⟨(smallRangeUsed.free 0x100000 0x1000).free 0x100000 0, []⟩ := .free (by decide)
    exact ⟨_, (((start.next smallRange_anyPage).next empty).next freePage).next freeEmpty, rfl,
      by decide⟩
  · have start : Reachable (anySystem (2 ^ 63 + 0x100000) 0x100000 0x1000 0)
        ⟨create (2 ^ 63 + 0x100000) 0x100000 0x1000 0, []⟩ := .start rfl
    have wrapped : World.AnyStep ⟨create (2 ^ 63 + 0x100000) 0x100000 0x1000 0, []⟩
        (.allocateWithCustomAlignment 0x1000 (2 ^ 63)) ⟨wrappedRange, [⟨2 ^ 63, 0x1000⟩]⟩ :=
      .allocate (r := ⟨wrappedRange, 2 ^ 63, 0x1000⟩) 2 (Or.inr ⟨63, by decide, rfl⟩) (by decide)
    have free : World.AnyStep ⟨wrappedRange, [⟨2 ^ 63, 0x1000⟩]⟩ (.free ⟨2 ^ 63, 0x1000⟩)
        ⟨wrappedRange.free (2 ^ 63) 0x1000, []⟩ := .free (by decide)
    exact ⟨_, (start.next wrapped).next free, rfl, by decide⟩

end HeapAllocator

end ComputeRuntime
