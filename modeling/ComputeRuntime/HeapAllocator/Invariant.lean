import ComputeRuntime.HeapAllocator.BestFit

/-! The allocator invariant, and one specification for each operation: which addresses leave
or enter the free space. -/
namespace ComputeRuntime

open Tiling

namespace HeapAllocator

/-- Everything that can still be handed out: the gap between the bounds and the freed chunks. -/
def freeSpans (h : HeapAllocator) : List (Nat × Nat) :=
  (h.pLeftBound, h.pRightBound) :: (spans h.freedChunksBig ++ spans h.freedChunksSmall)

/-- The end of the managed range. -/
def top (h : HeapAllocator) : Nat := h.baseAddress + h.size

/-- The lowest address a freed chunk can have; address 0 stands for a failure. -/
def lowest (h : HeapAllocator) : Nat := max 1 h.baseAddress

/-- A well-formed allocator: ordered bounds inside an address range that does not wrap, the
chunks of each list inside the range and on their own side of the gap, and no address free
twice. -/
structure Wf (h : HeapAllocator) : Prop where
  low : h.baseAddress ≤ h.pLeftBound
  middle : h.pLeftBound ≤ h.pRightBound
  high : h.pRightBound ≤ h.top
  fits : h.top < 2 ^ 64
  bigWithin : ∀ c ∈ h.freedChunksBig, c.Within h.lowest h.top
  smallWithin : ∀ c ∈ h.freedChunksSmall, c.Within h.lowest h.top
  bigLeft : ∀ c ∈ h.freedChunksBig, c.Below h.pLeftBound
  smallRight : ∀ c ∈ h.freedChunksSmall, c.Above h.pRightBound
  once : ∀ x, total (hits x) h.freeSpans ≤ 1

/-- `availableSize` counts the free bytes. -/
def Balanced (h : HeapAllocator) : Prop :=
  h.availableSize = total (fun a b => b - a) h.freeSpans

/-- The block lies on one side of the gap; an empty block may lie anywhere. -/
def OnSide (h : HeapAllocator) (block : HeapChunk) : Prop :=
  block.Below h.pLeftBound ∨ block.Above h.pRightBound

/-- No byte of the block is free. -/
def Apart (h : HeapAllocator) (block : HeapChunk) : Prop :=
  ∀ x ∈ Set.Ico block.ptr (block.ptr + block.size), total (hits x) h.freeSpans = 0

/-- The parts no operation changes. -/
structure SameConfig (h h' : HeapAllocator) : Prop where
  baseAddress : h'.baseAddress = h.baseAddress
  size : h'.size = h.size
  allocationAlignment : h'.allocationAlignment = h.allocationAlignment
  sizeThreshold : h'.sizeThreshold = h.sizeThreshold

theorem SameConfig.refl (h : HeapAllocator) : SameConfig h h := ⟨rfl, rfl, rfl, rfl⟩

theorem SameConfig.trans {h₁ h₂ h₃ : HeapAllocator} (first : SameConfig h₁ h₂)
    (second : SameConfig h₂ h₃) : SameConfig h₁ h₃ :=
  ⟨second.1.trans first.1, second.2.trans first.2, second.3.trans first.3,
    second.4.trans first.4⟩

theorem SameConfig.lowest {h h' : HeapAllocator} (same : SameConfig h h') :
    h'.lowest = h.lowest := by
  simp only [HeapAllocator.lowest, same.baseAddress]

theorem SameConfig.top {h h' : HeapAllocator} (same : SameConfig h h') : h'.top = h.top := by
  simp only [HeapAllocator.top, same.baseAddress, same.size]

/-- `h'` is `h` with the addresses of `block` taken out of its free space. -/
structure Takes (h h' : HeapAllocator) (block : HeapChunk) : Prop where
  wf : h'.Wf
  config : SameConfig h h'
  balanced : h.Balanced → h'.Balanced
  space : ∀ f : Nat → Nat → Nat, Additive f → total f h.freeSpans =
    total f h'.freeSpans + f block.ptr (block.ptr + block.size)
  sides : ∀ other, h.OnSide other → h.Apart other → h'.OnSide other
  blockSide : h'.OnSide block
  blockWithin : block.ptr ≠ 0 → block.Within h.baseAddress h.top

/-- No block: what an operation that only rearranges the free space takes. -/
def noBlock : HeapChunk := ⟨0, 0⟩

theorem additive_empty {f : Nat → Nat → Nat} (additive : Additive f) (a : Nat) :
    f a a = 0 := by
  have cut := additive.cut (Nat.le_refl a) (Nat.le_refl a)
  omega

theorem onSide_empty (h : HeapAllocator) {block : HeapChunk} (empty : block.size = 0) :
    h.OnSide block := Or.inl (Or.inl empty)

theorem Takes.refl {h : HeapAllocator} (wf : h.Wf) : Takes h h noBlock where
  wf := wf
  config := .refl h
  balanced := id
  space := by
    intro f additive
    simp [noBlock, additive_empty additive]
  sides := by intro other side _; exact side
  blockSide := h.onSide_empty rfl
  blockWithin := by intro nonzero; cases nonzero rfl

theorem Takes.shrinks {h h' : HeapAllocator} {block : HeapChunk} (takes : Takes h h' block)
    (x : Nat) : total (hits x) h'.freeSpans ≤ total (hits x) h.freeSpans := by
  have := takes.space (hits x) (hits_additive x)
  omega

theorem Takes.apart {h h' : HeapAllocator} {block other : HeapChunk} (takes : Takes h h' block)
    (apart : h.Apart other) : h'.Apart other := by
  intro x inside
  have := takes.shrinks x
  have := apart x inside
  omega

/-- Rearranging the free space and then taking a block is taking the block. -/
theorem Takes.after {h₁ h₂ h₃ : HeapAllocator} {block : HeapChunk}
    (rearranged : Takes h₁ h₂ noBlock) (takes : Takes h₂ h₃ block) : Takes h₁ h₃ block where
  wf := takes.wf
  config := rearranged.config.trans takes.config
  balanced := takes.balanced ∘ rearranged.balanced
  space := by
    intro f additive
    rw [rearranged.space f additive, takes.space f additive]
    simp [noBlock, additive_empty additive]
  sides := by
    intro other side apart
    exact takes.sides other (rearranged.sides other side apart) (rearranged.apart apart)
  blockSide := takes.blockSide
  blockWithin := by
    rw [← rearranged.config.baseAddress, ← rearranged.config.top]
    exact takes.blockWithin

/-! ### Merging into the gap -/

/-- A block left of a bound inside `[left, right]` that avoids this span is left of it. -/
private theorem below_of_avoids {block : HeapChunk} {left bound right : Nat}
    (below : block.Below bound) (inside : bound ≤ right)
    (avoids : ∀ x ∈ Set.Ico block.ptr (block.ptr + block.size), hits x left right = 0) :
    block.Below left := by
  rcases below with empty | below
  · exact Or.inl empty
  · by_contra reaches
    simp only [HeapChunk.Below, not_or, not_le] at reaches
    have last := avoids (block.ptr + block.size - 1) ⟨by omega, by omega⟩
    exact hits_eq_zero.mp last ⟨by omega, by omega⟩

/-- A block right of a bound inside `[left, right]` that avoids this span is right of it. -/
private theorem above_of_avoids {block : HeapChunk} {left bound right : Nat}
    (above : block.Above bound) (inside : left ≤ bound)
    (avoids : ∀ x ∈ Set.Ico block.ptr (block.ptr + block.size), hits x left right = 0) :
    block.Above right := by
  rcases above with empty | above
  · exact Or.inl empty
  · by_contra reaches
    simp only [HeapChunk.Above, not_or, not_le] at reaches
    have first := avoids block.ptr ⟨Nat.le_refl _, by omega⟩
    exact hits_eq_zero.mp first ⟨by omega, reaches.2⟩

private theorem chunk_hit {chunks : List HeapChunk} {c : HeapChunk} (member : c ∈ chunks) {x : Nat}
    (inside : x ∈ Set.Ico c.ptr (c.ptr + c.size)) : 0 < total (hits x) (spans chunks) :=
  total_hits_pos.mpr ⟨c.span, List.mem_map_of_mem member, inside⟩

/-- The free bytes of a well-formed allocator fit its range. -/
theorem Wf.freeLength_le {h : HeapAllocator} (wf : h.Wf) :
    total (fun a b => b - a) h.freeSpans ≤ h.size := by
  have inside : ∀ s ∈ h.freeSpans, h.baseAddress ≤ s.1 ∧ s.2 ≤ h.top := by
    intro s member
    simp only [freeSpans, spans, List.mem_cons, List.mem_append, List.mem_map] at member
    rcases member with rfl | ⟨c, big, rfl⟩ | ⟨c, small, rfl⟩
    · exact ⟨wf.low, wf.high⟩
    · exact ⟨(Nat.le_max_right _ _).trans (wf.bigWithin c big).1, (wf.bigWithin c big).2⟩
    · exact ⟨(Nat.le_max_right _ _).trans (wf.smallWithin c small).1, (wf.smallWithin c small).2⟩
  have bound := total_length_le inside wf.once
  simp only [top] at bound
  omega

theorem balanced_of_space {h h' : HeapAllocator}
    (available : h'.availableSize = h.availableSize)
    (space : ∀ f : Nat → Nat → Nat, Additive f → total f h.freeSpans = total f h'.freeSpans)
    (balanced : h.Balanced) : h'.Balanced := by
  rw [Balanced, available, balanced, space _ length_additive]

/-- `h'` is `h` with the addresses of `block` added to its free space. -/
structure Gives (h h' : HeapAllocator) (block : HeapChunk) : Prop where
  wf : h'.Wf
  config : SameConfig h h'
  space : ∀ f : Nat → Nat → Nat, Additive f → total f h'.freeSpans =
    total f h.freeSpans + f block.ptr (block.ptr + block.size)
  sides : ∀ other, h.OnSide other → h'.Apart other → h'.OnSide other

theorem Wf.once_with {h : HeapAllocator} {block : HeapChunk} (wf : h.Wf) (apart : h.Apart block)
    (x : Nat) : total (hits x) h.freeSpans + hits x block.ptr (block.ptr + block.size) ≤ 1 := by
  have once := wf.once x
  have single := hits_le_one x block.ptr (block.ptr + block.size)
  by_cases inside : x ∈ Set.Ico block.ptr (block.ptr + block.size)
  · have := apart x inside
    omega
  · have := hits_eq_zero.mpr inside
    omega

/-- Moving the bounds apart, over chunks that leave the lists or over a block that is given
back. -/
theorem gives_of_widen {h h' : HeapAllocator} {block : HeapChunk} (wf : h.Wf)
    (config : SameConfig h h') (low : h.baseAddress ≤ h'.pLeftBound)
    (left : h'.pLeftBound ≤ h.pLeftBound) (right : h.pRightBound ≤ h'.pRightBound)
    (high : h'.pRightBound ≤ h.top) (big : h'.freedChunksBig ⊆ h.freedChunksBig)
    (small : h'.freedChunksSmall ⊆ h.freedChunksSmall) (apart : h.Apart block)
    (space : ∀ f : Nat → Nat → Nat, Additive f → total f h'.freeSpans =
      total f h.freeSpans + f block.ptr (block.ptr + block.size)) :
    Gives h h' block := by
  have middle := wf.middle
  have once : ∀ x, total (hits x) h'.freeSpans ≤ 1 := by
    intro x
    rw [space _ (hits_additive x)]
    exact wf.once_with apart x
  have parts : ∀ x, total (hits x) h'.freeSpans = hits x h'.pLeftBound h'.pRightBound +
      (total (hits x) (spans h'.freedChunksBig) + total (hits x) (spans h'.freedChunksSmall)) := by
    intro x
    simp [freeSpans]
  refine ⟨⟨config.baseAddress ▸ low, by omega,
    config.top ▸ high, config.top ▸ wf.fits, ?_, ?_, ?_, ?_, once⟩, config, space, ?_⟩
  · rw [config.lowest, config.top]
    exact fun c member => wf.bigWithin c (big member)
  · rw [config.lowest, config.top]
    exact fun c member => wf.smallWithin c (small member)
  · intro c member
    refine below_of_avoids (wf.bigLeft c (big member))
      (show h.pLeftBound ≤ h'.pRightBound by omega) fun x inside => ?_
    have := once x
    have := parts x
    have := chunk_hit member inside
    omega
  · intro c member
    refine above_of_avoids (wf.smallRight c (small member))
      (show h'.pLeftBound ≤ h.pRightBound by omega) fun x inside => ?_
    have := once x
    have := parts x
    have := chunk_hit member inside
    omega
  · have gap : ∀ other, h'.Apart other → ∀ x ∈ Set.Ico other.ptr (other.ptr + other.size),
        hits x h'.pLeftBound h'.pRightBound = 0 := by
      intro other apart x inside
      have := apart x inside
      have := parts x
      omega
    rintro other (below | above) apart
    · exact Or.inl (below_of_avoids below (by omega) (gap other apart))
    · exact Or.inr (above_of_avoids above (by omega) (gap other apart))

theorem Gives.takes {h h' : HeapAllocator} (gives : Gives h h' noBlock)
    (available : h'.availableSize = h.availableSize) : Takes h h' noBlock := by
  have space : ∀ f : Nat → Nat → Nat, Additive f → total f h.freeSpans = total f h'.freeSpans := by
    intro f additive
    rw [gives.space f additive]
    simp [noBlock, additive_empty additive]
  refine ⟨gives.wf, gives.config, balanced_of_space available space, ?_, ?_,
    onSide_empty _ rfl, by intro nonzero; cases nonzero rfl⟩
  · intro f additive
    rw [space f additive]
    simp [noBlock, additive_empty additive]
  · intro other side apart
    refine gives.sides other side fun x inside => ?_
    rw [← space _ (hits_additive x)]
    exact apart x inside

theorem Gives.after {h₁ h₂ h₃ : HeapAllocator} {block : HeapChunk} (gives : Gives h₁ h₂ block)
    (rearranged : Takes h₂ h₃ noBlock) : Gives h₁ h₃ block := by
  have space : ∀ f : Nat → Nat → Nat, Additive f →
      total f h₂.freeSpans = total f h₃.freeSpans := by
    intro f additive
    rw [rearranged.space f additive]
    simp [noBlock, additive_empty additive]
  refine ⟨rearranged.wf, gives.config.trans rearranged.config, ?_, ?_⟩
  · intro f additive
    rw [← space f additive, gives.space f additive]
  · intro other side apart
    have before : h₂.Apart other := by
      intro x inside
      rw [space _ (hits_additive x)]
      exact apart x inside
    exact rearranged.sides other (gives.sides other side before) before

/-- Moving the bounds apart over chunks that leave the lists only rearranges the free space. -/
theorem takes_of_widen {h h' : HeapAllocator} (wf : h.Wf) (config : SameConfig h h')
    (available : h'.availableSize = h.availableSize)
    (low : h.baseAddress ≤ h'.pLeftBound) (left : h'.pLeftBound ≤ h.pLeftBound)
    (right : h.pRightBound ≤ h'.pRightBound) (high : h'.pRightBound ≤ h.top)
    (big : h'.freedChunksBig ⊆ h.freedChunksBig) (small : h'.freedChunksSmall ⊆ h.freedChunksSmall)
    (space : ∀ f : Nat → Nat → Nat, Additive f → total f h.freeSpans = total f h'.freeSpans) :
    Takes h h' noBlock := by
  refine (gives_of_widen wf config low left right high big small ?_ ?_).takes available
  · intro x inside
    simp [noBlock] at inside
  · intro f additive
    rw [space f additive]
    simp [noBlock, additive_empty additive]

theorem balanced_of_taken {h h' : HeapAllocator} (block : HeapChunk) (wf : h.Wf)
    (available : h'.availableSize = sub64 h.availableSize block.size)
    (space : ∀ f : Nat → Nat → Nat, Additive f → total f h.freeSpans =
      total f h'.freeSpans + f block.ptr (block.ptr + block.size))
    (balanced : h.Balanced) : h'.Balanced := by
  have bound := wf.freeLength_le
  have fits := wf.fits
  have length := space _ length_additive
  simp only [Balanced, top] at *
  rw [available, sub64, Word.sub_eq (by omega) (by omega)]
  omega

/-- Moving the bounds towards each other takes at most a block out of the free space. -/
theorem takes_of_narrow {h h' : HeapAllocator} {block : HeapChunk} (wf : h.Wf)
    (config : SameConfig h h') (balanced : h.Balanced → h'.Balanced)
    (left : h.pLeftBound ≤ h'.pLeftBound) (middle : h'.pLeftBound ≤ h'.pRightBound)
    (right : h'.pRightBound ≤ h.pRightBound)
    (big : ∀ c ∈ h'.freedChunksBig, c.Within h.lowest h.top ∧ c.Below h'.pLeftBound)
    (small : ∀ c ∈ h'.freedChunksSmall, c.Within h.lowest h.top ∧ c.Above h'.pRightBound)
    (space : ∀ f : Nat → Nat → Nat, Additive f → total f h.freeSpans =
      total f h'.freeSpans + f block.ptr (block.ptr + block.size))
    (blockSide : h'.OnSide block) (blockWithin : block.ptr ≠ 0 → block.Within h.baseAddress h.top) :
    Takes h h' block where
  wf :=
    { low := config.baseAddress ▸ Nat.le_trans wf.low left
      middle := middle
      high := config.top ▸ Nat.le_trans right wf.high
      fits := config.top ▸ wf.fits
      bigWithin := by
        rw [config.lowest, config.top]
        exact fun c member => (big c member).1
      smallWithin := by
        rw [config.lowest, config.top]
        exact fun c member => (small c member).1
      bigLeft := fun c member => (big c member).2
      smallRight := fun c member => (small c member).2
      once := by
        intro x
        have := wf.once x
        have := space _ (hits_additive x)
        omega }
  config := config
  balanced := balanced
  space := space
  sides := by
    intro other side _
    simp only [OnSide, HeapChunk.Below, HeapChunk.Above] at *
    omega
  blockSide := blockSide
  blockWithin := blockWithin

/-- Rewriting the chunk lists over the same addresses only rearranges the free space. -/
private theorem takes_of_relist {h h' : HeapAllocator} (wf : h.Wf) (config : SameConfig h h')
    (available : h'.availableSize = h.availableSize) (left : h'.pLeftBound = h.pLeftBound)
    (right : h'.pRightBound = h.pRightBound)
    (big : ∀ c ∈ h'.freedChunksBig, c.Within h.lowest h.top ∧ c.Below h.pLeftBound)
    (small : ∀ c ∈ h'.freedChunksSmall, c.Within h.lowest h.top ∧ c.Above h.pRightBound)
    (space : ∀ f : Nat → Nat → Nat, Additive f → total f h.freeSpans = total f h'.freeSpans) :
    Takes h h' noBlock := by
  have middle := wf.middle
  refine takes_of_narrow wf config (balanced_of_space available space) (by omega) (by omega)
    (by omega) (left ▸ big) (right ▸ small) ?_ (onSide_empty _ rfl) (by intro nonzero; cases nonzero rfl)
  intro f additive
  rw [space f additive]
  simp [noBlock, additive_empty additive]

theorem mergeLastFreedSmall_takes {h : HeapAllocator} (wf : h.Wf) :
    Takes h h.mergeLastFreedSmall noBlock := by
  unfold mergeLastFreedSmall
  split
  next last found =>
    split
    next touches =>
      obtain ⟨init, split⟩ := List.getLast?_eq_some_iff.mp found
      have bound := wf.smallWithin last (by simp [split])
      have fits := wf.fits
      have middle := wf.middle
      simp only [HeapChunk.Within] at bound
      have grown : add64 last.ptr last.size = last.ptr + last.size := Word.add_eq (by omega)
      refine takes_of_widen wf ⟨rfl, rfl, rfl, rfl⟩ rfl wf.low (Nat.le_refl _)
        (by simp only [grown]; omega) (by simp only [grown]; omega) (List.Subset.refl _)
        (List.dropLast_subset _) fun f additive => ?_
      have cut := additive.cut (show h.pLeftBound ≤ last.ptr by omega)
        (show last.ptr ≤ last.ptr + last.size by omega)
      simp only [freeSpans, split, grown, total_cons, total_append, spans_append, spans_cons,
        spans_nil, List.dropLast_concat, total_nil, cut, ← touches]
      omega
    next => exact .refl wf
  next => exact .refl wf

theorem mergeLastFreedBig_takes {h : HeapAllocator} (wf : h.Wf) :
    Takes h h.mergeLastFreedBig noBlock := by
  unfold mergeLastFreedBig
  split
  next last found =>
    split
    next touches =>
      obtain ⟨init, split⟩ := List.getLast?_eq_some_iff.mp found
      have bound := wf.bigWithin last (by simp [split])
      have fits := wf.fits
      have low := wf.low
      have middle := wf.middle
      have high := wf.high
      simp only [HeapChunk.Within] at bound
      have meets : last.ptr + last.size = h.pLeftBound := by
        by_cases short : last.size ≤ h.pLeftBound
        · rw [sub64, Word.sub_eq short (by omega)] at touches
          omega
        · rw [sub64, Word.sub_borrow (by omega) (by omega)] at touches
          omega
      refine takes_of_widen wf ⟨rfl, rfl, rfl, rfl⟩ rfl
        ((Nat.le_max_right _ _).trans bound.1) (by simp only; omega)
        (Nat.le_refl _) high (List.dropLast_subset _) (List.Subset.refl _) fun f additive => ?_
      have cut := additive.cut (show last.ptr ≤ h.pLeftBound by omega) middle
      simp only [freeSpans, split, total_cons, total_append, spans_append, spans_cons,
        spans_nil, List.dropLast_concat, total_nil, cut, meets]
      omega
    next => exact .refl wf
  next => exact .refl wf

/-! ### Defragmentation -/

theorem joins_and {P Q : HeapChunk → Prop} (first : Joins P) (second : Joins Q) :
    Joins fun c => P c ∧ Q c where
  join := fun a b next => ⟨first.join a.1 b.1 next, second.join a.2 b.2 next⟩

theorem defragment_takes {h : HeapAllocator} (wf : h.Wf) : Takes h h.defragment noBlock := by
  have smallSorted : ∀ {h : HeapAllocator}, h.Wf → Takes h
      (if h.freedChunksSmall.length > 1 then
        { h with freedChunksSmall := coalesceAll joinSmall (sortChunks h.freedChunksSmall) }
      else h) noBlock := by
    intro h wf
    split
    next =>
      have spec := coalesceAll_spec (joins_and (joins_within h.lowest h.top)
        (joins_above h.pRightBound)) (joinSmall_sound wf.fits) (sortChunks_perm _)
        wf.smallWithin fun c member => ⟨wf.smallWithin c member, wf.smallRight c member⟩
      refine takes_of_relist wf ⟨rfl, rfl, rfl, rfl⟩ rfl rfl rfl
        (fun c member => ⟨wf.bigWithin c member, wf.bigLeft c member⟩) spec.1 ?_
      intro f additive
      simp only [freeSpans, total_cons, total_append, spec.2 f additive]
    next => exact .refl wf
  have bigSorted : ∀ {h : HeapAllocator}, h.Wf → Takes h
      (if h.freedChunksBig.length > 1 then
        { h with freedChunksBig := coalesceAll joinBig (sortChunks h.freedChunksBig).reverse }
      else h) noBlock := by
    intro h wf
    split
    next =>
      have spec := coalesceAll_spec (joins_and (joins_within h.lowest h.top)
        (joins_below h.pLeftBound)) (joinBig_sound wf.fits)
        ((List.reverse_perm _).trans (sortChunks_perm _))
        wf.bigWithin fun c member => ⟨wf.bigWithin c member, wf.bigLeft c member⟩
      refine takes_of_relist wf ⟨rfl, rfl, rfl, rfl⟩ rfl rfl rfl spec.1
        (fun c member => ⟨wf.smallWithin c member, wf.smallRight c member⟩) ?_
      intro f additive
      simp only [freeSpans, total_cons, total_append, spec.2 f additive]
    next => exact .refl wf
  have first := smallSorted wf
  have second := first.after (mergeLastFreedSmall_takes first.wf)
  have third := second.after (bigSorted second.wf)
  exact third.after (mergeLastFreedBig_takes third.wf)

end HeapAllocator

end ComputeRuntime
