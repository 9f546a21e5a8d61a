import ComputeRuntime.HeapAllocator.Allocate
import ComputeRuntime.HeapAllocator.Free
import ComputeRuntime.Library.Transition

/-! Whole runs of an allocator: any sequence of allocations and frees splits the managed range
into the live blocks, the freed chunks and the gap. -/
namespace ComputeRuntime

open Tiling Transition

namespace HeapAllocator

inductive Call where
  | allocateWithCustomAlignment (sizeToAllocate alignment : Nat)
  | free (block : HeapChunk)
  deriving DecidableEq

/-- An allocator with the blocks its callers hold: each pointer it returned, with the size
written back by that call. -/
structure World where
  heap : HeapAllocator
  live : List HeapChunk
  deriving DecidableEq

/-- The blocks the callers hold after an allocation returned. -/
def liveAfter (live : List HeapChunk) (r : AllocateResult) : List HeapChunk :=
  if r.ptr = 0 then live else ⟨r.ptr, r.sizeToAllocate⟩ :: live

/-- One returning call. Callers ask for power-of-two alignments, or for none, and free what
they hold; a failed allocation may be freed too, which does nothing. -/
inductive World.Step : World → Call → World → Prop where
  | allocate {w : World} {size alignment : Nat} {r : AllocateResult} (fuel : Nat)
      (unwrapped : size + (w.heap.allocationAlignment - 1) < 2 ^ 64)
      (pow2 : alignment = 0 ∨ IsPow2 alignment)
      (returned : w.heap.allocateWithCustomAlignment fuel size alignment = .ok r) :
      Step w (.allocateWithCustomAlignment size alignment) ⟨r.heap, liveAfter w.live r⟩
  | free {w : World} {block : HeapChunk} (held : block ∈ w.live) :
      Step w (.free block) ⟨w.heap.free block.ptr block.size, w.live.erase block⟩
  | freeNull {w : World} {size : Nat} :
      Step w (.free ⟨0, size⟩) ⟨w.heap.free 0 size, w.live⟩

def system (address size allocationAlignment threshold : Nat) : System World Call where
  init := fun w => w = ⟨.create address size allocationAlignment threshold, []⟩
  step := World.Step

/-- A returning call as in `World.Step`, of any number of bytes. -/
inductive World.AnyStep : World → Call → World → Prop where
  | allocate {w : World} {size alignment : Nat} {r : AllocateResult} (fuel : Nat)
      (pow2 : alignment = 0 ∨ IsPow2 alignment)
      (returned : w.heap.allocateWithCustomAlignment fuel size alignment = .ok r) :
      AnyStep w (.allocateWithCustomAlignment size alignment) ⟨r.heap, liveAfter w.live r⟩
  | free {w : World} {block : HeapChunk} (held : block ∈ w.live) :
      AnyStep w (.free block) ⟨w.heap.free block.ptr block.size, w.live.erase block⟩
  | freeNull {w : World} {size : Nat} : AnyStep w (.free ⟨0, size⟩) ⟨w.heap.free 0 size, w.live⟩

def anySystem (address size allocationAlignment threshold : Nat) : System World Call where
  init := fun w => w = ⟨.create address size allocationAlignment threshold, []⟩
  step := World.AnyStep

/-- The range, a request inside it and the alignment together stay inside the address space. -/
def NoWrap (w : World) : Call → Prop
  | .allocateWithCustomAlignment _ alignment =>
    w.heap.baseAddress + 2 * w.heap.size + alignment ≤ 2 ^ 64
  | .free _ => True

/-- What the managed range consists of. -/
def World.pieces (w : World) : List (Nat × Nat) := spans w.live ++ w.heap.freeSpans

/-- The range `[address, address + size)` is split into the live blocks, the freed chunks and
the gap, with the chunks on their own sides, and `availableSize` counts what is free. -/
structure World.Partitioned (address size : Nat) (w : World) : Prop where
  low : address ≤ w.heap.pLeftBound
  middle : w.heap.pLeftBound ≤ w.heap.pRightBound
  high : w.heap.pRightBound ≤ address + size
  disjoint : w.pieces.Pairwise fun s t => Disjoint (Set.Ico s.1 s.2) (Set.Ico t.1 t.2)
  union : ⋃ s ∈ w.pieces, Set.Ico s.1 s.2 = Set.Ico address (address + size)
  bigLeft : ∀ c ∈ w.heap.freedChunksBig, c.Below w.heap.pLeftBound
  smallRight : ∀ c ∈ w.heap.freedChunksSmall, c.Above w.heap.pRightBound
  balanced : w.heap.Balanced

/-- What a run keeps of a range at any address. -/
structure World.Tracked (address size allocationAlignment : Nat) (w : World) : Prop where
  wf : w.heap.Wf
  balanced : w.heap.Balanced
  baseAddress : w.heap.baseAddress = address
  heapSize : w.heap.size = size
  alignment : w.heap.allocationAlignment = allocationAlignment
  nonzero : ∀ b ∈ w.live, b.ptr ≠ 0
  side : ∀ b ∈ w.live, w.heap.OnSide b
  within : ∀ b ∈ w.live, b.Within address (address + size)
  tiles : Tiles w.pieces address (address + size)

/-- The inductive invariant of a run; address 0 stands for a failure, so it is not in the range. -/
structure World.Inv (address size allocationAlignment : Nat) (w : World) : Prop extends
    World.Tracked address size allocationAlignment w where
  positive : 0 < address

section Runs

variable {address size allocationAlignment threshold : Nat} {w : World}

namespace World.Tracked

theorem top (tracked : w.Tracked address size allocationAlignment) :
    w.heap.top = address + size := by
  rw [HeapAllocator.top, tracked.baseAddress, tracked.heapSize]

/-- A block somebody holds is not free. -/
theorem apart (tracked : w.Tracked address size allocationAlignment) {block : HeapChunk}
    (held : block ∈ w.live) : w.heap.Apart block := by
  intro x inside
  have once := hits_le_one x address (address + size)
  rw [← tracked.tiles x, World.pieces, total_append] at once
  have hit : 0 < total (hits x) (spans w.live) :=
    total_hits_pos.mpr ⟨block.span, List.mem_map_of_mem held, inside⟩
  omega

theorem partitioned (tracked : w.Tracked address size allocationAlignment) :
    w.Partitioned address size where
  low := tracked.baseAddress ▸ tracked.wf.low
  middle := tracked.wf.middle
  high := tracked.top ▸ tracked.wf.high
  disjoint := tracked.tiles.disjoint
  union := tracked.tiles.union
  bigLeft := tracked.wf.bigLeft
  smallRight := tracked.wf.smallRight
  balanced := tracked.balanced

/-- No more than the heap is free. -/
theorem available_le (tracked : w.Tracked address size allocationAlignment) :
    w.heap.availableSize ≤ size := by
  have free := tracked.wf.freeLength_le
  have balanced := tracked.balanced
  have heapSize := tracked.heapSize
  simp only [Balanced] at balanced
  omega

theorem create (fits : address + size < 2 ^ 64) :
    World.Tracked address size allocationAlignment
      ⟨.create address size allocationAlignment threshold, []⟩ := by
  have right : add64 address size = address + size := Word.add_eq fits
  refine ⟨⟨Nat.le_refl _, ?_, ?_, fits, by simp [HeapAllocator.create],
    by simp [HeapAllocator.create], by simp [HeapAllocator.create], by simp [HeapAllocator.create],
    ?_⟩, ?_, rfl, rfl, rfl, by simp, by simp, by simp, ?_⟩
  · simp only [HeapAllocator.create, right]
    omega
  · simp only [HeapAllocator.create, right, HeapAllocator.top]
    omega
  · intro x
    simpa [freeSpans, HeapAllocator.create] using hits_le_one x _ _
  · simp [Balanced, freeSpans, HeapAllocator.create, right]
  · intro x
    simp [World.pieces, freeSpans, HeapAllocator.create, right]

/-- Taking a block the caller then holds. -/
theorem take (tracked : w.Tracked address size allocationAlignment) {h : HeapAllocator}
    {block : HeapChunk} (takes : Takes w.heap h block) (nonzero : block.ptr ≠ 0) :
    World.Tracked address size allocationAlignment ⟨h, block :: w.live⟩ where
  wf := takes.wf
  balanced := takes.balanced tracked.balanced
  baseAddress := takes.config.baseAddress.trans tracked.baseAddress
  heapSize := takes.config.size.trans tracked.heapSize
  alignment := takes.config.allocationAlignment.trans tracked.alignment
  nonzero := List.forall_mem_cons.mpr ⟨nonzero, tracked.nonzero⟩
  side := List.forall_mem_cons.mpr ⟨takes.blockSide, fun b held =>
    takes.sides b (tracked.side b held) (tracked.apart held)⟩
  within := List.forall_mem_cons.mpr
    ⟨tracked.top ▸ tracked.baseAddress ▸ takes.blockWithin nonzero, tracked.within⟩
  tiles := by
    intro x
    have space := takes.space (hits x) (hits_additive x)
    rw [← tracked.tiles x]
    simp only [World.pieces, spans_cons, List.cons_append, total_cons, total_append, space]
    omega

/-- Rearranging the free space under the blocks the callers hold. -/
theorem rearrange (tracked : w.Tracked address size allocationAlignment) {h : HeapAllocator}
    (takes : Takes w.heap h noBlock) :
    World.Tracked address size allocationAlignment ⟨h, w.live⟩ where
  wf := takes.wf
  balanced := takes.balanced tracked.balanced
  baseAddress := takes.config.baseAddress.trans tracked.baseAddress
  heapSize := takes.config.size.trans tracked.heapSize
  alignment := takes.config.allocationAlignment.trans tracked.alignment
  nonzero := tracked.nonzero
  side := fun b held => takes.sides b (tracked.side b held) (tracked.apart held)
  within := tracked.within
  tiles := by
    intro x
    have space := takes.space (hits x) (hits_additive x)
    simp only [noBlock, hits_empty, Nat.add_zero] at space
    rw [← tracked.tiles x]
    simp only [World.pieces, total_append, space]

end World.Tracked

/-- The alignment of a request is a power of two, whether the caller names one or not. -/
theorem wanted_pow2 {alignment : Nat} (pow2 : IsPow2 allocationAlignment)
    (asked : alignment = 0 ∨ IsPow2 alignment) : IsPow2 (max alignment allocationAlignment) := by
  rcases asked with rfl | asked
  · rwa [Nat.zero_max]
  · rcases max_choice alignment allocationAlignment with left | right
    · rwa [left]
    · rwa [right]

section Allocate

variable {request alignment fuel : Nat} {r : AllocateResult}
  (tracked : w.Tracked address size allocationAlignment) (pow2 : IsPow2 allocationAlignment)
  (asked : alignment = 0 ∨ IsPow2 alignment)
  (fits : address + 2 * size + allocationAlignment ≤ 2 ^ 64)
  (noWrap : address + 2 * size + alignment ≤ 2 ^ 64)

include tracked pow2 asked fits noWrap

/-- What a returning allocation does that is not served at address 0: it serves the rounded
request or leaves the allocator as it was or defragmented. Up to two megabytes the block has the
wanted alignment. -/
theorem World.Tracked.allocate_cases
    (avoids : w.heap.availableSize < alignUp request allocationAlignment ∨
      w.heap.AvoidsZero (alignUp request allocationAlignment) (max alignment allocationAlignment))
    (returned : w.heap.allocateWithCustomAlignment fuel request alignment = .ok r) :
    (r.ptr = 0 ∧ (r.heap = w.heap ∨ r.heap = w.heap.defragment)) ∨
    ∃ used, (used = max alignment allocationAlignment ∨
        2 * MemoryConstants.megaByte < max alignment allocationAlignment) ∧
      Allocated w.heap (alignUp request allocationAlignment) used r := by
  unfold allocateWithCustomAlignment at returned
  rw [tracked.alignment] at returned
  have wanted : (if alignment < allocationAlignment then allocationAlignment else alignment) =
      max alignment allocationAlignment := by
    split <;> omega
  simp only [wanted] at returned
  split at returned
  next => cases returned
  next =>
    split at returned
    next =>
      cases returned
      exact .inl ⟨rfl, .inl rfl⟩
    next enough =>
      have available := tracked.available_le
      have room : w.heap.top + alignUp request allocationAlignment +
          max alignment allocationAlignment ≤ 2 ^ 64 := by
        rw [tracked.top]
        omega
      rcases allocateLoop_spec fuel tracked.wf (wanted_pow2 pow2 asked) room
        (avoids.resolve_left enough) returned with rfl | ⟨used, _, which, served⟩
      · exact .inl ⟨rfl, .inr rfl⟩
      · exact .inr ⟨used, which, served⟩

/-- A range above address 0 avoids it. -/
theorem World.Tracked.avoidsZero (positive : 0 < address) :
    w.heap.availableSize < alignUp request allocationAlignment ∨
      w.heap.AvoidsZero (alignUp request allocationAlignment)
        (max alignment allocationAlignment) := by
  by_cases enough : w.heap.availableSize < alignUp request allocationAlignment
  · exact .inl enough
  · have available := tracked.available_le
    have room : w.heap.top + alignUp request allocationAlignment +
        max alignment allocationAlignment ≤ 2 ^ 64 := by
      rw [tracked.top]
      omega
    exact .inr (tracked.wf.avoidsZero (wanted_pow2 pow2 asked) room
      (tracked.baseAddress ▸ positive))

theorem World.Tracked.allocate
    (avoids : w.heap.availableSize < alignUp request allocationAlignment ∨
      w.heap.AvoidsZero (alignUp request allocationAlignment) (max alignment allocationAlignment))
    (returned : w.heap.allocateWithCustomAlignment fuel request alignment = .ok r) :
    World.Tracked address size allocationAlignment ⟨r.heap, liveAfter w.live r⟩ := by
  rcases tracked.allocate_cases pow2 asked fits noWrap avoids returned with
    ⟨zero, same⟩ | ⟨_, _, served⟩
  · rw [liveAfter, if_pos zero]
    rcases same with same | moved
    · exact same ▸ tracked
    · exact moved ▸ tracked.rearrange (defragment_takes tracked.wf)
  · rw [liveAfter, if_neg served.nonzero]
    exact tracked.take served.takes served.nonzero

end Allocate

/-- Freeing a block somebody holds gives it back. -/
theorem World.Tracked.gives (tracked : w.Tracked address size allocationAlignment)
    {block : HeapChunk} (held : block ∈ w.live) :
    Gives w.heap (w.heap.free block.ptr block.size) block := by
  have nonzero := tracked.nonzero block held
  have inside := tracked.within block held
  rw [← tracked.top, ← tracked.baseAddress] at inside
  have within : block.Within w.heap.lowest w.heap.top :=
    ⟨Nat.max_le.mpr ⟨Nat.pos_of_ne_zero nonzero, inside.1⟩, inside.2⟩
  exact free_gives tracked.wf (tracked.apart held) within nonzero (tracked.side block held)

theorem World.Tracked.free (tracked : w.Tracked address size allocationAlignment)
    {block : HeapChunk} (held : block ∈ w.live) :
    World.Tracked address size allocationAlignment
      ⟨w.heap.free block.ptr block.size, w.live.erase block⟩ := by
  have nonzero := tracked.nonzero block held
  have perm := List.perm_cons_erase held
  have gives := tracked.gives held
  have tiles : Tiles (spans (w.live.erase block) ++ freeSpans (w.heap.free block.ptr block.size))
      address (address + size) := by
    intro x
    have space := gives.space (hits x) (hits_additive x)
    have before := total_perm (hits x) (spans_perm perm)
    have once := tracked.tiles x
    simp only [World.pieces, total_append, before, spans_cons, total_cons] at once
    rw [total_append, space, ← once]
    omega
  refine ⟨gives.wf, free_balanced tracked.wf nonzero gives tracked.balanced,
    gives.config.baseAddress.trans tracked.baseAddress, gives.config.size.trans tracked.heapSize,
    gives.config.allocationAlignment.trans tracked.alignment,
    fun b other => tracked.nonzero b (List.mem_of_mem_erase other), fun b other => ?_,
    fun b other => tracked.within b (List.mem_of_mem_erase other), tiles⟩
  refine gives.sides b (tracked.side b (List.mem_of_mem_erase other)) fun x inside => ?_
  have once := hits_le_one x address (address + size)
  rw [← tiles x, total_append] at once
  have hit : 0 < total (hits x) (spans (w.live.erase block)) :=
    total_hits_pos.mpr ⟨b.span, List.mem_map_of_mem other, inside⟩
  omega

theorem create_inv (positive : 0 < address) (fits : address + size < 2 ^ 64) :
    World.Inv address size allocationAlignment
      ⟨.create address size allocationAlignment threshold, []⟩ :=
  ⟨.create fits, positive⟩

/-- A returning allocation of a range above address 0. -/
theorem allocate_spec (inv : w.Inv address size allocationAlignment)
    (pow2 : IsPow2 allocationAlignment) {request alignment fuel : Nat} {r : AllocateResult}
    (asked : alignment = 0 ∨ IsPow2 alignment)
    (fits : address + 2 * size + allocationAlignment ≤ 2 ^ 64)
    (noWrap : address + 2 * size + alignment ≤ 2 ^ 64)
    (returned : w.heap.allocateWithCustomAlignment fuel request alignment = .ok r) :
    (r.ptr = 0 ∧ Takes w.heap r.heap noBlock) ∨
    ∃ used, (used = max alignment allocationAlignment ∨
        2 * MemoryConstants.megaByte < max alignment allocationAlignment) ∧
      Allocated w.heap (alignUp request allocationAlignment) used r := by
  rcases inv.toTracked.allocate_cases pow2 asked fits noWrap
    (inv.toTracked.avoidsZero pow2 asked fits noWrap inv.positive) returned with
    ⟨zero, same | moved⟩ | served
  · rw [same]
    exact .inl ⟨zero, .refl inv.wf⟩
  · rw [moved]
    exact .inl ⟨zero, defragment_takes inv.wf⟩
  · exact .inr served

theorem allocate_inv (inv : w.Inv address size allocationAlignment)
    (pow2 : IsPow2 allocationAlignment) {request alignment fuel : Nat} {r : AllocateResult}
    (asked : alignment = 0 ∨ IsPow2 alignment)
    (fits : address + 2 * size + allocationAlignment ≤ 2 ^ 64)
    (noWrap : address + 2 * size + alignment ≤ 2 ^ 64)
    (returned : w.heap.allocateWithCustomAlignment fuel request alignment = .ok r) :
    World.Inv address size allocationAlignment ⟨r.heap, liveAfter w.live r⟩ :=
  ⟨inv.toTracked.allocate pow2 asked fits noWrap
    (inv.toTracked.avoidsZero pow2 asked fits noWrap inv.positive) returned, inv.positive⟩

theorem free_inv (inv : w.Inv address size allocationAlignment) {block : HeapChunk}
    (held : block ∈ w.live) :
    World.Inv address size allocationAlignment
      ⟨w.heap.free block.ptr block.size, w.live.erase block⟩ :=
  ⟨inv.toTracked.free held, inv.positive⟩

theorem system_invariant (positive : 0 < address) (pow2 : IsPow2 allocationAlignment)
    (fits : address + 2 * size + allocationAlignment ≤ 2 ^ 64) :
    Invariant ((system address size allocationAlignment threshold).restrict NoWrap)
      (World.Inv address size allocationAlignment) where
  initial := by
    rintro w rfl
    have := pow2.pos
    exact create_inv positive (by omega)
  preserved := by
    rintro w call w' _ inv ⟨noWrap, step⟩
    cases step with
    | allocate fuel unwrapped asked returned =>
      simp only [NoWrap, inv.baseAddress, inv.heapSize] at noWrap
      exact allocate_inv inv pow2 asked fits noWrap returned
    | free held => exact free_inv inv held
    | freeNull => exact inv

/-- In every state a run reaches, the managed range is split exactly into the live blocks, the
freed chunks and the gap. -/
theorem reachable_partitioned (positive : 0 < address) (pow2 : IsPow2 allocationAlignment)
    (fits : address + 2 * size + allocationAlignment ≤ 2 ^ 64)
    (reachable : Reachable ((system address size allocationAlignment threshold).restrict NoWrap)
      w) : w.Partitioned address size :=
  ((system_invariant positive pow2 fits).holds reachable).partitioned

end Runs

/-- A megabyte of pages at `0x1000`, with requests above four pages taken from the left. -/
def smallRange : HeapAllocator := create 0x1000 0x100000 0x1000 0x4000

/-- `smallRange` after its last page was handed out. -/
def smallRangeUsed : HeapAllocator :=
  { smallRange with
    availableSize := 0xff000
    pRightBound := 0x100000 }

private theorem smallRange_page : World.Step ⟨smallRange, []⟩
    (.allocateWithCustomAlignment 0x1000 0) ⟨smallRangeUsed, [⟨0x100000, 0x1000⟩]⟩ :=
  .allocate (r := ⟨smallRangeUsed, 0x100000, 0x1000⟩) 1 (by decide) (Or.inl rfl) (by decide)

theorem reachable_partitioned_one_page :
    World.Partitioned 0x1000 0x100000 ⟨smallRangeUsed, [⟨0x100000, 0x1000⟩]⟩ := by
  have start : Reachable ((system 0x1000 0x100000 0x1000 0x4000).restrict NoWrap)
      ⟨smallRange, []⟩ := .start rfl
  have noWrap : NoWrap ⟨smallRange, []⟩ (.allocateWithCustomAlignment 0x1000 0) := by
    simp [NoWrap, smallRange, create]
  exact reachable_partitioned (by decide) ⟨12, by decide, rfl⟩ (by decide)
    (start.next ⟨noWrap, smallRange_page⟩)

/-- Two limits of a bare allocator. A request of no bytes can leave
an empty chunk of the small list below `pRightBound`; an alignment so large that aligning the
left bound up wraps around hands out a block below the range. -/
theorem empty_request_and_wrapping_alignment :
    (∃ w, Reachable (system 0x1000 0x100000 0x1000 0x4000) w ∧
      ∃ c ∈ w.heap.freedChunksSmall, c.ptr < w.heap.pRightBound) ∧
    ∃ w, Reachable (system (2 ^ 63 + 0x100000) 0x100000 0x1000 0) w ∧
      ∃ b ∈ w.live, b.ptr < w.heap.baseAddress := by
  constructor
  · have start : Reachable (system 0x1000 0x100000 0x1000 0x4000) ⟨smallRange, []⟩ := .start rfl
    have empty : World.Step ⟨smallRangeUsed, [⟨0x100000, 0x1000⟩]⟩
        (.allocateWithCustomAlignment 0 0)
        ⟨smallRangeUsed, [⟨0x100000, 0⟩, ⟨0x100000, 0x1000⟩]⟩ :=
      .allocate (r := ⟨smallRangeUsed, 0x100000, 0⟩) 1 (by decide) (Or.inl rfl) (by decide)
    have freePage : World.Step ⟨smallRangeUsed, [⟨0x100000, 0⟩, ⟨0x100000, 0x1000⟩]⟩
        (.free ⟨0x100000, 0x1000⟩)
        ⟨smallRangeUsed.free 0x100000 0x1000, [⟨0x100000, 0⟩]⟩ := .free (by decide)
    have freeEmpty : World.Step ⟨smallRangeUsed.free 0x100000 0x1000, [⟨0x100000, 0⟩]⟩
        (.free ⟨0x100000, 0⟩)
        ⟨(smallRangeUsed.free 0x100000 0x1000).free 0x100000 0, []⟩ := .free (by decide)
    exact ⟨_, (((start.next smallRange_page).next empty).next freePage).next freeEmpty,
      ⟨0x100000, 0⟩, by decide, by decide⟩
  · have start : Reachable (system (2 ^ 63 + 0x100000) 0x100000 0x1000 0)
        ⟨create (2 ^ 63 + 0x100000) 0x100000 0x1000 0, []⟩ := .start rfl
    have wrapped : World.Step ⟨create (2 ^ 63 + 0x100000) 0x100000 0x1000 0, []⟩
        (.allocateWithCustomAlignment 0x1000 (2 ^ 63)) _ :=
      .allocate (r := ⟨{ (create (2 ^ 63 + 0x100000) 0x100000 0x1000 0) with
          availableSize := 0xff000
          pLeftBound := 2 ^ 63 + 0x1000
          freedChunksBig := [⟨2 ^ 63 + 0x100000, 2 ^ 63 - 0x100000⟩, ⟨0x1000, 2 ^ 63 - 0x1000⟩] },
        2 ^ 63, 0x1000⟩) 2 (by decide) (Or.inr ⟨63, by decide, rfl⟩) (by decide)
    exact ⟨_, start.next wrapped, ⟨2 ^ 63, 0x1000⟩, by decide, by decide⟩

end HeapAllocator

end ComputeRuntime
