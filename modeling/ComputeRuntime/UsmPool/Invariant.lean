import ComputeRuntime.UsmPool.Model

/-! The invariant of a pool of unified memory: the sorted vector lists the blocks the callers hold,
and the chunk allocator splits the pool into those blocks and what is free. -/
namespace ComputeRuntime

open Tiling Transition

namespace UsmMemAllocPool

open BaseSortedPointerWithValueVector

/-- A block a caller holds: what it asked for and the chunk it got. -/
structure PooledBlock where
  base : Nat
  actualSize : Nat
  requestedSize : Nat
  alignment : Nat
  deriving DecidableEq

namespace PooledBlock

def chunk (b : PooledBlock) : HeapChunk := ⟨b.base, b.actualSize⟩

/-- The element of the sorted vector for a block. -/
def entry (b : PooledBlock) : PointerPair AllocationInfo :=
  (b.base, ⟨b.base, b.actualSize, b.requestedSize⟩)

/-- The addresses of a block. -/
abbrev addresses (b : PooledBlock) : Set Nat := Set.Ico b.base (b.base + b.actualSize)

/-- A block that is as large and as aligned as it was asked to be. -/
structure Fits (b : PooledBlock) : Prop where
  aligned : b.alignment = 0 ∨ b.alignment ∣ b.base
  enough : b.requestedSize ≤ b.actualSize
  chunked : chunkAlignment ≤ b.actualSize

end PooledBlock

/-- A pool with the blocks its callers hold. -/
structure World where
  pool : UsmMemAllocPool
  live : List PooledBlock
  deriving DecidableEq

/-- The bookkeeping of a pool at `ptr` is right: the blocks in use are apart, inside the pool and
as they were asked for, every address is looked up in the block around it, exactly the bases can
be freed, and the search through the vector finds what a scan finds. -/
structure World.Sound (ptr size : Nat) (w : World) : Prop where
  disjoint : w.live.Pairwise fun a b => Disjoint a.addresses b.addresses
  inside : ∀ b ∈ w.live,
    ptr ≤ b.base ∧ b.base < ptr + size ∧ b.base + b.actualSize ≤ ptr + size
  aligned : ∀ b ∈ w.live, b.alignment = 0 ∨ b.alignment ∣ b.base
  enough : ∀ b ∈ w.live, b.requestedSize ≤ b.actualSize
  found : ∀ b ∈ w.live, ∀ p ∈ b.addresses,
    w.pool.getPooledAllocationBasePtr p = b.base ∧
      w.pool.getPooledAllocationSize p = b.requestedSize
  notFound : ∀ p, (∀ b ∈ w.live, p ∉ b.addresses) →
    w.pool.getPooledAllocationBasePtr p = 0 ∧ w.pool.getPooledAllocationSize p = 0
  freed : ∀ p, (w.pool.freeSVMAlloc p).2 = true ↔ ∃ b ∈ w.live, b.base = p
  searched : ∀ allowOffset p,
    getImpl AllocationInfo.size allowOffset p w.pool.allocations =
      scan AllocationInfo.size allowOffset p w.pool.allocations

/-- The inductive invariant of a run. -/
structure World.Inv (ptr size maxServicedSize : Nat) (w : World) : Prop where
  pool : w.pool.pool = ptr
  poolEnd : w.pool.poolEnd = ptr + size
  maxServiced : w.pool.maxServicedSize = maxServicedSize
  heap : HeapAllocator.World.Inv ptr size chunkAlignment
    ⟨w.pool.chunkAllocator, w.live.map PooledBlock.chunk⟩
  entries : w.pool.allocations.Perm (w.live.map PooledBlock.entry)
  sorted : Sorted w.pool.allocations
  blocks : ∀ b ∈ w.live, b.Fits

theorem isPow2_chunkAlignment : IsPow2 chunkAlignment := ⟨9, by decide, by decide⟩

section Invariants

variable {ptr size maxServicedSize : Nat} {w : World}

theorem World.Inv.ptr_pos (inv : w.Inv ptr size maxServicedSize) : 0 < ptr :=
  inv.heap.positive

theorem World.Inv.top_lt (inv : w.Inv ptr size maxServicedSize) : ptr + size < 2 ^ 64 :=
  inv.heap.top ▸ inv.heap.wf.fits

theorem World.Inv.within (inv : w.Inv ptr size maxServicedSize) {b : PooledBlock}
    (held : b ∈ w.live) : ptr ≤ b.base ∧ b.base + b.actualSize ≤ ptr + size :=
  inv.heap.within b.chunk (List.mem_map_of_mem held)

theorem chunks_disjoint {live : List PooledBlock} {h : HeapAllocator}
    (heap : HeapAllocator.World.Inv ptr size chunkAlignment ⟨h, live.map PooledBlock.chunk⟩) :
    live.Pairwise fun a b => Disjoint a.addresses b.addresses := by
  have all := heap.tiles.disjoint
  have held := (List.pairwise_append.mp all).1
  rw [spans, List.map_map, List.pairwise_map] at held
  exact held

/-- Of two blocks apart from each other, the one that starts first ends first. -/
theorem le_of_disjoint {a b : PooledBlock} (disjoint : Disjoint a.addresses b.addresses)
    (fits : b.Fits) (lt : a.base < b.base) : a.base + a.actualSize ≤ b.base := by
  by_contra overlap
  have chunked := fits.chunked
  simp only [chunkAlignment] at chunked
  have inFirst : b.base ∈ a.addresses := ⟨by omega, by omega⟩
  have inSecond : b.base ∈ b.addresses := ⟨by omega, by omega⟩
  exact Set.disjoint_left.mp disjoint inFirst inSecond

theorem World.Inv.entry_mem (inv : w.Inv ptr size maxServicedSize)
    {a : PointerPair AllocationInfo} :
    a ∈ w.pool.allocations ↔ ∃ b ∈ w.live, b.entry = a := by
  rw [inv.entries.mem_iff, List.mem_map]

theorem World.Inv.separated (inv : w.Inv ptr size maxServicedSize) :
    Separated AllocationInfo.size w.pool.allocations := by
  have top := inv.top_lt
  constructor
  · intro a member
    obtain ⟨b, held, rfl⟩ := inv.entry_mem.mp member
    have bound := (inv.within held).2
    simp only [PooledBlock.entry]
    omega
  · refine List.Pairwise.imp_of_mem ?_ inv.sorted
    intro a b first second lt
    obtain ⟨a, heldA, rfl⟩ := inv.entry_mem.mp first
    obtain ⟨b, heldB, rfl⟩ := inv.entry_mem.mp second
    refine ⟨lt, le_of_disjoint ?_ (inv.blocks b heldB) lt⟩
    have different : a ≠ b := by
      rintro rfl
      exact Nat.lt_irrefl _ lt
    have symm : Std.Symm fun a b : PooledBlock => Disjoint a.addresses b.addresses :=
      ⟨fun _ _ disjoint => disjoint.symm⟩
    exact (chunks_disjoint inv.heap).forall heldA heldB different

/-- Every block takes a chunk of the pool. -/
theorem World.Inv.length_le (inv : w.Inv ptr size maxServicedSize) :
    chunkAlignment * w.live.length ≤ size := by
  have inside : ∀ s ∈ spans (w.live.map PooledBlock.chunk), ptr ≤ s.1 ∧ s.2 ≤ ptr + size := by
    intro s member
    obtain ⟨c, held, rfl⟩ := List.mem_map.mp member
    exact inv.heap.within c held
  have once : ∀ x, total (hits x) (spans (w.live.map PooledBlock.chunk)) ≤ 1 := by
    intro x
    have whole := hits_le_one x ptr (ptr + size)
    rw [← inv.heap.tiles x, HeapAllocator.World.pieces, total_append] at whole
    exact Nat.le_trans (Nat.le_add_right _ _) whole
  have bound := total_length_le inside once
  have each : ∀ live : List PooledBlock, (∀ b ∈ live, b.Fits) →
      chunkAlignment * live.length ≤
        total (fun a b => b - a) (spans (live.map PooledBlock.chunk)) := by
    intro live fits
    induction live with
    | nil => simp
    | cons b rest ih =>
      have tail := ih fun c held => fits c (List.mem_cons_of_mem _ held)
      have chunked := (fits b (by simp)).chunked
      rw [List.map_cons, List.length_cons, spans_cons, total_cons, Nat.mul_succ]
      simp only [PooledBlock.chunk] at tail ⊢
      omega
  have sum := each w.live inv.blocks
  omega

theorem World.Inv.searchable (inv : w.Inv ptr size maxServicedSize) (small : size ≤ 2 ^ 39) :
    Searchable AllocationInfo.size w.pool.allocations where
  separated := inv.separated
  nonnull := by
    intro a member
    obtain ⟨b, held, rfl⟩ := inv.entry_mem.mp member
    have low := (inv.within held).1
    have positive := inv.ptr_pos
    simp only [PooledBlock.entry]
    omega
  short := by
    have count := inv.length_le
    have same := inv.entries.length_eq
    rw [List.length_map] at same
    simp only [chunkAlignment] at count
    omega

/-! ### Lookups -/

theorem World.Inv.inPool (inv : w.Inv ptr size maxServicedSize) {b : PooledBlock}
    (held : b ∈ w.live) {p : Nat} (inside : p ∈ b.addresses) :
    w.pool.isInitialized = true ∧ w.pool.isInPool p = true := by
  have positive := inv.ptr_pos
  have bound := inv.within held
  have low := inside.1
  have high := inside.2
  constructor
  · simp only [isInitialized, inv.pool, decide_eq_true_eq]
    omega
  · simp only [isInPool, inv.pool, inv.poolEnd, decide_eq_true_eq]
    omega

theorem PooledBlock.Fits.base_mem {b : PooledBlock} (fits : b.Fits) : b.base ∈ b.addresses := by
  have chunked := fits.chunked
  simp only [chunkAlignment] at chunked
  exact ⟨Nat.le_refl _, by omega⟩

theorem World.Inv.get_of_mem (inv : w.Inv ptr size maxServicedSize) (small : size ≤ 2 ^ 39)
    {b : PooledBlock} (held : b ∈ w.live) {p : Nat} (inside : p ∈ b.addresses) :
    get AllocationInfo.size p w.pool.allocations = some b.entry.2 :=
  BaseSortedPointerWithValueVector.get_of_mem (inv.searchable small)
    (inv.entry_mem.mpr ⟨b, held, rfl⟩) inside

theorem World.Inv.get_eq_none (inv : w.Inv ptr size maxServicedSize) (small : size ≤ 2 ^ 39)
    {p : Nat} (absent : ∀ b ∈ w.live, p ∉ b.addresses) :
    get AllocationInfo.size p w.pool.allocations = none := by
  apply BaseSortedPointerWithValueVector.get_eq_none (inv.searchable small)
  intro a member
  obtain ⟨b, held, rfl⟩ := inv.entry_mem.mp member
  refine ⟨?_, absent b held⟩
  rintro rfl
  exact absent b held (inv.blocks b held).base_mem

/-- A free of the base of a block takes its chunk and its element back. -/
theorem World.Inv.free_of_mem (inv : w.Inv ptr size maxServicedSize) (small : size ≤ 2 ^ 39)
    {b : PooledBlock} (held : b ∈ w.live) :
    ∃ rest, w.pool.freeSVMAlloc b.base =
        ({ w.pool with
            allocations := rest
            chunkAllocator := w.pool.chunkAllocator.free b.base b.actualSize }, true) ∧
      w.pool.allocations.Perm (b.entry :: rest) ∧ rest.Sublist w.pool.allocations := by
  obtain ⟨rest, extracted, perm, sub⟩ :=
    extract_of_mem (inv.searchable small) (inv.entry_mem.mpr ⟨b, held, rfl⟩)
  refine ⟨rest, ?_, perm, sub⟩
  have there := inv.inPool held (inv.blocks b held).base_mem
  unfold freeSVMAlloc
  rw [if_pos there]
  simp only [show b.base = b.entry.1 from rfl, extracted]
  rfl

/-- A free of any other pointer does nothing. -/
theorem World.Inv.free_absent (inv : w.Inv ptr size maxServicedSize) (small : size ≤ 2 ^ 39)
    {p : Nat} (absent : ∀ b ∈ w.live, b.base ≠ p) : w.pool.freeSVMAlloc p = (w.pool, false) := by
  have missing : extract AllocationInfo.size p w.pool.allocations = (none, w.pool.allocations) := by
    apply extract_eq_none (inv.searchable small)
    intro a member
    obtain ⟨b, held, rfl⟩ := inv.entry_mem.mp member
    exact absent b held
  unfold freeSVMAlloc
  split
  · simp only [missing]
  · rfl

theorem World.Inv.sound (inv : w.Inv ptr size maxServicedSize) (small : size ≤ 2 ^ 39) :
    w.Sound ptr size where
  disjoint := chunks_disjoint inv.heap
  inside := by
    intro b held
    have bound := inv.within held
    have chunked := (inv.blocks b held).chunked
    simp only [chunkAlignment] at chunked
    omega
  aligned := fun b held => (inv.blocks b held).aligned
  enough := fun b held => (inv.blocks b held).enough
  found := by
    intro b held p inside
    have there := inv.inPool held inside
    have hit := inv.get_of_mem small held inside
    constructor
    · simp only [getPooledAllocationBasePtr, if_pos there, hit]
      rfl
    · simp only [getPooledAllocationSize, if_pos there, hit]
      rfl
  notFound := by
    intro p absent
    have miss := inv.get_eq_none small absent
    constructor
    · simp only [getPooledAllocationBasePtr, miss, ite_self]
    · simp only [getPooledAllocationSize, miss, ite_self]
  freed := by
    intro p
    constructor
    · intro freed
      by_contra absent
      push Not at absent
      rw [inv.free_absent small absent] at freed
      cases freed
    · rintro ⟨b, held, rfl⟩
      obtain ⟨rest, taken, -⟩ := inv.free_of_mem small held
      rw [taken]
  searched := fun _ _ => getImpl_eq_scan (inv.searchable small)

end Invariants

end UsmMemAllocPool

end ComputeRuntime
