import ComputeRuntime.UsmPool.Invariant

/-! Whole runs of a pool of unified memory: any sequence of allocations, frees of any pointers and
queries keeps the vector of chunks in step with the blocks the callers hold. -/
namespace ComputeRuntime

open Tiling Transition

namespace UsmMemAllocPool

open BaseSortedPointerWithValueVector

inductive Call where
  | createUnifiedMemoryAllocation (requestedSize : Nat) (memoryProperties : UnifiedMemoryProperties)
  | freeSVMAlloc (ptr : Nat)
  | getPooledAllocationSize (ptr : Nat)
  | getPooledAllocationBasePtr (ptr : Nat)
  deriving DecidableEq

/-- The blocks the callers hold after a request. -/
def liveAfter (live : List PooledBlock) (requestedSize alignment : Nat) (r : CreateResult) :
    List PooledBlock :=
  if r.pooledPtr = 0 then live
  else ⟨r.pooledPtr, r.actualSize, requestedSize, alignment⟩ :: live

/-- The blocks the callers hold after a free, which gives back a block when it says so. -/
def liveAfterFree (live : List PooledBlock) (ptr : Nat) (freed : Bool) : List PooledBlock :=
  if freed then live.eraseP fun b => b.base = ptr else live

/-- One returning call. Any pointer may be freed or asked about. -/
inductive World.Step : World → Call → World → Prop where
  | create {w : World} {requestedSize : Nat} {memoryProperties : UnifiedMemoryProperties}
      {r : CreateResult} (fuel : Nat)
      (returned :
        w.pool.createUnifiedMemoryAllocation fuel requestedSize memoryProperties = .ok r) :
      Step w (.createUnifiedMemoryAllocation requestedSize memoryProperties)
        ⟨r.pool, liveAfter w.live requestedSize memoryProperties.alignment r⟩
  | free {w : World} {ptr : Nat} :
      Step w (.freeSVMAlloc ptr)
        ⟨(w.pool.freeSVMAlloc ptr).1, liveAfterFree w.live ptr (w.pool.freeSVMAlloc ptr).2⟩
  | size {w : World} {ptr : Nat} : Step w (.getPooledAllocationSize ptr) w
  | basePtr {w : World} {ptr : Nat} : Step w (.getPooledAllocationBasePtr ptr) w

/-- The call that returns, with two rounds for the chunk allocator. -/
def World.run (w : World) : Call → Option World
  | .createUnifiedMemoryAllocation requestedSize memoryProperties =>
    match w.pool.createUnifiedMemoryAllocation 2 requestedSize memoryProperties with
    | .ok r => some ⟨r.pool, liveAfter w.live requestedSize memoryProperties.alignment r⟩
    | .error _ => none
  | .freeSVMAlloc ptr =>
    some ⟨(w.pool.freeSVMAlloc ptr).1, liveAfterFree w.live ptr (w.pool.freeSVMAlloc ptr).2⟩
  | .getPooledAllocationSize _ => some w
  | .getPooledAllocationBasePtr _ => some w

theorem World.run_step {w w' : World} {call : Call} (ran : w.run call = some w') :
    World.Step w call w' := by
  cases call with
  | createUnifiedMemoryAllocation requestedSize memoryProperties =>
    simp only [World.run] at ran
    split at ran
    next returned =>
      cases ran
      exact .create 2 returned
    next => cases ran
  | freeSVMAlloc ptr =>
    cases ran
    exact .free
  | getPooledAllocationSize ptr =>
    cases ran
    exact .size
  | getPooledAllocationBasePtr ptr =>
    cases ran
    exact .basePtr

def system (ptr size : Nat) (memoryType : InternalMemoryType)
    (minServicedSize maxServicedSize : Nat) : System World Call where
  init := fun w => w = ⟨initializePool ptr size memoryType minServicedSize maxServicedSize, []⟩
  step := World.Step

/-- What the callers of a pool keep to: no empty requests, and alignments that are powers of two or
not given. -/
def Promised (_ : World) : Call → Prop
  | .createUnifiedMemoryAllocation requestedSize memoryProperties =>
    0 < requestedSize ∧ (memoryProperties.alignment = 0 ∨ IsPow2 memoryProperties.alignment)
  | _ => True

instance : DecidablePred IsPow2 := fun alignment =>
  inferInstanceAs (Decidable (∃ k < 64, alignment = 2 ^ k))

instance (w : World) (call : Call) : Decidable (Promised w call) :=
  match call with
  | .createUnifiedMemoryAllocation requestedSize memoryProperties =>
    inferInstanceAs (Decidable (0 < requestedSize ∧
      (memoryProperties.alignment = 0 ∨ IsPow2 memoryProperties.alignment)))
  | .freeSVMAlloc _ => .isTrue trivial
  | .getPooledAllocationSize _ => .isTrue trivial
  | .getPooledAllocationBasePtr _ => .isTrue trivial

section Steps

variable {ptr size maxServicedSize : Nat} {w : World}

theorem initial_inv (positive : 0 < ptr) (fits : ptr + size < 2 ^ 64)
    {memoryType : InternalMemoryType} {minServicedSize : Nat} :
    World.Inv ptr size maxServicedSize
      ⟨initializePool ptr size memoryType minServicedSize maxServicedSize, []⟩ where
  pool := rfl
  poolEnd := Word.add_eq fits
  maxServiced := rfl
  heap := HeapAllocator.create_inv positive fits
  entries := .refl _
  sorted := .nil
  blocks := by simp

/-- A chunk of the right size and alignment becomes a block. -/
theorem World.Inv.hold (inv : w.Inv ptr size maxServicedSize) {h : HeapAllocator} {b : PooledBlock}
    (takes : HeapAllocator.Takes w.pool.chunkAllocator h b.chunk) (nonzero : b.base ≠ 0)
    (fits : b.Fits) :
    World.Inv ptr size maxServicedSize
      ⟨{ w.pool with
          chunkAllocator := h
          allocations := insert b.base b.entry.2 w.pool.allocations }, b :: w.live⟩ := by
  have heap : HeapAllocator.World.Inv ptr size chunkAlignment
      ⟨h, (b :: w.live).map PooledBlock.chunk⟩ := ⟨inv.heap.take takes nonzero, inv.heap.positive⟩
  have apart := (List.pairwise_cons.mp (chunks_disjoint heap)).1
  have fresh : ∀ a ∈ w.pool.allocations, a.1 ≠ b.base := by
    intro a member same
    obtain ⟨other, held, rfl⟩ := inv.entry_mem.mp member
    have base : other.base = b.base := same
    have common := (inv.blocks other held).base_mem
    rw [base] at common
    exact Set.disjoint_left.mp (apart other held) fits.base_mem common
  constructor
  · exact inv.pool
  · exact inv.poolEnd
  · exact inv.maxServiced
  · exact heap
  · exact (insert_perm _ _ _).trans (inv.entries.cons _)
  · exact insert_sorted inv.sorted fresh
  · exact List.forall_mem_cons.mpr ⟨fits, inv.blocks⟩

theorem create_inv (inv : w.Inv ptr size maxServicedSize)
    (fits : ptr + 2 * size + poolAlignment ≤ 2 ^ 64)
    (serviced : maxServicedSize + chunkAlignment ≤ 2 ^ 64) {fuel requestedSize : Nat}
    {memoryProperties : UnifiedMemoryProperties} {r : CreateResult} (asked : 0 < requestedSize)
    (pow2 : memoryProperties.alignment = 0 ∨ IsPow2 memoryProperties.alignment)
    (returned : w.pool.createUnifiedMemoryAllocation fuel requestedSize memoryProperties = .ok r) :
    World.Inv ptr size maxServicedSize
      ⟨r.pool, liveAfter w.live requestedSize memoryProperties.alignment r⟩ := by
  rcases createUnifiedMemoryAllocation_ok returned with rfl | ⟨-, pooled, chunk, found, rest⟩
  · exact inv
  · simp only [canBePooled, sizeIsAllowed, alignmentIsAllowed, decide_eq_true_eq, inv.maxServiced]
      at pooled
    obtain ⟨⟨-, le⟩, ⟨-, top⟩, -⟩ := pooled
    have wide : poolAlignment = 2 * MemoryConstants.megaByte := rfl
    have step : chunkAlignment ≤ poolAlignment := by decide
    have positive := isPow2_chunkAlignment.pos
    have unwrapped : requestedSize + (chunkAlignment - 1) < 2 ^ 64 := by omega
    rcases HeapAllocator.allocate_spec inv.heap isPow2_chunkAlignment pow2 (by omega) (by omega)
        found with ⟨zero, takes⟩ | ⟨used, which, served⟩
    · rcases rest with ⟨-, rfl⟩ | ⟨nonzero, -⟩
      · exact ⟨inv.pool, inv.poolEnd, inv.maxServiced, ⟨inv.heap.rearrange takes, inv.heap.positive⟩, inv.entries,
          inv.sorted, inv.blocks⟩
      · exact absurd zero nonzero
    · rcases rest with ⟨zero, -⟩ | ⟨nonzero, rfl⟩
      · exact absurd zero served.nonzero
      · rw [liveAfter, if_neg nonzero]
        have least := le_alignUp isPow2_chunkAlignment unwrapped
        have whole := alignUp_dvd isPow2_chunkAlignment unwrapped
        have enough := served.enough
        have chunked : chunkAlignment ≤ alignUp requestedSize chunkAlignment :=
          Nat.le_of_dvd (by omega) whole
        refine inv.hold (b := ⟨chunk.ptr, chunk.sizeToAllocate, requestedSize,
          memoryProperties.alignment⟩) served.takes nonzero
          ⟨?_, Nat.le_trans least enough, Nat.le_trans chunked enough⟩
        have whichOne : used = max memoryProperties.alignment chunkAlignment := by omega
        rcases pow2 with none | pow2
        · exact .inl none
        · right
          refine dvd_trans ?_ served.aligned
          rw [whichOne]
          rcases max_choice memoryProperties.alignment chunkAlignment with left | right
          · rw [left]
          · rw [right]
            exact pow2.dvd isPow2_chunkAlignment (by omega)

theorem free_inv (inv : w.Inv ptr size maxServicedSize) (small : size ≤ 2 ^ 39) (p : Nat) :
    World.Inv ptr size maxServicedSize
      ⟨(w.pool.freeSVMAlloc p).1, liveAfterFree w.live p (w.pool.freeSVMAlloc p).2⟩ := by
  by_cases present : ∃ b ∈ w.live, b.base = p
  · obtain ⟨b, held, found⟩ := present
    obtain ⟨a, front, back, before, same, split, erased⟩ :=
      List.exists_of_eraseP (p := fun c : PooledBlock => c.base = p) held (by simp [found])
    obtain rfl : a.base = p := by simpa using same
    have heldA : a ∈ w.live := split ▸ by simp
    obtain ⟨rest, taken, perm, sub⟩ := inv.free_of_mem small heldA
    rw [taken, liveAfterFree, if_pos rfl, erased]
    have fresh : a.chunk ∉ front.map PooledBlock.chunk := by
      intro member
      obtain ⟨c, early, chunk⟩ := List.mem_map.mp member
      have equal : c.base = a.base := congrArg HeapChunk.ptr chunk
      exact before c early (by simp [equal])
    have member : a.chunk ∈ w.live.map PooledBlock.chunk := List.mem_map_of_mem heldA
    have heap := HeapAllocator.free_inv inv.heap member
    simp only [split, List.map_append, List.map_cons, List.erase_append_right _ fresh,
      List.erase_cons_head] at heap
    rw [← List.map_append] at heap
    constructor
    · exact inv.pool
    · exact inv.poolEnd
    · exact inv.maxServiced
    · exact heap
    · have entries := inv.entries
      rw [split, List.map_append, List.map_cons] at entries
      rw [List.map_append]
      exact (perm.symm.trans (entries.trans List.perm_middle)).cons_inv
    · exact inv.sorted.sublist sub
    · intro c other
      exact inv.blocks c (split ▸ by
        rcases List.mem_append.mp other with early | late
        · exact List.mem_append_left _ early
        · exact List.mem_append_right _ (List.mem_cons_of_mem _ late))
  · push Not at present
    rw [inv.free_absent small present]
    exact inv

end Steps

theorem system_invariant {ptr size minServicedSize maxServicedSize : Nat}
    {memoryType : InternalMemoryType} (positive : 0 < ptr)
    (fits : ptr + 2 * size + poolAlignment ≤ 2 ^ 64) (small : size ≤ 2 ^ 39)
    (serviced : maxServicedSize + chunkAlignment ≤ 2 ^ 64) :
    Invariant ((system ptr size memoryType minServicedSize maxServicedSize).restrict Promised)
      (World.Inv ptr size maxServicedSize) where
  initial := by
    rintro w rfl
    have wide : 0 < poolAlignment := by decide
    exact initial_inv positive (by omega)
  preserved := by
    rintro w call w' _ inv ⟨promised, step⟩
    cases step with
    | create fuel returned => exact create_inv inv fits serviced promised.1 promised.2 returned
    | free => exact free_inv inv small _
    | size => exact inv
    | basePtr => exact inv

/-- A pool answers every request. -/
theorem World.Inv.returns {ptr size maxServicedSize : Nat} {w : World}
    (inv : w.Inv ptr size maxServicedSize) (requestedSize : Nat)
    (memoryProperties : UnifiedMemoryProperties) :
    ∃ r, w.pool.createUnifiedMemoryAllocation 2 requestedSize memoryProperties = .ok r := by
  unfold createUnifiedMemoryAllocation
  split
  · exact ⟨_, rfl⟩
  · split
    · exact ⟨_, rfl⟩
    next pooled =>
      simp only [Bool.not_eq_false, canBePooled, alignmentIsAllowed, decide_eq_true_eq] at pooled
      obtain ⟨-, ⟨whole, top⟩, -⟩ := pooled
      have served : ∃ r, w.pool.chunkAllocator.allocateWithCustomAlignment 2 requestedSize
          memoryProperties.alignment = .ok r := by
        have alignment : w.pool.chunkAllocator.allocationAlignment = chunkAlignment :=
          inv.heap.alignment
        unfold HeapAllocator.allocateWithCustomAlignment
        rw [alignment]
        have moderate : (if memoryProperties.alignment < chunkAlignment then chunkAlignment
            else memoryProperties.alignment) ≤ 2 * MemoryConstants.megaByte := by
          split
          · decide
          · exact top
        have multiple : (if memoryProperties.alignment < chunkAlignment then chunkAlignment
            else memoryProperties.alignment) % chunkAlignment = 0 := by
          split
          · exact Nat.mod_self _
          · exact whole
        simp only [multiple, ne_eq, not_true_eq_false, if_false]
        split
        · exact ⟨_, rfl⟩
        · exact HeapAllocator.allocateLoop_returns _ 0 _ moderate
      obtain ⟨r, served⟩ := served
      rw [served]
      simp only [bind, Except.bind]
      split
      · exact ⟨_, rfl⟩
      · exact ⟨_, rfl⟩

/-- In every state a run of a pool of at most half a terabyte reaches, the bookkeeping is right, and
the next request returns. -/
theorem reachable_allocations_sound {ptr size minServicedSize maxServicedSize : Nat}
    {memoryType : InternalMemoryType} (positive : 0 < ptr)
    (fits : ptr + 2 * size + poolAlignment ≤ 2 ^ 64) (small : size ≤ 2 ^ 39)
    (serviced : maxServicedSize + chunkAlignment ≤ 2 ^ 64) {w : World}
    (reachable : Reachable
      ((system ptr size memoryType minServicedSize maxServicedSize).restrict Promised) w) :
    w.Sound ptr size ∧ ∀ requestedSize memoryProperties,
      ∃ r, w.pool.createUnifiedMemoryAllocation 2 requestedSize memoryProperties = .ok r := by
  have inv := (system_invariant positive fits small serviced).holds reachable
  exact ⟨inv.sound small, inv.returns⟩

/-- Requests for host memory. -/
def hostRequest (size alignment : Nat) : Call :=
  .createUnifiedMemoryAllocation size ⟨.hostUnifiedMemory, alignment, {}⟩

theorem reachable_allocations_sound_small_pool :
    ∃ w : World, w.live.length = 2 ∧ w.Sound 0x200000 0x200000 := by
  have runs : (([hostRequest 100 0, hostRequest 5000 4096, hostRequest 513 512,
      .freeSVMAlloc 0x3fefff, .freeSVMAlloc 0x3ffe00].foldlM
        (fun w call => if Promised w call then w.run call else none)
        ⟨initializePool 0x200000 0x200000 .hostUnifiedMemory 0 0x100000, []⟩).any
      fun w : World => w.live.length = 2) = true := by decide +kernel
  obtain ⟨w, ran, length⟩ := (Option.any_eq_true _ _).mp runs
  have reachable : Reachable
      ((system 0x200000 0x200000 .hostUnifiedMemory 0 0x100000).restrict Promised) w := by
    apply Reachable.foldlM _ (.start rfl) ran
    intro w call w' step
    obtain ⟨promised, step⟩ := Option.ite_none_right_eq_some.mp step
    exact ⟨promised, World.run_step step⟩
  exact ⟨w, by simpa using length,
    (reachable_allocations_sound (by decide) (by decide) (by decide) (by decide) reachable).1⟩

/-! ### Without the promises -/

/-- The blocks of `n` requests for a chunk each, from the end of the pool downwards. -/
def chunksBelow (poolEnd : Nat) : Nat → List PooledBlock
  | 0 => []
  | n + 1 => ⟨poolEnd - 512 * (n + 1), 512, 512, 0⟩ :: chunksBelow poolEnd n

/-- A pool of `count` chunks. -/
def chunkPool (count : Nat) : UsmMemAllocPool :=
  initializePool 0x200000 (512 * count) .hostUnifiedMemory 0 0x100000

/-- That pool after `n` such requests. -/
def World.filled (count n : Nat) : World :=
  let blocks := chunksBelow (0x200000 + 512 * count) n
  { pool := { chunkPool count with
      chunkAllocator := { (chunkPool count).chunkAllocator with
        pRightBound := 0x200000 + 512 * count - 512 * n
        availableSize := 512 * count - 512 * n }
      allocations := blocks.map PooledBlock.entry }
    live := blocks }

theorem chunksBelow_length (poolEnd n : Nat) : (chunksBelow poolEnd n).length = n := by
  induction n with
  | zero => rfl
  | succ n ih => rw [chunksBelow, List.length_cons, ih]

theorem chunksBelow_above {poolEnd n : Nat} {b : PooledBlock} (member : b ∈ chunksBelow poolEnd n) :
    poolEnd - 512 * n ≤ b.base := by
  induction n with
  | zero => cases member
  | succ n ih =>
    rcases List.mem_cons.mp member with rfl | old
    · exact Nat.le_refl _
    · have := ih old
      omega

/-- A request for one chunk takes the upper end of the gap. -/
theorem allocate_chunk {h : HeapAllocator} (alignment : h.allocationAlignment = 512)
    (threshold : 512 ≤ h.sizeThreshold) (available : 512 ≤ h.availableSize)
    (fits : h.availableSize < 2 ^ 64) (room : h.pLeftBound + 512 ≤ h.pRightBound)
    (positive : 0 < h.pLeftBound) (top : h.pRightBound < 2 ^ 64) (whole : 512 ∣ h.pRightBound) :
    h.allocateWithCustomAlignment 2 512 0 =
      .ok ⟨{ h with
          pRightBound := h.pRightBound - 512
          availableSize := h.availableSize - 512 }, h.pRightBound - 512, 512⟩ := by
  have start : sub64 h.pRightBound 512 = h.pRightBound - 512 := Word.sub_eq (by omega) top
  have down : alignDown (h.pRightBound - 512) 512 = h.pRightBound - 512 :=
    alignDown_self isPow2_chunkAlignment (by omega) (show 512 ∣ h.pRightBound - 512 by omega)
  have none : sub64 (h.pRightBound - 512) (h.pRightBound - 512) = 0 := by
    rw [sub64, Word.sub_eq (Nat.le_refl _) (by omega), Nat.sub_self]
  have sum : add64 (add64 h.pLeftBound 512) 0 = h.pLeftBound + 512 := by
    simp only [add64, Word.add]
    omega
  have left : sub64 h.availableSize 512 = h.availableSize - 512 := Word.sub_eq available fits
  have nonzero : h.pRightBound - 512 ≠ 0 := by omega
  have served : h.tryAllocate 512 512 =
      ⟨{ h with
          pRightBound := h.pRightBound - 512
          availableSize := h.availableSize - 512 }, h.pRightBound - 512, 512⟩ := by
    simp only [HeapAllocator.tryAllocate, HeapAllocator.allocateFromGap, start, down, none, sum,
      if_neg (Nat.not_lt.mpr threshold), if_pos room, ne_eq, not_true_eq_false, if_false, nonzero,
      not_false_eq_true, if_true, left]
  have rounded : alignUp 512 512 = 512 := by decide
  simp [HeapAllocator.allocateWithCustomAlignment, alignment, rounded,
    if_neg (Nat.not_lt.mpr available), HeapAllocator.allocateLoop, served, nonzero]

theorem filled_step {count n : Nat} (small : count ≤ 2 ^ 40) (room : n < count) :
    (World.filled count n).run (hostRequest 512 0) = some (World.filled count (n + 1)) := by
  have right : 0x200000 + 512 * count - 512 * n - 512 = 0x200000 + 512 * count - 512 * (n + 1) := by
    omega
  have left : 512 * count - 512 * n - 512 = 512 * count - 512 * (n + 1) := by
    rw [Nat.mul_succ, Nat.sub_add_eq]
  have served := allocate_chunk (h := (World.filled count n).pool.chunkAllocator) rfl
    (show 512 ≤ 0x100000 / 2 by decide)
    (show 512 ≤ 512 * count - 512 * n by omega)
    (show 512 * count - 512 * n < 2 ^ 64 by omega)
    (show 0x200000 + 512 ≤ 0x200000 + 512 * count - 512 * n by omega)
    (show 0 < 0x200000 by decide)
    (show 0x200000 + 512 * count - 512 * n < 2 ^ 64 by omega)
    (show 512 ∣ 0x200000 + 512 * count - 512 * n by omega)
  have initialized : (World.filled count n).pool.isInitialized = true := by
    simp [isInitialized, World.filled, chunkPool, initializePool]
  have pooled : (World.filled count n).pool.canBePooled 512 ⟨.hostUnifiedMemory, 0, {}⟩ =
      true := by
    simp [canBePooled, sizeIsAllowed, alignmentIsAllowed, flagsAreAllowed, World.filled, chunkPool,
      initializePool, poolAlignment]
  have nonzero : 0x200000 + 512 * count - 512 * (n + 1) ≠ 0 := by omega
  have front : insert (0x200000 + 512 * count - 512 * (n + 1))
      (⟨0x200000 + 512 * count - 512 * (n + 1), 512, 512⟩ : AllocationInfo)
      (World.filled count n).pool.allocations =
      (0x200000 + 512 * count - 512 * (n + 1),
        ⟨0x200000 + 512 * count - 512 * (n + 1), 512, 512⟩) ::
        (World.filled count n).pool.allocations := by
    apply insert_front
    intro a member
    obtain ⟨b, held, rfl⟩ := List.mem_map.mp member
    have above := chunksBelow_above held
    simp only [PooledBlock.entry]
    omega
  simp only [World.filled, right, left, chunkPool, initializePool, HeapAllocator.create]
    at served front initialized pooled ⊢
  simp only [World.run, hostRequest, createUnifiedMemoryAllocation, initialized, pooled, served,
    bind, Except.bind, front, liveAfter, nonzero, pure, Except.pure]
  simpa [chunksBelow, PooledBlock.entry] using nonzero

theorem filled_reachable {count n : Nat} (small : count ≤ 2 ^ 40) (room : n ≤ count) :
    Reachable (system 0x200000 (512 * count) .hostUnifiedMemory 0 0x100000)
      (World.filled count n) := by
  induction n with
  | zero =>
    apply Reachable.start
    have top : add64 0x200000 (512 * count) = 0x200000 + 512 * count := Word.add_eq (by omega)
    simp [system, World.filled, chunkPool, initializePool, HeapAllocator.create, top, chunksBelow]
  | succ n ih => exact .next (ih (by omega)) (World.run_step (filled_step small (by omega)))

/-- With more blocks than an `int` counts no block is found. -/
theorem filled_lookup_fails {count n : Nat} (many : 2 ^ 31 < n) (few : n ≤ 2 ^ 32)
    (room : n ≤ count) :
    ∃ b ∈ (World.filled count n).live,
      (World.filled count n).pool.getPooledAllocationBasePtr b.base ≠ b.base := by
  have length : (World.filled count n).pool.allocations.length = n := by
    simp only [World.filled, List.length_map, chunksBelow_length]
  obtain ⟨m, rfl⟩ : ∃ m, n = m + 1 := ⟨n - 1, by omega⟩
  refine ⟨⟨0x200000 + 512 * count - 512 * (m + 1), 512, 512, 0⟩, List.mem_cons_self, ?_⟩
  have missing : ∀ p,
      get AllocationInfo.size p (World.filled count (m + 1)).pool.allocations = none := by
    intro p
    unfold BaseSortedPointerWithValueVector.get
    rw [getImpl_overflow (by omega) (by omega)]
  simp only [getPooledAllocationBasePtr, missing, ite_self]
  omega

/-- What goes wrong without the promises: an empty request gets a block behind the pool that cannot
be freed, an alignment that is no power of two is not kept, a pool at the end of the address space
hands out addresses at its start, and with too many blocks for an `int` nothing is found. -/
theorem unsound_unpromised :
    (∃ w, Reachable (system 0x200000 0x200000 .hostUnifiedMemory 0 0x100000) w ∧
      ∃ b ∈ w.live, b.base = w.pool.poolEnd ∧ (w.pool.freeSVMAlloc b.base).2 = false) ∧
    (∃ w, Reachable (system 0x200000 0x200000 .hostUnifiedMemory 0 0x100000) w ∧
      ∃ b ∈ w.live, b.alignment = 1536 ∧ ¬ b.alignment ∣ b.base) ∧
    (∃ w, Reachable (system (2 ^ 64 - 2 ^ 21) 0x100000 .hostUnifiedMemory 0 1024) w ∧
      ∃ b ∈ w.live, b.base < w.pool.pool) ∧
    ∃ w, Reachable (system 0x200000 (512 * (2 ^ 31 + 1)) .hostUnifiedMemory 0 0x100000) w ∧
      ∃ b ∈ w.live, w.pool.getPooledAllocationBasePtr b.base ≠ b.base := by
  refine ⟨?_, ?_, ?_, World.filled (2 ^ 31 + 1) (2 ^ 31 + 1), ?_⟩
  · have runs : (([hostRequest 0 0].foldlM World.run
          ⟨initializePool 0x200000 0x200000 .hostUnifiedMemory 0 0x100000, []⟩).any
        fun w : World => ∃ b ∈ w.live, b.base = w.pool.poolEnd ∧
          (w.pool.freeSVMAlloc b.base).2 = false) = true := by decide +kernel
    obtain ⟨w, ran, bad⟩ := (Option.any_eq_true _ _).mp runs
    exact ⟨w, .foldlM (fun _ _ _ => World.run_step) (.start rfl) ran, by simpa using bad⟩
  · have runs : (([hostRequest 100 1536].foldlM World.run
          ⟨initializePool 0x200000 0x200000 .hostUnifiedMemory 0 0x100000, []⟩).any
        fun w : World => ∃ b ∈ w.live, b.alignment = 1536 ∧ ¬ b.alignment ∣ b.base) = true := by
      decide +kernel
    obtain ⟨w, ran, bad⟩ := (Option.any_eq_true _ _).mp runs
    exact ⟨w, .foldlM (fun _ _ _ => World.run_step) (.start rfl) ran, by simpa using bad⟩
  · have runs : (([hostRequest 1024 0, hostRequest 1024 0x200000].foldlM World.run
          ⟨initializePool (2 ^ 64 - 2 ^ 21) 0x100000 .hostUnifiedMemory 0 1024, []⟩).any
        fun w : World => ∃ b ∈ w.live, b.base < w.pool.pool) = true := by decide +kernel
    obtain ⟨w, ran, bad⟩ := (Option.any_eq_true _ _).mp runs
    exact ⟨w, .foldlM (fun _ _ _ => World.run_step) (.start rfl) ran, by simpa using bad⟩
  · refine ⟨filled_reachable (by decide) (Nat.le_refl _), ?_⟩
    exact filled_lookup_fails (by decide) (by decide) (Nat.le_refl _)

end UsmMemAllocPool

end ComputeRuntime
