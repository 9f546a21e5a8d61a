import ComputeRuntime.Staging.Runs

/-! When a request for a staging chunk is served: with sound allocators and a host that has
memory, every request ends with a chunk at least as large as asked for. -/
namespace ComputeRuntime

open HeapAllocator

private theorem page_pow2 : IsPow2 MemoryConstants.pageSize := ⟨12, by decide, rfl⟩

/-- The allocator of the buffer keeps its invariant, and the buffer lies in the user's part of
the address space. -/
def StagingBuffer.Sound (b : StagingBuffer) : Prop :=
  ∃ size, b.baseAddress + size ≤ 2 ^ 57 ∧
    b.allocator.Inv b.baseAddress size MemoryConstants.pageSize

theorem StagingBuffer.Sound.allocate {b after : StagingBuffer} {size ptr given : Nat}
    (sound : b.Sound) (allocated : b.allocate size = .ok (after, ptr, given)) : after.Sound := by
  obtain ⟨bytes, inside, inv⟩ := sound
  obtain ⟨r, returned, served⟩ := bind_eq_ok.mp allocated
  cases served
  have room : b.baseAddress + 2 * bytes + MemoryConstants.pageSize ≤ 2 ^ 64 := by
    simp only [MemoryConstants.pageSize, MemoryConstants.kiloByte]
    omega
  exact ⟨bytes, inside, allocate_inv inv page_pow2 (Or.inl rfl) room (by omega) returned⟩

theorem StagingBuffer.Sound.free {b : StagingBuffer} {chunk : HeapChunk} (sound : b.Sound)
    (held : chunk ∈ b.allocator.live) : (b.free chunk.ptr chunk.size).Sound := by
  obtain ⟨bytes, inside, inv⟩ := sound
  exact ⟨bytes, inside, free_inv inv held⟩

def soundBuffer : PoolInvariant where
  holds := StagingBuffer.Sound
  allocate := StagingBuffer.Sound.allocate
  free := StagingBuffer.Sound.free

/-- What `createHostUnifiedMemoryAllocation` returns: page-aligned user memory. -/
def Surroundings.SaneHost (env : Surroundings) : Prop :=
  ∀ n size usmHost, env.usmHost n size = some usmHost →
    0 < usmHost ∧ MemoryConstants.pageSize ∣ usmHost ∧ usmHost + size ≤ 2 ^ 57

theorem Surroundings.SaneHost.creates {env : Surroundings} (sane : env.SaneHost) :
    env.Creates soundBuffer := by
  intro n size usmHost allocated
  obtain ⟨positive, _, inside⟩ := sane n size usmHost allocated
  have word : usmHost + size < 2 ^ 64 := by omega
  exact ⟨size, inside, create_inv positive word⟩

namespace HeapAllocator

variable {h : HeapAllocator} {size alignment fuel : Nat} {r : AllocateResult}

theorem tryAllocate_failed (failed : (h.tryAllocate size alignment).ptr = 0) :
    (h.tryAllocate size alignment).sizeToAllocate = size := by
  unfold tryAllocate at failed ⊢
  simp only at failed ⊢
  split at failed
  next nonzero => exact absurd failed nonzero
  next null =>
    rw [if_neg null]
    split at failed
    next nonzero => exact absurd failed nonzero
    next null => rw [if_neg null]

/-- A gap between aligned bounds serves everything that fits, when no request but the empty one
is small. -/
theorem allocateFromGap_serves (pow2 : IsPow2 alignment) (threshold : h.sizeThreshold = 0)
    (positive : 0 < h.pLeftBound) (room : h.pLeftBound + size ≤ h.pRightBound)
    (word : h.pRightBound + (alignment - 1) < 2 ^ 64) (left : alignment ∣ h.pLeftBound)
    (right : alignment ∣ h.pRightBound) : (h.allocateFromGap size alignment).2 ≠ 0 := by
  unfold allocateFromGap
  rw [threshold]
  have still : add64 h.pLeftBound 0 = h.pLeftBound := Word.add_eq (by omega)
  split
  next big =>
    have up : alignUp h.pLeftBound alignment = h.pLeftBound := alignUp_self pow2 (by omega) left
    have none : sub64 h.pLeftBound h.pLeftBound = 0 := by
      rw [sub64, Word.sub_eq (Nat.le_refl _) (by omega), Nat.sub_self]
    have stop : add64 h.pLeftBound size = h.pLeftBound + size := Word.add_eq (by omega)
    simp only [up, none, still, stop, room, if_true, ne_eq, not_true_eq_false, if_false]
    omega
  next empty =>
    have zero : size = 0 := by omega
    subst zero
    have start : sub64 h.pRightBound 0 = h.pRightBound := by
      rw [sub64, Word.sub_eq (Nat.zero_le _) (by omega), Nat.sub_zero]
    have down : alignDown h.pRightBound alignment = h.pRightBound :=
      alignDown_self pow2 (by omega) right
    have none : sub64 h.pRightBound h.pRightBound = 0 := by
      rw [sub64, Word.sub_eq (Nat.le_refl _) (by omega), Nat.sub_self]
    have ordered : h.pLeftBound ≤ h.pRightBound := by omega
    simp only [start, down, none, still, ordered, if_true, ne_eq, not_true_eq_false, if_false]
    omega

/-- With an alignment of at most two megabytes the retry loop ends after two rounds. -/
theorem allocateLoop_ends {alignment : Nat} (small : alignment ≤ 2 * MemoryConstants.megaByte) (h : HeapAllocator)
    (size : Nat) : ∃ r, allocateLoop size 2 h alignment false = .ok r ∧
      (r.ptr = 0 → r.sizeToAllocate = size) := by
  unfold allocateLoop
  simp only [if_true]
  split
  next nonzero => exact ⟨_, rfl, fun failed => absurd failed nonzero⟩
  next =>
    unfold allocateLoop
    simp only [Bool.true_eq_false, if_false]
    split
    next nonzero => exact ⟨_, rfl, fun failed => absurd failed nonzero⟩
    next =>
      rw [if_neg (by omega)]
      exact ⟨_, rfl, tryAllocate_failed⟩

end HeapAllocator

namespace StagingBuffer

variable {b : StagingBuffer} {size : Nat}

/-- A sound staging buffer always answers, with a chunk of the wanted size or with null and the
size rounded up to pages. -/
theorem allocate_returns (sound : soundBuffer.holds b)
    (word : size + (MemoryConstants.pageSize - 1) < 2 ^ 64) :
    ∃ after ptr given, b.allocate size = .ok (after, ptr, given) ∧ size ≤ given ∧
      (ptr = 0 → given = alignUp size MemoryConstants.pageSize) := by
  obtain ⟨bytes, inside, inv⟩ := sound
  have up := le_alignUp page_pow2 word
  have alignment := inv.alignment
  have answered : ∃ r, b.allocator.heap.allocate 2 size = .ok r ∧ size ≤ r.sizeToAllocate ∧
      (r.ptr = 0 → r.sizeToAllocate = alignUp size MemoryConstants.pageSize) := by
    unfold HeapAllocator.allocate allocateWithCustomAlignment
    rw [alignment]
    simp only [page_pow2.pos, if_true, Nat.mod_self, ne_eq, not_true_eq_false, if_false]
    split
    next => exact ⟨_, rfl, up, fun _ => rfl⟩
    next enough =>
      have small : MemoryConstants.pageSize ≤ 2 * MemoryConstants.megaByte := by decide
      obtain ⟨r, returned, failed⟩ := allocateLoop_ends small b.allocator.heap
        (alignUp size MemoryConstants.pageSize)
      refine ⟨r, returned, ?_, failed⟩
      have free := inv.wf.freeLength_le
      have balanced := inv.balanced
      have heapSize := inv.heapSize
      simp only [HeapAllocator.Balanced] at balanced
      have room : b.allocator.heap.top + alignUp size MemoryConstants.pageSize +
          MemoryConstants.pageSize ≤ 2 ^ 64 := by
        rw [inv.top]
        simp only [MemoryConstants.pageSize, MemoryConstants.kiloByte] at *
        omega
      have avoids := inv.wf.avoidsZero page_pow2 room (inv.baseAddress ▸ inv.positive)
      rcases allocateLoop_spec 2 inv.wf page_pow2 room avoids returned with rfl | ⟨_, _, _, served⟩
      · exact up
      · exact Nat.le_trans up served.enough
  obtain ⟨r, returned, large, failed⟩ := answered
  exact ⟨_, _, _, bind_eq_ok.mpr ⟨r, returned, rfl⟩, large, failed⟩

/-- A new staging buffer of whole pages serves any request that fits it. -/
theorem create_serves {usmHost bytes : Nat} (positive : 0 < usmHost)
    (aligned : MemoryConstants.pageSize ∣ usmHost) (pages : MemoryConstants.pageSize ∣ bytes)
    (inside : usmHost + bytes ≤ 2 ^ 57) (fits : alignUp size MemoryConstants.pageSize ≤ bytes)
    {after : StagingBuffer} {ptr given : Nat}
    (allocated : (StagingBuffer.create usmHost bytes).allocate size = .ok (after, ptr, given)) :
    ptr ≠ 0 := by
  obtain ⟨r, returned, same⟩ := bind_eq_ok.mp allocated
  cases same
  have right : add64 usmHost bytes = usmHost + bytes := Word.add_eq (by omega)
  have gap : ((HeapAllocator.create usmHost bytes MemoryConstants.pageSize 0).allocateFromGap
      (alignUp size MemoryConstants.pageSize) MemoryConstants.pageSize).2 ≠ 0 := by
    refine allocateFromGap_serves page_pow2 rfl positive ?_ ?_ aligned ?_
    · simp only [HeapAllocator.create, right]
      omega
    · simp only [HeapAllocator.create, right, MemoryConstants.pageSize, MemoryConstants.kiloByte]
      omega
    · simpa only [HeapAllocator.create, right] using Nat.dvd_add aligned pages
  have first : ((HeapAllocator.create usmHost bytes MemoryConstants.pageSize 0).tryAllocate
      (alignUp size MemoryConstants.pageSize) MemoryConstants.pageSize).ptr ≠ 0 := by
    simp only [tryAllocate]
    rw [if_pos gap]
    exact gap
  have available : ¬ bytes < alignUp size MemoryConstants.pageSize := by omega
  have attempt : StagingBuffer.create usmHost bytes =
      ⟨usmHost, ⟨.create usmHost bytes MemoryConstants.pageSize 0, []⟩⟩ := rfl
  simp only [attempt, HeapAllocator.allocate, allocateWithCustomAlignment] at returned
  simp only [HeapAllocator.create, page_pow2.pos, if_true, Nat.mod_self, ne_eq, not_true_eq_false,
    if_false, available] at returned
  unfold allocateLoop at returned
  simp only [HeapAllocator.create] at first
  rw [if_pos first] at returned
  cases returned
  exact first

end StagingBuffer

/-- A chunk asked for, with the size a failure leaves: at most the request in whole pages. -/
def Asked (requested : Nat) (chunk : StagingChunk) : Prop :=
  requested ≤ chunk.size ∧
    (chunk.address = 0 → chunk.size ≤ alignUp requested MemoryConstants.pageSize)

section Requests

variable {requested : Nat}

private theorem page_up (word : requested + 0x1000 < 2 ^ 64) :
    requested + (MemoryConstants.pageSize - 1) < 2 ^ 64 := by
  simp only [MemoryConstants.pageSize, MemoryConstants.kiloByte]
  omega

/-- Rounding up between a request and the request in whole pages gives whole pages again. -/
private theorem alignUp_between {size : Nat} (word : requested + 0x2000 < 2 ^ 64)
    (high : size ≤ alignUp requested MemoryConstants.pageSize) :
    alignUp size MemoryConstants.pageSize ≤ alignUp requested MemoryConstants.pageSize := by
  have fits : requested + (MemoryConstants.pageSize - 1) < 2 ^ 64 := page_up (by omega)
  have top := alignUp_lt page_pow2 fits
  have small : MemoryConstants.pageSize = 0x1000 := rfl
  have sizeFits : size + (MemoryConstants.pageSize - 1) < 2 ^ 64 := page_up (by omega)
  exact alignUp_le page_pow2 sizeFits (alignUp_dvd page_pow2 fits) high

theorem getExistingBufferFrom_returns (room : requested + 0x2000 < 2 ^ 64)
    {buffers : List StagingBuffer} (sound : ∀ b ∈ buffers, soundBuffer.holds b) {index : Nat}
    {chunk : StagingChunk} (failed : chunk.address = 0) (asked : Asked requested chunk) :
    ∃ after found, getExistingBufferFrom buffers index chunk = .ok (after, found) ∧
      Asked requested found := by
  induction buffers generalizing index chunk with
  | nil => exact ⟨[], chunk, rfl, asked⟩
  | cons b rest ih =>
    have high := asked.2 failed
    have fits : requested + (MemoryConstants.pageSize - 1) < 2 ^ 64 := page_up (by omega)
    have top := alignUp_lt page_pow2 fits
    have small : MemoryConstants.pageSize = 0x1000 := rfl
    have chunkFits : chunk.size + (MemoryConstants.pageSize - 1) < 2 ^ 64 := page_up (by omega)
    obtain ⟨after, ptr, given, allocated, large, null⟩ :=
      StagingBuffer.allocate_returns (sound b (by simp)) chunkFits
    have enough : requested ≤ given := Nat.le_trans asked.1 large
    by_cases served : ptr = 0
    · have again : Asked requested ⟨some index, 0, given⟩ := by
        refine ⟨enough, fun _ => ?_⟩
        rw [null served]
        exact alignUp_between room high
      have unserved : (StagingChunk.mk (some index) 0 given).address = 0 := rfl
      obtain ⟨tail, found, searched, good⟩ :=
        ih (fun b member => sound b (by simp [member])) unserved again
      refine ⟨after :: tail, found, bind_eq_ok.mpr ⟨_, allocated, ?_⟩, good⟩
      exact (if_neg (not_not.mpr served)).trans (bind_eq_ok.mpr ⟨_, searched, rfl⟩)
    · refine ⟨after :: rest, ⟨some index, ptr, given⟩, bind_eq_ok.mpr ⟨_, allocated, ?_⟩, enough,
        fun zero => absurd zero served⟩
      exact if_pos served

end Requests

namespace StagingBufferManager

/-- The pool changes, and nothing else the manager works on. -/
structure PoolOnly (m m' : StagingBufferManager) : Prop where
  chunkSize : m'.chunkSize = m.chunkSize
  stagingMemory : m'.stagingMemory = m.stagingMemory
  hostMemory : m'.hostMemory = m.hostMemory
  submissions : m'.submissions = m.submissions

variable {m m' : StagingBufferManager}

theorem PoolOnly.refl (m : StagingBufferManager) : PoolOnly m m := ⟨rfl, rfl, rfl, rfl⟩

theorem PoolOnly.trans {m₁ m₂ m₃ : StagingBufferManager} (first : PoolOnly m₁ m₂)
    (second : PoolOnly m₂ m₃) : PoolOnly m₁ m₃ :=
  ⟨second.1.trans first.1, second.2.trans first.2, second.3.trans first.3,
    second.4.trans first.4⟩

theorem freeChunk_poolOnly (m : StagingBufferManager) (tracker : StagingBufferTracker) :
    PoolOnly m (m.freeChunk tracker) := by
  unfold freeChunk
  split
  · exact .refl m
  · split <;> exact ⟨rfl, rfl, rfl, rfl⟩

theorem clearTracked_poolOnly (tracked : List StagingBufferTracker) (m : StagingBufferManager) :
    PoolOnly m (clearTracked tracked m) := by
  induction tracked generalizing m with
  | nil => exact ⟨rfl, rfl, rfl, rfl⟩
  | cons tracker rest ih =>
    unfold clearTracked
    split
    next => exact (freeChunk_poolOnly m tracker).trans (ih _)
    next => exact ⟨rfl, rfl, rfl, rfl⟩

theorem clearTrackedChunks_poolOnly (m : StagingBufferManager) (tags : Nat → Nat) :
    PoolOnly m (m.clearTrackedChunks tags) := by
  have observed : PoolOnly m (m.observe tags) := ⟨rfl, rfl, rfl, rfl⟩
  exact observed.trans (clearTracked_poolOnly m.trackers (m.observe tags))

private theorem large_pow2 : IsPow2 getDefaultStagingBufferSize := ⟨21, by decide, rfl⟩

private theorem page_dvd_large : MemoryConstants.pageSize ∣ getDefaultStagingBufferSize :=
  page_pow2.dvd large_pow2 (by decide)

/-- The host has memory for a staging buffer that holds a chunk of `size` bytes. -/
def Supplied (env : Surroundings) (m : StagingBufferManager) (chunkTransferId size : Nat) : Prop :=
  ∀ bytes ≤ m.stagingBufferSize size, (env.usmHost chunkTransferId bytes).isSome

theorem Supplied.congr {env : Surroundings} {chunkTransferId size : Nat}
    (supplied : Supplied env m chunkTransferId size) (same : m'.chunkSize = m.chunkSize) :
    Supplied env m' chunkTransferId size := by
  intro bytes le
  unfold stagingBufferSize at le
  rw [same] at le
  exact supplied bytes le

/-- The size of a new buffer, for the size a failed attempt left. -/
private theorem bufferSize_fits {requested size : Nat}
    (room : max m.chunkSize requested + 0x400000 < 2 ^ 64)
    (high : size ≤ alignUp requested MemoryConstants.pageSize) :
    m.stagingBufferSize size ≤ m.stagingBufferSize requested ∧
      MemoryConstants.pageSize ∣ m.stagingBufferSize size ∧
      alignUp size MemoryConstants.pageSize ≤ m.stagingBufferSize size := by
  unfold stagingBufferSize
  have large : getDefaultStagingBufferSize = 0x200000 := rfl
  have small : MemoryConstants.pageSize = 0x1000 := rfl
  have fits : max m.chunkSize requested + (getDefaultStagingBufferSize - 1) < 2 ^ 64 := by omega
  have pageFits : requested + (MemoryConstants.pageSize - 1) < 2 ^ 64 := by omega
  have top := le_alignUp large_pow2 fits
  have whole := alignUp_dvd large_pow2 fits
  have rounded : alignUp requested MemoryConstants.pageSize ≤
      alignUp (max m.chunkSize requested) getDefaultStagingBufferSize :=
    alignUp_le page_pow2 pageFits (page_dvd_large.trans whole) (by omega)
  have roundedLt := alignUp_lt page_pow2 pageFits
  have sizeFits : max m.chunkSize size + (getDefaultStagingBufferSize - 1) < 2 ^ 64 := by omega
  have sizePages : size + (MemoryConstants.pageSize - 1) < 2 ^ 64 := by omega
  have sizeTop := le_alignUp large_pow2 sizeFits
  have sizeWhole := alignUp_dvd large_pow2 sizeFits
  refine ⟨?_, page_dvd_large.trans sizeWhole, ?_⟩
  · exact alignUp_le large_pow2 sizeFits whole (by omega)
  · exact alignUp_le page_pow2 sizePages (page_dvd_large.trans sizeWhole) (by omega)

variable {requested : Nat}

/-- An attempt to get a chunk from the existing buffers returns. -/
private theorem getExistingBuffer_returns {size : Nat} {others : List StagingBufferTracker}
    (pages : requested + 0x2000 < 2 ^ 64) (order : m.InOrder soundBuffer others)
    (low : requested ≤ size) (high : size ≤ alignUp requested MemoryConstants.pageSize) :
    ∃ buffers chunk, m.getExistingBuffer size = .ok ({ m with stagingBuffers := buffers }, chunk) ∧
      Asked requested chunk := by
  have asked : Asked requested ⟨none, 0, size⟩ := ⟨low, fun _ => high⟩
  obtain ⟨buffers, chunk, searched, served⟩ :=
    getExistingBufferFrom_returns pages order.buffers rfl asked
  exact ⟨buffers, chunk, bind_eq_ok.mpr ⟨_, searched, rfl⟩, served⟩

section Serves

variable {env : Surroundings} {chunkTransferId : Nat}
  {others : List StagingBufferTracker} (sane : env.SaneHost)
  (room : max m.chunkSize requested + 0x400000 < 2 ^ 64)

include room sane

/-- A second attempt ends with a chunk, of a new staging buffer if need be. -/
private theorem retryStagingBuffer_serves {failed : StagingChunk}
    (order : m.InOrder soundBuffer others) (supplied : Supplied env m chunkTransferId requested)
    (null : failed.address = 0) (asked : Asked requested failed) :
    ∃ m' chunk, m.retryStagingBuffer env chunkTransferId failed = .ok (m', chunk) ∧
      chunk.address ≠ 0 ∧ requested ≤ chunk.size ∧ PoolOnly m m' := by
  obtain ⟨buffers, retried, again, retriedAsked⟩ :=
    getExistingBuffer_returns (by omega) order asked.1 (asked.2 null)
  by_cases served : retried.address = 0
  · obtain ⟨le, pages, fits⟩ := bufferSize_fits room (retriedAsked.2 served)
    obtain ⟨usmHost, host⟩ := Option.isSome_iff_exists.mp (supplied _ le)
    obtain ⟨positive, aligned, inside⟩ := sane _ _ _ host
    have sizeFits : retried.size + (MemoryConstants.pageSize - 1) < 2 ^ 64 := by
      have pageFits : requested + (MemoryConstants.pageSize - 1) < 2 ^ 64 := page_up (by omega)
      have := alignUp_lt page_pow2 pageFits
      have small : MemoryConstants.pageSize = 0x1000 := rfl
      have := retriedAsked.2 served
      omega
    obtain ⟨after, ptr, given, allocated, large, _⟩ :=
      StagingBuffer.allocate_returns (sane.creates _ _ _ host) sizeFits
    have nonzero := StagingBuffer.create_serves positive aligned pages inside fits allocated
    have added : ({ m with stagingBuffers := buffers } : StagingBufferManager).addStagingBuffer
        usmHost (m.stagingBufferSize retried.size) retried.size =
        .ok ({ m with stagingBuffers := buffers ++ [after] }, ⟨some buffers.length, ptr, given⟩) :=
      bind_eq_ok.mpr ⟨_, allocated, rfl⟩
    refine ⟨{ m with stagingBuffers := buffers ++ [after] }, ⟨some buffers.length, ptr, given⟩,
      bind_eq_ok.mpr ⟨_, again, (if_neg (not_not.mpr served)).trans ?_⟩, nonzero,
      Nat.le_trans retriedAsked.1 large, ⟨rfl, rfl, rfl, rfl⟩⟩
    simp only [stagingBufferSize] at host added ⊢
    rw [host]
    exact added
  · exact ⟨_, retried, bind_eq_ok.mpr ⟨_, again, if_pos served⟩, served, retriedAsked.1,
      ⟨rfl, rfl, rfl, rfl⟩⟩

/-- A request ends with a chunk that is large enough. -/
theorem requestStagingBuffer_serves (order : m.InOrder soundBuffer others)
    (supplied : Supplied env m chunkTransferId requested) :
    ∃ m' chunk, m.requestStagingBuffer env chunkTransferId requested = .ok (m', chunk) ∧
      chunk.address ≠ 0 ∧ requested ≤ chunk.size ∧ PoolOnly m m' := by
  have pageFits : requested + (MemoryConstants.pageSize - 1) < 2 ^ 64 := page_up (by omega)
  obtain ⟨buffers, first, existing, asked⟩ :=
    getExistingBuffer_returns (by omega) order (Nat.le_refl _) (le_alignUp page_pow2 pageFits)
  by_cases null : first.address = 0
  · have order₁ := (getExistingBuffer_inOrder 0 order existing).dropNull null
    have order₂ := clearTrackedChunks_inOrder order₁ (env.completed chunkTransferId)
    have cleared := clearTrackedChunks_poolOnly { m with stagingBuffers := buffers }
      (env.completed chunkTransferId)
    have chunkSize := cleared.chunkSize
    obtain ⟨m', chunk, retried, nonzero, large, only⟩ := retryStagingBuffer_serves sane
      (by rw [chunkSize]; exact room) order₂ (supplied.congr chunkSize) null asked
    refine ⟨m', chunk, bind_eq_ok.mpr ⟨_, existing, (if_neg (not_not.mpr null)).trans retried⟩,
      nonzero, large, ?_⟩
    exact PoolOnly.trans ⟨cleared.1, cleared.2, cleared.3, cleared.4⟩ only
  · exact ⟨_, first, bind_eq_ok.mpr ⟨_, existing, if_pos null⟩, null, asked.1,
      ⟨rfl, rfl, rfl, rfl⟩⟩

end Serves

section Returns

variable {env : Surroundings} {chunkTransferId : Nat} {others : List StagingBufferTracker}
  {chunk : StagingChunk} (sane : env.SaneHost) (pages : requested + 0x2000 < 2 ^ 64)

include sane pages

private theorem retryStagingBuffer_large {failed : StagingChunk}
    (order : m.InOrder soundBuffer others) (null : failed.address = 0)
    (asked : Asked requested failed)
    (returned : m.retryStagingBuffer env chunkTransferId failed = .ok (m', chunk)) :
    requested ≤ chunk.size ∧ PoolOnly m m' := by
  obtain ⟨buffers, retried, again, retriedAsked⟩ :=
    getExistingBuffer_returns pages order asked.1 (asked.2 null)
  unfold retryStagingBuffer at returned
  rw [again] at returned
  simp only [bind, Except.bind] at returned
  split at returned
  next =>
    cases returned
    exact ⟨retriedAsked.1, rfl, rfl, rfl, rfl⟩
  next served =>
    split at returned
    next usmHost host =>
      obtain ⟨⟨after, ptr, given⟩, allocated, same⟩ := bind_eq_ok.mp returned
      cases same
      have fits : requested + (MemoryConstants.pageSize - 1) < 2 ^ 64 := page_up (by omega)
      have top := alignUp_lt page_pow2 fits
      have high := retriedAsked.2 (not_not.mp served)
      have small : MemoryConstants.pageSize = 0x1000 := rfl
      have sizeFits : retried.size + (MemoryConstants.pageSize - 1) < 2 ^ 64 := by omega
      obtain ⟨_, _, _, answered, large, _⟩ :=
        StagingBuffer.allocate_returns (sane.creates _ _ _ host) sizeFits
      rw [allocated] at answered
      cases answered
      exact ⟨Nat.le_trans retriedAsked.1 large, rfl, rfl, rfl, rfl⟩
    next =>
      cases returned
      exact ⟨retriedAsked.1, rfl, rfl, rfl, rfl⟩

/-- A request that returns ends with a chunk that is large enough, or with a null chunk. -/
theorem requestStagingBuffer_large (order : m.InOrder soundBuffer others)
    (returned : m.requestStagingBuffer env chunkTransferId requested = .ok (m', chunk)) :
    requested ≤ chunk.size ∧ PoolOnly m m' := by
  have pageFits : requested + (MemoryConstants.pageSize - 1) < 2 ^ 64 := page_up (by omega)
  obtain ⟨buffers, first, existing, asked⟩ :=
    getExistingBuffer_returns pages order (Nat.le_refl _) (le_alignUp page_pow2 pageFits)
  unfold requestStagingBuffer at returned
  rw [existing] at returned
  simp only [bind, Except.bind] at returned
  split at returned
  next =>
    cases returned
    exact ⟨asked.1, rfl, rfl, rfl, rfl⟩
  next failed =>
    have null := not_not.mp failed
    have order₁ := (getExistingBuffer_inOrder 0 order existing).dropNull null
    have order₂ := clearTrackedChunks_inOrder order₁ (env.completed chunkTransferId)
    have cleared := clearTrackedChunks_poolOnly { m with stagingBuffers := buffers }
      (env.completed chunkTransferId)
    obtain ⟨large, only⟩ := retryStagingBuffer_large sane pages order₂ null asked returned
    exact ⟨large, PoolOnly.trans ⟨cleared.1, cleared.2, cleared.3, cleared.4⟩ only⟩

end Returns

end StagingBufferManager

end ComputeRuntime
