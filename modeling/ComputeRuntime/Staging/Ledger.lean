import ComputeRuntime.Staging.Transfer

/-! The ledger of staging chunks: every chunk an allocator has handed out belongs to exactly one
tracker, whether the tracker is in the shared list, in the queue of a read or lost. -/
namespace ComputeRuntime

/-- The chunks of one staging buffer that a list of trackers stands for. -/
def heldChunks (index : Nat) (trackers : List StagingBufferTracker) : List HeapChunk :=
  (trackers.filter fun t => decide (t.allocator = some index ∧ t.chunkAddress ≠ 0)).map
    StagingBufferTracker.chunk

section HeldChunks

variable {index : Nat} {tracker : StagingBufferTracker} {xs ys : List StagingBufferTracker}

theorem heldChunks_perm (perm : xs.Perm ys) : (heldChunks index xs).Perm (heldChunks index ys) :=
  (perm.filter _).map _

theorem heldChunks_cons (own : tracker.allocator = some index) (nonzero : tracker.chunkAddress ≠ 0) :
    heldChunks index (tracker :: xs) = tracker.chunk :: heldChunks index xs := by
  simp [heldChunks, own, nonzero]

theorem heldChunks_other (other : tracker.allocator ≠ some index) :
    heldChunks index (tracker :: xs) = heldChunks index xs := by
  simp [heldChunks, other]

theorem heldChunks_null (null : tracker.chunkAddress = 0) :
    heldChunks index (tracker :: xs) = heldChunks index xs := by
  simp [heldChunks, null]

/-- The task count a tracker waits for does not change what it stands for. -/
theorem heldChunks_count (count : Nat) :
    heldChunks index ({ tracker with taskCountToWait := count } :: xs) =
      heldChunks index (tracker :: xs) := by
  by_cases own : tracker.allocator = some index ∧ tracker.chunkAddress ≠ 0
  · rw [heldChunks_cons own.1 own.2, heldChunks_cons (by exact own.1) (by exact own.2)]
    rfl
  · simp [heldChunks, own]

end HeldChunks

/-- The trackers `all` account for every chunk of the staging buffers. -/
structure Accounts (buffers : List StagingBuffer) (all : List StagingBufferTracker) : Prop where
  owned : ∀ (index : Nat) (stagingBuffer : StagingBuffer), buffers[index]? = some stagingBuffer →
    stagingBuffer.allocator.live.Perm (heldChunks index all)
  known : ∀ t ∈ all, t.chunkAddress ≠ 0 → ∃ index < buffers.length, t.allocator = some index

namespace Accounts

variable {buffers : List StagingBuffer} {all : List StagingBufferTracker}
  {tracker : StagingBufferTracker}

theorem perm {all' : List StagingBufferTracker} (accounts : Accounts buffers all)
    (perm : all.Perm all') : Accounts buffers all' where
  owned := fun index stagingBuffer found =>
    (accounts.owned index stagingBuffer found).trans (heldChunks_perm perm)
  known := fun t member => accounts.known t (perm.mem_iff.mpr member)

theorem null (accounts : Accounts buffers all) (null : tracker.chunkAddress = 0) :
    Accounts buffers (tracker :: all) where
  owned := fun index stagingBuffer found => by
    rw [heldChunks_null null]
    exact accounts.owned index stagingBuffer found
  known := by
    intro t member nonzero
    rcases List.mem_cons.mp member with rfl | member
    · exact absurd null nonzero
    · exact accounts.known t member nonzero

theorem dropNull (accounts : Accounts buffers (tracker :: all)) (null : tracker.chunkAddress = 0) :
    Accounts buffers all where
  owned := fun index stagingBuffer found => by
    have owned := accounts.owned index stagingBuffer found
    rwa [heldChunks_null null] at owned
  known := fun t member => accounts.known t (List.mem_cons_of_mem _ member)

theorem count (accounts : Accounts buffers (tracker :: all)) (count : Nat) :
    Accounts buffers ({ tracker with taskCountToWait := count } :: all) where
  owned := fun index stagingBuffer found => by
    rw [heldChunks_count]
    exact accounts.owned index stagingBuffer found
  known := by
    intro t member nonzero
    rcases List.mem_cons.mp member with rfl | member
    · exact accounts.known tracker (by simp) nonzero
    · exact accounts.known t (by simp [member]) nonzero

/-- A chunk handed out by one of the buffers, or a failure to hand one out. -/
theorem allocate (csr : Nat) {index size ptr given : Nat} {stagingBuffer after : StagingBuffer}
    (accounts : Accounts buffers all) (found : buffers[index]? = some stagingBuffer)
    (allocated : stagingBuffer.allocate size = .ok (after, ptr, given)) :
    Accounts (buffers.set index after)
      ((StagingChunk.tracker ⟨some index, ptr, given⟩ csr) :: all) := by
  obtain ⟨r, _, returned⟩ := bind_eq_ok.mp allocated
  cases returned
  obtain ⟨low, same⟩ := List.getElem?_eq_some_iff.mp found
  constructor
  · intro other buffer found'
    by_cases here : other = index
    · subst here
      rw [List.getElem?_set_self low, Option.some.injEq] at found'
      subst found'
      have before := accounts.owned other stagingBuffer found
      simp only [HeapAllocator.liveAfter]
      split
      next failed => rwa [heldChunks_null failed]
      next nonzero =>
        rw [heldChunks_cons rfl nonzero]
        exact before.cons _
    · rw [List.getElem?_set_ne (Ne.symm here)] at found'
      rw [heldChunks_other (by simpa [StagingChunk.tracker] using Ne.symm here)]
      exact accounts.owned other buffer found'
  · intro t member nonzero
    rw [List.length_set]
    rcases List.mem_cons.mp member with rfl | member
    · exact ⟨index, low, rfl⟩
    · exact accounts.known t member nonzero

/-- A tracker gives its chunk back. -/
theorem free {index : Nat} (accounts : Accounts buffers (tracker :: all))
    (own : tracker.allocator = some index) (nonzero : tracker.chunkAddress ≠ 0) :
    Accounts (buffers.modify index fun b => b.free tracker.chunkAddress tracker.size) all := by
  constructor
  · intro other buffer found
    rw [List.getElem?_modify, Option.map_eq_map] at found
    obtain ⟨before, found, same⟩ := Option.map_eq_some_iff.mp found
    have owned := accounts.owned other before found
    by_cases here : index = other
    · rw [if_pos here] at same
      subst here same
      rw [heldChunks_cons own nonzero] at owned
      have shorter := owned.erase tracker.chunk
      rwa [List.erase_cons_head] at shorter
    · rw [if_neg here] at same
      subst same
      rwa [heldChunks_other (by simpa [own] using here)] at owned
  · intro t member nonzero
    rw [List.length_modify]
    exact accounts.known t (List.mem_cons_of_mem _ member) nonzero

/-- A new staging buffer, with nothing handed out. -/
theorem append (accounts : Accounts buffers all) (stagingBuffer : StagingBuffer)
    (fresh : stagingBuffer.allocator.live = []) : Accounts (buffers ++ [stagingBuffer]) all := by
  constructor
  · intro index buffer found
    rw [List.getElem?_append] at found
    split at found
    next => exact accounts.owned index buffer found
    next outside =>
      have last : buffer = stagingBuffer := by
        have := List.mem_of_getElem? found
        simpa using this
      have none : heldChunks index all = [] := by
        simp only [heldChunks, List.map_eq_nil_iff, List.filter_eq_nil_iff, decide_eq_true_eq,
          not_and]
        intro t member own
        by_contra nonzero
        obtain ⟨known, inside, own'⟩ := accounts.known t member nonzero
        rw [own, Option.some.injEq] at own'
        omega
      rw [last, fresh, none]
  · intro t member nonzero
    obtain ⟨index, inside, own⟩ := accounts.known t member nonzero
    exact ⟨index, by rw [List.length_append]; omega, own⟩

/-- A tracker that is accounted for holds its chunk. -/
theorem holds {index : Nat} (accounts : Accounts buffers (tracker :: all))
    (own : tracker.allocator = some index) (nonzero : tracker.chunkAddress ≠ 0) :
    ∃ stagingBuffer, buffers[index]? = some stagingBuffer ∧
      tracker.chunk ∈ stagingBuffer.allocator.live := by
  obtain ⟨known, inside, own'⟩ := accounts.known tracker (by simp) nonzero
  rw [own, Option.some.injEq] at own'
  subst own'
  refine ⟨buffers[index], by simp [inside], ?_⟩
  rw [(accounts.owned index _ (by simp [inside])).mem_iff, heldChunks_cons own nonzero]
  simp

end Accounts

/-- Getting a chunk from the existing buffers is a sequence of attempts, each after a failure. -/
theorem getExistingBufferFrom_keeps {P : List StagingBuffer → StagingChunk → Prop}
    (attempt : ∀ (buffers : List StagingBuffer) (index ptr size : Nat)
      (stagingBuffer after : StagingBuffer) (chunk : StagingChunk),
      buffers[index]? = some stagingBuffer → chunk.address = 0 → P buffers chunk →
      stagingBuffer.allocate chunk.size = .ok (after, ptr, size) →
      P (buffers.set index after) ⟨some index, ptr, size⟩)
    (before rest : List StagingBuffer) {rest' : List StagingBuffer} {chunk chunk' : StagingChunk}
    (failed : chunk.address = 0) (start : P (before ++ rest) chunk)
    (returned : getExistingBufferFrom rest before.length chunk = .ok (rest', chunk')) :
    P (before ++ rest') chunk' := by
  induction rest generalizing before rest' chunk with
  | nil =>
    cases returned
    exact start
  | cons stagingBuffer rest ih =>
    obtain ⟨⟨after, ptr, size⟩, allocated, returned⟩ := bind_eq_ok.mp returned
    have next := attempt _ before.length ptr size stagingBuffer after chunk (by simp) failed start
      allocated
    rw [List.set_append_right _ _ (Nat.le_refl _), Nat.sub_self, List.set_cons_zero] at next
    simp only at returned
    split at returned
    next =>
      cases returned
      exact next
    next null =>
      obtain ⟨⟨tail, last⟩, searched, returned⟩ := bind_eq_ok.mp returned
      cases returned
      have shift : before ++ after :: tail = (before ++ [after]) ++ tail := by simp
      rw [shift]
      refine ih (before ++ [after]) rfl ?_ (by rwa [List.length_append])
      have zero : ptr = 0 := by simpa using null
      subst zero
      simpa using next

/-- A property of staging buffers that handing out a chunk and taking one back keep. -/
structure PoolInvariant where
  holds : StagingBuffer → Prop
  allocate : ∀ {stagingBuffer after : StagingBuffer} {size ptr given : Nat}, holds stagingBuffer →
    stagingBuffer.allocate size = .ok (after, ptr, given) → holds after
  free : ∀ {stagingBuffer : StagingBuffer} {chunk : HeapChunk}, holds stagingBuffer →
    chunk ∈ stagingBuffer.allocator.live → holds (stagingBuffer.free chunk.ptr chunk.size)

/-- Every host allocation makes a staging buffer with the property. -/
def Surroundings.Creates (env : Surroundings) (I : PoolInvariant) : Prop :=
  ∀ n size usmHost, env.usmHost n size = some usmHost → I.holds (.create usmHost size)

namespace StagingBufferManager

/-- The trackers `all` account for all chunks, no chunk was freed that nobody held or that the
GPU still used, and the staging buffers have the property `I`. -/
structure Books (m : StagingBufferManager) (I : PoolInvariant) (all : List StagingBufferTracker) :
    Prop where
  accounts : Accounts m.stagingBuffers all
  clean : m.badFrees = []
  buffers : ∀ b ∈ m.stagingBuffers, I.holds b

/-- The manager's list and the trackers `others` account for all chunks. -/
def InOrder (m : StagingBufferManager) (I : PoolInvariant) (others : List StagingBufferTracker) :
    Prop := m.Books I (m.trackers ++ others)

variable {I : PoolInvariant} {m m' : StagingBufferManager} {all others : List StagingBufferTracker}
  {tracker : StagingBufferTracker}

theorem Books.perm {all' : List StagingBufferTracker} (books : m.Books I all)
    (perm : all.Perm all') : m.Books I all' :=
  ⟨books.accounts.perm perm, books.clean, books.buffers⟩

theorem InOrder.perm {others' : List StagingBufferTracker} (order : m.InOrder I others)
    (perm : others.Perm others') : m.InOrder I others' :=
  Books.perm order (perm.append_left _)

theorem InOrder.front (order : m.InOrder I (tracker :: others)) :
    m.Books I (tracker :: (m.trackers ++ others)) := Books.perm order List.perm_middle

theorem Books.unfront (books : m.Books I (tracker :: (m.trackers ++ others))) :
    m.InOrder I (tracker :: others) := books.perm List.perm_middle.symm

theorem InOrder.count (order : m.InOrder I (tracker :: others)) (count : Nat) :
    m.InOrder I ({ tracker with taskCountToWait := count } :: others) :=
  Books.unfront ⟨order.front.accounts.count count, order.clean, order.buffers⟩

theorem InOrder.null (order : m.InOrder I others) (null : tracker.chunkAddress = 0) :
    m.InOrder I (tracker :: others) :=
  Books.unfront ⟨order.accounts.null null, order.clean, order.buffers⟩

theorem InOrder.dropNull (order : m.InOrder I (tracker :: others))
    (null : tracker.chunkAddress = 0) : m.InOrder I others :=
  ⟨order.front.accounts.dropNull null, order.clean, order.buffers⟩

/-- Only the staging buffers, the shared list and the bad frees matter. -/
theorem InOrder.congr (order : m.InOrder I others) (buffers : m'.stagingBuffers = m.stagingBuffers)
    (trackers : m'.trackers = m.trackers) (badFrees : m'.badFrees = m.badFrees) :
    m'.InOrder I others := by
  unfold InOrder
  constructor
  · rw [buffers, trackers]
    exact order.accounts
  · rw [badFrees]
    exact order.clean
  · rw [buffers]
    exact order.buffers

@[simp] theorem freeChunk_trackers : (m.freeChunk tracker).trackers = m.trackers := by
  unfold freeChunk
  split
  · rfl
  · split <;> rfl

/-- Freeing a chunk that is accounted for and ready takes it off the books. -/
theorem freeChunk_books (books : m.Books I (tracker :: all)) (ready : m.isReady tracker = true) :
    (m.freeChunk tracker).Books I all := by
  unfold freeChunk
  split
  next missing =>
    -- a tracker without an allocator has no chunk
    refine ⟨books.accounts.dropNull ?_, books.clean, books.buffers⟩
    by_contra nonzero
    obtain ⟨index, _, own⟩ := books.accounts.known tracker (by simp) nonzero
    rw [missing] at own
    cases own
  next index own =>
    split
    next null => exact ⟨books.accounts.dropNull null, books.clean, books.buffers⟩
    next nonzero =>
      obtain ⟨stagingBuffer, found, member⟩ := books.accounts.holds own nonzero
      have held : m.isHeld tracker = true := by simp [isHeld, own, found, member]
      refine ⟨books.accounts.free own nonzero, by simp [held, ready, books.clean], ?_⟩
      intro b changed
      obtain ⟨i, changed⟩ := List.mem_iff_getElem?.mp changed
      rw [List.getElem?_modify, Option.map_eq_map] at changed
      obtain ⟨before, foundBefore, same⟩ := Option.map_eq_some_iff.mp changed
      have kept := books.buffers before (List.mem_of_getElem? foundBefore)
      split at same
      next here =>
        subst here same
        rw [Option.some.inj (foundBefore.symm.trans found)] at kept ⊢
        exact I.free kept member
      next => exact same ▸ kept

theorem freeChunk_inOrder (order : m.InOrder I (tracker :: others))
    (ready : m.isReady tracker = true) : (m.freeChunk tracker).InOrder I others := by
  unfold InOrder
  rw [freeChunk_trackers]
  exact freeChunk_books order.front ready

theorem clearTracked_inOrder (tracked : List StagingBufferTracker)
    (books : m.Books I (tracked ++ others)) : (clearTracked tracked m).InOrder I others := by
  induction tracked generalizing m with
  | nil => exact ⟨books.accounts, books.clean, books.buffers⟩
  | cons tracker rest ih =>
    unfold clearTracked
    split
    next ready => exact ih (freeChunk_books books ready)
    next => exact ⟨books.accounts, books.clean, books.buffers⟩

theorem clearTrackedChunks_inOrder (order : m.InOrder I others) (tags : Nat → Nat) :
    (m.clearTrackedChunks tags).InOrder I others :=
  clearTracked_inOrder m.trackers ⟨order.accounts, order.clean, order.buffers⟩

theorem trackChunk_inOrder (order : m.InOrder I (tracker :: others)) :
    (m.trackChunk tracker).InOrder I others := by
  have moved : m.trackers ++ tracker :: others = (m.trackers ++ [tracker]) ++ others := by simp
  have accounts := order.accounts
  rw [moved] at accounts
  exact ⟨accounts, order.clean, order.buffers⟩

theorem getExistingBuffer_inOrder {size : Nat} {chunk : StagingChunk} (csr : Nat)
    (order : m.InOrder I others) (returned : m.getExistingBuffer size = .ok (m', chunk)) :
    m'.InOrder I (chunk.tracker csr :: others) := by
  obtain ⟨⟨buffers, found⟩, searched, returned⟩ := bind_eq_ok.mp returned
  cases returned
  have start : Accounts m.stagingBuffers
      (StagingChunk.tracker ⟨none, 0, size⟩ csr :: (m.trackers ++ others)) :=
    order.accounts.null rfl
  have kept := getExistingBufferFrom_keeps
    (P := fun buffers chunk => Accounts buffers (chunk.tracker csr :: (m.trackers ++ others)) ∧
      ∀ b ∈ buffers, I.holds b) ?_ [] m.stagingBuffers rfl ⟨start, order.buffers⟩ searched
  · exact Books.unfront ⟨kept.1, order.clean, kept.2⟩
  · intro buffers index ptr given stagingBuffer after chunk found failed before allocated
    refine ⟨(before.1.dropNull failed).allocate csr found allocated, fun b member => ?_⟩
    rcases List.mem_or_eq_of_mem_set member with member | rfl
    · exact before.2 b member
    · exact I.allocate (before.2 stagingBuffer (List.mem_of_getElem? found)) allocated

theorem addStagingBuffer_inOrder {usmHost bufferSize size : Nat} {chunk : StagingChunk} (csr : Nat)
    (order : m.InOrder I others) (created : I.holds (.create usmHost bufferSize))
    (returned : m.addStagingBuffer usmHost bufferSize size = .ok (m', chunk)) :
    m'.InOrder I (chunk.tracker csr :: others) := by
  obtain ⟨⟨after, ptr, given⟩, allocated, returned⟩ := bind_eq_ok.mp returned
  cases returned
  have grown := order.accounts.append (.create usmHost bufferSize) rfl
  have last : (m.stagingBuffers ++ [.create usmHost bufferSize])[m.stagingBuffers.length]? =
      some (.create usmHost bufferSize) := by simp
  have served := grown.allocate csr last allocated
  rw [List.set_append_right _ _ (Nat.le_refl _), Nat.sub_self, List.set_cons_zero] at served
  refine Books.unfront ⟨served, order.clean, ?_⟩
  intro b member
  rcases List.mem_append.mp member with member | member
  · exact order.buffers b member
  · rw [List.mem_singleton.mp member]
    exact I.allocate created allocated

theorem retryStagingBuffer_inOrder {env : Surroundings} {chunkTransferId : Nat}
    {failed chunk : StagingChunk} (csr : Nat) (creates : env.Creates I)
    (order : m.InOrder I others) (null : failed.address = 0)
    (returned : m.retryStagingBuffer env chunkTransferId failed = .ok (m', chunk)) :
    m'.InOrder I (chunk.tracker csr :: others) := by
  obtain ⟨⟨m₁, retried⟩, again, went⟩ := bind_eq_ok.mp returned
  have order₁ := getExistingBuffer_inOrder csr order again
  simp only at went
  split at went
  next =>
    cases went
    exact order₁
  next failedAgain =>
    have order₁ := order₁.dropNull (by simpa [StagingChunk.tracker] using failedAgain)
    split at went
    next usmHost allocated =>
      exact addStagingBuffer_inOrder csr order₁ (creates _ _ _ allocated) went
    next =>
      cases went
      exact order₁.null null

/-- A requested chunk gets a tracker; a failed request leaves the ledger as it is. -/
theorem requestStagingBuffer_inOrder {env : Surroundings} {chunkTransferId size : Nat}
    {chunk : StagingChunk} (csr : Nat) (creates : env.Creates I) (order : m.InOrder I others)
    (returned : m.requestStagingBuffer env chunkTransferId size = .ok (m', chunk)) :
    m'.InOrder I (chunk.tracker csr :: others) := by
  obtain ⟨⟨m₁, first⟩, existing, went⟩ := bind_eq_ok.mp returned
  have order₁ := getExistingBuffer_inOrder csr order existing
  simp only at went
  split at went
  next =>
    cases went
    exact order₁
  next failed =>
    have null : first.address = 0 := by simpa using failed
    exact retryStagingBuffer_inOrder csr creates
      (clearTrackedChunks_inOrder (order₁.dropNull null) _) null went

end StagingBufferManager

end ComputeRuntime
