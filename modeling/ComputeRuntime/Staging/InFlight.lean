import ComputeRuntime.Staging.HostCopy

/-! A transfer whose chunks all succeed: each chunk fits its staging memory, the chunks in flight
do not disturb each other, and a read lands every byte of its chunks with the user. -/
namespace ComputeRuntime

open HeapAllocator Memory Tiling

namespace StagingBufferManager

section Chunks

variable {m : StagingBufferManager} {t₁ t₂ : StagingBufferTracker}
  {rest : List StagingBufferTracker}

/-- A chunk somebody holds lies in the user's part of the address space. -/
theorem InOrder.inside (order : m.InOrder soundBuffer (t₁ :: rest)) (nonzero : t₁.chunkAddress ≠ 0) :
    t₁.chunkAddress + t₁.size ≤ 2 ^ 57 := by
  obtain ⟨index, _, own⟩ := order.front.accounts.known t₁ (by simp) nonzero
  obtain ⟨b, found, member⟩ := order.front.accounts.holds own nonzero
  obtain ⟨bytes, below, inv⟩ := order.buffers b (List.mem_of_getElem? found)
  have within := (inv.within t₁.chunk member).2
  exact Nat.le_trans within below

/-- Two chunks of one staging buffer do not overlap. -/
theorem InOrder.apart (order : m.InOrder soundBuffer (t₁ :: t₂ :: rest))
    (first : t₁.chunkAddress ≠ 0) (second : t₂.chunkAddress ≠ 0)
    (same : t₁.allocator = t₂.allocator) :
    Disjoint (Set.Ico t₁.chunkAddress (t₁.chunkAddress + t₁.size))
      (Set.Ico t₂.chunkAddress (t₂.chunkAddress + t₂.size)) := by
  obtain ⟨index, _, own⟩ := order.front.accounts.known t₁ (by simp) first
  obtain ⟨b, found, _⟩ := order.front.accounts.holds own first
  obtain ⟨bytes, _, inv⟩ := order.buffers b (List.mem_of_getElem? found)
  have listed : (m.trackers ++ t₁ :: t₂ :: rest).Perm (t₁ :: t₂ :: (m.trackers ++ rest)) :=
    List.perm_middle.trans (List.perm_middle.cons t₁)
  have live := (order.accounts.owned index b found).trans (heldChunks_perm listed)
  rw [heldChunks_cons own first, heldChunks_cons (same ▸ own) second] at live
  have pieces := ((spans_perm live).append_right b.allocator.heap.freeSpans)
  have disjoint := (inv.tiles.perm pieces).disjoint
  simp only [spans_cons, List.cons_append, List.pairwise_cons, List.mem_cons] at disjoint
  exact disjoint.1 _ (Or.inl rfl)

end Chunks

end StagingBufferManager

/-- A chunk transfer uses a staging chunk that is large enough. -/
structure Submission.Fits (c : Submission) : Prop where
  nonzero : c.tracker.chunkAddress ≠ 0
  enough : c.userData.size ≤ c.tracker.size
  inside : c.tracker.chunkAddress + c.tracker.size ≤ 2 ^ 57

/-- What chunk `k` of a read shows when the wait for its slot copies it. -/
def Surroundings.slotSeen (env : Surroundings) (k : Nat) : Nat → UInt8 :=
  (env.slotWait (k + 2)).shows (env.staged k)

/-- What chunk `k` of a read of `count` chunks shows when it is copied to the user: the final drain
copies the last two. -/
def Surroundings.seen (env : Surroundings) (count k : Nat) : Nat → UInt8 :=
  if k + 2 < count then env.slotSeen k else (env.drainWait (k % 2)).shows (env.staged k)

/-- The user's memory, with what the chunks `done` showed read into it. -/
structure HostReads (seen : Nat → Nat → UInt8) (before : Nat → UInt8) (chunks : List Submission)
    (done : Nat → Prop) (host : Nat → UInt8) : Prop where
  copied : ∀ (k : Nat) (c : Submission), chunks[k]? = some c → done k → ∀ o ∈ c.userData.bytes,
    host (c.userData.ptr + o) = seen k o
  kept : ∀ a, (∀ c ∈ chunks, ∀ o ∈ c.userData.bytes, a ≠ c.userData.ptr + o) → host a = before a

/-- The user's data of the chunks, in rising order. -/
structure Ordered (chunks : List Submission) : Prop where
  sound : ∀ c ∈ chunks, c.userData.Sound
  word : ∀ c ∈ chunks, c.userData.ptr + c.userData.size < 2 ^ 64
  rising : chunks.Pairwise fun c d => c.userData.ptr + c.userData.size ≤ d.userData.ptr

theorem Ordered.nil : Ordered [] where
  sound := fun _ member => by cases member
  word := fun _ member => by cases member
  rising := List.Pairwise.nil

section HostReads

variable {seen : Nat → Nat → UInt8} {before host after : Nat → UInt8} {chunks : List Submission}
  {done : Nat → Prop}

theorem HostReads.start (seen : Nat → Nat → UInt8) (before : Nat → UInt8) (done : Nat → Prop) :
    HostReads seen before [] done before where
  copied := fun _ _ found => by cases found
  kept := fun _ _ => rfl

/-- The bytes of two chunks are apart. -/
theorem Ordered.apart (ordered : Ordered chunks) {i j : Nat} {c d : Submission}
    (first : chunks[i]? = some c) (second : chunks[j]? = some d) (other : i ≠ j) {o o' : Nat}
    (inC : o ∈ c.userData.bytes) (inD : o' ∈ d.userData.bytes) :
    c.userData.ptr + o ≠ d.userData.ptr + o' := by
  have lowC := (ordered.sound c (List.mem_of_getElem? first)).lt inC
  have lowD := (ordered.sound d (List.mem_of_getElem? second)).lt inD
  obtain ⟨hi, rfl⟩ := List.getElem?_eq_some_iff.mp first
  obtain ⟨hj, rfl⟩ := List.getElem?_eq_some_iff.mp second
  have rising := List.pairwise_iff_getElem.mp ordered.rising
  rcases Nat.lt_or_gt_of_ne other with less | greater
  · have := rising i j hi hj less
    omega
  · have := rising j i hj hi greater
    omega

/-- Landing one more chunk. -/
theorem HostReads.land (reads : HostReads seen before chunks done host) (ordered : Ordered chunks)
    {k : Nat} {c : Submission} (found : chunks[k]? = some c) {source : Nat → UInt8} {start : Nat}
    (copies : Copies source start c.userData.ptr c.userData.bytes host after)
    (shows : ∀ o < c.userData.size, source (start + o) = seen k o) :
    HostReads seen before chunks (fun j => done j ∨ j = k) after where
  copied := by
    intro j d at_j landed o member
    by_cases here : j = k
    · subst here
      rw [found, Option.some.injEq] at at_j
      subst at_j
      rw [copies.copied o member]
      exact shows o ((ordered.sound c (List.mem_of_getElem? found)).lt member)
    · rw [copies.kept]
      · exact reads.copied j d at_j (landed.resolve_right here) o member
      · exact fun o' member' => ordered.apart at_j found here member member'
  kept := by
    intro a outside
    rw [copies.kept a fun o member => outside c (List.mem_of_getElem? found) o member]
    exact reads.kept a outside

/-- A chunk that has not landed yet. -/
theorem HostReads.append (reads : HostReads seen before chunks done host) (c : Submission)
    (pending : ¬ done chunks.length) : HostReads seen before (chunks ++ [c]) done host where
  copied := by
    intro k d found landed o member
    rw [List.getElem?_append] at found
    split at found
    next => exact reads.copied k d found landed o member
    next high =>
      have last : k = chunks.length := by
        have := (List.getElem?_eq_some_iff.mp found).1
        simp at this
        omega
      exact absurd (last ▸ landed) pending
  kept := fun a outside => reads.kept a fun d member => outside d (by simp [member])

theorem HostReads.mono {done' : Nat → Prop} (reads : HostReads seen before chunks done host)
    (fewer : ∀ k < chunks.length, done' k → done k) :
    HostReads seen before chunks done' host where
  copied := fun k c found landed => reads.copied k c found
    (fewer k (List.getElem?_eq_some_iff.mp found).1 landed)
  kept := reads.kept

/-- Only what the chunks that are done showed matters. -/
theorem HostReads.congr {seen' : Nat → Nat → UInt8} (reads : HostReads seen before chunks done host)
    (same : ∀ k, done k → seen k = seen' k) : HostReads seen' before chunks done host where
  copied := fun k c found landed o member =>
    (reads.copied k c found landed o member).trans (congrFun (same k landed) o)
  kept := reads.kept

end HostReads

/-- A chunk of a read that the GPU works on: it is in its slot, and its staging memory holds what
the GPU read. -/
structure Submission.InSlot (c : Submission) (env : Surroundings) (k : Nat)
    (m : StagingBufferManager) (queue : StagingQueue) : Prop where
  slot : ∃ count, queue (k % 2) = some (c.userData, { c.tracker with taskCountToWait := count })
  staged : ∀ o < c.userData.size,
    m.stagingMemory c.tracker.allocator (c.tracker.chunkAddress + o) = env.staged k o

/-- The user's data of a new chunk come after those of the chunks before. -/
structure UserData.Joins (u : UserData) (chunks : List Submission) : Prop where
  sound : u.Sound
  word : u.ptr + u.size < 2 ^ 64
  later : ∀ c ∈ chunks, c.userData.ptr + c.userData.size ≤ u.ptr

theorem Ordered.append {chunks : List Submission} {u : UserData} (ordered : Ordered chunks)
    (joins : u.Joins chunks) (tracker : StagingBufferTracker) (args : ChunkArgs) :
    Ordered (chunks ++ [⟨u, tracker, args⟩]) where
  sound := by
    intro c member
    rcases List.mem_append.mp member with before | last
    · exact ordered.sound c before
    · obtain rfl := List.mem_singleton.mp last
      exact joins.sound
  word := by
    intro c member
    rcases List.mem_append.mp member with before | last
    · exact ordered.word c before
    · obtain rfl := List.mem_singleton.mp last
      exact joins.word
  rising := by
    refine List.pairwise_append.mpr ⟨ordered.rising, List.pairwise_singleton _ _, ?_⟩
    intro c before d last
    obtain rfl := List.mem_singleton.mp last
    exact joins.later c before

namespace StagingBufferManager

variable {env : Surroundings} {isRead : Bool} {need : Nat → Nat} {fuel csr : Nat}
  {lost : List StagingBufferTracker} {m₀ m m₁ : StagingBufferManager} {chunks : List Submission}
  {queue : StagingQueue} {userData : UserData} {args : ChunkArgs} {tracker : StagingBufferTracker}

/-- Between two chunks of a transfer that began in `m₀`: the last two chunks of a read are in
their slots, slot `i` with room for `need i` bytes, and the chunks before them have landed. -/
structure Running (env : Surroundings) (isRead : Bool) (need : Nat → Nat)
    (lost : List StagingBufferTracker) (m₀ : StagingBufferManager) (chunks : List Submission)
    (m : StagingBufferManager) (queue : StagingQueue) : Prop where
  submissions : m.submissions = m₀.submissions ++ chunks
  chunkSize : m.chunkSize = m₀.chunkSize
  holding : Holding soundBuffer True isRead lost chunks.length m queue
  fits : ∀ c ∈ chunks, c.Fits
  ordered : Ordered chunks
  copyable : isRead = true → ∀ c ∈ chunks, c.userData.Copyable
  roomy : isRead = true → ∀ (k : Nat) (c : Submission), chunks[k]? = some c →
    need (k % 2) ≤ c.tracker.size
  slots : isRead = true → ∀ (k : Nat) (c : Submission), chunks[k]? = some c →
    chunks.length ≤ k + 2 → c.InSlot env k m queue
  landed : isRead = true →
    HostReads env.slotSeen m₀.hostMemory chunks (fun k => k + 2 < chunks.length) m.hostMemory

theorem Running.start (order : m.InOrder soundBuffer lost) :
    Running env isRead need lost m [] m emptyQueue where
  submissions := (List.append_nil _).symm
  chunkSize := rfl
  holding := .start isRead order
  fits := fun _ member => by cases member
  ordered := .nil
  copyable := fun _ _ member => by cases member
  roomy := fun _ _ _ found => by cases found
  slots := fun _ _ _ found => by cases found
  landed := fun _ => .start env.slotSeen m.hostMemory _

theorem Running.order (running : Running env isRead need lost m₀ chunks m queue) :
    m.InOrder soundBuffer (queued queue ++ lost) := by
  obtain ⟨extra, order, none⟩ := running.holding.order
  rw [none trivial] at order
  exact order

/-- What becomes of a chunk once it has its staging memory. -/
theorem transferThrough_sends (m : StagingBufferManager) (isRead : Bool) (userData : UserData)
    (args : ChunkArgs) (queue : StagingQueue) {id : Nat} (called : env.func id = 0)
    (nonzero : tracker.chunkAddress ≠ 0) :
    ∃ m' queue', m.transferThrough env id isRead userData args queue tracker =
        .ok (m', queue', .success) ∧
      m'.submissions = m.submissions ++ [⟨userData, tracker, args⟩] ∧
      m'.chunkSize = m.chunkSize ∧ m'.hostMemory = m.hostMemory ∧
      (isRead = true →
        m'.stagingMemory = Function.update m.stagingMemory tracker.allocator
          (copy (env.staged id) 0 userData.size tracker.chunkAddress
            (m.stagingMemory tracker.allocator)) ∧
        queue' = Function.update queue (id % 2)
          (some (userData, { tracker with taskCountToWait := env.peekTaskCount id }))) := by
  have success : (⟨env.func id, .ready⟩ : StagingTransferStatus) = .success := by
    rw [called]
    rfl
  cases isRead with
  | true =>
    refine ⟨m.submit env id true ⟨userData, tracker, args⟩, _, bind_eq_ok.mpr ⟨m, rfl, ?_⟩,
      rfl, rfl, rfl, fun _ => ⟨rfl, rfl⟩⟩
    rw [success]
    rfl
  | false =>
    have filled : ∃ m₁, m.fillStaging false userData tracker = .ok m₁ ∧
        m₁.submissions = m.submissions ∧ m₁.chunkSize = m.chunkSize ∧
        m₁.hostMemory = m.hostMemory := by
      unfold fillStaging memcpyToStaging
      rw [if_neg (by decide), if_neg fun null => nonzero null.1]
      exact ⟨_, rfl, rfl, rfl, rfl⟩
    obtain ⟨m₁, filled, submissions, chunkSize, hostMemory⟩ := filled
    refine ⟨(m₁.submit env id false ⟨userData, tracker, args⟩).trackChunk
        { tracker with taskCountToWait := env.peekTaskCount id }, queue,
      bind_eq_ok.mpr ⟨m₁, filled, ?_⟩, congrArg (· ++ _) submissions, chunkSize, hostMemory,
      fun read => by cases read⟩
    rw [success]
    rfl

private theorem singleton_found {k : Nat} {c d : Submission} (found : [c][k]? = some d) :
    k = 0 ∧ d = c := by
  obtain ⟨low, rfl⟩ := List.getElem?_eq_some_iff.mp found
  have first : k = 0 := by simpa using low
  exact ⟨first, by simp⟩

/-- The two slots, when both are taken. -/
theorem queued_both {i j : Nat} {u v : UserData} {s t : StagingBufferTracker}
    (first : queue i = some (u, s)) (second : queue j = some (v, t)) (low : i < 2) (low' : j < 2)
    (other : i ≠ j) : (queued queue).Perm [s, t] := by
  have slots : i = 0 ∧ j = 1 ∨ i = 1 ∧ j = 0 := by omega
  rcases slots with ⟨rfl, rfl⟩ | ⟨rfl, rfl⟩
  · simp [queued, slotTrackers, first, second]
  · simp only [queued, slotTrackers, first, second, Option.map_some, Option.toList_some]
    exact List.Perm.swap s t []

/-- The step of every chunk, from the point where the slot it reuses has landed. -/
theorem Running.send (running : Running env isRead need lost m₀ chunks m queue)
    (creates : env.Creates soundBuffer) (called : env.func chunks.length = 0)
    (performed : m.performChunkTransfer env fuel chunks.length isRead userData args csr queue =
      m₁.transferThrough env chunks.length isRead userData args queue tracker)
    (submissions : m₁.submissions = m.submissions) (chunkSize : m₁.chunkSize = m.chunkSize)
    (stagingMemory : m₁.stagingMemory = m.stagingMemory)
    (landed : isRead = true → HostReads env.slotSeen m₀.hostMemory chunks
      (fun k => k + 2 ≤ chunks.length) m₁.hostMemory)
    (joins : userData.Joins chunks) (copyable : isRead = true → userData.Copyable)
    (fits : Submission.Fits ⟨userData, tracker, args⟩)
    (roomy : isRead = true → need (chunks.length % 2) ≤ tracker.size) :
    ∃ m' queue', m.performChunkTransfer env fuel chunks.length isRead userData args csr queue =
        .ok (m', queue', .success) ∧
      Running env isRead need lost m₀ (chunks ++ [⟨userData, tracker, args⟩]) m' queue' := by
  have nonzero : tracker.chunkAddress ≠ 0 := fits.nonzero
  obtain ⟨m', queue', sent, submitted, sameSize, host, read⟩ :=
    transferThrough_sends m₁ isRead userData args queue called nonzero
  have returned := performed.trans sent
  obtain ⟨holding, _⟩ := running.holding.performChunkTransfer creates returned
  have length : (chunks ++ [Submission.mk userData tracker args]).length = chunks.length + 1 := by
    simp
  refine ⟨m', queue', returned, ?_⟩
  refine ⟨?_, ?_, ?_, ?_, running.ordered.append joins tracker args, ?_, ?_, ?_, ?_⟩
  · rw [submitted, submissions, running.submissions, List.append_assoc]
  · rw [sameSize, chunkSize, running.chunkSize]
  · rw [length]
    exact holding
  · intro c member
    rcases List.mem_append.mp member with before | last
    · exact running.fits c before
    · obtain rfl := List.mem_singleton.mp last
      exact fits
  · intro reads c member
    rcases List.mem_append.mp member with before | last
    · exact running.copyable reads c before
    · obtain rfl := List.mem_singleton.mp last
      exact copyable reads
  · intro reads k c found
    rw [List.getElem?_append] at found
    split at found
    next => exact running.roomy reads k c found
    next high =>
      obtain ⟨here, rfl⟩ := singleton_found found
      have last : k = chunks.length := by omega
      exact last ▸ roomy reads
  · intro reads k c found recent
    rw [length] at recent
    obtain ⟨staging, filled⟩ := read reads
    rw [List.getElem?_append] at found
    split at found
    next before =>
      -- the chunk just before stays in the other slot
      have other : k % 2 ≠ chunks.length % 2 := by omega
      obtain ⟨⟨count, slot⟩, staged⟩ := running.slots reads k c found (by omega)
      have slot' : queue' (k % 2) =
          some (c.userData, { c.tracker with taskCountToWait := count }) := by
        rw [filled, Function.update_of_ne other]
        exact slot
      refine ⟨⟨count, slot'⟩, fun o inside => ?_⟩
      rw [staging, ← staged o inside, ← stagingMemory]
      by_cases same : c.tracker.allocator = tracker.allocator
      · have cFits := running.fits c (List.mem_of_getElem? found)
        obtain ⟨extra, order, none⟩ := holding.order
        have new : queue' (chunks.length % 2) = _ := filled ▸ Function.update_self _ _ _
        have both := queued_both slot' new (Nat.mod_lt _ (by omega)) (Nat.mod_lt _ (by omega)) other
        have apart := InOrder.apart (order.perm (both.append_right _)) cFits.nonzero fits.nonzero same
        have within : c.tracker.chunkAddress + o ∈ Set.Ico c.tracker.chunkAddress
            (c.tracker.chunkAddress + c.tracker.size) := by
          have := cFits.enough
          exact ⟨by omega, by omega⟩
        have outside : c.tracker.chunkAddress + o ∉ Set.Ico tracker.chunkAddress
            (tracker.chunkAddress + tracker.size) := Set.disjoint_left.mp apart within
        have enough : userData.size ≤ tracker.size := fits.enough
        rw [Set.mem_Ico] at outside
        rw [same, Function.update_self, copy_kept (by omega)]
      · rw [Function.update_of_ne same]
    next high =>
      obtain ⟨here, rfl⟩ := singleton_found found
      have last : k = chunks.length := by omega
      subst last
      refine ⟨⟨env.peekTaskCount chunks.length, filled ▸ Function.update_self _ _ _⟩, ?_⟩
      intro o inside
      have within : tracker.chunkAddress ≤ tracker.chunkAddress + o ∧
          tracker.chunkAddress + o < tracker.chunkAddress + userData.size := by
        simp only at inside
        omega
      rw [staging, Function.update_self, copy_eq within]
      congr 1
      simp
  · intro reads
    rw [host, length]
    refine (landed reads).append _ (by omega) |>.mono fun k _ done => ?_
    omega

/-- A chunk whose request for new staging memory was served: one of a write, or one of the first two
of a read. -/
theorem Running.requested (running : Running env isRead need lost m₀ chunks m queue)
    (creates : env.Creates soundBuffer) (called : env.func chunks.length = 0)
    (fresh : ¬ (isRead = true ∧ maxInFlightReads ≤ chunks.length)) {chunk : StagingChunk}
    (requested : m.requestStagingBuffer env chunks.length userData.size = .ok (m₁, chunk))
    (nonzero : chunk.address ≠ 0) (enough : userData.size ≤ chunk.size) (only : PoolOnly m m₁)
    (joins : userData.Joins chunks) (copyable : isRead = true → userData.Copyable)
    (large : isRead = true → need chunks.length ≤ userData.size) :
    ∃ m' queue' tracker, m.performChunkTransfer env fuel chunks.length isRead userData args csr
        queue = .ok (m', queue', .success) ∧
      Running env isRead need lost m₀ (chunks ++ [⟨userData, tracker, args⟩]) m' queue' := by
  have order₁ := requestStagingBuffer_inOrder csr creates running.order requested
  have performed : m.performChunkTransfer env fuel chunks.length isRead userData args csr queue =
      m₁.transferThrough env chunks.length isRead userData args queue (chunk.tracker csr) := by
    unfold performChunkTransfer
    rw [if_neg fresh, requested]
    rfl
  have fits : Submission.Fits ⟨userData, chunk.tracker csr, args⟩ :=
    ⟨nonzero, enough, InOrder.inside order₁ nonzero⟩
  have landed : isRead = true → HostReads env.slotSeen m₀.hostMemory chunks
      (fun k => k + 2 ≤ chunks.length) m₁.hostMemory := by
    intro reads
    rw [only.hostMemory]
    refine (running.landed reads).mono fun k below done => ?_
    simp only [reads, maxInFlightReads, true_and] at fresh
    omega
  have roomy : isRead = true → need (chunks.length % 2) ≤ chunk.size := by
    intro reads
    have early : chunks.length % 2 = chunks.length := Nat.mod_eq_of_lt (by
      simp only [reads, maxInFlightReads, true_and] at fresh
      omega)
    rw [early]
    exact Nat.le_trans (large reads) enough
  obtain ⟨m', queue', returned, after⟩ := running.send creates called performed
    only.submissions only.chunkSize only.stagingMemory landed joins copyable fits roomy
  exact ⟨m', queue', chunk.tracker csr, returned, after⟩

/-- With a host that has memory, the request is served. -/
theorem Running.request (running : Running env isRead need lost m₀ chunks m queue)
    (sane : env.SaneHost) (called : env.func chunks.length = 0)
    (fresh : ¬ (isRead = true ∧ maxInFlightReads ≤ chunks.length))
    (room : max m₀.chunkSize userData.size + 0x400000 < 2 ^ 64)
    (supplied : Supplied env m₀ chunks.length userData.size) (joins : userData.Joins chunks)
    (copyable : isRead = true → userData.Copyable)
    (large : isRead = true → need chunks.length ≤ userData.size) :
    ∃ m' queue' tracker, m.performChunkTransfer env fuel chunks.length isRead userData args csr
        queue = .ok (m', queue', .success) ∧
      Running env isRead need lost m₀ (chunks ++ [⟨userData, tracker, args⟩]) m' queue' := by
  obtain ⟨m₁, chunk, requested, nonzero, enough, only⟩ := requestStagingBuffer_serves sane
    (by rw [running.chunkSize]; exact room) running.order (supplied.congr running.chunkSize)
  exact running.requested sane.creates called fresh requested nonzero enough only joins copyable large

/-- After a wait a chunk shows what the GPU put into it, or what the wait says. -/
theorem shown_bytes {wait : TaskCountWait} {staged : Nat → UInt8} {o : Nat}
    (inside : o < userData.size)
    (holds : m.stagingMemory tracker.allocator (tracker.chunkAddress + o) = staged o) :
    (m.shown userData tracker wait).stagingMemory tracker.allocator (tracker.chunkAddress + o) =
      wait.shows staged o := by
  unfold shown TaskCountWait.shows
  split
  next => exact holds
  next =>
    have within : tracker.chunkAddress ≤ tracker.chunkAddress + o ∧
        tracker.chunkAddress + o < tracker.chunkAddress + userData.size := by omega
    simp only [Function.update_self]
    rw [copy_eq within]
    congr 1
    omega

/-- A wait that comes back lands the chunk in a slot as it shows then. -/
theorem InSlot.land {k : Nat} {c : Submission} {seen : Nat → Nat → UInt8} {before : Nat → UInt8}
    {done : Nat → Prop} {wait : TaskCountWait}
    (inSlot : c.InSlot env k m queue) (fits : c.Fits) (ordered : Ordered chunks)
    (copyable : c.userData.Copyable) (found : chunks[k]? = some c)
    (same : m₁.stagingMemory = m.stagingMemory) (goesOn : wait.status ≠ .gpuHang)
    (shows : seen k = wait.shows (env.staged k))
    (reads : HostReads seen before chunks done m₁.hostMemory) (enough : 2 ^ 32 ≤ fuel) :
    ∃ tracker m₂, queue (k % 2) = some (c.userData, tracker) ∧
      tracker.allocator = c.tracker.allocator ∧ tracker.chunkAddress = c.tracker.chunkAddress ∧
      tracker.size = c.tracker.size ∧
      m₁.copyStagingToHost fuel (c.userData, tracker) wait = .ok (m₂, some tracker) ∧
      m₂.submissions = m₁.submissions ∧ m₂.chunkSize = m₁.chunkSize ∧
      m₂.stagingMemory = m₁.stagingMemory ∧
      HostReads seen before chunks (fun j => done j ∨ j = k) m₂.hostMemory := by
  obtain ⟨⟨count, slot⟩, staged⟩ := inSlot
  have member := List.mem_of_getElem? found
  have inside := fits.inside
  have enoughRoom := fits.enough
  let tracker : StagingBufferTracker := { c.tracker with taskCountToWait := count }
  obtain ⟨⟨completed, waited⟩, -⟩ := m₁.afterWait_spec tracker wait
  have host : ((m₁.afterWait tracker wait).shown c.userData tracker wait).hostMemory =
      m₁.hostMemory := by
    rw [waited, shown]
    split <;> rfl
  obtain ⟨m₂, copied, hostMemory, rfl, copies⟩ :=
    copyToUser_bytes (m := (m₁.afterWait tracker wait).shown c.userData tracker wait)
      (ordered.sound c member) copyable fits.nonzero
      (show c.tracker.chunkAddress + c.userData.size < 2 ^ 64 by omega) (ordered.word c member) enough
  rw [host] at copies
  have returned : m₁.copyStagingToHost fuel (c.userData, tracker) wait =
      .ok ({ m₁.afterWait tracker wait with hostMemory }, some tracker) := by
    unfold copyStagingToHost
    rw [if_neg goesOn]
    exact bind_eq_ok.mpr ⟨_, copied, rfl⟩
  refine ⟨tracker, _, slot, rfl, rfl, rfl, returned, ?_, ?_, ?_, ?_⟩
  · rw [waited]
  · rw [waited]
  · rw [waited]
  · refine reads.land ordered found copies fun o below => ?_
    rw [shows]
    refine shown_bytes below ?_
    rw [waited, ← staged o below, ← same]

/-- A later chunk of a read goes through the staging memory of the chunk two before. -/
theorem Running.reuse (running : Running env isRead need lost m₀ chunks m queue)
    (creates : env.Creates soundBuffer) (called : env.func chunks.length = 0)
    (silent : (env.slotWait chunks.length).status ≠ .gpuHang) (read : isRead = true)
    (later : maxInFlightReads ≤ chunks.length) (joins : userData.Joins chunks)
    (copyable : userData.Copyable) (small : userData.size ≤ need (chunks.length % 2))
    (enough : 2 ^ 32 ≤ fuel) :
    ∃ m' queue' tracker, m.performChunkTransfer env fuel chunks.length isRead userData args csr
        queue = .ok (m', queue', .success) ∧
      Running env isRead need lost m₀ (chunks ++ [⟨userData, tracker, args⟩]) m' queue' := by
  simp only [maxInFlightReads] at later
  obtain ⟨c, found⟩ : ∃ c, chunks[chunks.length - 2]? = some c :=
    ⟨_, List.getElem?_eq_getElem (by omega)⟩
  have parity : (chunks.length - 2) % 2 = chunks.length % 2 := by omega
  have fits := running.fits c (List.mem_of_getElem? found)
  have roomy := running.roomy read _ c found
  obtain ⟨tracker, m₁, slot, allocator, address, size, copied, submissions, chunkSize,
    stagingMemory, host⟩ := InSlot.land (running.slots read _ c found (by omega)) fits
      running.ordered (running.copyable read c (List.mem_of_getElem? found)) found rfl silent
      (by rw [Surroundings.slotSeen, Nat.sub_add_cancel later]) (running.landed read) enough
  rw [parity] at slot roomy
  have performed : m.performChunkTransfer env fuel chunks.length isRead userData args csr queue =
      m₁.transferThrough env chunks.length isRead userData args queue tracker := by
    unfold performChunkTransfer
    have taken : queue (chunks.length % maxInFlightReads) = some (c.userData, tracker) := slot
    rw [if_pos ⟨read, later⟩, taken]
    simp only [copied]
    rfl
  have landed : isRead = true → HostReads env.slotSeen m₀.hostMemory chunks
      (fun k => k + 2 ≤ chunks.length) m₁.hostMemory :=
    fun _ => host.mono fun k _ done => by omega
  have newFits : Submission.Fits ⟨userData, tracker, args⟩ := by
    refine ⟨?_, ?_, ?_⟩
    · exact address ▸ fits.nonzero
    · simp only [size]
      omega
    · simp only [address, size]
      exact fits.inside
  obtain ⟨m', queue', returned, after⟩ := running.send creates called performed submissions
    chunkSize stagingMemory landed joins (fun _ => copyable) newFits fun _ => size ▸ roomy
  exact ⟨m', queue', tracker, returned, after⟩

/-- The next chunk of a transfer, whichever staging memory it goes through. -/
theorem Running.next (running : Running env isRead need lost m₀ chunks m queue)
    (args : ChunkArgs) (csr : Nat) (sane : env.SaneHost) (called : env.func chunks.length = 0)
    (silent : (env.slotWait chunks.length).status ≠ .gpuHang)
    (room : max m₀.chunkSize userData.size + 0x400000 < 2 ^ 64)
    (supplied : Supplied env m₀ chunks.length userData.size) (joins : userData.Joins chunks)
    (copyable : isRead = true → userData.Copyable)
    (large : isRead = true → chunks.length < 2 → need chunks.length ≤ userData.size)
    (small : isRead = true → 2 ≤ chunks.length → userData.size ≤ need (chunks.length % 2))
    (enough : 2 ^ 32 ≤ fuel) :
    ∃ m' queue' tracker, m.performChunkTransfer env fuel chunks.length isRead userData args csr
        queue = .ok (m', queue', .success) ∧
      Running env isRead need lost m₀ (chunks ++ [⟨userData, tracker, args⟩]) m' queue' := by
  by_cases reuses : isRead = true ∧ maxInFlightReads ≤ chunks.length
  · obtain ⟨read, later⟩ := reuses
    exact running.reuse sane.creates called silent read later joins (copyable read)
      (small read later) enough
  · refine running.request sane called reuses room supplied joins copyable fun read => large read ?_
    simp only [read, maxInFlightReads, true_and] at reuses
    omega

/-- The drain loop lands the chunks in the slots it reaches. -/
private theorem Running.drainFrom (running : Running env isRead need lost m₀ chunks m queue)
    (read : isRead = true)
    (silent : ∀ i < min chunks.length 2, (env.drainWait i).status ≠ .gpuHang)
    (enough : 2 ^ 32 ≤ fuel) (left : Nat) {i : Nat} (slots : i + left = min chunks.length 2)
    (stagingMemory : m₁.stagingMemory = m.stagingMemory)
    (submissions : m₁.submissions = m.submissions)
    (host : HostReads (env.seen chunks.length) m₀.hostMemory chunks
      (fun k => k + 2 < chunks.length ∨ k % 2 < i) m₁.hostMemory) :
    ∃ m', StagingBufferManager.drainFrom env fuel queue left i m₁ = .ok (m', .ready) ∧
      m'.submissions = m.submissions ∧ HostReads (env.seen chunks.length) m₀.hostMemory chunks
        (fun k => k + 2 < chunks.length ∨ k % 2 < i + left) m'.hostMemory := by
  induction left generalizing i m₁ with
  | zero => exact ⟨m₁, rfl, submissions, host⟩
  | succ left ih =>
    -- the number of the chunk that is in slot `i`
    obtain ⟨k, below, recent, parity⟩ :
        ∃ k, k < chunks.length ∧ chunks.length ≤ k + 2 ∧ k % 2 = i := by
      by_cases last : (chunks.length - 1) % 2 = i
      · exact ⟨chunks.length - 1, by omega, by omega, last⟩
      · exact ⟨chunks.length - 2, by omega, by omega, by omega⟩
    have found := List.getElem?_eq_getElem below
    have fits := running.fits _ (List.mem_of_getElem? found)
    have member := List.mem_of_getElem? found
    obtain ⟨tracker, m₂, slot, _, _, _, copied, submitted, _, staging, landed⟩ :=
      InSlot.land (running.slots read k _ found recent) fits running.ordered
        (running.copyable read _ member) found stagingMemory (silent i (by omega))
        (by rw [Surroundings.seen, if_neg (by omega), parity]) host enough
    rw [parity] at slot
    have freed := freeChunk_poolOnly m₂ tracker
    have done : HostReads (env.seen chunks.length) m₀.hostMemory chunks
        (fun j => j + 2 < chunks.length ∨ j % 2 < i + 1) (m₂.freeChunk tracker).hostMemory := by
      rw [freed.hostMemory]
      exact landed.mono fun j _ done => by omega
    obtain ⟨m', drained, submitted', host'⟩ := ih (by omega)
      (freed.stagingMemory.trans (staging.trans stagingMemory))
      (freed.submissions.trans (submitted.trans submissions)) done
    refine ⟨m', ?_, submitted', host'.mono fun j _ done => by omega⟩
    unfold StagingBufferManager.drainFrom
    rw [slot]
    simp only [copied]
    exact drained

/-- The final drain lands the chunks that are still in their slots. -/
theorem Running.drain (running : Running env isRead need lost m₀ chunks m queue)
    (silent : ∀ i < min chunks.length 2, (env.drainWait i).status ≠ .gpuHang)
    (enough : 2 ^ 32 ≤ fuel) :
    ∃ m', m.drainAndReleaseStagingQueue env fuel isRead queue chunks.length =
        .ok (m', .ready) ∧
      m'.submissions = m₀.submissions ++ chunks ∧
      (isRead = true →
        HostReads (env.seen chunks.length) m₀.hostMemory chunks (fun _ => True) m'.hostMemory) := by
  unfold drainAndReleaseStagingQueue
  cases read : isRead with
  | false => exact ⟨m, rfl, running.submissions, fun reads => by cases reads⟩
  | true =>
    rw [if_pos rfl]
    obtain ⟨m', drained, submissions, host⟩ := running.drainFrom read silent enough
      (min chunks.length 2) (Nat.zero_add _) rfl rfl
      (((running.landed read).congr fun k done => (if_pos done).symm).mono
        fun k _ done => by omega)
    refine ⟨m', drained, submissions.trans running.submissions, fun _ => host.mono ?_⟩
    intro k below _
    omega

end StagingBufferManager

end ComputeRuntime
