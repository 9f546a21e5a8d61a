import ComputeRuntime.Staging.InFlight

/-! What the status of a buffer read tells about its waits. A hang of the final drain is the status
of the read; a hang of a wait for a slot costs a chunk, and the drain's status replaces it. A wait
that comes back before the GPU is done costs the bytes that are missing then. -/
namespace ComputeRuntime

open Loop Transition

/-- A read of some bytes of a buffer into the user's memory. -/
structure BufferRead where
  ptr : Nat
  globalOffset : Nat
  globalSize : Nat
  csr : Nat
  deriving DecidableEq

namespace BufferRead

/-- The number of chunks the read is cut into. -/
def chunkCount (q : BufferRead) (chunkSize : Nat) : Nat :=
  q.globalSize / chunkSize + if q.globalSize % chunkSize ≠ 0 then 1 else 0

/-- The bytes of chunk `k`: only the last chunk may be smaller than the others. -/
def chunkBytes (q : BufferRead) (chunkSize k : Nat) : Nat :=
  min chunkSize (q.globalSize - k * chunkSize)

def userData (q : BufferRead) (chunkSize k : Nat) : UserData :=
  ⟨q.ptr + k * chunkSize, q.chunkBytes chunkSize k, ⟨0, 0, 0, 0, 0, 0⟩, false⟩

/-- What the callback of chunk `k` is given. -/
def args (q : BufferRead) (chunkSize k : Nat) : ChunkArgs :=
  .buffer (add64 q.globalOffset (k * chunkSize)) (q.chunkBytes chunkSize k)

/-- The chunks are the first ones of the read, in order. -/
def Planned (q : BufferRead) (chunkSize : Nat) (chunks : List Submission) : Prop :=
  ∀ (k : Nat) (c : Submission), chunks[k]? = some c →
    c.userData = q.userData chunkSize k ∧ c.args = q.args chunkSize k

/-- Every chunk of the read was submitted, and every byte of the user's memory is the one that the
GPU put into the staging chunk of its transfer. -/
structure Delivered (q : BufferRead) (env : Surroundings) (m m' : StagingBufferManager) : Prop where
  submitted : ∃ chunks, m'.submissions = m.submissions ++ chunks ∧
    chunks.length = q.chunkCount m.chunkSize ∧ q.Planned m.chunkSize chunks
  copied : ∀ o < q.globalSize,
    m'.hostMemory (q.ptr + o) = env.staged (o / m.chunkSize) (o % m.chunkSize)

/-- The read is into the user's part of the address space, from an offset that is a word. -/
structure Sound (q : BufferRead) : Prop where
  userMemory : q.ptr + q.globalSize ≤ 2 ^ 57
  offset : q.globalOffset < 2 ^ 64

section Chunks

variable {q : BufferRead} {chunkSize k : Nat}

theorem chunkBytes_eq (full : k < q.globalSize / chunkSize) :
    q.chunkBytes chunkSize k = chunkSize := by
  have below : (k + 1) * chunkSize ≤ q.globalSize :=
    (Nat.mul_le_mul_right _ full).trans (Nat.div_mul_le_self _ _)
  rw [Nat.succ_mul] at below
  exact Nat.min_eq_left (by omega)

theorem chunkBytes_last (positive : 0 < chunkSize) :
    q.chunkBytes chunkSize (q.globalSize / chunkSize) = q.globalSize % chunkSize := by
  have split := Nat.div_add_mod' q.globalSize chunkSize
  have small := Nat.mod_lt q.globalSize positive
  unfold chunkBytes
  omega

/-- A chunk of the read begins in front of its end. -/
theorem chunk_start (positive : 0 < chunkSize) (listed : k < q.chunkCount chunkSize) :
    k * chunkSize < q.globalSize := by
  have split := Nat.div_add_mod' q.globalSize chunkSize
  unfold chunkCount at listed
  rcases Nat.lt_or_ge k (q.globalSize / chunkSize) with full | last
  · have below := Nat.mul_le_mul_right chunkSize full
    rw [Nat.succ_mul] at below
    omega
  · split at listed
    next odd =>
      obtain rfl : k = q.globalSize / chunkSize := by omega
      omega
    next => omega

theorem chunkBytes_pos (positive : 0 < chunkSize) (listed : k < q.chunkCount chunkSize) :
    0 < q.chunkBytes chunkSize k := by
  have start := chunk_start positive listed
  unfold chunkBytes
  omega

theorem chunk_end (positive : 0 < chunkSize) (listed : k < q.chunkCount chunkSize) :
    k * chunkSize + q.chunkBytes chunkSize k ≤ q.globalSize := by
  have start := chunk_start positive listed
  unfold chunkBytes
  omega

/-- The chunk that has a byte of the read. -/
theorem chunk_of (positive : 0 < chunkSize) {o : Nat} (inside : o < q.globalSize) :
    o / chunkSize < q.chunkCount chunkSize ∧
      o % chunkSize < q.chunkBytes chunkSize (o / chunkSize) := by
  have split := Nat.div_add_mod' o chunkSize
  have small := Nat.mod_lt o positive
  have whole := Nat.div_add_mod' q.globalSize chunkSize
  constructor
  · have quotient : o / chunkSize ≤ q.globalSize / chunkSize :=
      Nat.div_le_div_right (Nat.le_of_lt inside)
    unfold chunkCount
    split
    next => omega
    next even =>
      rw [Nat.add_zero]
      refine Nat.lt_of_le_of_ne quotient fun same => ?_
      rw [same] at split
      omega
  · unfold chunkBytes
    omega

/-- A chunk has no more bytes than the ones in front of it. -/
theorem chunkBytes_le {j : Nat} (before : j < k) :
    q.chunkBytes chunkSize k ≤ q.chunkBytes chunkSize j := by
  have below := Nat.mul_le_mul_right chunkSize (Nat.le_of_lt before)
  exact min_le_min_left _ (by omega)

theorem Planned.append {chunks : List Submission} (planned : q.Planned chunkSize chunks)
    (tracker : StagingBufferTracker) :
    q.Planned chunkSize (chunks ++ [⟨q.userData chunkSize chunks.length, tracker,
      q.args chunkSize chunks.length⟩]) := by
  intro k c found
  rw [List.getElem?_append] at found
  split at found
  next => exact planned k c found
  next high =>
    obtain ⟨low, rfl⟩ := List.getElem?_eq_some_iff.mp found
    have last : k = chunks.length := by
      simp only [List.length_singleton] at low
      omega
    subst last
    simp

/-- The user's memory of the next chunk lies behind that of the chunks before. -/
theorem Planned.joins {chunks : List Submission} (planned : q.Planned chunkSize chunks)
    (positive : 0 < chunkSize) (sound : q.Sound)
    (listed : chunks.length < q.chunkCount chunkSize) :
    (q.userData chunkSize chunks.length).Joins chunks where
  sound := fun image => by cases image
  word := by
    have stop := chunk_end positive listed
    have user := sound.userMemory
    simp only [userData]
    omega
  later := by
    intro c member
    obtain ⟨k, below, rfl⟩ := List.mem_iff_getElem.mp member
    have planned := (planned k _ (List.getElem?_eq_getElem below)).1
    have full : q.chunkBytes chunkSize k ≤ chunkSize := Nat.min_le_left _ _
    have next := Nat.mul_le_mul_right chunkSize (Nat.succ_le_of_lt below)
    rw [Nat.succ_mul] at next
    rw [planned]
    simp only [userData]
    omega

end Chunks

end BufferRead

/-- One of the slots of the first `n` chunks holds a null chunk for some bytes. -/
def HoldsNull (n : Nat) (queue : StagingQueue) : Prop :=
  ∃ i < min n maxInFlightReads, ∃ u tracker, queue i = some (u, tracker) ∧
    tracker.chunkAddress = 0 ∧ u.size ≠ 0 ∧ u.isImageOperation = false

/-- Chunk `k` of a read calls its callback: the wait for its slot does not hang. -/
def CallsBack (env : Surroundings) (k : Nat) : Prop :=
  k < maxInFlightReads ∨ (env.slotWait k).status ≠ .gpuHang

/-- No wait comes back before the bytes of its chunk are there. -/
def BufferRead.Awaited (q : BufferRead) (env : Surroundings) (chunkSize : Nat) : Prop :=
  ∀ k < q.chunkCount chunkSize, ∀ o < q.chunkBytes chunkSize k,
    env.seen (q.chunkCount chunkSize) k o = env.staged k o

namespace StagingBufferManager

variable {m m' : StagingBufferManager} {env : Surroundings} {fuel id csr : Nat}
  {queue queue' : StagingQueue} {userData : UserData} {args : ChunkArgs}
  {status : StagingTransferStatus}

/-- Nothing is copied out of a null chunk. -/
theorem copyStagingToHost_null {u : UserData} {tracker : StagingBufferTracker}
    {wait : TaskCountWait} (goesOn : wait.status ≠ .gpuHang)
    (null : tracker.chunkAddress = 0) (some : u.size ≠ 0) (buffer : u.isImageOperation = false) :
    m.copyStagingToHost fuel (u, tracker) wait = .error .nullAccess := by
  have copied : ((m.afterWait tracker wait).shown u tracker wait).copyToUser fuel u tracker =
      .error .nullAccess := by
    unfold copyToUser memcpyToHost
    rw [if_neg (by simp [buffer]), if_pos ⟨null, some⟩]
  unfold copyStagingToHost
  rw [if_neg goesOn]
  simp only [copied]
  rfl

theorem copyStagingToHost_submissions {transfer : UserData × StagingBufferTracker}
    {wait : TaskCountWait} {tracker : Option StagingBufferTracker}
    (returned : m.copyStagingToHost fuel transfer wait = .ok (m', tracker)) :
    m'.submissions = m.submissions := by
  unfold copyStagingToHost at returned
  split at returned
  next =>
    cases returned
    rfl
  next =>
    obtain ⟨copied, -, returned⟩ := bind_eq_ok.mp returned
    cases returned
    obtain ⟨⟨completed, waited⟩, -⟩ := m.afterWait_spec transfer.2 wait
    rw [waited]

/-- The callback of a read runs once its chunk has staging memory. -/
theorem transferThrough_read {tracker : StagingBufferTracker}
    (returned : m.transferThrough env id true userData args queue tracker =
      .ok (m', queue', status)) :
    status = ⟨env.func id, .ready⟩ ∧ m'.submissions = m.submissions ++ [⟨userData, tracker, args⟩] ∧
      queue' = Function.update queue (id % maxInFlightReads)
        (some (userData, { tracker with taskCountToWait := env.peekTaskCount id })) := by
  obtain ⟨m₁, filled, went⟩ := bind_eq_ok.mp returned
  cases filled
  cases went
  exact ⟨rfl, rfl, rfl⟩

/-- A chunk of a read takes new staging memory, waits for its slot in vain, or reuses it. -/
inductive ChunkCases (env : Surroundings) (fuel id csr : Nat) (userData : UserData)
    (args : ChunkArgs) (m : StagingBufferManager) (queue : StagingQueue)
    (m' : StagingBufferManager) (queue' : StagingQueue) (status : StagingTransferStatus) : Prop where
  | fresh {m₁ : StagingBufferManager} {chunk : StagingChunk} (early : id < maxInFlightReads)
      (requested : m.requestStagingBuffer env id userData.size = .ok (m₁, chunk))
      (went : m₁.transferThrough env id true userData args queue (chunk.tracker csr) =
        .ok (m', queue', status))
  | hung (later : maxInFlightReads ≤ id) (hangs : (env.slotWait id).status = .gpuHang)
      (reported : status = ⟨0, .gpuHang⟩) (queue_eq : queue' = queue)
      (submissions : m'.submissions = m.submissions)
  | reused {m₁ : StagingBufferManager} {transfer : UserData × StagingBufferTracker}
      (later : maxInFlightReads ≤ id) (silent : (env.slotWait id).status ≠ .gpuHang)
      (slot : queue (id % maxInFlightReads) = some transfer)
      (copied : m.copyStagingToHost fuel transfer (env.slotWait id) = .ok (m₁, some transfer.2))
      (went : m₁.transferThrough env id true userData args queue transfer.2 =
        .ok (m', queue', status))

theorem performChunkTransfer_cases
    (returned : m.performChunkTransfer env fuel id true userData args csr queue =
      .ok (m', queue', status)) :
    ChunkCases env fuel id csr userData args m queue m' queue' status := by
  unfold performChunkTransfer at returned
  split at returned
  next reuses =>
    split at returned
    next => cases returned
    next transfer slot =>
      obtain ⟨⟨m₁, tracker⟩, copied, went⟩ := bind_eq_ok.mp returned
      rcases copyStagingToHost_spec copied with ⟨hangs, rfl, rfl⟩ | ⟨silent, rfl, -⟩
      · cases went
        exact .hung reuses.2 hangs rfl rfl rfl
      · exact .reused reuses.2 silent slot copied went
  next first =>
    obtain ⟨⟨m₁, chunk⟩, requested, went⟩ := bind_eq_ok.mp returned
    have early : id < maxInFlightReads := by simpa using first
    exact .fresh early requested went

/-- A chunk's status is that of its callback, and 0 where a hang keeps it from being called. -/
theorem ChunkCases.called
    (step : ChunkCases env fuel id csr userData args m queue m' queue' status) :
    (status.chunkCopyStatus ≠ 0 → CallsBack env id ∧ env.func id ≠ 0) ∧
      (status.chunkCopyStatus = 0 → CallsBack env id → env.func id = 0) := by
  cases step with
  | fresh early requested went =>
    obtain ⟨rfl, -, -⟩ := transferThrough_read went
    exact ⟨fun failed => ⟨.inl early, failed⟩, fun fine _ => fine⟩
  | hung later hangs reported =>
    subst reported
    refine ⟨fun failed => absurd rfl failed, fun _ calls => ?_⟩
    rcases calls with early | silent
    · omega
    · exact absurd hangs silent
  | reused later silent slot copied went =>
    obtain ⟨rfl, -, -⟩ := transferThrough_read went
    exact ⟨fun failed => ⟨.inr silent, failed⟩, fun fine _ => fine⟩

/-- A null chunk stays in its slot: it is never copied from. -/
theorem ChunkCases.holdsNull (null : HoldsNull id queue)
    (step : ChunkCases env fuel id csr userData args m queue m' queue' status) :
    HoldsNull (id + 1) queue' := by
  obtain ⟨i, listed, u, tracker, slot, zero, some, buffer⟩ := null
  cases step with
  | fresh early requested went =>
    obtain ⟨-, -, rfl⟩ := transferThrough_read went
    refine ⟨i, by omega, u, tracker, ?_, zero, some, buffer⟩
    rw [Nat.mod_eq_of_lt early, Function.update_of_ne (by omega)]
    exact slot
  | hung later hangs reported queue_eq =>
    subst queue_eq
    exact ⟨i, by omega, u, tracker, slot, zero, some, buffer⟩
  | @reused m₁ transfer later silent taken copied went =>
    obtain ⟨-, -, rfl⟩ := transferThrough_read went
    refine ⟨i, by omega, u, tracker, ?_, zero, some, buffer⟩
    rw [Function.update_of_ne]
    · exact slot
    · intro same
      rw [← same, slot] at taken
      cases taken
      rw [copyStagingToHost_null silent zero some buffer] at copied
      cases copied

/-- A later chunk adds at most one submission. -/
theorem ChunkCases.submissions_le (later : maxInFlightReads ≤ id)
    (step : ChunkCases env fuel id csr userData args m queue m' queue' status) :
    m'.submissions.length ≤ m.submissions.length + 1 := by
  cases step with
  | fresh early => omega
  | hung _ _ _ _ submissions =>
    rw [submissions]
    exact Nat.le_succ _
  | reused _ _ _ copied went =>
    obtain ⟨-, submissions, -⟩ := transferThrough_read went
    rw [submissions, copyStagingToHost_submissions copied]
    simp

/-- Before chunk `n` of a read that began in `m₀`: all is well, a slot holds a null chunk, or the
wait of some chunk has hung and the chunk is missing. -/
inductive Stage (q : BufferRead) (env : Surroundings) (lost : List StagingBufferTracker)
    (m₀ : StagingBufferManager) : Nat → StagingBufferManager → StagingQueue → Prop where
  | running {chunks : List Submission} {m : StagingBufferManager} {queue : StagingQueue}
      (running : Running env true (q.chunkBytes m₀.chunkSize) lost m₀ chunks m queue)
      (planned : q.Planned m₀.chunkSize chunks) (calls : ∀ k < chunks.length, CallsBack env k) :
      Stage q env lost m₀ chunks.length m queue
  | null {n : Nat} {m : StagingBufferManager} {queue : StagingQueue} (null : HoldsNull n queue) :
      Stage q env lost m₀ n m queue
  | hung {n k : Nat} {m : StagingBufferManager} {queue : StagingQueue} (before : k < n)
      (silent : ¬ CallsBack env k)
      (fewer : m.submissions.length < m₀.submissions.length + n) : Stage q env lost m₀ n m queue

section Stage

variable {q : BufferRead} {lost : List StagingBufferTracker} {m₀ : StagingBufferManager} {n : Nat}

/-- A chunk of a read that is all well. -/
theorem Running.stage {chunks : List Submission} (sane : env.SaneHost) (sound : q.Sound)
    (positive : 0 < m₀.chunkSize) (listed : chunks.length < q.chunkCount m₀.chunkSize)
    (running : Running env true (q.chunkBytes m₀.chunkSize) lost m₀ chunks m queue)
    (planned : q.Planned m₀.chunkSize chunks) (calls : ∀ k < chunks.length, CallsBack env k)
    (enough : 2 ^ 32 ≤ fuel) (fine : status.chunkCopyStatus = 0)
    (returned : m.performChunkTransfer env fuel chunks.length true
      (q.userData m₀.chunkSize chunks.length) (q.args m₀.chunkSize chunks.length) csr queue =
        .ok (m', queue', status)) : Stage q env lost m₀ (chunks.length + 1) m' queue' := by
  have joins := planned.joins positive sound listed
  have copyable : true = true → (q.userData m₀.chunkSize chunks.length).Copyable :=
    fun _ image => by cases image
  have step := performChunkTransfer_cases returned
  have called := step.called.2 fine
  -- a chunk that is submitted as planned
  have sent {m₁ : StagingBufferManager} {queue₁ : StagingQueue} {tracker : StagingBufferTracker}
      (performed : m.performChunkTransfer env fuel chunks.length true
        (q.userData m₀.chunkSize chunks.length) (q.args m₀.chunkSize chunks.length) csr queue =
          .ok (m₁, queue₁, .success))
      (calledBack : CallsBack env chunks.length)
      (after : Running env true (q.chunkBytes m₀.chunkSize) lost m₀ (chunks ++
        [⟨q.userData m₀.chunkSize chunks.length, tracker, q.args m₀.chunkSize chunks.length⟩])
          m₁ queue₁) : Stage q env lost m₀ (chunks.length + 1) m' queue' := by
    rw [performed] at returned
    cases returned
    have length : (chunks ++ [Submission.mk (q.userData m₀.chunkSize chunks.length) tracker
        (q.args m₀.chunkSize chunks.length)]).length = chunks.length + 1 := by simp
    rw [← length]
    refine .running after (planned.append tracker) fun k below => ?_
    rw [length] at below
    rcases Nat.lt_succ_iff_lt_or_eq.mp below with before | rfl
    · exact calls k before
    · exact calledBack
  cases step with
  | @fresh m₁ chunk early requested went =>
    have pages : q.chunkBytes m₀.chunkSize chunks.length + 0x2000 < 2 ^ 64 := by
      have stop := BufferRead.chunk_end positive listed
      have user := sound.userMemory
      omega
    obtain ⟨large, only⟩ := requestStagingBuffer_large sane pages running.order requested
    by_cases null : chunk.address = 0
    · obtain ⟨-, -, rfl⟩ := transferThrough_read went
      refine .null ⟨chunks.length, by omega, q.userData m₀.chunkSize chunks.length,
        { chunk.tracker csr with taskCountToWait := env.peekTaskCount chunks.length }, ?_, null,
        (BufferRead.chunkBytes_pos positive listed).ne', rfl⟩
      rw [Nat.mod_eq_of_lt early, Function.update_self]
    · obtain ⟨m₂, queue₂, tracker, performed, after⟩ := running.requested sane.creates
        (called (.inl early)) (by omega) requested null large only joins copyable
        fun _ => Nat.le_refl _
      exact sent performed (.inl early) after
  | hung later hangs reported queue_eq submissions =>
    refine .hung (Nat.lt_succ_self _) ?_ ?_
    · rintro (early | silent)
      · omega
      · exact silent hangs
    · rw [submissions, running.submissions, List.length_append]
      omega
  | reused later silent slot copied went =>
    have small : (q.userData m₀.chunkSize chunks.length).size ≤
        q.chunkBytes m₀.chunkSize (chunks.length % 2) := by
      refine BufferRead.chunkBytes_le ?_
      have := Nat.mod_lt chunks.length (y := 2) (by decide)
      simp only [maxInFlightReads] at later
      omega
    obtain ⟨m₂, queue₂, tracker, performed, after⟩ := running.reuse sane.creates
      (called (.inr silent)) silent rfl later joins (copyable rfl) small enough
    exact sent performed (.inr silent) after

/-- What one chunk makes of a read. -/
theorem Stage.next (sane : env.SaneHost) (sound : q.Sound) (positive : 0 < m₀.chunkSize)
    (listed : n < q.chunkCount m₀.chunkSize) (stage : Stage q env lost m₀ n m queue)
    (enough : 2 ^ 32 ≤ fuel) (fine : status.chunkCopyStatus = 0)
    (returned : m.performChunkTransfer env fuel n true (q.userData m₀.chunkSize n)
      (q.args m₀.chunkSize n) csr queue = .ok (m', queue', status)) :
    Stage q env lost m₀ (n + 1) m' queue' := by
  cases stage with
  | running running planned calls =>
    exact running.stage sane sound positive listed planned calls enough fine returned
  | null null => exact .null ((performChunkTransfer_cases returned).holdsNull null)
  | hung before silent fewer =>
    -- only a wait hangs, so the missing chunk is not one of the first two
    have later : maxInFlightReads ≤ n := by
      have := (not_or.mp silent).1
      omega
    have more := (performChunkTransfer_cases returned).submissions_le later
    exact .hung (Nat.lt_succ_of_lt before) silent (by omega)

/-- The final drain hangs on a slot, or every slot it reaches is copied to the user. -/
theorem drainFrom_cases (left : Nat) {i : Nat} {waitStatus : WaitStatus}
    (returned : drainFrom env fuel queue left i m = .ok (m', waitStatus)) :
    m'.submissions = m.submissions ∧
      (waitStatus = .gpuHang ∧ (∃ j < i + left, (env.drainWait j).status = .gpuHang) ∨
        waitStatus = .ready ∧ ∀ j, i ≤ j → j < i + left → (env.drainWait j).status ≠ .gpuHang ∧
          ∃ m₁ transfer m₂, queue j = some transfer ∧
            copyStagingToHost fuel m₁ transfer (env.drainWait j) = .ok m₂) := by
  induction left generalizing i m with
  | zero =>
    cases returned
    exact ⟨rfl, .inr ⟨rfl, fun j low high => by omega⟩⟩
  | succ left ih =>
    rw [drainFrom] at returned
    split at returned
    next => cases returned
    next transfer slot =>
      obtain ⟨⟨m₁, tracker⟩, copied, went⟩ := bind_eq_ok.mp returned
      have submissions := copyStagingToHost_submissions copied
      rcases copyStagingToHost_spec copied with ⟨hangs, rfl, rfl⟩ | ⟨silent, rfl, -⟩
      · cases went
        exact ⟨rfl, .inl ⟨rfl, i, by omega, hangs⟩⟩
      · obtain ⟨same, outcome⟩ := ih went
        refine ⟨same.trans ((freeChunk_poolOnly m₁ transfer.2).submissions.trans submissions), ?_⟩
        rcases outcome with ⟨hung, j, below, hangs⟩ | ⟨ready, all⟩
        · exact .inl ⟨hung, j, by omega, hangs⟩
        · refine .inr ⟨ready, fun j low high => ?_⟩
          by_cases here : j = i
          · subst here
            exact ⟨silent, m, transfer, _, slot, copied⟩
          · exact all j (by omega) (by omega)

/-- A read that lost no chunk to a hang lands every byte as its chunk showed it. -/
theorem Running.delivers {chunks : List Submission} (positive : 0 < m₀.chunkSize)
    (running : Running env true (q.chunkBytes m₀.chunkSize) lost m₀ chunks m queue)
    (planned : q.Planned m₀.chunkSize chunks) (all : chunks.length = q.chunkCount m₀.chunkSize)
    (silent : ∀ j < min chunks.length 2, (env.drainWait j).status ≠ .gpuHang)
    (enough : 2 ^ 32 ≤ fuel) {waitStatus : WaitStatus}
    (drained : m.drainAndReleaseStagingQueue env fuel true queue chunks.length =
      .ok (m', waitStatus)) :
    m'.submissions = m₀.submissions ++ chunks ∧ ∀ o < q.globalSize,
      m'.hostMemory (q.ptr + o) =
        env.seen (q.chunkCount m₀.chunkSize) (o / m₀.chunkSize) (o % m₀.chunkSize) := by
  obtain ⟨m₁, landed, submissions, host⟩ := running.drain silent enough
  rw [landed] at drained
  cases drained
  refine ⟨submissions, fun o inside => ?_⟩
  have split := Nat.div_add_mod' o m₀.chunkSize
  obtain ⟨listed, below⟩ := BufferRead.chunk_of positive inside
  have found := List.getElem?_eq_getElem (all ▸ listed)
  have userData := (planned _ _ found).1
  have inside : o % m₀.chunkSize ∈ (q.userData m₀.chunkSize (o / m₀.chunkSize)).bytes := by
    simpa [UserData.bytes, BufferRead.userData] using below
  have byte := (host rfl).copied _ _ found trivial (o % m₀.chunkSize) (userData ▸ inside)
  rw [userData, all] at byte
  rw [← byte]
  congr 1
  simp only [BufferRead.userData]
  omega

/-- Such a read is delivered exactly when no wait came back before its bytes were there. -/
theorem Running.delivered_iff {chunks : List Submission} (positive : 0 < m₀.chunkSize)
    (running : Running env true (q.chunkBytes m₀.chunkSize) lost m₀ chunks m queue)
    (planned : q.Planned m₀.chunkSize chunks) (all : chunks.length = q.chunkCount m₀.chunkSize)
    (silent : ∀ j < min chunks.length 2, (env.drainWait j).status ≠ .gpuHang)
    (enough : 2 ^ 32 ≤ fuel) {waitStatus : WaitStatus}
    (drained : m.drainAndReleaseStagingQueue env fuel true queue chunks.length =
      .ok (m', waitStatus)) : q.Delivered env m₀ m' ↔ q.Awaited env m₀.chunkSize := by
  obtain ⟨submissions, host⟩ := running.delivers positive planned all silent enough drained
  constructor
  · intro delivered k listed o inside
    -- the place of the byte in the read
    have stop := BufferRead.chunk_end positive listed
    have small : o < m₀.chunkSize := Nat.lt_of_lt_of_le inside (Nat.min_le_left _ _)
    have quotient : (k * m₀.chunkSize + o) / m₀.chunkSize = k := by
      rw [Nat.mul_comm, Nat.mul_add_div positive, Nat.div_eq_of_lt small, Nat.add_zero]
    have rest : (k * m₀.chunkSize + o) % m₀.chunkSize = o := by
      rw [Nat.mul_comm, Nat.mul_add_mod, Nat.mod_eq_of_lt small]
    have shown := host (k * m₀.chunkSize + o) (by omega)
    rw [delivered.copied _ (by omega), quotient, rest] at shown
    exact shown.symm
  · intro awaited
    refine ⟨⟨chunks, submissions, all, planned⟩, fun o inside => ?_⟩
    obtain ⟨listed, below⟩ := BufferRead.chunk_of positive inside
    exact (host o inside).trans (awaited _ listed _ below)

end Stage

end StagingBufferManager

namespace ChunkLoop

open StagingBufferManager

variable {q : BufferRead} {env : Surroundings} {fuel csr n : Nat} {lost : List StagingBufferTracker}
  {m₀ : StagingBufferManager} {loop : ChunkLoop}

/-- A read that returned early: the callback of one of its chunks failed. -/
def Failed (env : Surroundings) (count : Nat) (returned : Transferred) : Prop :=
  returned.2.chunkCopyStatus ≠ 0 ∧ ∃ k < count, CallsBack env k ∧ env.func k ≠ 0

/-- Before chunk `n` of a read; no callback has failed. -/
structure Reads (q : BufferRead) (env : Surroundings) (lost : List StagingBufferTracker)
    (m₀ : StagingBufferManager) (n : Nat) (loop : ChunkLoop) : Prop where
  stage : Stage q env lost m₀ n loop.manager loop.stagingQueue
  fine : loop.result.chunkCopyStatus = 0
  called : ∀ k < n, CallsBack env k → env.func k = 0

theorem Reads.start (order : m₀.InOrder soundBuffer lost) :
    Reads q env lost m₀ 0 ⟨m₀, emptyQueue, .success⟩ where
  stage := .running (.start order) (fun _ _ found => by cases found) (fun _ below => by cases below)
  fine := rfl
  called := fun _ below => by cases below

/-- A chunk ends the read only when its callback fails. -/
theorem transfer_failed {ptr size count : Nat} {args : ChunkArgs} (listed : n < count) :
    Ends (fun _ => True) (Failed env count) (loop.transfer env fuel true csr n ptr size args) := by
  intro o returned
  obtain ⟨⟨m₁, queue₁, status⟩, performed, went⟩ := bind_eq_ok.mp returned
  simp only at went
  split at went
  next failed =>
    cases went
    exact ⟨failed, n, listed, (performChunkTransfer_cases performed).called.1 failed⟩
  next =>
    cases went
    trivial

theorem Reads.transfer (sane : env.SaneHost) (sound : q.Sound) (positive : 0 < m₀.chunkSize)
    (listed : n < q.chunkCount m₀.chunkSize) (reads : Reads q env lost m₀ n loop)
    (enough : 2 ^ 32 ≤ fuel) :
    Ends (Reads q env lost m₀ (n + 1)) (Failed env (q.chunkCount m₀.chunkSize))
      (loop.transfer env fuel true csr n (q.ptr + n * m₀.chunkSize) (q.chunkBytes m₀.chunkSize n)
        (q.args m₀.chunkSize n)) := by
  intro o returned
  have failed := transfer_failed listed o returned
  cases o with
  | inr r => exact failed
  | inl loop' =>
    obtain ⟨⟨m₁, queue₁, status⟩, performed, went⟩ := bind_eq_ok.mp returned
    simp only at went
    split at went
    next => cases went
    next fine =>
      cases went
      have fine := not_not.mp fine
      refine ⟨reads.stage.next sane sound positive listed enough fine performed, fine, ?_⟩
      intro k below calls
      rcases Nat.lt_succ_iff_lt_or_eq.mp below with before | rfl
      · exact reads.called k before calls
      · exact (performChunkTransfer_cases performed).called.2 fine calls

/-- Chunk `n` of a read, with the offset in the buffer that goes along. -/
theorem Reads.bufferChunk (sane : env.SaneHost) (sound : q.Sound) (positive : 0 < m₀.chunkSize)
    (listed : n < q.chunkCount m₀.chunkSize) (reads : Reads q env lost m₀ n loop)
    (enough : 2 ^ 32 ≤ fuel) {size : Nat} (bytes : size = q.chunkBytes m₀.chunkSize n) :
    Ends (fun state : ChunkLoop × Nat => Reads q env lost m₀ (n + 1) state.1 ∧
        state.2 = add64 (add64 q.globalOffset (n * m₀.chunkSize)) size)
      (Failed env (q.chunkCount m₀.chunkSize))
      (bufferChunk env fuel csr true q.ptr m₀.chunkSize n size
        (loop, add64 q.globalOffset (n * m₀.chunkSize))) := by
  have inside := BufferRead.chunk_start positive listed
  have user := sound.userMemory
  have offset : mul64 n m₀.chunkSize = n * m₀.chunkSize := Word.mul_eq (by omega)
  have ptr : add64 q.ptr (n * m₀.chunkSize) = q.ptr + n * m₀.chunkSize := Word.add_eq (by omega)
  unfold ChunkLoop.bufferChunk
  simp only [offset, ptr, bytes]
  refine (reads.transfer sane sound positive listed enough).andThen ?_
  exact fun loop after => .goesOn ⟨after, rfl⟩

/-- The loop of a read over its full chunks. When it has too many of them for its counter, it ends
only by a failing callback. -/
theorem Reads.fullChunks (sane : env.SaneHost) (sound : q.Sound) (positive : 0 < m₀.chunkSize)
    (reads : Reads q env lost m₀ 0 loop) (enough : 2 ^ 32 ≤ fuel) :
    Ends (fun state : ChunkLoop × Nat =>
        Reads q env lost m₀ (q.globalSize / m₀.chunkSize) state.1 ∧
          state.2 = add64 q.globalOffset (q.globalSize / m₀.chunkSize * m₀.chunkSize))
      (Failed env (q.chunkCount m₀.chunkSize))
      (forWord 32 .outOfFuel (q.globalSize / m₀.chunkSize) (fun i =>
        ChunkLoop.bufferChunk env fuel csr true q.ptr m₀.chunkSize i m₀.chunkSize) fuel 0
          (loop, q.globalOffset)) := by
  have first : q.globalOffset = add64 q.globalOffset (0 * m₀.chunkSize) := by
    have word : q.globalOffset + 0 < 2 ^ 64 := sound.offset
    rw [Nat.zero_mul]
    exact (Word.add_eq word).symm
  rcases Nat.lt_or_ge (q.globalSize / m₀.chunkSize) (2 ^ 32) with fits | narrow
  · refine forWord_runs (P := fun n (state : ChunkLoop × Nat) => Reads q env lost m₀ n state.1 ∧
      state.2 = add64 q.globalOffset (n * m₀.chunkSize)) fits ?_ (Nat.zero_le _) ⟨reads, first⟩
    rintro n ⟨loop, _⟩ full ⟨reads, rfl⟩
    have listed : n < q.chunkCount m₀.chunkSize := Nat.lt_of_lt_of_le full (Nat.le_add_right _ _)
    refine (reads.bufferChunk sane sound positive listed enough
      (BufferRead.chunkBytes_eq full).symm).mono ?_ fun _ failed => failed
    rintro state ⟨after, moved⟩
    refine ⟨after, moved.trans ?_⟩
    rw [add64, Word.add_add, Nat.succ_mul]
  · refine (forWord_narrow (P := fun _ => True) narrow ?_ (by decide) trivial).mono
      (fun _ never => never.elim) fun _ failed => failed
    intro n state small _
    have listed : n < q.chunkCount m₀.chunkSize :=
      Nat.lt_of_lt_of_le small (narrow.trans (Nat.le_add_right _ _))
    exact (transfer_failed listed).andThen fun _ _ => .goesOn trivial

/-- The full chunks of a read and its last one. -/
theorem Reads.allChunks (sane : env.SaneHost) (sound : q.Sound) (positive : 0 < m₀.chunkSize)
    (reads : Reads q env lost m₀ 0 loop) (enough : 2 ^ 32 ≤ fuel) :
    Ends (fun state : ChunkLoop × Nat => Reads q env lost m₀ (q.chunkCount m₀.chunkSize) state.1)
      (Failed env (q.chunkCount m₀.chunkSize))
      (Loop.andThen (forWord 32 .outOfFuel (q.globalSize / m₀.chunkSize) (fun i =>
          ChunkLoop.bufferChunk env fuel csr true q.ptr m₀.chunkSize i m₀.chunkSize) fuel 0
            (loop, q.globalOffset)) fun state =>
        if q.globalSize % m₀.chunkSize = 0 then .ok (.inl state)
        else ChunkLoop.bufferChunk env fuel csr true q.ptr m₀.chunkSize
          (q.globalSize / m₀.chunkSize) (q.globalSize % m₀.chunkSize) state) := by
  refine (reads.fullChunks sane sound positive enough).andThen ?_
  rintro ⟨loop, _⟩ ⟨reads, rfl⟩
  split
  next even =>
    have count : q.chunkCount m₀.chunkSize = q.globalSize / m₀.chunkSize := by
      rw [BufferRead.chunkCount, if_neg (not_not.mpr even), Nat.add_zero]
    rw [count]
    exact .goesOn reads
  next odd =>
    have count : q.chunkCount m₀.chunkSize = q.globalSize / m₀.chunkSize + 1 := by
      rw [BufferRead.chunkCount, if_pos odd]
    have listed : q.globalSize / m₀.chunkSize < q.chunkCount m₀.chunkSize := by omega
    refine (reads.bufferChunk sane sound positive listed enough
      (BufferRead.chunkBytes_last positive).symm).mono ?_ fun _ failed => failed
    rintro state ⟨after, -⟩
    rw [count]
    exact after

end ChunkLoop

/-- No wait for a slot hangs and none comes back too early, or the read reports a failure: a wait of
its final drain hangs, or a callback fails. -/
def BufferRead.FailuresShow (q : BufferRead) (env : Surroundings) (chunkSize : Nat) : Prop :=
  (∀ k < q.chunkCount chunkSize, CallsBack env k) ∧ q.Awaited env chunkSize ∨
    (∃ j < min (q.chunkCount chunkSize) maxInFlightReads, (env.drainWait j).status = .gpuHang) ∨
    ∃ k < q.chunkCount chunkSize, CallsBack env k ∧ env.func k ≠ 0

namespace StagingBufferManager

variable {q : BufferRead} {env : Surroundings} {fuel : Nat} {lost : List StagingBufferTracker}
  {m m' : StagingBufferManager} {status : StagingTransferStatus}

/-- A read whose final drain does not hang is delivered unless a wait for a slot hung or a wait came
back too early. -/
theorem Stage.delivered_iff {m₀ : StagingBufferManager} {queue : StagingQueue} {n : Nat}
    (positive : 0 < m₀.chunkSize) (stage : Stage q env lost m₀ n m queue)
    (all : n = q.chunkCount m₀.chunkSize) (enough : 2 ^ 32 ≤ fuel)
    (drained : m.drainAndReleaseStagingQueue env fuel true queue n = .ok (m', .ready)) :
    q.Delivered env m₀ m' ↔ (∀ k < n, CallsBack env k) ∧ q.Awaited env m₀.chunkSize := by
  have drain := drained
  rw [drainAndReleaseStagingQueue, if_pos rfl] at drain
  obtain ⟨submissions, ⟨hung, -⟩ | ⟨-, slots⟩⟩ := drainFrom_cases _ drain
  · cases hung
  cases stage with
  | running running planned calls =>
    rw [running.delivered_iff positive planned all
      (fun j below => (slots j (Nat.zero_le _) (by simpa [maxInFlightReads] using below)).1)
      enough drained]
    exact ⟨fun awaited => ⟨calls, awaited⟩, And.right⟩
  | null null =>
    obtain ⟨j, below, u, tracker, slot, zero, some, buffer⟩ := null
    obtain ⟨goesOn, m₁, transfer, m₂, taken, copied⟩ := slots j (Nat.zero_le _) (by omega)
    rw [slot] at taken
    cases taken
    rw [copyStagingToHost_null goesOn zero some buffer] at copied
    cases copied
  | hung before silent fewer =>
    constructor
    · rintro ⟨⟨chunks, submitted, length, -⟩, -⟩
      -- a chunk is missing among the submissions
      rw [← submissions, submitted, List.length_append, length] at fewer
      omega
    · intro calls
      exact absurd (calls.1 _ before) silent

/-- What the status that the final drain leaves says about the read. -/
theorem finish_iff {loop : ChunkLoop} (positive : 0 < m.chunkSize)
    (reads : loop.Reads q env lost m (q.chunkCount m.chunkSize)) (enough : 2 ^ 32 ≤ fuel)
    {waitStatus : WaitStatus}
    (drained : loop.manager.drainAndReleaseStagingQueue env fuel true loop.stagingQueue
      (q.chunkCount m.chunkSize) = .ok (m', waitStatus)) :
    (waitStatus = .ready → q.Delivered env m m') ↔ q.FailuresShow env m.chunkSize := by
  have drain := drained
  rw [drainAndReleaseStagingQueue, if_pos rfl] at drain
  obtain ⟨-, ⟨rfl, j, below, hangs⟩ | ⟨rfl, slots⟩⟩ := drainFrom_cases _ drain
  · -- a hang of the drain is the status
    refine ⟨fun _ => .inr (.inl ⟨j, by omega, hangs⟩), ?_⟩
    rintro _ ⟨⟩
  · have delivered := Stage.delivered_iff positive reads.stage rfl enough drained
    constructor
    · exact fun success => .inl (delivered.mp (success rfl))
    · rintro (well | ⟨j, below, hangs⟩ | ⟨j, below, calls, failed⟩) _
      · exact delivered.mpr well
      · exact absurd hangs (slots j (Nat.zero_le _) (by omega)).1
      · exact absurd (reads.called j below calls) failed

/-- A buffer read that succeeds has read everything, exactly when what goes wrong in its waits is not
hidden. -/
theorem performBufferTransfer_delivered_iff (sane : env.SaneHost) (sound : q.Sound)
    (order : m.InOrder soundBuffer lost) (enough : 2 ^ 32 ≤ fuel)
    (returned : m.performBufferTransfer env fuel q.ptr q.globalOffset q.globalSize q.csr true =
      .ok (m', status)) :
    (status = .success → q.Delivered env m m') ↔ q.FailuresShow env m.chunkSize := by
  have positive : 0 < m.chunkSize := by
    refine Nat.pos_of_ne_zero fun zero => ?_
    unfold performBufferTransfer checkedDiv at returned
    rw [if_pos zero] at returned
    cases returned
  unfold performBufferTransfer at returned
  rw [checkedDiv_eq positive.ne', checkedMod_eq positive.ne'] at returned
  have reads : ChunkLoop.Reads q env lost m 0 ⟨m, emptyQueue, .success⟩ := .start order
  have early : ∀ r, ChunkLoop.Failed env (q.chunkCount m.chunkSize) r →
      ((r.2 = .success → q.Delivered env m r.1) ↔ q.FailuresShow env m.chunkSize) := by
    rintro ⟨m₁, status⟩ ⟨failed, k, listed, calls, nonzero⟩
    constructor
    · exact fun _ => .inr (.inr ⟨k, listed, calls, nonzero⟩)
    · rintro _ ⟨⟩
      exact absurd rfl failed
  refine Ends.finish (Q := fun r : Transferred => (r.2 = .success → q.Delivered env m r.1) ↔
      q.FailuresShow env m.chunkSize)
    ((reads.allChunks sane sound positive enough).mono (fun _ kept => kept) early) ?_ returned
  rintro ⟨loop, _⟩ reads went
  obtain ⟨⟨m₁, waitStatus⟩, drained, same⟩ := bind_eq_ok.mp went
  cases same
  have fine : loop.result.chunkCopyStatus = 0 := reads.fine
  have succeeds : ({ loop.result with waitStatus } : StagingTransferStatus) = .success ↔
      waitStatus = .ready := by
    simp [StagingTransferStatus.success, fine]
  simp only [succeeds]
  exact finish_iff positive reads enough drained

/-- In every run of a manager, whatever its waits report: a buffer read whose status is success has
submitted every chunk and copied every byte, exactly when what goes wrong in its waits is not
hidden. -/
theorem reachable_read_delivered_iff (reachable : Reachable (system.restrict (Orderly soundBuffer)) m)
    (sane : env.SaneHost) (sound : q.Sound) (enough : 2 ^ 32 ≤ fuel)
    (returned : m.performBufferTransfer env fuel q.ptr q.globalOffset q.globalSize q.csr true =
      .ok (m', status)) :
    (status = .success → q.Delivered env m m') ↔ q.FailuresShow env m.chunkSize := by
  obtain ⟨lost, order⟩ := reachable_inOrder reachable
  exact performBufferTransfer_delivered_iff sane sound order enough returned

/-- A host with a gigabyte of memory, where nothing fails but the wait of the third chunk. -/
def thirdHangs : Surroundings :=
  { answering 0 with
    usmHost := fun _ size => if size ≤ 0x40000000 then some 0x10000000 else none
    slotWait := fun k => ⟨if k = 2 then .gpuHang else .ready, fun _ => 0⟩ }

theorem thirdHangs_sane : thirdHangs.SaneHost := by
  intro n size usmHost given
  simp only [thirdHangs, Option.ite_none_right_eq_some, Option.some.injEq] at given
  obtain ⟨small, rfl⟩ := given
  exact ⟨by decide, by decide, by omega⟩

/-- A read of six megabytes, in three chunks. -/
def threeChunks : BufferRead := ⟨0x1000, 0, 0x600000, 0⟩

/-- The third chunk is not submitted, and the read reports success. -/
theorem read_three : ∃ m', newManager.performBufferTransfer thirdHangs (2 ^ 32) threeChunks.ptr
      threeChunks.globalOffset threeChunks.globalSize threeChunks.csr true = .ok (m', .success) ∧
    m'.submissions.length = 2 := by
  have ran : ((newManager.performBufferTransfer thirdHangs (2 ^ 32) threeChunks.ptr
      threeChunks.globalOffset threeChunks.globalSize threeChunks.csr true).map fun r =>
        (r.2, r.1.submissions.length)) = .ok (.success, 2) := by decide +kernel
  revert ran
  cases newManager.performBufferTransfer thirdHangs (2 ^ 32) threeChunks.ptr
      threeChunks.globalOffset threeChunks.globalSize threeChunks.csr true with
  | error => rintro ⟨⟩
  | ok r =>
    intro ran
    simp only [Except.map, Except.ok.injEq, Prod.mk.injEq] at ran
    obtain ⟨success, two⟩ := ran
    exact ⟨r.1, by rw [← success], two⟩

theorem reachable_read_delivered_iff_three :
    ∃ m', newManager.performBufferTransfer thirdHangs (2 ^ 32) threeChunks.ptr
        threeChunks.globalOffset threeChunks.globalSize threeChunks.csr true = .ok (m', .success) ∧
      ((StagingTransferStatus.success = .success →
          threeChunks.Delivered thirdHangs newManager m') ↔
        threeChunks.FailuresShow thirdHangs newManager.chunkSize) := by
  obtain ⟨m', returned, -⟩ := read_three
  exact ⟨m', returned, reachable_read_delivered_iff (.start ⟨rfl, rfl, rfl⟩) thirdHangs_sane
    ⟨by decide, by decide⟩ (Nat.le_refl _) returned⟩

/-- Nobody sees that the third chunk was not read. -/
theorem hang_of_third_chunk_hidden : Reachable system newManager ∧
    (thirdHangs.slotWait 2).status = .gpuHang ∧ ∃ m', newManager.performBufferTransfer thirdHangs (2 ^ 32)
        threeChunks.ptr threeChunks.globalOffset threeChunks.globalSize threeChunks.csr true =
          .ok (m', .success) ∧
      ¬ threeChunks.Delivered thirdHangs newManager m' := by
  refine ⟨.start ⟨rfl, rfl, rfl⟩, rfl, ?_⟩
  obtain ⟨m', returned, two⟩ := read_three
  refine ⟨m', returned, ?_⟩
  rintro ⟨⟨chunks, submitted, length, -⟩, -⟩
  have none : newManager.submissions = [] := rfl
  rw [submitted, none, List.nil_append, length] at two
  exact absurd two (by decide)

end StagingBufferManager

end ComputeRuntime
