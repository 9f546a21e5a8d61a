import ComputeRuntime.Staging.Runs

/-! A chunk transfer for which the host has no memory: the null chunk is used like any other. -/
namespace ComputeRuntime

namespace StagingBufferManager

variable {m : StagingBufferManager} {env : Surroundings} {fuel id size csr : Nat} {isRead : Bool}
  {userData : UserData} {args : ChunkArgs} {queue : StagingQueue}

/-- A request needs a new staging buffer, since no existing one has room before or after the ready
chunks are freed, and the host has no memory for it. -/
def HostFails (env : Surroundings) (id : Nat) (m : StagingBufferManager) (size : Nat) : Prop :=
  ∃ m₁ first m₂ second,
    m.getExistingBuffer size = .ok (m₁, first) ∧ first.address = 0 ∧
    (m₁.clearTrackedChunks (env.completed id)).getExistingBuffer first.size = .ok (m₂, second) ∧
    second.address = 0 ∧ env.usmHost id (m₂.stagingBufferSize second.size) = none

/-- A chunk transfer takes a new chunk unless it is a later one of a read, which reuses one. -/
def Requests (isRead : Bool) (id : Nat) : Prop := ¬ (isRead = true ∧ id ≥ maxInFlightReads)

/-- A chunk transfer that has no staging memory and says so: it returns, with a status that is a
failure, and no callback was given a null chunk. -/
def Handled (m : StagingBufferManager)
    (result : Result (StagingBufferManager × StagingQueue × StagingTransferStatus)) : Prop :=
  ∃ m' queue' status, result = .ok (m', queue', status) ∧ status.fails = true ∧
    ∃ calls, m'.submissions = m.submissions ++ calls ∧ ∀ c ∈ calls, c.tracker.chunkAddress ≠ 0

/-- Freeing ready chunks runs no callback. -/
theorem clearTracked_submissions (tracked : List StagingBufferTracker)
    (m : StagingBufferManager) : (clearTracked tracked m).submissions = m.submissions := by
  induction tracked generalizing m with
  | nil => rfl
  | cons tracker rest ih =>
    unfold clearTracked
    split
    next =>
      rw [ih]
      unfold freeChunk
      split
      · rfl
      · split <;> rfl
    next => rfl

/-- Such a request ends with a null chunk. -/
theorem HostFails.requested (failed : HostFails env id m size) :
    ∃ m' chunk, m.requestStagingBuffer env id size = .ok (m', chunk) ∧ chunk.address = 0 ∧
      m'.submissions = m.submissions := by
  obtain ⟨m₁, first, m₂, second, existing, noRoom, again, stillNoRoom, host⟩ := failed
  have started : m₁.submissions = m.submissions := by
    obtain ⟨_, _, same⟩ := bind_eq_ok.mp existing
    cases same
    rfl
  have retried : m₂.submissions = m.submissions := by
    obtain ⟨_, _, same⟩ := bind_eq_ok.mp again
    cases same
    exact (clearTracked_submissions _ _).trans started
  refine ⟨m₂, ⟨first.allocator, first.address, second.size⟩, ?_, noRoom, retried⟩
  apply bind_eq_ok.mpr
  refine ⟨_, existing, ?_⟩
  simp only [noRoom, ne_eq, not_true_eq_false, if_false]
  apply bind_eq_ok.mpr
  refine ⟨_, again, ?_⟩
  simp only [stillNoRoom, ne_eq, not_true_eq_false, if_false, host, noRoom]

/-- A write copies into the null chunk. -/
theorem null_write_aborts (failed : HostFails env id m userData.size)
    (filled : userData.size ≠ 0) :
    m.performChunkTransfer env fuel id false userData args csr queue = .error .nullAccess := by
  obtain ⟨m', chunk, requested, null, -⟩ := failed.requested
  have copied : m'.memcpyToStaging (chunk.tracker csr) userData.ptr userData.size =
      .error .nullAccess := if_pos ⟨null, filled⟩
  unfold performChunkTransfer
  rw [if_neg (by simp), requested]
  simp only [bind, Except.bind, transferThrough, fillStaging, copied, Bool.false_eq_true, if_false]

/-- A transfer that gets past the copy hands the null chunk to its callback, and reports what that
returns. -/
theorem null_passed (failed : HostFails env id m userData.size) (requests : Requests isRead id)
    (passes : isRead = true ∨ userData.size = 0) :
    ∃ m' queue' c, m.performChunkTransfer env fuel id isRead userData args csr queue =
        .ok (m', queue', ⟨env.func id, .ready⟩) ∧
      m'.submissions = m.submissions ++ [c] ∧ c.tracker.chunkAddress = 0 := by
  obtain ⟨m', chunk, requested, null, submissions⟩ := failed.requested
  have copied : ∃ m₁, m'.fillStaging isRead userData (chunk.tracker csr) = .ok m₁ ∧
      m₁.submissions = m'.submissions := by
    unfold fillStaging memcpyToStaging
    split
    next => exact ⟨m', rfl, rfl⟩
    next write =>
      have empty : userData.size = 0 := passes.resolve_left write
      rw [if_neg (by simp [empty])]
      exact ⟨_, rfl, rfl⟩
  obtain ⟨m₁, filled, same⟩ := copied
  have called : (m₁.submit env id isRead ⟨userData, chunk.tracker csr, args⟩).submissions =
      m.submissions ++ [⟨userData, chunk.tracker csr, args⟩] := by
    rw [← submissions, ← same]
    rfl
  unfold performChunkTransfer
  rw [if_neg requests, requested]
  simp only [bind, Except.bind, transferThrough, filled]
  cases isRead with
  | true => exact ⟨_, _, _, rfl, called, null⟩
  | false => exact ⟨_, _, _, rfl, called, null⟩

/-- Whatever the pool holds and whatever is transferred, a chunk transfer for which the host has
no memory is not handled. -/
theorem null_chunk_unhandled (failed : HostFails env id m userData.size)
    (requests : Requests isRead id) :
    ¬ Handled m (m.performChunkTransfer env fuel id isRead userData args csr queue) := by
  rintro ⟨m', queue', status, returned, -, calls, listed, nonnull⟩
  by_cases passes : isRead = true ∨ userData.size = 0
  · obtain ⟨m₁, queue₁, c, passed, called, null⟩ := null_passed failed requests passes
    rw [passed] at returned
    cases returned
    have only : calls = [c] := List.append_cancel_left (listed.symm.trans called)
    exact nonnull c (by simp [only]) null
  · obtain ⟨write, filled⟩ := not_or.mp passes
    obtain rfl : isRead = false := by simpa using write
    rw [null_write_aborts failed filled] at returned
    cases returned

/-- Surroundings with a host that has no memory, where all callbacks succeed. -/
def exhausted : Surroundings := { answering 0 with usmHost := fun _ _ => none }

theorem exhausted_fails (size : Nat) : HostFails exhausted 0 newManager size :=
  ⟨newManager, ⟨none, 0, size⟩, newManager, ⟨none, 0, size⟩, rfl, rfl, rfl, rfl, rfl⟩

theorem null_chunk_unhandled_page : ¬ Handled newManager
    (newManager.performChunkTransfer exhausted 1 0 true
      ⟨0x1000, 0x1000, ⟨0, 0, 0, 0, 0, 0⟩, false⟩ (.buffer 0 0x1000) 0 emptyQueue) :=
  null_chunk_unhandled (exhausted_fails _) (by simp [Requests, maxInFlightReads])

/-- A page is read through a null chunk, with success; a page to be written is copied to address
null. -/
theorem null_page_reads_and_writes :
    ((newManager.performChunkTransfer exhausted 1 0 true
        ⟨0x1000, 0x1000, ⟨0, 0, 0, 0, 0, 0⟩, false⟩ (.buffer 0 0x1000) 0 emptyQueue).map fun r =>
      (r.1.submissions.map fun c => c.tracker.chunkAddress, r.2.2)) = .ok ([0], .success) ∧
    (newManager.performBufferTransfer exhausted 2 0x1000 0 0x1000 0 false).map Prod.snd =
      .error .nullAccess := by
  constructor <;> decide +kernel

end StagingBufferManager

end ComputeRuntime
