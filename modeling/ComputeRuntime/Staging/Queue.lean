import ComputeRuntime.Staging.Ledger

/-! One chunk transfer and the final drain, against the ledger: which trackers a read queue
holds, and what becomes of them. -/
namespace ComputeRuntime

/-- The tracker in one slot of a read queue. -/
def slotTrackers (queue : StagingQueue) (i : Nat) : List StagingBufferTracker :=
  ((queue i).map Prod.snd).toList

/-- The trackers a read queue holds. -/
def queued (queue : StagingQueue) : List StagingBufferTracker :=
  slotTrackers queue 0 ++ slotTrackers queue 1

section Slots

variable {queue : StagingQueue} {i : Nat} {transfer : UserData × StagingBufferTracker}

@[simp] theorem queued_emptyQueue : queued emptyQueue = [] := rfl

/-- Clearing a slot takes its tracker out of the queue. -/
theorem queued_clear (queue : StagingQueue) (slot : i < 2) :
    (queued queue).Perm (slotTrackers queue i ++ queued (Function.update queue i none)) := by
  have slots : i = 0 ∨ i = 1 := by omega
  rcases slots with rfl | rfl
  · simp [queued, slotTrackers]
  · simp only [queued, slotTrackers, Function.update_self, Option.map_none, Option.toList_none,
      List.append_nil]
    rw [Function.update_of_ne (by omega)]
    exact List.perm_append_comm

/-- Filling a slot adds its tracker to those of the other slot. -/
theorem queued_fill (slot : i < 2) :
    (queued (Function.update queue i (some transfer))).Perm
      (transfer.2 :: queued (Function.update queue i none)) := by
  have cleared := queued_clear (Function.update queue i (some transfer)) slot
  simpa [slotTrackers] using cleared

end Slots

namespace StagingBufferManager

variable {I : PoolInvariant} {m m' : StagingBufferManager}
  {others lost : List StagingBufferTracker}
  {queue queue' : StagingQueue} {env : Surroundings} {fuel : Nat}

/-- A wait that comes back changes the completed task counts, and then the chunk is ready when the
wait says so. -/
theorem afterWait_spec (m : StagingBufferManager) (tracker : StagingBufferTracker)
    (wait : TaskCountWait) :
    (∃ completed, m.afterWait tracker wait = { m with completed }) ∧
      (wait.status = .ready → (m.afterWait tracker wait).isReady tracker = true) := by
  unfold afterWait
  split
  next => exact ⟨⟨_, rfl⟩, fun _ => by simp [isReady, complete]⟩
  next early => exact ⟨⟨_, rfl⟩, fun ready => absurd ready early⟩

/-- A wait that hangs changes nothing. After one that does not, the user's memory changes. -/
theorem copyStagingToHost_spec {transfer : UserData × StagingBufferTracker} {wait : TaskCountWait}
    {tracker : Option StagingBufferTracker}
    (returned : m.copyStagingToHost fuel transfer wait = .ok (m', tracker)) :
    (wait.status = .gpuHang ∧ tracker = none ∧ m' = m) ∨
    (wait.status ≠ .gpuHang ∧ tracker = some transfer.2 ∧
      (wait.status = .ready → m'.isReady transfer.2 = true) ∧
      m'.stagingBuffers = m.stagingBuffers ∧ m'.trackers = m.trackers ∧
      m'.badFrees = m.badFrees) := by
  unfold copyStagingToHost at returned
  split at returned
  next hangs =>
    cases returned
    exact Or.inl ⟨hangs, rfl, rfl⟩
  next goesOn =>
    obtain ⟨copied, -, returned⟩ := bind_eq_ok.mp returned
    cases returned
    obtain ⟨⟨completed, same⟩, ready⟩ := m.afterWait_spec transfer.2 wait
    refine Or.inr ⟨goesOn, rfl, ready, ?_, ?_, ?_⟩ <;> rw [same]

theorem fillStaging_same {isRead : Bool} {userData : UserData} {tracker : StagingBufferTracker}
    (returned : m.fillStaging isRead userData tracker = .ok m') :
    m'.stagingBuffers = m.stagingBuffers ∧ m'.trackers = m.trackers ∧
      m'.badFrees = m.badFrees := by
  unfold fillStaging memcpyToStaging at returned
  split at returned
  next =>
    cases returned
    exact ⟨rfl, rfl, rfl⟩
  next =>
    split at returned
    next => cases returned
    next =>
      cases returned
      exact ⟨rfl, rfl, rfl⟩

/-- The tracker of the chunk goes into the slot of a read, or into the shared list. -/
theorem transferThrough_inOrder {id : Nat} {isRead : Bool} {userData : UserData}
    {args : ChunkArgs} {tracker : StagingBufferTracker} {status : StagingTransferStatus}
    (order : m.InOrder I (tracker ::
      (if isRead then queued (Function.update queue (id % 2) none) else queued queue) ++ others))
    (returned : m.transferThrough env id isRead userData args queue tracker =
      .ok (m', queue', status)) :
    m'.InOrder I (queued queue' ++ others) ∧ status = ⟨env.func id, .ready⟩ ∧
      queue' = if isRead then Function.update queue (id % 2)
        (some (userData, { tracker with taskCountToWait := env.peekTaskCount id })) else queue := by
  unfold transferThrough at returned
  obtain ⟨m₁, copied, returned⟩ := bind_eq_ok.mp returned
  obtain ⟨buffers, trackers, badFrees⟩ := fillStaging_same copied
  have submitted : (m₁.submit env id isRead ⟨userData, tracker, args⟩).InOrder I (tracker ::
      (if isRead then queued (Function.update queue (id % 2) none) else queued queue) ++ others) :=
    order.congr buffers trackers badFrees
  have waiting := InOrder.count submitted (env.peekTaskCount id)
  cases isRead with
  | true =>
    cases returned
    have filled : (queued (Function.update queue (id % 2)
        (some (userData, { tracker with taskCountToWait := env.peekTaskCount id })))).Perm _ :=
      queued_fill (Nat.mod_lt _ (by omega))
    exact ⟨waiting.perm (filled.append_right others).symm, rfl, rfl⟩
  | false =>
    cases returned
    exact ⟨trackChunk_inOrder waiting, rfl, rfl⟩

/-- What one chunk transfer reports: a hang when a read waits for its slot and the wait hangs,
else what the callback returned. -/
def chunkStatus (env : Surroundings) (isRead : Bool) (id : Nat) : StagingTransferStatus :=
  if isRead ∧ maxInFlightReads ≤ id ∧ (env.slotWait id).status = .gpuHang then ⟨0, .gpuHang⟩
  else ⟨env.func id, .ready⟩

/-- The tracker a chunk transfer loses: the one in a slot that is filled without being reused. -/
def overwritten (isRead : Bool) (id : Nat) (queue : StagingQueue) : List StagingBufferTracker :=
  if isRead ∧ id < maxInFlightReads then slotTrackers queue (id % 2) else []

/-- After one chunk transfer, what the queue held is in the queue, in the shared list or
overwritten. -/
theorem performChunkTransfer_inOrder {id csr : Nat} {isRead : Bool} {userData : UserData}
    {args : ChunkArgs} {status : StagingTransferStatus} (creates : env.Creates I)
    (order : m.InOrder I (queued queue ++ lost))
    (returned : m.performChunkTransfer env fuel id isRead userData args csr queue =
      .ok (m', queue', status)) :
    m'.InOrder I (queued queue' ++ (overwritten isRead id queue ++ lost)) ∧
      status = chunkStatus env isRead id ∧
      (queue' = queue ∨ isRead = true ∧ ∃ transfer,
        queue' = Function.update queue (id % 2) (some transfer)) := by
  unfold performChunkTransfer at returned
  split at returned
  next reuses =>
    have kept : overwritten isRead id queue = [] := if_neg (by omega)
    rw [kept, List.nil_append]
    split at returned
    next => cases returned
    next transfer found =>
      obtain ⟨⟨m₁, tracker⟩, copied, went⟩ := bind_eq_ok.mp returned
      rcases copyStagingToHost_spec copied with ⟨hangs, rfl, rfl⟩ | ⟨goesOn, rfl, _, buffers,
        trackers, badFrees⟩
      · cases went
        have hang : chunkStatus env isRead id = ⟨0, .gpuHang⟩ :=
          if_pos ⟨reuses.1, reuses.2, hangs⟩
        exact ⟨order, hang.symm, Or.inl rfl⟩
      · have order₁ := order.congr buffers trackers badFrees
        have slot : id % 2 < 2 := Nat.mod_lt _ (by omega)
        have cleared := order₁.perm ((queued_clear queue slot).append_right lost)
        have reused : slotTrackers queue (id % 2) = [transfer.2] := by
          have found : queue (id % 2) = some transfer := found
          simp [slotTrackers, found]
        rw [reused] at cleared
        obtain ⟨order₂, status, queue'⟩ := transferThrough_inOrder (by simpa [reuses.1] using cleared)
          went
        rw [if_pos reuses.1] at queue'
        have called : chunkStatus env isRead id = ⟨env.func id, .ready⟩ :=
          if_neg (by simp [goesOn])
        exact ⟨order₂, status.trans called.symm, Or.inr ⟨reuses.1, _, queue'⟩⟩
  next fresh =>
    obtain ⟨⟨m₁, chunk⟩, requested, returned⟩ := bind_eq_ok.mp returned
    have order₁ := requestStagingBuffer_inOrder csr creates order requested
    have called : chunkStatus env isRead id = ⟨env.func id, .ready⟩ :=
      if_neg fun hang => fresh ⟨hang.1, hang.2.1⟩
    rw [called]
    cases isRead with
    | true =>
      have early : id < maxInFlightReads := by
        simp only [true_and] at fresh
        omega
      have lostSlot : overwritten true id queue = slotTrackers queue (id % 2) :=
        if_pos ⟨rfl, early⟩
      rw [lostSlot]
      have slot : id % 2 < 2 := Nat.mod_lt _ (by omega)
      have moved := (queued_clear queue slot).append_right lost
      have split := (moved.trans (List.perm_append_comm.append_right lost)).cons (chunk.tracker csr)
      obtain ⟨order₂, status, queue'⟩ := transferThrough_inOrder
        (order₁.perm (by simpa using split)) returned
      exact ⟨order₂, status, Or.inr ⟨rfl, _, queue'⟩⟩
    | false =>
      have kept : overwritten false id queue = [] := if_neg (by simp)
      rw [kept, List.nil_append]
      obtain ⟨order₂, status, queue'⟩ := transferThrough_inOrder (by simpa using order₁) returned
      exact ⟨order₂, status, Or.inl queue'⟩

end StagingBufferManager

end ComputeRuntime
