import ComputeRuntime.Staging.Queue

/-! What a transfer does to the ledger. Writes hand every chunk to the shared list at once; a
read keeps its last two chunks to itself and gives them back only when it runs to its end. -/
namespace ComputeRuntime

/-- The waits of a final drain do not come back before the GPU is done with the chunk that is freed
then. -/
def Surroundings.Punctual (env : Surroundings) : Prop :=
  ∀ i, (env.drainWait i).status ≠ .notReady

theorem Surroundings.Punctual.ready {env : Surroundings} (punctual : env.Punctual) {i : Nat}
    (goesOn : (env.drainWait i).status ≠ .gpuHang) : (env.drainWait i).status = .ready := by
  cases status : (env.drainWait i).status with
  | notReady => exact absurd status (punctual i)
  | ready => rfl
  | gpuHang => exact absurd status goesOn

theorem Surroundings.Punctual.of_ready {env : Surroundings}
    (ready : ∀ i, (env.drainWait i).status = .ready) : env.Punctual := by
  intro i
  rw [ready i]
  decide

/-- The transfers from `n` on have not filled a slot yet. -/
def EmptyFrom (n : Nat) (queue : StagingQueue) : Prop := ∀ i, n ≤ i → queue i = none

namespace StagingBufferManager

variable {I : PoolInvariant} {m m' : StagingBufferManager} {lost : List StagingBufferTracker}
  {queue queue' : StagingQueue} {env : Surroundings} {fuel : Nat} {exact : Prop}

/-- After a transfer the shared list accounts for every chunk but the `lost` ones and, when the
transfer is not exact, some more. -/
def Settled (I : PoolInvariant) (exact : Prop) (lost : List StagingBufferTracker)
    (m : StagingBufferManager) : Prop :=
  ∃ extra, m.InOrder I (extra ++ lost) ∧ (exact → extra = [])

/-- Between two chunks of a transfer, `n` of them done, the queue holds the rest. -/
structure Holding (I : PoolInvariant) (exact : Prop) (isRead : Bool)
    (lost : List StagingBufferTracker) (n : Nat) (m : StagingBufferManager) (queue : StagingQueue) : Prop where
  write : isRead = false → queue = emptyQueue
  order : ∃ extra, m.InOrder I (queued queue ++ (extra ++ lost)) ∧ (exact → extra = [])
  fresh : exact → EmptyFrom n queue

theorem Holding.start (isRead : Bool) (order : m.InOrder I lost) :
    Holding I exact isRead lost 0 m emptyQueue where
  write := fun _ => rfl
  order := ⟨[], order, fun _ => rfl⟩
  fresh := fun _ _ _ => rfl

/-- What a transfer holds is lost when it stops early, and a write holds nothing. -/
theorem Holding.settled {isRead : Bool} {n : Nat} (holding : Holding I exact isRead lost n m queue) :
    Settled I (exact ∧ isRead = false) lost m := by
  obtain ⟨extra, order, none⟩ := holding.order
  refine ⟨queued queue ++ extra, by simpa using order, fun precise => ?_⟩
  rw [holding.write precise.2, none precise.1]
  rfl

theorem Settled.mono {exact' : Prop} (settled : Settled I exact lost m)
    (stronger : exact' → exact) : Settled I exact' lost m := by
  obtain ⟨extra, order, none⟩ := settled
  exact ⟨extra, order, none ∘ stronger⟩

theorem Holding.performChunkTransfer {n csr : Nat} {isRead : Bool} {userData : UserData}
    {args : ChunkArgs} {status : StagingTransferStatus} (creates : env.Creates I)
    (holding : Holding I exact isRead lost n m queue)
    (returned : m.performChunkTransfer env fuel n isRead userData args csr queue =
      .ok (m', queue', status)) :
    Holding I exact isRead lost (n + 1) m' queue' ∧ status = chunkStatus env isRead n := by
  obtain ⟨extra, order, none⟩ := holding.order
  obtain ⟨order, status, slots⟩ := performChunkTransfer_inOrder creates order returned
  refine ⟨⟨?_, ⟨overwritten isRead n queue ++ extra, by simpa using order, ?_⟩, ?_⟩, status⟩
  · intro write
    rcases slots with same | ⟨read, _⟩
    · exact same.trans (holding.write write)
    · rw [write] at read
      cases read
  · intro precise
    rw [none precise, List.append_nil, overwritten]
    split
    next first =>
      -- the slot of one of the first two transfers is its own number
      have slot : n % 2 = n := Nat.mod_eq_of_lt first.2
      simp [slotTrackers, slot, holding.fresh precise n (Nat.le_refl n)]
    next => rfl
  · intro precise i later
    have low := Nat.mod_le n 2
    rcases slots with rfl | ⟨_, transfer, rfl⟩
    · exact holding.fresh precise i (by omega)
    · rw [Function.update_of_ne (by omega)]
      exact holding.fresh precise i (by omega)

/-- The drain loop frees the slots it reaches. -/
theorem drainFrom_inOrder (punctual : env.Punctual) (left : Nat) {i : Nat} {status : WaitStatus}
    (order : m.InOrder I ((List.range' i left).flatMap (slotTrackers queue) ++ lost))
    (returned : drainFrom env fuel queue left i m = .ok (m', status)) :
    Settled I (∀ i, (env.drainWait i).status = .ready) lost m' := by
  induction left generalizing i m with
  | zero =>
    cases returned
    exact ⟨[], order, fun _ => rfl⟩
  | succ left ih =>
    unfold drainFrom at returned
    split at returned
    next => cases returned
    next transfer found =>
      obtain ⟨⟨m₁, tracker⟩, copied, went⟩ := bind_eq_ok.mp returned
      rcases copyStagingToHost_spec copied with ⟨hangs, rfl, rfl⟩ | ⟨goesOn, rfl, ready, buffers,
        trackers, badFrees⟩
      · cases went
        refine ⟨_, order, fun silent => ?_⟩
        rw [silent i] at hangs
        cases hangs
      · have ready := ready (punctual.ready goesOn)
        have slots : (List.range' i (left + 1)).flatMap (slotTrackers queue) =
            transfer.2 :: (List.range' (i + 1) left).flatMap (slotTrackers queue) := by
          simp [List.range'_succ, slotTrackers, found]
        rw [slots] at order
        exact ih (freeChunk_inOrder (order.congr buffers trackers badFrees) ready) went

/-- The drain gives back what a queue holds after `n` transfers. -/
theorem Holding.drain {n : Nat} {isRead : Bool} {status : WaitStatus}
    (holding : Holding I exact isRead lost n m queue)
    (punctual : isRead = true → env.Punctual)
    (silent : exact → isRead = true → ∀ i, (env.drainWait i).status = .ready)
    (returned : m.drainAndReleaseStagingQueue env fuel isRead queue n = .ok (m', status)) :
    Settled I exact lost m' := by
  unfold drainAndReleaseStagingQueue at returned
  split at returned
  next read =>
    obtain ⟨extra, order, none⟩ := holding.order
    -- the slots the loop reaches, and those it does not
    have slots : ∃ rest, (queued queue).Perm
        ((List.range' 0 (min n maxInFlightReads)).flatMap (slotTrackers queue) ++ rest) ∧
        (EmptyFrom n queue → rest = []) := by
      rcases n with _ | _ | n
      · refine ⟨queued queue, List.Perm.refl _, fun fresh => ?_⟩
        simp [queued, slotTrackers, fresh 0, fresh 1]
      · refine ⟨slotTrackers queue 1, ?_, fun fresh => ?_⟩
        · simp [maxInFlightReads, queued]
        · simp [slotTrackers, fresh 1]
      · refine ⟨[], ?_, fun _ => rfl⟩
        have both : min (n + 1 + 1) maxInFlightReads = 2 := Nat.min_eq_right (by
          simp [maxInFlightReads])
        rw [both]
        simp [queued, List.range'_succ]
    obtain ⟨rest, perm, empty⟩ := slots
    have order := order.perm (perm.append_right (extra ++ lost))
    rw [List.append_assoc] at order
    obtain ⟨left, order, drained⟩ := drainFrom_inOrder (punctual read) _ order returned
    refine ⟨left ++ (rest ++ extra), by simpa using order, fun precise => ?_⟩
    rw [none precise, empty (holding.fresh precise), drained (silent precise read)]
    rfl
  next write =>
    cases returned
    exact holding.settled.mono fun precise => ⟨precise, by simpa using write⟩

/-- A callback that fails is one of a write, or of a read that is not exact. -/
theorem Settled.of_failed {i : Nat} {isRead : Bool}
    (fine : exact → isRead = true → (chunkStatus env isRead i).chunkCopyStatus = 0)
    (failed : (chunkStatus env isRead i).chunkCopyStatus ≠ 0 ∧
      Settled I (exact ∧ isRead = false) lost m) : Settled I exact lost m := by
  refine failed.2.mono fun precise => ⟨precise, ?_⟩
  cases isRead with
  | false => rfl
  | true => exact absurd (fine precise rfl) failed.1

/-- A hang in a buffer read does not end it; only a callback that fails does, and a hang in the
final drain. -/
def GoodBufferRead (env : Surroundings) : Prop :=
  (∀ n, (chunkStatus env true n).chunkCopyStatus = 0) ∧ ∀ i, (env.drainWait i).status = .ready

/-- Callbacks that fail and hangs both end an image read. -/
def GoodImageRead (env : Surroundings) : Prop :=
  (∀ n, (chunkStatus env true n).fails = false) ∧ ∀ i, (env.drainWait i).status = .ready

end StagingBufferManager

open StagingBufferManager Loop

variable {I : PoolInvariant} {env : Surroundings} {fuel csr : Nat} {exact : Prop} {isRead : Bool}
  {lost : List StagingBufferTracker} {m m' : StagingBufferManager}
  {status : StagingTransferStatus}

namespace ChunkLoop

def Holding (I : PoolInvariant) (exact : Prop) (isRead : Bool) (lost : List StagingBufferTracker) (n : Nat)
    (loop : ChunkLoop) : Prop :=
  StagingBufferManager.Holding I exact isRead lost n loop.manager loop.stagingQueue

/-- For a write, and where nothing exact is asked, the number of chunks does not matter. -/
theorem Holding.renumber {n : Nat} (k : Nat) {loop : ChunkLoop}
    (holding : loop.Holding I exact isRead lost n) (loose : exact → isRead = false) :
    loop.Holding I exact isRead lost k where
  write := holding.write
  order := holding.order
  fresh := fun precise _ _ => by rw [holding.write (loose precise)]; rfl

section Chunks

variable (creates : env.Creates I)

include creates

/-- A chunk is transferred, or its callback fails and the queue is dropped. -/
theorem transfer_holding {n ptr size : Nat} {args : ChunkArgs} {loop : ChunkLoop}
    (holding : loop.Holding I exact isRead lost n) :
    Ends (fun loop => loop.Holding I exact isRead lost (n + 1))
      (fun returned => (chunkStatus env isRead n).chunkCopyStatus ≠ 0 ∧
        Settled I (exact ∧ isRead = false) lost returned.1)
      (loop.transfer env fuel isRead csr n ptr size args) := by
  intro o returned
  obtain ⟨⟨m₁, queue₁, result⟩, performed, went⟩ := bind_eq_ok.mp returned
  obtain ⟨after, rfl⟩ := StagingBufferManager.Holding.performChunkTransfer creates holding performed
  simp only at went
  split at went
  next failed =>
    cases went
    exact ⟨failed, after.settled⟩
  next =>
    cases went
    exact after

theorem copyChunk_holding {i dstPtr srcPtr chunkSize size : Nat} {loop : ChunkLoop}
    (holding : loop.Holding I True false lost 0) :
    Ends (fun loop => loop.Holding I True false lost 0) (fun returned => Settled I True lost returned.1)
      (loop.copyChunk env fuel csr dstPtr srcPtr chunkSize i size) :=
  (transfer_holding creates (holding.renumber i fun _ => rfl)).mono
    (fun _ after => after.renumber 0 fun _ => rfl)
    (fun _ failed => failed.2.mono fun _ => ⟨trivial, rfl⟩)

theorem bufferChunk_holding {i ptr chunkSize size : Nat} {state : ChunkLoop × Nat}
    (holding : state.1.Holding I exact isRead lost i) :
    Ends (fun state => state.1.Holding I exact isRead lost (i + 1))
      (fun returned => (chunkStatus env isRead i).chunkCopyStatus ≠ 0 ∧
        Settled I (exact ∧ isRead = false) lost returned.1)
      (bufferChunk env fuel csr isRead ptr chunkSize i size state) :=
  (transfer_holding creates holding).andThen fun _ after => .goesOn after

/-- The loop of a buffer transfer. The number of a chunk is the loop's counter, which may be
narrower than the number of chunks: a read of that many does not end. -/
theorem bufferLoop_holding {copiesNum ptr chunkSize : Nat} {state : ChunkLoop × Nat}
    (fine : ∀ i, exact → isRead = true → (chunkStatus env isRead i).chunkCopyStatus = 0)
    (start : state.1.Holding I exact isRead lost 0) :
    Ends (fun state => state.1.Holding I exact isRead lost copiesNum)
      (fun returned => Settled I exact lost returned.1)
      (forWord 32 .outOfFuel copiesNum
        (fun i => bufferChunk env fuel csr isRead ptr chunkSize i chunkSize) fuel 0 state) := by
  have settled : ∀ i (returned : Transferred), (chunkStatus env isRead i).chunkCopyStatus ≠ 0 ∧
      Settled I (exact ∧ isRead = false) lost returned.1 → Settled I exact lost returned.1 :=
    fun i _ failed => .of_failed (fine i) failed
  rcases Nat.lt_or_ge copiesNum (2 ^ 32) with fits | narrow
  · refine forWord_runs (P := fun n (state : ChunkLoop × Nat) =>
      state.1.Holding I exact isRead lost n) fits ?_ (Nat.zero_le _) start
    exact fun i _ _ holding => (bufferChunk_holding creates holding).mono (fun _ after => after) (settled i)
  · by_cases loose : exact → isRead = false
    · refine (forWord_keeps (P := fun state : ChunkLoop × Nat =>
        state.1.Holding I exact isRead lost 0) ?_ start).mono
        (fun _ after => after.renumber copiesNum loose) fun _ kept => kept
      exact fun i state holding => (bufferChunk_holding creates (holding.renumber i loose)).mono
        (fun _ after => after.renumber 0 loose) (settled i)
    · -- no callback of the read fails, so only the counter could end the loop
      simp only [not_forall, Bool.not_eq_false] at loose
      obtain ⟨precise, read⟩ := loose
      have held : state.1.Holding I False isRead lost 0 :=
        ⟨start.write, start.order.imp fun _ h => ⟨h.1, False.elim⟩, False.elim⟩
      intro o ended
      refine absurd ended (forWord_stuck (P := fun state : ChunkLoop × Nat =>
        state.1.Holding I False isRead lost 0) narrow ?_ (by decide) held o)
      exact fun i state holding => (bufferChunk_holding creates (holding.renumber i False.elim)).mono
        (fun _ after => after.renumber 0 False.elim)
        (fun _ failed => failed.1 (fine i precise read))

end Chunks

end ChunkLoop

namespace StagingBufferManager

/-- A copy writes, so it leaves the ledger in order whatever happens. -/
theorem performCopy_inOrder {dstPtr srcPtr size : Nat} (creates : env.Creates I)
    (order : m.InOrder I lost)
    (returned : m.performCopy env fuel dstPtr srcPtr size csr = .ok (m', status)) :
    m'.InOrder I lost := by
  obtain ⟨copiesNum, _, returned⟩ := bind_eq_ok.mp returned
  obtain ⟨remainder, _, finished⟩ := bind_eq_ok.mp returned
  have start : ChunkLoop.Holding I True false lost 0 ⟨m, emptyQueue, .success⟩ :=
    Holding.start false order
  have settled : Settled I True lost m' := by
    refine Ends.finish (Q := fun returned : Transferred => Settled I True lost returned.1)
      (forWord_keeps (fun _ _ holding => ChunkLoop.copyChunk_holding creates holding) start) ?_ finished
    intro loop holding rest
    split at rest
    next =>
      cases rest
      exact (Holding.settled holding).mono fun _ => ⟨trivial, rfl⟩
    next =>
      refine Ends.finish (Q := fun returned : Transferred => Settled I True lost returned.1)
        (ChunkLoop.copyChunk_holding creates holding) ?_ rest
      rintro last holding ⟨⟩
      exact (Holding.settled holding).mono fun _ => ⟨trivial, rfl⟩
  obtain ⟨_, order, none⟩ := settled
  rwa [none trivial] at order

theorem performBufferTransfer_settled {ptr globalOffset globalSize : Nat}
    (creates : env.Creates I) (punctual : isRead = true → env.Punctual) (order : m.InOrder I lost)
    (good : exact → isRead = true → GoodBufferRead env)
    (returned : m.performBufferTransfer env fuel ptr globalOffset globalSize csr isRead =
      .ok (m', status)) : Settled I exact lost m' := by
  obtain ⟨copiesNum, _, returned⟩ := bind_eq_ok.mp returned
  obtain ⟨remainder, _, finished⟩ := bind_eq_ok.mp returned
  have start : ChunkLoop.Holding I exact isRead lost 0 ⟨m, emptyQueue, .success⟩ :=
    Holding.start isRead order
  have fine : ∀ n, exact → isRead = true → (chunkStatus env isRead n).chunkCopyStatus = 0 := by
    intro n precise read
    rw [read]
    exact (good precise read).1 n
  refine Ends.finish (Q := fun returned : Transferred => Settled I exact lost returned.1)
    (P := fun state : ChunkLoop × Nat =>
      state.1.Holding I exact isRead lost (copiesNum + if remainder ≠ 0 then 1 else 0))
    ((ChunkLoop.bufferLoop_holding creates fine start).andThen ?_) ?_ finished
  · intro state holding
    simp only [ite_not]
    split
    next => exact .goesOn holding
    next =>
      exact (ChunkLoop.bufferChunk_holding creates holding).mono (fun _ after => after)
        fun returned => Settled.of_failed (fine copiesNum)
  · intro state holding rest
    obtain ⟨⟨m₁, waitStatus⟩, drained, returned⟩ := bind_eq_ok.mp rest
    cases returned
    exact Holding.drain holding punctual (fun precise read => (good precise read).2) drained

end StagingBufferManager

namespace ImageLoop

/-- The chunks of an image transfer are counted by a variable of their own. -/
def Holding (I : PoolInvariant) (exact : Prop) (isRead : Bool) (lost : List StagingBufferTracker)
    (loop : ImageLoop) : Prop :=
  StagingBufferManager.Holding I exact isRead lost loop.submittedChunks loop.manager
    loop.stagingQueue

/-- Between two chunks of the same slices: the chunk before did not fail. -/
def GoesOn (I : PoolInvariant) (exact : Prop) (isRead : Bool) (lost : List StagingBufferTracker)
    (loop : ImageLoop) : Prop :=
  loop.Holding I exact isRead lost ∧ loop.result.fails = false

/-- A status that fails ends the transfer, and the queue is dropped. -/
def SlicesDone (I : PoolInvariant) (exact : Prop) (isRead : Bool) (lost : List StagingBufferTracker)
    (returned : ImageLoop × StagingTransferStatus) : Prop :=
  if returned.2.fails then Settled I exact lost returned.1.manager
  else returned.1.Holding I exact isRead lost

/-- What every chunk of some slices keeps, the slices keep. -/
theorem performSlices_ends {t : ImageTransfer} {loop : ImageLoop}
    {chunkSize sliceOffset baseRowOffset rowsToCopy : Nat} {P : ImageLoop → Prop}
    {Q : ImageLoop × StagingTransferStatus → Prop}
    (chunk : ∀ (loop : ImageLoop) (firstRow rows : Nat), P loop →
      Ends P Q (loop.transfer env fuel t sliceOffset baseRowOffset firstRow rows))
    (start : P { loop with
      result := .success
      imageMetadata := { loop.imageMetadata with slicesInChunk := loop.region.z } })
    (done : ∀ loop, P loop → Q (loop, loop.result)) {returned : ImageLoop × StagingTransferStatus}
    (performed : loop.performSlices env fuel t chunkSize sliceOffset baseRowOffset rowsToCopy =
      .ok returned) : Q returned := by
  obtain ⟨rows, _, performed⟩ := bind_eq_ok.mp performed
  obtain ⟨numOfChunksInYDim, _, performed⟩ := bind_eq_ok.mp performed
  obtain ⟨remainder, _, finished⟩ := bind_eq_ok.mp performed
  refine Ends.finish (P := P) (Q := Q) (Ends.andThen (P := P) ?_ ?_) ?_ finished
  · exact forWord_keeps (fun _ _ kept => chunk _ _ _ kept) start
  · intro loop kept
    split
    next => exact .goesOn kept
    next => exact chunk _ _ _ kept
  · rintro loop kept ⟨⟩
    exact done loop kept

section Parts

variable {t : ImageTransfer} {loop : ImageLoop} (creates : env.Creates I)
  (fine : ∀ n, exact → t.isRead = true → (chunkStatus env t.isRead n).fails = false)

include creates fine

theorem transfer_holding {sliceOffset baseRowOffset firstRow rows : Nat}
    (holding : loop.Holding I exact t.isRead lost) :
    Ends (GoesOn I exact t.isRead lost) (SlicesDone I exact t.isRead lost)
      (loop.transfer env fuel t sliceOffset baseRowOffset firstRow rows) := by
  intro o returned
  obtain ⟨⟨m₁, queue₁, result⟩, performed, went⟩ := bind_eq_ok.mp returned
  obtain ⟨after, rfl⟩ := StagingBufferManager.Holding.performChunkTransfer creates holding performed
  simp only at went
  split at went
  next failed =>
    cases went
    refine (if_pos failed).mpr (after.settled.mono fun precise => ⟨precise, ?_⟩)
    by_contra read
    rw [fine _ precise (by simpa using read)] at failed
    cases failed
  next fits =>
    cases went
    exact ⟨after, by simpa using fits⟩

theorem performSlices_holding {chunkSize sliceOffset baseRowOffset rowsToCopy : Nat}
    {returned : ImageLoop × StagingTransferStatus} (holding : loop.Holding I exact t.isRead lost)
    (performed : loop.performSlices env fuel t chunkSize sliceOffset baseRowOffset rowsToCopy =
      .ok returned) : SlicesDone I exact t.isRead lost returned := by
  refine performSlices_ends (P := GoesOn I exact t.isRead lost) ?_ ?_ ?_ performed
  · exact fun _ _ _ kept => transfer_holding creates fine kept.1
  · exact ⟨holding, rfl⟩
  · rintro loop ⟨holding, silent⟩
    exact (if_neg (by simp [silent])).mpr holding

theorem step_holding {chunkSize sliceOffset slices : Nat} {globalOrigin : Origin}
    {globalRegion : Region} (holding : loop.Holding I exact t.isRead lost) :
    Ends (fun loop => loop.Holding I exact t.isRead lost)
      (fun returned => Settled I exact lost returned.1)
      (loop.step env fuel t chunkSize globalOrigin globalRegion sliceOffset slices) := by
  intro o returned
  obtain ⟨⟨loop', result⟩, performed, went⟩ := bind_eq_ok.mp returned
  have done := performSlices_holding creates fine (by exact holding) performed
  simp only [SlicesDone] at done went
  split at went
  next failed =>
    rw [if_pos failed] at done
    cases went
    exact done
  next fits =>
    rw [if_neg fits] at done
    cases went
    exact done

end Parts

end ImageLoop

namespace StagingBufferManager

theorem performImageTransfer_settled {ptr rowPitch slicePitch bytesPerPixel : Nat}
    {globalOrigin : Origin} {globalRegion : Region} {isMipMapped3DImage : Bool}
    (creates : env.Creates I) (punctual : isRead = true → env.Punctual) (order : m.InOrder I lost)
    (good : exact → isRead = true → GoodImageRead env)
    (returned : m.performImageTransfer env fuel ptr globalOrigin globalRegion rowPitch slicePitch
      bytesPerPixel isMipMapped3DImage csr isRead = .ok (m', status)) : Settled I exact lost m' := by
  obtain ⟨rows, _, returned⟩ := bind_eq_ok.mp returned
  obtain ⟨numOfChunksInYDim, _, returned⟩ := bind_eq_ok.mp returned
  obtain ⟨slicesPerStep, _, returned⟩ := bind_eq_ok.mp returned
  obtain ⟨remainderSlices, _, returned⟩ := bind_eq_ok.mp returned
  obtain ⟨sliceSteps, _, finished⟩ := bind_eq_ok.mp returned
  have fine : ∀ n, exact → isRead = true → (chunkStatus env isRead n).fails = false := by
    intro n precise read
    rw [read]
    exact (good precise read).1 n
  refine Ends.finish (P := fun loop : ImageLoop => loop.Holding I exact isRead lost)
    (Q := fun returned : Transferred => Settled I exact lost returned.1)
    (Ends.andThen (P := fun loop : ImageLoop => loop.Holding I exact isRead lost) ?_ ?_) ?_ finished
  · exact forWord_keeps (fun _ _ holding => ImageLoop.step_holding creates (by exact fine) holding)
      (Holding.start isRead order)
  · intro loop holding
    split
    next => exact .goesOn holding
    next => exact ImageLoop.step_holding creates (by exact fine) holding
  · intro loop holding rest
    obtain ⟨⟨m₁, waitStatus⟩, drained, returned⟩ := bind_eq_ok.mp rest
    cases returned
    exact Holding.drain holding punctual (fun precise read => (good precise read).2) drained

end StagingBufferManager

end ComputeRuntime
