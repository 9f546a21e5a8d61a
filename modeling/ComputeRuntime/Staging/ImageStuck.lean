import ComputeRuntime.Staging.ImageTransfer
import ComputeRuntime.Staging.ReadHang

/-! Image transfers that never return although nothing fails: a loop has more rounds than its 32-bit
counter can count. The loops over rows and slices of a chunk run when the chunk is copied to the
user, so a read whose first chunk is too large for them gets stuck at the first wait for it. -/
namespace ComputeRuntime

open Loop StagingBufferManager ImageRequest

/-- No callback fails and no wait hangs. -/
structure Surroundings.Calm (env : Surroundings) : Prop where
  called : ∀ n, env.func n = 0
  slotSilent : ∀ n, (env.slotWait n).status ≠ .gpuHang
  drainSilent : ∀ i, (env.drainWait i).status ≠ .gpuHang

theorem Surroundings.Serves.calm {env : Surroundings} {m : StagingBufferManager} {size : Nat}
    (serves : env.Serves m size) : env.Calm :=
  ⟨serves.called, serves.slotSilent, serves.drainSilent⟩

theorem Surroundings.Calm.chunkStatus {env : Surroundings} (calm : env.Calm) (isRead : Bool)
    (n : Nat) : StagingBufferManager.chunkStatus env isRead n = .success := by
  rw [StagingBufferManager.chunkStatus, if_neg fun hang => calm.slotSilent n hang.2.2, calm.called]
  rfl

/-- A chunk of an image that the loops of `copyImageToHost` are never done with. -/
structure UserData.Uncopyable (u : UserData) : Prop where
  image : u.isImageOperation = true
  spans : u.imageMetadata.Spans u.size
  word : u.size < 2 ^ 64
  wide : ¬ u.imageMetadata.Copyable

/-- Slot 0 of a read holds such a chunk. -/
def HoldsWide (queue : StagingQueue) : Prop :=
  ∃ u tracker, queue 0 = some (u, tracker) ∧ u.Uncopyable

namespace StagingBufferManager

variable {m m' : StagingBufferManager} {env : Surroundings} {fuel id csr : Nat}
  {queue queue' : StagingQueue} {userData : UserData} {args : ChunkArgs}
  {status : StagingTransferStatus} {tracker : StagingBufferTracker}

theorem copyImageToHost_stuck {dst size : Nat} {d : ImageMetadata} (spans : d.Spans size)
    (word : size < 2 ^ 64) (wide : ¬ d.Copyable) :
    m.copyImageToHost fuel dst tracker size d ≠ .ok m' := by
  intro copied
  obtain ⟨padded, many⟩ := Classical.not_imp.mp wide
  have area : mul64 d.rowSize d.rowsInChunk = d.rowSize * d.rowsInChunk :=
    Word.mul_eq (by have := spans.area_le; omega)
  unfold copyImageToHost at copied
  simp only [area] at copied
  rw [if_pos (show _ ∨ _ ∧ _ from padded)] at copied
  rcases Nat.lt_or_ge d.slicesInChunk (2 ^ 32) with few | deep
  · -- the row loop of the first slice
    obtain ⟨m₁, slice⟩ := forWordAll_first spans.someSlices copied
    exact forWordAll_stuck (by omega) (by decide) _ _ slice
  · exact forWordAll_stuck deep (by decide) _ _ copied

theorem copyStagingToHost_stuck {wait : TaskCountWait} (goesOn : wait.status ≠ .gpuHang)
    (stuck : userData.Uncopyable) {r : StagingBufferManager × Option StagingBufferTracker} :
    m.copyStagingToHost fuel (userData, tracker) wait ≠ .ok r := by
  intro copied
  unfold copyStagingToHost at copied
  rw [if_neg goesOn] at copied
  obtain ⟨_, host, -⟩ := bind_eq_ok.mp copied
  unfold copyToUser at host
  rw [if_pos stuck.image] at host
  exact copyImageToHost_stuck stuck.spans stuck.word stuck.wide host

/-- Slot 0 is filled by the first chunk, and no other chunk gets past it. -/
theorem ChunkCases.holdsWide (calm : env.Calm)
    (wide : id = 0 ∧ userData.Uncopyable ∨ 0 < id ∧ HoldsWide queue)
    (step : ChunkCases env fuel id csr userData args m queue m' queue' status) :
    status = .success ∧ HoldsWide queue' := by
  have success : (⟨env.func id, .ready⟩ : StagingTransferStatus) = .success := by
    rw [calm.called]
    rfl
  cases step with
  | fresh early requested went =>
    obtain ⟨rfl, -, rfl⟩ := transferThrough_read went
    refine ⟨success, ?_⟩
    rcases wide with ⟨rfl, first⟩ | ⟨later, u, tracker, slot, held⟩
    · exact ⟨userData, _, Function.update_self _ _ _, first⟩
    · refine ⟨u, tracker, ?_, held⟩
      rw [Nat.mod_eq_of_lt early, Function.update_of_ne (by omega)]
      exact slot
  | hung later hangs => exact absurd hangs (calm.slotSilent id)
  | @reused m₁ transfer later silent taken copied went =>
    obtain ⟨rfl, -, rfl⟩ := transferThrough_read went
    rcases wide with ⟨rfl, -⟩ | ⟨-, u, tracker, slot, held⟩
    · cases later
    · refine ⟨success, u, tracker, ?_, held⟩
      rw [Function.update_of_ne]
      · exact slot
      · intro same
        rw [← same, slot] at taken
        cases taken
        exact absurd copied (copyStagingToHost_stuck silent held)

/-- The final drain does not get past slot 0 either. -/
theorem drain_stuck (calm : env.Calm) {n : Nat} (some : 0 < n) (wide : HoldsWide queue)
    {r : StagingBufferManager × WaitStatus} :
    m.drainAndReleaseStagingQueue env fuel true queue n ≠ .ok r := by
  intro drained
  obtain ⟨u, tracker, slot, held⟩ := wide
  obtain ⟨left, slots⟩ : ∃ left, min n maxInFlightReads = left + 1 :=
    ⟨_, (Nat.sub_add_cancel (by unfold maxInFlightReads; omega)).symm⟩
  rw [drainAndReleaseStagingQueue, if_pos rfl, slots, drainFrom, slot] at drained
  obtain ⟨_, copied, -⟩ := bind_eq_ok.mp drained
  exact copyStagingToHost_stuck (calm.drainSilent 0) held copied

end StagingBufferManager

namespace ImageLoop

variable {I : PoolInvariant} {env : Surroundings} {fuel : Nat} {t : ImageTransfer}
  {lost : List StagingBufferTracker} {loop : ImageLoop}

/-- A chunk whose callback succeeds does not end the transfer. -/
theorem transfer_goesOn (creates : env.Creates I) (calm : env.Calm)
    {sliceOffset baseRowOffset firstRow rows : Nat} (holding : loop.Holding I False t.isRead lost) :
    Ends (GoesOn I False t.isRead lost) (fun _ => False)
      (loop.transfer env fuel t sliceOffset baseRowOffset firstRow rows) := by
  intro o returned
  obtain ⟨⟨m₁, queue₁, result⟩, performed, went⟩ := bind_eq_ok.mp returned
  obtain ⟨after, rfl⟩ := StagingBufferManager.Holding.performChunkTransfer creates holding performed
  rw [calm.chunkStatus] at went
  cases went
  exact ⟨after, rfl⟩

/-- The row loop of slices that are cut into 2^32 or more chunks runs for ever. -/
theorem performSlices_stuck (creates : env.Creates I) (calm : env.Calm)
    {chunkSize sliceOffset baseRowOffset rowsToCopy : Nat} (lost : List StagingBufferTracker)
    (holding : loop.Holding I False t.isRead lost)
    (many : 2 ^ 32 ≤ rowsToCopy / min (max 1 (chunkSize / loop.imageMetadata.rowPitch)) rowsToCopy)
    (returned : ImageLoop × StagingTransferStatus) :
    loop.performSlices env fuel t chunkSize sliceOffset baseRowOffset rowsToCopy ≠
      .ok returned := by
  intro performed
  obtain ⟨rows, divided, performed⟩ := bind_eq_ok.mp performed
  obtain ⟨numOfChunksInYDim, counted, performed⟩ := bind_eq_ok.mp performed
  obtain ⟨remainder, _, finished⟩ := bind_eq_ok.mp performed
  obtain ⟨_, followed⟩ := finish_ok finished
  obtain ⟨o, ended⟩ := andThen_ok followed
  rw [checkedDiv_ok divided] at counted ended
  rw [checkedDiv_ok counted] at ended
  refine absurd ended (forWord_stuck (P := fun loop : ImageLoop =>
    loop.Holding I False t.isRead lost) many ?_ (by decide) ?_ o)
  · exact fun _ _ kept => (transfer_goesOn creates calm kept).mono (fun _ => And.left) fun _ => id
  · exact holding

theorem performSlices_goesOn (creates : env.Creates I) (calm : env.Calm)
    {chunkSize sliceOffset baseRowOffset rowsToCopy : Nat}
    {returned : ImageLoop × StagingTransferStatus} (holding : loop.Holding I False t.isRead lost)
    (performed : loop.performSlices env fuel t chunkSize sliceOffset baseRowOffset rowsToCopy =
      .ok returned) : returned.2.fails = false ∧ returned.1.Holding I False t.isRead lost := by
  refine performSlices_ends (P := GoesOn I False t.isRead lost)
    (Q := fun returned => returned.2.fails = false ∧ returned.1.Holding I False t.isRead lost)
    ?_ ?_ ?_ performed
  · intro loop firstRow rows kept
    exact (transfer_goesOn creates calm kept.1).mono (fun _ => id) fun _ => False.elim
  · exact ⟨holding, rfl⟩
  · exact fun loop kept => kept.symm

/-- Slices whose chunks all succeed do not end the transfer. -/
theorem step_goesOn (creates : env.Creates I) (calm : env.Calm)
    {chunkSize sliceOffset slices : Nat} {globalOrigin : Origin} {globalRegion : Region}
    (holding : loop.Holding I False t.isRead lost) :
    Ends (fun loop => loop.Holding I False t.isRead lost) (fun _ => False)
      (loop.step env fuel t chunkSize globalOrigin globalRegion sliceOffset slices) := by
  intro o returned
  obtain ⟨⟨loop', result⟩, performed, went⟩ := bind_eq_ok.mp returned
  obtain ⟨goesOn, after⟩ := performSlices_goesOn creates calm (by exact holding) performed
  simp only at goesOn went
  rw [goesOn] at went
  cases went
  exact after

/-- The first chunk of the transfer is in slot 0, and a read cannot be done with it. -/
structure Wide (loop : ImageLoop) : Prop where
  submitted : 0 < loop.submittedChunks
  held : HoldsWide loop.stagingQueue
  succeeded : loop.result = .success

/-- Before the first chunk, which takes some rows of `slices` slices. -/
structure First (q : ImageRequest) (slices : Nat) (loop : ImageLoop) : Prop where
  submitted : loop.submittedChunks = 0
  region : loop.region = ⟨q.region.x, loop.region.y, slices⟩
  image : loop.imageMetadata = q.metadata loop.imageMetadata.rowsInChunk slices

/-- The first chunk of a request whose full chunks are too large for the loops that copy them. -/
theorem First.uncopyable {q : ImageRequest} (sound : q.Sound) {chunkSize : Nat}
    (wide : ¬ (q.metadata (q.rowsPerChunk chunkSize) (q.slicesPerStep chunkSize)).Copyable)
    (first : First q (q.slicesPerStep chunkSize) loop) (ptr : Nat) : UserData.Uncopyable
      ⟨ptr, calculateSizeForRegion { loop.region with y := q.rowsPerChunk chunkSize }
          loop.imageMetadata,
        { loop.imageMetadata with rowsInChunk := q.rowsPerChunk chunkSize }, true⟩ := by
  have some := numOfChunksInYDim_pos sound chunkSize
  have steps := Nat.div_pos (slicesPerStep_le sound chunkSize) (slicesPerStep_pos sound chunkSize)
  have slices : q.slicesOf chunkSize 0 = q.slicesPerStep chunkSize := if_pos steps
  have rows : q.rowsOf chunkSize 0 = q.rowsPerChunk chunkSize := if_pos some
  have has : q.Has ⟨0, q.slicesOf chunkSize 0, 0 * q.rowsPerChunk chunkSize,
      q.rowsOf chunkSize 0⟩ := has_chunk sound chunkSize
    (by rw [chunksPerStep]; omega) (slices ▸ slicesPerStep_pos sound chunkSize)
    (by rw [slices, Nat.zero_add]; exact slicesPerStep_le sound chunkSize)
  rw [slices, rows] at has
  have size := calculateSizeForRegion_eq sound has loop.imageMetadata.rowsInChunk
    (q.slicesPerStep chunkSize)
  have word := has.word sound
  simp only [ImageRequest.userData] at word
  rw [first.region, first.image]
  refine ⟨rfl, ?_, ?_, wide⟩
  · simp only [ImageRequest.metadata] at size ⊢
    rw [size]
    exact has.sound sound rfl
  · simp only [ImageRequest.metadata] at size ⊢
    rw [size]
    omega

section Wide

variable (calm : env.Calm) (read : t.isRead = true)

include calm read

/-- A chunk that is too large for its loops, or one that comes behind such a chunk. -/
theorem transfer_wide {sliceOffset baseRowOffset firstRow rows : Nat}
    (wide : loop.submittedChunks = 0 ∧ (∀ ptr, UserData.Uncopyable
        ⟨ptr, calculateSizeForRegion { loop.region with y := rows } loop.imageMetadata,
          { loop.imageMetadata with rowsInChunk := rows }, true⟩) ∨ Wide loop) :
    Ends Wide (fun _ => False)
      (loop.transfer env fuel t sliceOffset baseRowOffset firstRow rows) := by
  intro o returned
  obtain ⟨⟨m₁, queue₁, result⟩, performed, went⟩ := bind_eq_ok.mp returned
  rw [read] at performed
  obtain ⟨rfl, held⟩ := (performChunkTransfer_cases performed).holdsWide calm
    (wide.imp (fun ⟨start, first⟩ => ⟨start, first _⟩) fun kept => ⟨kept.submitted, kept.held⟩)
  cases went
  exact ⟨Nat.succ_pos _, held, rfl⟩

/-- The slices behind the first chunk. -/
theorem performSlices_later {chunkSize sliceOffset baseRowOffset rowsToCopy : Nat}
    (wide : Wide loop) {returned : ImageLoop × StagingTransferStatus}
    (performed : loop.performSlices env fuel t chunkSize sliceOffset baseRowOffset rowsToCopy =
      .ok returned) : Wide returned.1 ∧ returned.2 = .success := by
  refine performSlices_ends (P := Wide)
    (Q := fun returned => Wide returned.1 ∧ returned.2 = .success) ?_ ?_ ?_ performed
  · intro loop firstRow rows kept
    exact (transfer_wide calm read (.inr kept)).mono (fun _ => id) fun _ => False.elim
  · exact ⟨wide.submitted, wide.held, rfl⟩
  · exact fun loop kept => ⟨kept, kept.succeeded⟩

/-- The slices of the first chunk. -/
theorem performSlices_first {q : ImageRequest} (sound : q.Sound) {chunkSize sliceOffset : Nat}
    (fits : q.numOfChunksInYDim chunkSize < 2 ^ 32)
    (wide : ¬ (q.metadata (q.rowsPerChunk chunkSize) (q.slicesPerStep chunkSize)).Copyable)
    (rowPitch : loop.imageMetadata.rowPitch = q.rowPitch)
    (start : First q (q.slicesPerStep chunkSize) { loop with
      result := .success
      imageMetadata := { loop.imageMetadata with slicesInChunk := loop.region.z } })
    {returned : ImageLoop × StagingTransferStatus}
    (performed : loop.performSlices env fuel t chunkSize sliceOffset q.origin.y q.region.y =
      .ok returned) : Wide returned.1 ∧ returned.2 = .success := by
  obtain ⟨rows, divided, performed⟩ := bind_eq_ok.mp performed
  obtain ⟨numOfChunksInYDim, counted, performed⟩ := bind_eq_ok.mp performed
  obtain ⟨remainder, _, finished⟩ := bind_eq_ok.mp performed
  rw [checkedDiv_ok divided, rowPitch] at counted finished
  rw [checkedDiv_ok counted] at finished
  have rowsPerChunk : min (max 1 (chunkSize / q.rowPitch)) q.region.y = q.rowsPerChunk chunkSize :=
    rfl
  have chunks : q.region.y / q.rowsPerChunk chunkSize = q.numOfChunksInYDim chunkSize := rfl
  rw [rowsPerChunk, chunks] at finished
  have chunk {loop : ImageLoop} {firstRow rows : Nat} (kept : Wide loop) :
      Ends Wide (fun returned : ImageLoop × StagingTransferStatus =>
          Wide returned.1 ∧ returned.2 = .success)
        (loop.transfer env fuel t sliceOffset q.origin.y firstRow rows) :=
    (transfer_wide calm read (.inr kept)).mono (fun _ => id) fun _ => False.elim
  refine Ends.finish (P := Wide) (Q := fun returned : ImageLoop × StagingTransferStatus =>
    Wide returned.1 ∧ returned.2 = .success) (Ends.andThen (P := Wide) ?_ ?_) ?_ finished
  · refine (forWord_runs (P := fun rowId loop =>
      rowId = 0 ∧ First q (q.slicesPerStep chunkSize) loop ∨ Wide loop)
      fits ?_ (Nat.zero_le _) (.inl ⟨rfl, start⟩)).mono ?_ fun _ kept => kept
    · rintro rowId loop _ (⟨rfl, first⟩ | kept)
      · refine (transfer_wide calm read (.inl ⟨first.submitted, ?_⟩)).mono
          (fun _ => .inr) fun _ => False.elim
        exact first.uncopyable sound wide
      · exact (chunk kept).mono (fun _ => .inr) fun _ => id
    · rintro loop (⟨none, -⟩ | kept)
      · exact absurd none (numOfChunksInYDim_pos sound chunkSize).ne'
      · exact kept
  · intro loop kept
    split
    next => exact .goesOn kept
    next => exact chunk kept
  · rintro loop kept ⟨⟩
    exact ⟨kept, kept.succeeded⟩

omit calm read in
/-- A step whose slices end with the first chunk still in slot 0. -/
theorem step_wide {chunkSize sliceOffset slices : Nat} {globalOrigin : Origin}
    {globalRegion : Region}
    (kept : ∀ returned, ImageLoop.performSlices env fuel t chunkSize sliceOffset globalOrigin.y
      globalRegion.y { loop with
        origin := { loop.origin with z := add64 globalOrigin.z sliceOffset }
        region := { loop.region with z := slices } } = .ok returned →
      Wide returned.1 ∧ returned.2 = .success) :
    Ends Wide (fun _ => False)
      (loop.step env fuel t chunkSize globalOrigin globalRegion sliceOffset slices) := by
  intro o returned
  obtain ⟨⟨loop', result⟩, performed, went⟩ := bind_eq_ok.mp returned
  obtain ⟨wide, succeeded⟩ := kept _ performed
  simp only at succeeded
  subst succeeded
  cases went
  exact ⟨wide.submitted, wide.held, rfl⟩

theorem step_later {chunkSize sliceOffset slices : Nat} {globalOrigin : Origin}
    {globalRegion : Region} (wide : Wide loop) :
    Ends Wide (fun _ => False)
      (loop.step env fuel t chunkSize globalOrigin globalRegion sliceOffset slices) := by
  refine step_wide fun returned performed => ?_
  refine performSlices_later calm read ?_ performed
  exact ⟨wide.submitted, wide.held, wide.succeeded⟩

end Wide

end ImageLoop

end ComputeRuntime
