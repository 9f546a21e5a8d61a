import ComputeRuntime.Staging.ImagePlan

/-! An image transfer that nothing disturbs: it returns, its chunks tile the box, each fits its
staging memory, and a read changes the pixel rows of the user's memory and nothing else. -/
namespace ComputeRuntime

open StagingBufferManager ImageRequest

/-- The surroundings of a transfer that goes well: the host has memory for staging buffers, and
no callback fails and no wait hangs. -/
structure Surroundings.Serves (env : Surroundings) (m : StagingBufferManager) (size : Nat) :
    Prop where
  sane : env.SaneHost
  supplied : ∀ n, Supplied env m n size
  called : ∀ n, env.func n = 0
  slotSilent : ∀ n, (env.slotWait n).status ≠ .gpuHang
  drainSilent : ∀ i, (env.drainWait i).status ≠ .gpuHang

/-- A smaller chunk needs no larger staging buffer. -/
theorem StagingBufferManager.Supplied.mono {env : Surroundings} {m : StagingBufferManager}
    {n size size' : Nat} (supplied : Supplied env m n size)
    (room : max m.chunkSize size + 0x400000 < 2 ^ 64) (less : size' ≤ size) :
    Supplied env m n size' := by
  intro bytes fits
  refine supplied bytes (Nat.le_trans fits ?_)
  unfold stagingBufferSize
  have large : getDefaultStagingBufferSize = 0x200000 := rfl
  have pow2 : IsPow2 getDefaultStagingBufferSize := ⟨21, by decide, rfl⟩
  have word : max m.chunkSize size + (getDefaultStagingBufferSize - 1) < 2 ^ 64 := by omega
  have top := le_alignUp pow2 word
  exact alignUp_le pow2 (by omega) (alignUp_dvd pow2 word) (by omega)

namespace ImageRequest

/-- Where the user's data go on once `row` rows of some slices are done. -/
def mark (q : ImageRequest) (slice slices row : Nat) : Nat :=
  if row = q.region.y then (slice + slices) * q.slicePitch
  else slice * q.slicePitch + row * q.rowPitch

variable {q : ImageRequest} {slice slices row rows : Nat}

theorem mark_more (q : ImageRequest) (slice slices : Nat) (more : row < q.region.y) :
    q.mark slice slices row = slice * q.slicePitch + row * q.rowPitch := if_neg (by omega)

theorem mark_all (q : ImageRequest) (slice slices : Nat) :
    q.mark slice slices q.region.y = (slice + slices) * q.slicePitch := if_pos rfl

/-- A block lies between two marks. -/
theorem Has.mark_le (sound : q.Sound) (has : q.Has ⟨slice, slices, row, rows⟩) :
    q.offset ⟨slice, slices, row, rows⟩ + q.bytes slices rows ≤
      q.mark slice slices (row + rows) := by
  obtain ⟨someSlices, someRows, _, fewRows, whole⟩ := has
  simp only [offset, mark] at *
  split
  next all =>
    -- the last rows of the slices
    have last := sound.rows_le (show 0 < row + rows by omega)
    have full := sound.rows_lt (show row + rows ≤ q.region.y by omega)
    have split : (row + rows - 1) * q.rowPitch = row * q.rowPitch + (rows - 1) * q.rowPitch := by
      rw [← Nat.add_mul]
      congr 1
      omega
    obtain ⟨k, rfl⟩ : ∃ k, slices = k + 1 := ⟨slices - 1, by omega⟩
    have stop : (slice + (k + 1)) * q.slicePitch =
        slice * q.slicePitch + k * q.slicePitch + q.slicePitch := by ring
    rw [bytes, Nat.add_sub_cancel, stop]
    omega
  next part =>
    have single : slices = 1 := by omega
    subst single
    have last := sound.rows_le someRows
    rw [bytes, Nat.sub_self, Nat.zero_mul, Nat.zero_add, Nat.add_mul]
    omega

end ImageRequest

namespace ImageLoop

variable {q : ImageRequest} {env : Surroundings} {t : ImageTransfer} {chunkSize fuel : Nat}
  {lost : List StagingBufferTracker} {m₀ : StagingBufferManager} {chunks : List Submission}
  {slice slices row rows : Nat} {loop : ImageLoop}

/-- Between two chunks: `row` rows of `slices` slices are done, and all slices before these. -/
structure Sending (q : ImageRequest) (env : Surroundings) (t : ImageTransfer) (chunkSize : Nat)
    (lost : List StagingBufferTracker) (m₀ : StagingBufferManager) (chunks : List Submission)
    (slice slices row : Nat) (loop : ImageLoop) : Prop where
  running : Running env t.isRead (q.slotSize chunkSize) lost m₀ chunks loop.manager
    loop.stagingQueue
  submitted : loop.submittedChunks = chunks.length
  succeeded : loop.result = .success
  planned : q.Planned chunkSize chunks
  covered : q.Covered chunks slice slices row
  below : ∀ c ∈ chunks, c.userData.ptr + c.userData.size ≤ q.ptr + q.mark slice slices row
  origin : loop.origin = ⟨q.origin.x, loop.origin.y, loop.origin.z, q.mip⟩
  region : loop.region = ⟨q.region.x, loop.region.y, loop.region.z⟩
  image : loop.imageMetadata = ⟨q.bytesPerPixel, q.rowSize, q.rowPitch, q.slicePitch,
    loop.imageMetadata.rowsInChunk, loop.imageMetadata.slicesInChunk⟩

/-- The variables that stay the same while the rows of some slices are transferred. -/
structure InSlices (q : ImageRequest) (slice slices : Nat) (loop : ImageLoop) : Prop where
  z : loop.origin.z = q.origin.z + slice
  depth : loop.region.z = slices
  slicesInChunk : loop.imageMetadata.slicesInChunk = slices

/-- With all rows done the transfer is at the slices that follow. -/
theorem Sending.nextSlices (sound : q.Sound)
    (sending : Sending q env t chunkSize lost m₀ chunks slice slices q.region.y loop)
    (slices' : Nat) : Sending q env t chunkSize lost m₀ chunks (slice + slices) slices' 0 loop where
  running := sending.running
  submitted := sending.submitted
  succeeded := sending.succeeded
  planned := sending.planned
  covered := sending.covered.nextSlices slices'
  below := by
    intro c member
    have low := sending.below c member
    rw [q.mark_all] at low
    rw [q.mark_more _ _ sound.height, Nat.zero_mul, Nat.add_zero]
    exact low
  origin := sending.origin
  region := sending.region
  image := sending.image

section Parts

variable (sound : q.Sound)
  (room : m₀.chunkSize + 0x400000 < 2 ^ 64) (serves : env.Serves m₀ q.size)
  (enough : 2 ^ 32 ≤ fuel) (pointer : t.ptr = q.ptr)

include sound room serves enough pointer

/-- One chunk, whose size fits its slot. -/
theorem transfer_sends
    (sending : Sending q env t chunkSize lost m₀ chunks slice slices row loop)
    (inSlices : InSlices q slice slices loop) (has : q.Has ⟨slice, slices, row, rows⟩)
    (block : q.block chunkSize chunks.length = ⟨slice, slices, row, rows⟩)
    (copyable : t.isRead = true → (q.metadata rows slices).Copyable)
    (fits : q.bytes slices rows ≤ q.slotSize chunkSize (chunks.length % 2) ∧
      (chunks.length < 2 → q.slotSize chunkSize chunks.length ≤ q.bytes slices rows)) :
    ∃ loop' c, loop.transfer env fuel t slice q.origin.y row rows = .ok (.inl loop') ∧
      Sending q env t chunkSize lost m₀ (chunks ++ [c]) slice slices (row + rows) loop' ∧
      InSlices q slice slices loop' := by
  have few := has.rows
  have deep := has.slices
  have inside := has.end_le
  have userMemory := sound.userMemory
  have imageRows := sound.imageRows
  simp only [offset] at few deep inside
  have size : calculateSizeForRegion ⟨q.region.x, rows, slices⟩ loop.imageMetadata =
      q.bytes slices rows := by
    rw [sending.image]
    exact calculateSizeForRegion_eq sound has _ _
  have bytesPerPixel : loop.imageMetadata.bytesPerPixel = q.bytesPerPixel := by rw [sending.image]
  have rowSize : loop.imageMetadata.rowSize = q.rowSize := by rw [sending.image]
  have rowPitch : loop.imageMetadata.rowPitch = q.rowPitch := by rw [sending.image]
  have slicePitch : loop.imageMetadata.slicePitch = q.slicePitch := by rw [sending.image]
  have origin : ({ loop.origin with y := add64 q.origin.y row } : Origin) =
      ⟨q.origin.x, q.origin.y + row, q.origin.z + slice, q.mip⟩ := by
    have y : add64 q.origin.y row = q.origin.y + row := Word.add_eq (by omega)
    rw [sending.origin, inSlices.z, y]
  have region : ({ loop.region with y := rows } : Region) = ⟨q.region.x, rows, slices⟩ := by
    rw [sending.region, inSlices.depth]
  have chunkPtr : add64 t.ptr (add64 (mul64 slice q.slicePitch) (mul64 row q.rowPitch)) =
      q.ptr + q.offset ⟨slice, slices, row, rows⟩ := by
    have sliceOffset : mul64 slice q.slicePitch = slice * q.slicePitch := Word.mul_eq (by omega)
    have rowOffset : mul64 row q.rowPitch = row * q.rowPitch := Word.mul_eq (by omega)
    have sum : add64 (slice * q.slicePitch) (row * q.rowPitch) =
        slice * q.slicePitch + row * q.rowPitch := Word.add_eq (by omega)
    rw [sliceOffset, rowOffset, sum, pointer]
    exact Word.add_eq (by omega)
  have more : row < q.region.y := by
    have := has.someRows
    simp only at this
    omega
  have joins : (q.userData ⟨slice, slices, row, rows⟩).Joins chunks := by
    refine ⟨has.sound sound, has.word sound, fun c member => ?_⟩
    have low := sending.below c member
    rw [q.mark_more _ _ more] at low
    exact low
  have chunkRoom : max m₀.chunkSize q.size + 0x400000 < 2 ^ 64 := by omega
  have less : q.bytes slices rows ≤ q.size := has.bytes_le
  obtain ⟨m', queue', tracker, returned, running⟩ :=
    sending.running.next (q.box ⟨slice, slices, row, rows⟩) t.csr serves.sane (serves.called _)
      (serves.slotSilent _) (by simp only [userData]; omega)
      ((serves.supplied _).mono chunkRoom less) joins
      (fun read _ => copyable read) (fun _ first => fits.2 first) (fun _ _ => fits.1) enough
  let c : Submission := ⟨q.userData ⟨slice, slices, row, rows⟩, tracker,
    q.box ⟨slice, slices, row, rows⟩⟩
  refine ⟨⟨⟨m', queue', .success⟩, chunks.length + 1,
    ⟨q.origin.x, q.origin.y + row, q.origin.z + slice, q.mip⟩, ⟨q.region.x, rows, slices⟩,
    ⟨q.bytesPerPixel, q.rowSize, q.rowPitch, q.slicePitch, rows, slices⟩⟩, c, ?_, ?_, ⟨rfl, rfl, rfl⟩⟩
  · unfold transfer
    simp only [origin, region, size, bytesPerPixel, rowSize, rowPitch, slicePitch, chunkPtr,
      inSlices.slicesInChunk, sending.submitted]
    exact bind_eq_ok.mpr ⟨_, returned, rfl⟩
  · exact {
      running := running
      submitted := by simp
      succeeded := rfl
      planned := by
        intro k d found
        rw [List.getElem?_append] at found
        split at found
        next => exact sending.planned k d found
        next high =>
          obtain ⟨low, rfl⟩ := List.getElem?_eq_some_iff.mp found
          obtain rfl : k = chunks.length := by
            rw [List.length_singleton] at low
            omega
          rw [block]
          exact ⟨has, by simp [c], by simp [c]⟩
      covered := sending.covered.block rfl
      below := by
        intro d member
        rcases List.mem_append.mp member with before | last
        · have low := joins.later d before
          have up := has.mark_le sound
          simp only [userData] at low
          omega
        · obtain rfl := List.mem_singleton.mp last
          have up := has.mark_le sound
          simp only [c, userData]
          omega
      origin := rfl
      region := rfl
      image := rfl }

end Parts

/-- Before chunk `j` of a step. -/
def AtChunk (q : ImageRequest) (env : Surroundings) (t : ImageTransfer) (chunkSize : Nat)
    (lost : List StagingBufferTracker) (m₀ : StagingBufferManager) (step slice j : Nat)
    (loop : ImageLoop) : Prop :=
  ∃ chunks, Sending q env t chunkSize lost m₀ chunks slice (q.slicesOf chunkSize step)
      (j * q.rowsPerChunk chunkSize) loop ∧
    InSlices q slice (q.slicesOf chunkSize step) loop ∧
    chunks.length = step * q.chunksPerStep chunkSize + j

/-- After the last chunk of a step. -/
def AfterStep (q : ImageRequest) (env : Surroundings) (t : ImageTransfer) (chunkSize : Nat)
    (lost : List StagingBufferTracker) (m₀ : StagingBufferManager) (step slice : Nat)
    (loop : ImageLoop) : Prop :=
  ∃ chunks, Sending q env t chunkSize lost m₀ chunks slice (q.slicesOf chunkSize step) q.region.y
      loop ∧
    chunks.length = (step + 1) * q.chunksPerStep chunkSize

section Steps

variable {step j : Nat} (sound : q.Sound) (counted : q.Counted chunkSize t.isRead)
  (room : m₀.chunkSize + 0x400000 < 2 ^ 64) (serves : env.Serves m₀ q.size)
  (enough : 2 ^ 32 ≤ fuel) (pointer : t.ptr = q.ptr)
  (steps : step ≤ q.region.z / q.slicesPerStep chunkSize) (some : 0 < q.slicesOf chunkSize step)
  (inside : slice + q.slicesOf chunkSize step ≤ q.region.z)
  (place : slice = step * q.slicesPerStep chunkSize)

include sound counted room serves enough pointer steps some inside place

/-- One chunk of a step. -/
private theorem chunk_sends (inStep : j < q.chunksPerStep chunkSize)
    (at_j : AtChunk q env t chunkSize lost m₀ step slice j loop) :
    ∃ loop' chunks, loop.transfer env fuel t slice q.origin.y
        (mul64 j (q.rowsPerChunk chunkSize)) (q.rowsOf chunkSize j) = .ok (.inl loop') ∧
      Sending q env t chunkSize lost m₀ chunks slice (q.slicesOf chunkSize step)
        (j * q.rowsPerChunk chunkSize + q.rowsOf chunkSize j) loop' ∧
      InSlices q slice (q.slicesOf chunkSize step) loop' ∧
      chunks.length = step * q.chunksPerStep chunkSize + (j + 1) := by
  obtain ⟨chunks, sending, inSlices, number⟩ := at_j
  have has := has_chunk sound chunkSize inStep some inside
  have firstRow : mul64 j (q.rowsPerChunk chunkSize) = j * q.rowsPerChunk chunkSize := by
    have few := has.rows
    have := sound.imageRows
    simp only at few
    exact Word.mul_eq (by omega)
  obtain ⟨loop', c, sent, sending', inSlices'⟩ := transfer_sends sound room serves enough pointer
    sending inSlices has (by rw [block_eq chunkSize inStep number, ← place])
    (fun read => counted.chunk sound chunkSize read inStep)
    (slotSize_fits sound chunkSize inStep steps number)
  rw [firstRow]
  refine ⟨loop', chunks ++ [c], sent, sending', inSlices', ?_⟩
  rw [List.length_append, number]
  rfl

/-- The row loop of a step and the rows it leaves. -/
private theorem rows_send (start : AtChunk q env t chunkSize lost m₀ step slice 0 loop) :
    Loop.Reaches (AfterStep q env t chunkSize lost m₀ step slice)
      (Loop.andThen (Loop.forWord 32 .outOfFuel (q.numOfChunksInYDim chunkSize) (fun rowId =>
        ImageLoop.transfer env fuel t slice q.origin.y (mul64 rowId (q.rowsPerChunk chunkSize))
          (q.rowsPerChunk chunkSize)) fuel 0 loop) fun loop =>
        if q.remainder chunkSize = 0 then .ok (.inl loop)
        else loop.transfer env fuel t slice q.origin.y
          (mul64 (q.numOfChunksInYDim chunkSize) (q.rowsPerChunk chunkSize))
          (q.remainder chunkSize)) := by
  have fewChunks : q.numOfChunksInYDim chunkSize ≤ q.region.y := Nat.div_le_self _ _
  have split := rows_split (q := q) chunkSize
  rw [Nat.mul_comm] at split
  refine Loop.Reaches.andThen (P := AtChunk q env t chunkSize lost m₀ step slice
    (q.numOfChunksInYDim chunkSize)) ?_ ?_
  · refine Loop.forWord_reaches (P := AtChunk q env t chunkSize lost m₀ step slice)
      counted.chunks ?_ (Nat.zero_le _) (by have := counted.chunks; omega) start
    intro rowId loop more at_row
    obtain ⟨loop', chunks, sent, sending, inSlices, number⟩ := chunk_sends sound counted
      room serves enough pointer steps some inside place (by rw [chunksPerStep]; omega) at_row
    rw [rowsOf, if_pos more] at sent sending
    exact ⟨loop', sent, chunks, by rwa [Nat.succ_mul], inSlices, number⟩
  · intro loop at_last
    split
    next even =>
      obtain ⟨chunks, sending, _, number⟩ := at_last
      rw [even, Nat.add_zero] at split
      rw [split] at sending
      refine ⟨loop, rfl, chunks, sending, ?_⟩
      rw [number, chunksPerStep, if_pos even]
      ring
    next left =>
      obtain ⟨loop', chunks, sent, sending, _, number⟩ := chunk_sends sound counted
        room serves enough pointer steps some inside place
        (by rw [chunksPerStep, if_neg left]; omega) at_last
      rw [rowsOf, if_neg (Nat.lt_irrefl _)] at sent sending
      rw [split] at sending
      refine ⟨loop', sent, chunks, sending, ?_⟩
      rw [number, chunksPerStep, if_neg left]
      ring

/-- Some slices, in chunks of rows. -/
theorem performSlices_sends
    (sending : Sending q env t chunkSize lost m₀ chunks slice (q.slicesOf chunkSize step) 0 loop)
    (z : loop.origin.z = q.origin.z + slice) (depth : loop.region.z = q.slicesOf chunkSize step)
    (number : chunks.length = step * q.chunksPerStep chunkSize) :
    ∃ loop', loop.performSlices env fuel t chunkSize slice q.origin.y q.region.y =
        .ok (loop', .success) ∧
      AfterStep q env t chunkSize lost m₀ step slice loop' := by
  have start : AtChunk q env t chunkSize lost m₀ step slice 0 { loop with
      result := .success
      imageMetadata := { loop.imageMetadata with slicesInChunk := loop.region.z } } := by
    refine ⟨chunks, { sending with succeeded := rfl, covered := ?_, below := ?_, image := ?_ },
      ⟨z, depth, depth⟩, number⟩
    · rw [Nat.zero_mul]
      exact sending.covered
    · rw [Nat.zero_mul]
      exact sending.below
    · rw [sending.image]
  have rowPitch : loop.imageMetadata.rowPitch = q.rowPitch := by rw [sending.image]
  have fullRows : mul64 (q.rowsPerChunk chunkSize) (q.numOfChunksInYDim chunkSize) =
      q.rowsPerChunk chunkSize * q.numOfChunksInYDim chunkSize := by
    have := rows_split (q := q) chunkSize
    have := sound.imageRows
    exact Word.mul_eq (by omega)
  have somePositive := rowsPerChunk_pos sound chunkSize
  have someChunks := numOfChunksInYDim_pos sound chunkSize
  obtain ⟨loop', sent, after⟩ := rows_send sound counted room serves enough pointer steps
    some inside place start
  refine ⟨loop', ?_, after⟩
  have succeeded : loop'.result = .success := by
    obtain ⟨_, sending, _⟩ := after
    exact sending.succeeded
  unfold performSlices
  refine bind_eq_ok.mpr ⟨_, checkedDiv_eq (by rw [rowPitch]; exact sound.pitched.ne'), ?_⟩
  rw [rowPitch]
  refine bind_eq_ok.mpr ⟨_, checkedDiv_eq somePositive.ne', ?_⟩
  refine bind_eq_ok.mpr ⟨q.remainder chunkSize, ?_, ?_⟩
  · have left := mod_fullChunks sound chunkSize
    have some := Nat.mul_pos somePositive someChunks
    rw [← left, ← fullRows, ← fullRows] at *
    exact checkedMod_eq some.ne'
  · have finished : (Loop.finish (.ok (.inl loop') : Result (ImageLoop ⊕ _)) fun loop =>
        .ok (loop, loop.result)) = .ok (loop', .success) :=
      congrArg (fun result => (.ok (loop', result) : Result (ImageLoop × _))) succeeded
    exact (congrArg (fun part => Loop.finish part fun loop => .ok (loop, loop.result)) sent).trans
      finished

/-- One step over the slices. -/
theorem step_sends
    (sending : Sending q env t chunkSize lost m₀ chunks slice (q.slicesOf chunkSize step) 0 loop)
    (number : chunks.length = step * q.chunksPerStep chunkSize) :
    Loop.Reaches (AfterStep q env t chunkSize lost m₀ step slice)
      (loop.step env fuel t chunkSize q.origin q.region slice (q.slicesOf chunkSize step)) := by
  have z : add64 q.origin.z slice = q.origin.z + slice := by
    have := sound.imageSlices
    exact Word.add_eq (by omega)
  have placed : Sending q env t chunkSize lost m₀ chunks slice (q.slicesOf chunkSize step) 0
      { loop with
        origin := { loop.origin with z := add64 q.origin.z slice }
        region := { loop.region with z := q.slicesOf chunkSize step } } := by
    refine { sending with origin := ?_, region := ?_ }
    · rw [sending.origin]
    · rw [sending.region]
  obtain ⟨loop', performed, after⟩ := performSlices_sends sound counted room serves enough
    pointer steps some inside place placed z rfl number
  obtain ⟨chunks', sending', number'⟩ := after
  refine ⟨{ loop' with result := .success }, bind_eq_ok.mpr ⟨_, performed, rfl⟩, chunks', ?_, number'⟩
  exact { sending' with succeeded := rfl }

end Steps

/-- The variables of a transfer before its first chunk. -/
def start (q : ImageRequest) (m : StagingBufferManager) : ImageLoop :=
  ⟨⟨m, emptyQueue, .success⟩, 0, ⟨q.origin.x, 0, 0, q.mip⟩, ⟨q.region.x, 0, 0⟩,
    q.metadata 0 0⟩

/-- Before step `step` of the transfer. -/
def AtStep (q : ImageRequest) (env : Surroundings) (t : ImageTransfer) (chunkSize : Nat)
    (lost : List StagingBufferTracker) (m₀ : StagingBufferManager) (step : Nat) (loop : ImageLoop) :
    Prop :=
  ∃ chunks, Sending q env t chunkSize lost m₀ chunks (step * q.slicesPerStep chunkSize)
      (q.slicesOf chunkSize step) 0 loop ∧
    chunks.length = step * q.chunksPerStep chunkSize

/-- After the last chunk. -/
def Sent (q : ImageRequest) (env : Surroundings) (t : ImageTransfer) (chunkSize : Nat)
    (lost : List StagingBufferTracker) (m₀ : StagingBufferManager) (loop : ImageLoop) : Prop :=
  ∃ chunks slices, Sending q env t chunkSize lost m₀ chunks q.region.z slices 0 loop ∧
    chunks.length = q.chunkCount chunkSize

end ImageLoop

namespace StagingBufferManager

open ImageLoop

variable {q : ImageRequest} {env : Surroundings} {t : ImageTransfer} {chunkSize fuel csr : Nat}
  {lost : List StagingBufferTracker} {m : StagingBufferManager} {isRead : Bool} {loop : ImageLoop}

section Whole

variable (sound : q.Sound) (counted : q.Counted chunkSize t.isRead)
  (room : m.chunkSize + 0x400000 < 2 ^ 64) (serves : env.Serves m q.size) (enough : 2 ^ 32 ≤ fuel)
  (pointer : t.ptr = q.ptr)

include sound counted room serves enough pointer

/-- The loop over the slices and the slices it leaves. -/
private theorem slices_send (start : AtStep q env t chunkSize lost m 0 loop) :
    Loop.Reaches (Sent q env t chunkSize lost m)
      (Loop.andThen (Loop.forWord 32 .outOfFuel (q.region.z / q.slicesPerStep chunkSize)
        (fun sliceId => ImageLoop.step env fuel t chunkSize q.origin q.region
          (mul64 sliceId (q.slicesPerStep chunkSize)) (q.slicesPerStep chunkSize)) fuel 0 loop)
        fun loop =>
        if q.region.z % q.slicesPerStep chunkSize = 0 then .ok (.inl loop)
        else loop.step env fuel t chunkSize q.origin q.region
          (sub64 q.region.z (q.region.z % q.slicesPerStep chunkSize))
          (q.region.z % q.slicesPerStep chunkSize)) := by
  have somePositive := slicesPerStep_pos sound chunkSize
  have split := Nat.div_add_mod' q.region.z (q.slicesPerStep chunkSize)
  have imageSlices := sound.imageSlices
  refine Loop.Reaches.andThen (P := AtStep q env t chunkSize lost m
    (q.region.z / q.slicesPerStep chunkSize)) ?_ ?_
  · refine Loop.forWord_reaches (P := AtStep q env t chunkSize lost m) counted.steps ?_
      (Nat.zero_le _) (by have := counted.steps; omega) start
    rintro sliceId loop more ⟨chunks, sending, number⟩
    have full : q.slicesOf chunkSize sliceId = q.slicesPerStep chunkSize := if_pos more
    have below := Nat.mul_le_mul_right (q.slicesPerStep chunkSize) (show sliceId + 1 ≤ _ from more)
    rw [Nat.succ_mul] at below
    have sliceOffset : mul64 sliceId (q.slicesPerStep chunkSize) =
        sliceId * q.slicesPerStep chunkSize := Word.mul_eq (by omega)
    obtain ⟨loop', sent, chunks', sending', number'⟩ := step_sends sound counted room serves enough
      pointer (Nat.le_of_lt more) (by omega) (by omega) rfl sending number
    rw [full] at sent sending'
    rw [sliceOffset]
    refine ⟨loop', sent, chunks', ?_, number'⟩
    rw [Nat.succ_mul]
    exact sending'.nextSlices sound _
  · rintro loop ⟨chunks, sending, number⟩
    have last : q.slicesOf chunkSize (q.region.z / q.slicesPerStep chunkSize) =
        q.region.z % q.slicesPerStep chunkSize := if_neg (Nat.lt_irrefl _)
    split
    next even =>
      rw [even, Nat.add_zero] at split
      rw [split] at sending
      refine ⟨loop, rfl, chunks, _, sending, ?_⟩
      rw [number, chunkCount, if_pos even, Nat.add_zero]
    next left =>
      have few := Nat.mod_le q.region.z (q.slicesPerStep chunkSize)
      have sliceOffset : sub64 q.region.z (q.region.z % q.slicesPerStep chunkSize) =
          q.region.z / q.slicesPerStep chunkSize * q.slicesPerStep chunkSize := by
        have difference : sub64 q.region.z (q.region.z % q.slicesPerStep chunkSize) =
            q.region.z - q.region.z % q.slicesPerStep chunkSize := Word.sub_eq few (by omega)
        rw [difference]
        omega
      obtain ⟨loop', sent, chunks', sending', number'⟩ := step_sends sound counted room serves
        enough pointer (Nat.le_refl _) (by omega) (by omega) rfl sending number
      rw [last] at sent sending'
      have after := sending'.nextSlices sound 0
      rw [split] at after
      rw [sliceOffset]
      refine ⟨loop', sent, chunks', 0, after, ?_⟩
      rw [number', chunkCount, if_neg left]

end Whole

private theorem packSlices_eq (sound : q.Sound) (chunkSize : Nat) :
    packSlices chunkSize q.slicePitch q.region.z (q.numOfChunksInYDim chunkSize) =
      .ok (q.slicesPerStep chunkSize) := by
  have pitched := Nat.lt_of_lt_of_le (Nat.mul_pos sound.height sound.pitched) sound.slices
  unfold packSlices slicesPerStep
  split
  next => exact bind_eq_ok.mpr ⟨_, checkedDiv_eq pitched.ne', rfl⟩
  next => rfl

/-- The transfer of a sound request: the loop over the slices, the slices it leaves, and the
drain. -/
theorem performImageTransfer_eq (sound : q.Sound) :
    m.performImageTransfer env fuel q.ptr q.origin q.region q.rowPitch q.slicePitch
        q.bytesPerPixel q.isMipMapped3DImage csr isRead =
      Loop.finish (Loop.andThen
        (Loop.forWord 32 .outOfFuel (q.region.z / q.slicesPerStep m.chunkSize) (fun sliceId =>
          ImageLoop.step env fuel ⟨q.ptr, csr, isRead⟩ m.chunkSize q.origin q.region
            (mul64 sliceId (q.slicesPerStep m.chunkSize)) (q.slicesPerStep m.chunkSize))
          fuel 0 (.start q m)) fun loop =>
        if q.region.z % q.slicesPerStep m.chunkSize = 0 then .ok (.inl loop)
        else loop.step env fuel ⟨q.ptr, csr, isRead⟩ m.chunkSize q.origin q.region
          (sub64 q.region.z (q.region.z % q.slicesPerStep m.chunkSize))
          (q.region.z % q.slicesPerStep m.chunkSize)) fun loop =>
        (loop.manager.drainAndReleaseStagingQueue env fuel isRead loop.stagingQueue
          loop.submittedChunks).bind fun drained =>
            .ok (drained.1, { loop.result with waitStatus := drained.2 }) := by
  have somePositive := rowsPerChunk_pos sound m.chunkSize
  have someSlices := slicesPerStep_pos sound m.chunkSize
  have rowSize : mul64 q.region.x q.bytesPerPixel = q.rowSize := by
    have inside : q.rowSize ≤ q.size := Nat.le_add_left _ _
    have := sound.userMemory
    exact Word.mul_eq (show q.rowSize < 2 ^ 64 by omega)
  unfold performImageTransfer
  refine (bind_of_ok (checkedDiv_eq sound.pitched.ne') _).trans ?_
  refine (bind_of_ok (checkedDiv_eq somePositive.ne') _).trans ?_
  refine (bind_of_ok (packSlices_eq sound m.chunkSize) _).trans ?_
  refine (bind_of_ok (checkedMod_eq someSlices.ne') _).trans ?_
  refine (bind_of_ok (checkedDiv_eq someSlices.ne') _).trans ?_
  rw [rowSize]
  rfl

variable (csr) in
/-- The whole transfer. -/
theorem performImageTransfer_sends (order : m.InOrder soundBuffer lost) (sound : q.Sound)
    (counted : q.Counted m.chunkSize isRead) (room : m.chunkSize + 0x400000 < 2 ^ 64)
    (serves : env.Serves m q.size) (enough : 2 ^ 32 ≤ fuel) :
    ∃ m' chunks, m.performImageTransfer env fuel q.ptr q.origin q.region q.rowPitch q.slicePitch
        q.bytesPerPixel q.isMipMapped3DImage csr isRead = .ok (m', .success) ∧
      m'.submissions = m.submissions ++ chunks ∧ q.Tiled chunks ∧ (∀ c ∈ chunks, c.Fits) ∧
      (isRead = true → (q.Landed env.staged chunks m.hostMemory m'.hostMemory ↔
        q.Awaited env m.chunkSize)) := by
  have started : AtStep q env ⟨q.ptr, csr, isRead⟩ m.chunkSize lost m 0 (.start q m) := by
    refine ⟨[], ?_, by rw [Nat.zero_mul]; rfl⟩
    rw [Nat.zero_mul]
    exact {
      running := .start order
      submitted := rfl
      succeeded := rfl
      planned := fun _ _ found => by cases found
      covered := .start q _
      below := fun _ member => by cases member
      origin := rfl
      region := rfl
      image := rfl }
  obtain ⟨loop, sent, chunks, slices, sending, all⟩ :=
    slices_send sound counted room serves enough rfl started
  obtain ⟨m', drained, submissions, host⟩ :=
    sending.running.drain (fun i _ => serves.drainSilent i) enough
  refine ⟨m', chunks, ?_, submissions, sending.covered.tiled, sending.running.fits,
    fun read => landed_iff sound sending.covered.tiled sending.planned all (host read)⟩
  rw [performImageTransfer_eq sound, sent]
  refine bind_eq_ok.mpr ⟨(m', .ready), ?_, ?_⟩
  · rw [sending.submitted]
    exact drained
  · rw [sending.succeeded]
    rfl

end StagingBufferManager

end ComputeRuntime
