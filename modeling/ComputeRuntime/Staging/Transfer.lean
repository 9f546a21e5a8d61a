import ComputeRuntime.Staging.Pool
import ComputeRuntime.Library.Loop
import ComputeRuntime.Library.Memory
import Mathlib.Logic.Function.Basic

/-! Transfers through staging chunks: a copy, a buffer or an image is cut into chunks, each is
handed to a callback that enqueues it, and a read keeps up to two chunks in flight. -/
namespace ComputeRuntime

structure StagingTransferStatus where
  chunkCopyStatus : Int
  waitStatus : WaitStatus
  deriving DecidableEq

/-- No callback failed and no wait hung. -/
def StagingTransferStatus.success : StagingTransferStatus := ⟨0, .ready⟩

/-- A chunk transfer that ends its whole transfer: its callback failed, or it hit a hang. -/
def StagingTransferStatus.fails (status : StagingTransferStatus) : Bool :=
  status.chunkCopyStatus != 0 || status.waitStatus == .gpuHang

def maxInFlightReads : Nat := 2

/-- The two slots of reads in flight, by index; a slot is `none` until it is written. -/
abbrev StagingQueue := Nat → Option (UserData × StagingBufferTracker)

def emptyQueue : StagingQueue := fun _ => none

namespace StagingBufferManager

/-- `memcpy` out of a staging chunk. -/
def memcpyToHost (m : StagingBufferManager) (tracker : StagingBufferTracker)
    (dst offset size : Nat) : Result StagingBufferManager :=
  if tracker.chunkAddress = 0 ∧ size ≠ 0 then .error .nullAccess
  else .ok { m with
    hostMemory := Memory.copy (m.stagingMemory tracker.allocator) (add64 tracker.chunkAddress offset)
      size dst m.hostMemory }

/-- `memcpy` into a staging chunk. -/
def memcpyToStaging (m : StagingBufferManager) (tracker : StagingBufferTracker)
    (src size : Nat) : Result StagingBufferManager :=
  if tracker.chunkAddress = 0 ∧ size ≠ 0 then .error .nullAccess
  else .ok { m with
    stagingMemory := Function.update m.stagingMemory tracker.allocator
      (Memory.copy m.hostMemory src size tracker.chunkAddress
        (m.stagingMemory tracker.allocator)) }

/-- Row by row when the chunk has padding, else at once. -/
def copyImageToHost (fuel : Nat) (m : StagingBufferManager) (dst : Nat)
    (tracker : StagingBufferTracker) (size : Nat) (imageData : ImageMetadata) :
    Result StagingBufferManager :=
  let sliceSize := mul64 imageData.rowSize imageData.rowsInChunk
  if imageData.rowSize < imageData.rowPitch ∨
      (sliceSize < imageData.slicePitch ∧ imageData.slicesInChunk > 1) then
    Loop.forWordAll 32 .outOfFuel imageData.slicesInChunk (fun sliceId m =>
      let sliceOffset := mul64 sliceId imageData.slicePitch
      Loop.forWordAll 32 .outOfFuel imageData.rowsInChunk (fun rowId m =>
        let rowOffset := mul64 rowId imageData.rowPitch
        let offset := add64 sliceOffset rowOffset
        m.memcpyToHost tracker (add64 dst offset) offset imageData.rowSize) fuel 0 m) fuel 0 m
  else m.memcpyToHost tracker dst 0 size

/-- The command stream has completed a task count. -/
def complete (m : StagingBufferManager) (csr taskCount : Nat) : StagingBufferManager :=
  { m with completed := Function.update m.completed csr (max (m.completed csr) taskCount) }

/-- The bytes of one read, from its staging chunk to the user. -/
def copyToUser (fuel : Nat) (m : StagingBufferManager) (userData : UserData)
    (tracker : StagingBufferTracker) : Result StagingBufferManager :=
  if userData.isImageOperation then
    m.copyImageToHost fuel userData.ptr tracker userData.size userData.imageMetadata
  else m.memcpyToHost tracker userData.ptr 0 userData.size

/-- A wait has come back: the GPU is done with the chunk, or it is not ready. -/
def afterWait (m : StagingBufferManager) (tracker : StagingBufferTracker) (wait : TaskCountWait) :
    StagingBufferManager :=
  if wait.status = .ready then m.complete tracker.csr tracker.taskCountToWait else m

/-- The staging memory as the CPU finds it after a wait. What the GPU has not written yet comes
later. -/
def shown (m : StagingBufferManager) (userData : UserData) (tracker : StagingBufferTracker)
    (wait : TaskCountWait) : StagingBufferManager :=
  if wait.status = .ready then m
  else { m with
    stagingMemory := Function.update m.stagingMemory tracker.allocator
      (Memory.copy wait.unfinished 0 userData.size tracker.chunkAddress
        (m.stagingMemory tracker.allocator)) }

/-- Waits for a read and copies its chunk to the user, unless the wait hangs: a chunk that is not
ready is copied too. A wait that hangs gives no tracker. -/
def copyStagingToHost (fuel : Nat) (m : StagingBufferManager)
    (transfer : UserData × StagingBufferTracker) (wait : TaskCountWait) :
    Result (StagingBufferManager × Option StagingBufferTracker) :=
  if wait.status = .gpuHang then .ok (m, none)
  else do
    let (userData, tracker) := transfer
    let m := m.afterWait tracker wait
    let copied ← (m.shown userData tracker wait).copyToUser fuel userData tracker
    .ok ({ m with hostMemory := copied.hostMemory }, some tracker)

/-- A write fills the staging chunk before the GPU sees it. -/
def fillStaging (m : StagingBufferManager) (isRead : Bool) (userData : UserData)
    (tracker : StagingBufferTracker) : Result StagingBufferManager :=
  if isRead then .ok m else m.memcpyToStaging tracker userData.ptr userData.size

/-- The call of the chunk callback; the GPU may write the chunk of a read from here on. -/
def submit (env : Surroundings) (chunkTransferId : Nat) (isRead : Bool) (m : StagingBufferManager)
    (submission : Submission) : StagingBufferManager :=
  let tracker := submission.tracker
  { m with
    submissions := m.submissions ++ [submission]
    stagingMemory :=
      if isRead then
        Function.update m.stagingMemory tracker.allocator
          (Memory.copy (env.staged chunkTransferId) 0 submission.userData.size tracker.chunkAddress
            (m.stagingMemory tracker.allocator))
      else m.stagingMemory }

/-- The part of `performChunkTransfer` after it has a staging chunk. -/
def transferThrough (env : Surroundings) (chunkTransferId : Nat) (isRead : Bool)
    (userData : UserData) (args : ChunkArgs) (m : StagingBufferManager)
    (currentStagingBuffers : StagingQueue) (tracker : StagingBufferTracker) :
    Result (StagingBufferManager × StagingQueue × StagingTransferStatus) := do
  let m ← m.fillStaging isRead userData tracker
  let m := m.submit env chunkTransferId isRead ⟨userData, tracker, args⟩
  let result : StagingTransferStatus := ⟨env.func chunkTransferId, .ready⟩
  let tracker := { tracker with taskCountToWait := env.peekTaskCount chunkTransferId }
  if isRead then
    let stagingBufferIndex := chunkTransferId % maxInFlightReads
    .ok (m, Function.update currentStagingBuffers stagingBufferIndex (some (userData, tracker)),
      result)
  else .ok (m.trackChunk tracker, currentStagingBuffers, result)

def performChunkTransfer (env : Surroundings) (fuel chunkTransferId : Nat) (isRead : Bool)
    (userData : UserData) (args : ChunkArgs) (csr : Nat) (m : StagingBufferManager)
    (currentStagingBuffers : StagingQueue) :
    Result (StagingBufferManager × StagingQueue × StagingTransferStatus) :=
  if isRead ∧ chunkTransferId ≥ maxInFlightReads then
    match currentStagingBuffers (chunkTransferId % maxInFlightReads) with
    | none => .error .nullAccess
    | some transfer => do
      let (m, tracker) ← m.copyStagingToHost fuel transfer (env.slotWait chunkTransferId)
      match tracker with
      | none => .ok (m, currentStagingBuffers, ⟨0, .gpuHang⟩)
      | some tracker =>
        transferThrough env chunkTransferId isRead userData args m currentStagingBuffers tracker
  else do
    let (m, chunk) ← m.requestStagingBuffer env chunkTransferId userData.size
    transferThrough env chunkTransferId isRead userData args m currentStagingBuffers
      (chunk.tracker csr)

/-- The rounds of the drain loop from slot `i` on; the loop ends at the first hang. -/
def drainFrom (env : Surroundings) (fuel : Nat) (stagingQueue : StagingQueue) :
    Nat → Nat → StagingBufferManager → Result (StagingBufferManager × WaitStatus)
  | 0, _, m => .ok (m, .ready)
  | left + 1, i, m =>
    match stagingQueue i with
    | none => .error .nullAccess
    | some transfer => do
      let (m, tracker) ← m.copyStagingToHost fuel transfer (env.drainWait i)
      match tracker with
      | none => .ok (m, .gpuHang)
      | some tracker => drainFrom env fuel stagingQueue left (i + 1) (m.freeChunk tracker)

def drainAndReleaseStagingQueue (env : Surroundings) (fuel : Nat) (isRead : Bool)
    (stagingQueue : StagingQueue) (numOfSubmittedTransfers : Nat) (m : StagingBufferManager) :
    Result (StagingBufferManager × WaitStatus) :=
  if isRead then
    drainFrom env fuel stagingQueue (min numOfSubmittedTransfers maxInFlightReads) 0 m
  else .ok (m, .ready)

end StagingBufferManager

/-- What a transfer returns: the manager it leaves and its status. -/
abbrev Transferred := StagingBufferManager × StagingTransferStatus

/-- The local variables of a transfer between two chunks. -/
structure ChunkLoop where
  manager : StagingBufferManager
  stagingQueue : StagingQueue
  result : StagingTransferStatus

namespace ChunkLoop

/-- One chunk of a copy or a buffer transfer: a callback that fails ends the transfer, a hang
does not. -/
def transfer (env : Surroundings) (fuel : Nat) (isRead : Bool) (csr chunkTransferId ptr size : Nat)
    (args : ChunkArgs) (loop : ChunkLoop) : Result (ChunkLoop ⊕ Transferred) := do
  let userData : UserData := ⟨ptr, size, ⟨0, 0, 0, 0, 0, 0⟩, false⟩
  let (manager, stagingQueue, result) ← loop.manager.performChunkTransfer env fuel chunkTransferId
    isRead userData args csr loop.stagingQueue
  if result.chunkCopyStatus ≠ 0 then .ok (.inr (manager, result))
  else .ok (.inl ⟨manager, stagingQueue, result⟩)

/-- Chunk `i` of a copy. -/
def copyChunk (env : Surroundings) (fuel csr dstPtr srcPtr chunkSize i size : Nat)
    (loop : ChunkLoop) : Result (ChunkLoop ⊕ Transferred) :=
  loop.transfer env fuel false csr i (add64 srcPtr (mul64 i chunkSize)) size
    (.copy (add64 dstPtr (mul64 i chunkSize)) size)

/-- Chunk `i` of a buffer transfer; the offset in the buffer moves on with it. -/
def bufferChunk (env : Surroundings) (fuel csr : Nat) (isRead : Bool) (ptr chunkSize i size : Nat)
    (state : ChunkLoop × Nat) : Result (ChunkLoop × Nat ⊕ Transferred) :=
  let (loop, chunkOffset) := state
  Loop.andThen (loop.transfer env fuel isRead csr i (add64 ptr (mul64 i chunkSize)) size
    (.buffer chunkOffset size)) fun loop => .ok (.inl (loop, add64 chunkOffset size))

end ChunkLoop

namespace StagingBufferManager

def performCopy (env : Surroundings) (fuel dstPtr srcPtr size csr : Nat)
    (m : StagingBufferManager) : Result Transferred := do
  let copiesNum ← checkedDiv size m.chunkSize
  let remainder ← checkedMod size m.chunkSize
  let chunk := ChunkLoop.copyChunk env fuel csr dstPtr srcPtr m.chunkSize
  let copied := Loop.forWord 32 .outOfFuel copiesNum (fun i => chunk i m.chunkSize) fuel 0
    ⟨m, emptyQueue, .success⟩
  Loop.finish copied fun loop =>
    if remainder = 0 then .ok (loop.manager, loop.result)
    else
      -- the status of the last chunk has a variable of its own
      Loop.finish (chunk copiesNum remainder loop) fun last => .ok (last.manager, loop.result)

def performBufferTransfer (env : Surroundings) (fuel ptr globalOffset globalSize csr : Nat)
    (isRead : Bool) (m : StagingBufferManager) : Result Transferred := do
  let copiesNum ← checkedDiv globalSize m.chunkSize
  let remainder ← checkedMod globalSize m.chunkSize
  let chunk := ChunkLoop.bufferChunk env fuel csr isRead ptr m.chunkSize
  let transferred := Loop.forWord 32 .outOfFuel copiesNum (fun i => chunk i m.chunkSize) fuel 0
    (⟨m, emptyQueue, .success⟩, globalOffset)
  let transferred := Loop.andThen transferred fun state =>
    if remainder = 0 then .ok (.inl state) else chunk copiesNum remainder state
  Loop.finish transferred fun (loop, _) => do
    let (manager, waitStatus) ← loop.manager.drainAndReleaseStagingQueue env fuel isRead
      loop.stagingQueue (copiesNum + if remainder ≠ 0 then 1 else 0)
    .ok (manager, { loop.result with waitStatus })

end StagingBufferManager

def calculateSizeForRegion (region : Region) (imageMetadata : ImageMetadata) : Nat :=
  if region.z > 1 then
    add64 (add64 (mul64 (sub64 region.z 1) imageMetadata.slicePitch)
      (mul64 (sub64 region.y 1) imageMetadata.rowPitch))
      (mul64 region.x imageMetadata.bytesPerPixel)
  else if region.y > 1 then
    add64 (mul64 (sub64 region.y 1) imageMetadata.rowPitch)
      (mul64 region.x imageMetadata.bytesPerPixel)
  else mul64 region.x imageMetadata.bytesPerPixel

/-- The local variables of an image transfer between two chunks. -/
structure ImageLoop extends ChunkLoop where
  submittedChunks : Nat
  origin : Origin
  region : Region
  imageMetadata : ImageMetadata

/-- What the parts of an image transfer share: the user's memory and how the GPU is reached. -/
structure ImageTransfer where
  ptr : Nat
  csr : Nat
  isRead : Bool
  deriving DecidableEq

namespace ImageLoop

/-- One chunk of an image transfer: `rows` rows of each slice, from row `firstRow` of the region
on. -/
def transfer (env : Surroundings) (fuel : Nat) (t : ImageTransfer)
    (sliceOffset baseRowOffset firstRow rows : Nat) (loop : ImageLoop) :
    Result (ImageLoop ⊕ (ImageLoop × StagingTransferStatus)) := do
  let origin := { loop.origin with y := add64 baseRowOffset firstRow }
  let region := { loop.region with y := rows }
  let size := calculateSizeForRegion region loop.imageMetadata
  let chunkPtr := add64 t.ptr (add64 (mul64 sliceOffset loop.imageMetadata.slicePitch)
    (mul64 firstRow loop.imageMetadata.rowPitch))
  let imageMetadata := { loop.imageMetadata with rowsInChunk := rows }
  let userData : UserData := ⟨chunkPtr, size, imageMetadata, true⟩
  let (manager, stagingQueue, result) ← loop.manager.performChunkTransfer env fuel
    loop.submittedChunks t.isRead userData (.image origin region) t.csr loop.stagingQueue
  let loop : ImageLoop :=
    ⟨⟨manager, stagingQueue, result⟩, loop.submittedChunks + 1, origin, region, imageMetadata⟩
  if result.fails then .ok (.inr (loop, result)) else .ok (.inl loop)

/-- `performImageSlicesTransfer`: some whole slices, in chunks of rows. -/
def performSlices (env : Surroundings) (fuel : Nat) (t : ImageTransfer)
    (chunkSize sliceOffset baseRowOffset rowsToCopy : Nat) (loop : ImageLoop) :
    Result (ImageLoop × StagingTransferStatus) := do
  let rows ← checkedDiv chunkSize loop.imageMetadata.rowPitch
  let rowsPerChunk := min (max 1 rows) rowsToCopy
  let numOfChunksInYDim ← checkedDiv rowsToCopy rowsPerChunk
  let remainder ← checkedMod rowsToCopy (mul64 rowsPerChunk numOfChunksInYDim)
  let loop := { loop with
    result := .success
    imageMetadata := { loop.imageMetadata with slicesInChunk := loop.region.z } }
  let transferred := Loop.forWord 32 .outOfFuel numOfChunksInYDim (fun rowId =>
    ImageLoop.transfer env fuel t sliceOffset baseRowOffset (mul64 rowId rowsPerChunk)
      rowsPerChunk) fuel 0 loop
  let transferred := Loop.andThen transferred fun loop =>
    if remainder = 0 then .ok (.inl loop)
    else
      loop.transfer env fuel t sliceOffset baseRowOffset (mul64 numOfChunksInYDim rowsPerChunk)
        remainder
  Loop.finish transferred fun loop => .ok (loop, loop.result)

/-- One step over the slices: `slices` of them from `sliceOffset` on, and the return of the
whole transfer when a chunk of them fails. -/
def step (env : Surroundings) (fuel : Nat) (t : ImageTransfer) (chunkSize : Nat)
    (globalOrigin : Origin) (globalRegion : Region) (sliceOffset slices : Nat) (loop : ImageLoop) :
    Result (ImageLoop ⊕ Transferred) := do
  let loop := { loop with
    origin := { loop.origin with z := add64 globalOrigin.z sliceOffset }
    region := { loop.region with z := slices } }
  let (loop, result) ← loop.performSlices env fuel t chunkSize sliceOffset globalOrigin.y
    globalRegion.y
  if result.fails then .ok (.inr (loop.manager, result)) else .ok (.inl { loop with result })

end ImageLoop

namespace StagingBufferManager

/-- Slices are packed into one chunk when one chunk holds all rows of a slice. -/
def packSlices (chunkSize slicePitch slices numOfChunksInYDim : Nat) : Result Nat :=
  if numOfChunksInYDim = 1 then do
    let fitting ← checkedDiv chunkSize slicePitch
    .ok (min (max 1 fitting) slices)
  else .ok 1

def performImageTransfer (env : Surroundings) (fuel ptr : Nat) (globalOrigin : Origin)
    (globalRegion : Region) (rowPitch slicePitch bytesPerPixel : Nat) (isMipMapped3DImage : Bool)
    (csr : Nat) (isRead : Bool) (m : StagingBufferManager) : Result Transferred := do
  let origin : Origin := ⟨globalOrigin.x, 0, 0, if isMipMapped3DImage then globalOrigin.mip else 0⟩
  let region : Region := ⟨globalRegion.x, 0, 0⟩
  let rows ← checkedDiv m.chunkSize rowPitch
  let rowsPerChunk := min (max 1 rows) globalRegion.y
  let numOfChunksInYDim ← checkedDiv globalRegion.y rowsPerChunk
  let slicesPerStep ← packSlices m.chunkSize slicePitch globalRegion.z numOfChunksInYDim
  let remainderSlices ← checkedMod globalRegion.z slicesPerStep
  let imageMetadata : ImageMetadata :=
    ⟨bytesPerPixel, mul64 globalRegion.x bytesPerPixel, rowPitch, slicePitch, 0, 0⟩
  let step := fun sliceOffset slices => ImageLoop.step env fuel ⟨ptr, csr, isRead⟩ m.chunkSize
    globalOrigin globalRegion sliceOffset slices
  let sliceSteps ← checkedDiv globalRegion.z slicesPerStep
  let transferred := Loop.forWord 32 .outOfFuel sliceSteps (fun sliceId =>
    step (mul64 sliceId slicesPerStep) slicesPerStep) fuel 0
    ⟨⟨m, emptyQueue, .success⟩, 0, origin, region, imageMetadata⟩
  let transferred := Loop.andThen transferred fun loop =>
    if remainderSlices = 0 then .ok (.inl loop)
    else step (sub64 globalRegion.z remainderSlices) remainderSlices loop
  Loop.finish transferred fun loop => do
    let (manager, waitStatus) ← loop.manager.drainAndReleaseStagingQueue env fuel isRead
      loop.stagingQueue loop.submittedChunks
    .ok (manager, { loop.result with waitStatus })

end StagingBufferManager

end ComputeRuntime
