import ComputeRuntime.HeapAllocator.Runs

/-! The pool of staging buffers: USM host allocations, each cut into chunks by an allocator of
its own, and the list of chunks that wait for the GPU before they are freed. -/
namespace ComputeRuntime

/-- A staging buffer, with the chunks its allocator handed out and did not get back. -/
structure StagingBuffer where
  baseAddress : Nat
  allocator : HeapAllocator.World
  deriving DecidableEq

/-- `allocator` is the index of the staging buffer whose allocator is meant, `none` the null
pointer. -/
structure StagingBufferTracker where
  allocator : Option Nat
  chunkAddress : Nat
  size : Nat
  csr : Nat
  taskCountToWait : Nat
  deriving DecidableEq

structure ImageMetadata where
  bytesPerPixel : Nat
  rowSize : Nat
  rowPitch : Nat
  slicePitch : Nat
  rowsInChunk : Nat
  slicesInChunk : Nat
  deriving DecidableEq

/-- The part of the user's memory one chunk stands for. -/
structure UserData where
  ptr : Nat
  size : Nat
  imageMetadata : ImageMetadata
  isImageOperation : Bool
  deriving DecidableEq

/-- `origin[0]` to `origin[3]` of an image. -/
structure Origin where
  x : Nat
  y : Nat
  z : Nat
  mip : Nat
  deriving DecidableEq

/-- `region[0]` to `region[2]` of an image. -/
structure Region where
  x : Nat
  y : Nat
  z : Nat
  deriving DecidableEq

/-- What a chunk callback is given besides the staging chunk: the destination and size of a
copy, the offset and size in a buffer, or the box of an image. -/
inductive ChunkArgs where
  | copy (chunkDst chunkSize : Nat)
  | buffer (chunkOffset chunkSize : Nat)
  | image (origin : Origin) (region : Region)
  deriving DecidableEq

/-- One call of a chunk callback, with the data and the staging chunk it is for. -/
structure Submission where
  userData : UserData
  tracker : StagingBufferTracker
  args : ChunkArgs
  deriving DecidableEq

/-- The manager, and what it works on: the task count each command stream has completed, the
memory of the staging buffers and of the user, the callbacks run so far, and every chunk that
was freed while nobody held it or while the GPU still used it. -/
structure StagingBufferManager where
  chunkSize : Nat
  stagingBuffers : List StagingBuffer
  trackers : List StagingBufferTracker
  completed : Nat → Nat
  stagingMemory : Option Nat → Nat → UInt8
  hostMemory : Nat → UInt8
  submissions : List Submission
  badFrees : List StagingBufferTracker

inductive WaitStatus where
  | notReady
  | ready
  | gpuHang
  deriving DecidableEq

/-- One `waitForTaskCount`: what it reports, and the bytes its chunk shows when it comes back
before the GPU is done. -/
structure TaskCountWait where
  status : WaitStatus
  unfinished : Nat → UInt8

/-- The bytes a chunk shows after a wait, where the GPU puts `staged` in the end. -/
def TaskCountWait.shows (wait : TaskCountWait) (staged : Nat → UInt8) : Nat → UInt8 :=
  if wait.status = .ready then staged else wait.unfinished

/-- What the outside does during one call, by the number of the chunk transfer: the address of a
new host allocation of some size (`none` when it fails), the task counts the command streams
show as completed, the status a callback returns, the task count it leaves, the bytes the GPU
reads into the chunk, and how a wait for a slot or in the final drain ends. -/
structure Surroundings where
  usmHost : Nat → Nat → Option Nat
  completed : Nat → Nat → Nat
  func : Nat → Int
  peekTaskCount : Nat → Nat
  staged : Nat → Nat → UInt8
  slotWait : Nat → TaskCountWait
  drainWait : Nat → TaskCountWait

def getDefaultStagingBufferSize : Nat := MemoryConstants.pageSize2M

/-- A chunk as `requestStagingBuffer` returns it, with the size it wrote back. Address 0 is a
failure. -/
structure StagingChunk where
  allocator : Option Nat
  address : Nat
  size : Nat
  deriving DecidableEq

/-- The tracker of a chunk that was just handed out. -/
def StagingChunk.tracker (chunk : StagingChunk) (csr : Nat) : StagingBufferTracker :=
  ⟨chunk.allocator, chunk.address, chunk.size, csr, 0⟩

namespace StagingBuffer

def create (baseAddress size : Nat) : StagingBuffer :=
  ⟨baseAddress, ⟨.create baseAddress size MemoryConstants.pageSize 0, []⟩⟩

/-- Two rounds of the allocator's retry loop are all it runs: only alignments above two
megabytes make it go on. -/
def allocate (stagingBuffer : StagingBuffer) (size : Nat) :
    Result (StagingBuffer × Nat × Nat) := do
  let r ← stagingBuffer.allocator.heap.allocate 2 size
  let live := HeapAllocator.liveAfter stagingBuffer.allocator.live r
  .ok ({ stagingBuffer with allocator := ⟨r.heap, live⟩ }, r.ptr, r.sizeToAllocate)

def free (stagingBuffer : StagingBuffer) (ptr size : Nat) : StagingBuffer :=
  { stagingBuffer with
    allocator := ⟨stagingBuffer.allocator.heap.free ptr size,
      stagingBuffer.allocator.live.erase ⟨ptr, size⟩⟩ }

end StagingBuffer

namespace StagingBufferTracker

/-- The allocator's memory the tracker stands for. -/
def chunk (tracker : StagingBufferTracker) : HeapChunk := ⟨tracker.chunkAddress, tracker.size⟩

end StagingBufferTracker

/-- The loop of `getExistingBuffer` over the staging buffers from `index` on. A buffer without
room still rounds the size up. -/
def getExistingBufferFrom : List StagingBuffer → Nat → StagingChunk →
    Result (List StagingBuffer × StagingChunk)
  | [], _, chunk => .ok ([], chunk)
  | stagingBuffer :: rest, index, chunk => do
    let (stagingBuffer, buffer, size) ← stagingBuffer.allocate chunk.size
    if buffer ≠ 0 then .ok (stagingBuffer :: rest, ⟨some index, buffer, size⟩)
    else
      let (rest, chunk) ← getExistingBufferFrom rest (index + 1) ⟨some index, 0, size⟩
      .ok (stagingBuffer :: rest, chunk)

namespace StagingBufferManager

def getExistingBuffer (m : StagingBufferManager) (size : Nat) :
    Result (StagingBufferManager × StagingChunk) := do
  let (stagingBuffers, chunk) ← getExistingBufferFrom m.stagingBuffers 0 ⟨none, 0, size⟩
  .ok ({ m with stagingBuffers := stagingBuffers }, chunk)

/-- `StagingBufferTracker::isReady`, from the completed task counts. -/
def isReady (m : StagingBufferManager) (tracker : StagingBufferTracker) : Bool :=
  tracker.taskCountToWait ≤ m.completed tracker.csr

/-- Whether the chunk was handed out and not freed since. -/
def isHeld (m : StagingBufferManager) (tracker : StagingBufferTracker) : Bool :=
  match tracker.allocator with
  | some index =>
    match m.stagingBuffers[index]? with
    | some stagingBuffer => tracker.chunk ∈ stagingBuffer.allocator.live
    | none => false
  | none => false

/-- `StagingBufferTracker::freeChunk`. Freeing address 0 does nothing, through a null pointer
too. -/
def freeChunk (m : StagingBufferManager) (tracker : StagingBufferTracker) :
    StagingBufferManager :=
  match tracker.allocator with
  | none => m
  | some index =>
    if tracker.chunkAddress = 0 then m
    else
      { m with
        stagingBuffers := m.stagingBuffers.modify index fun stagingBuffer =>
          stagingBuffer.free tracker.chunkAddress tracker.size
        badFrees :=
          if m.isHeld tracker && m.isReady tracker then m.badFrees else tracker :: m.badFrees }

/-- The loop of `clearTrackedChunks`: it stops at the first chunk the GPU still uses. -/
def clearTracked : List StagingBufferTracker → StagingBufferManager → StagingBufferManager
  | [], m => { m with trackers := [] }
  | tracker :: rest, m =>
    if m.isReady tracker then clearTracked rest (m.freeChunk tracker)
    else { m with trackers := tracker :: rest }

/-- The GPU has got further: `tags` are the task counts its command streams show. -/
def observe (m : StagingBufferManager) (tags : Nat → Nat) : StagingBufferManager :=
  { m with completed := fun csr => max (m.completed csr) (tags csr) }

def clearTrackedChunks (m : StagingBufferManager) (tags : Nat → Nat) : StagingBufferManager :=
  clearTracked m.trackers (m.observe tags)

def trackChunk (m : StagingBufferManager) (tracker : StagingBufferTracker) :
    StagingBufferManager := { m with trackers := m.trackers ++ [tracker] }

/-- The last resort of `requestStagingBuffer`: a new staging buffer that serves the request. -/
def addStagingBuffer (m : StagingBufferManager) (usmHost stagingBufferSize size : Nat) :
    Result (StagingBufferManager × StagingChunk) := do
  let (stagingBuffer, chunkBuffer, size) ←
    (StagingBuffer.create usmHost stagingBufferSize).allocate size
  .ok ({ m with stagingBuffers := m.stagingBuffers ++ [stagingBuffer] },
    ⟨some m.stagingBuffers.length, chunkBuffer, size⟩)

/-- The size of a new staging buffer that is to hold a chunk of `size` bytes. -/
def stagingBufferSize (m : StagingBufferManager) (size : Nat) : Nat :=
  alignUp (max m.chunkSize size) getDefaultStagingBufferSize

/-- `requestStagingBuffer` after its first attempt failed and the ready chunks were freed. -/
def retryStagingBuffer (env : Surroundings) (chunkTransferId : Nat) (m : StagingBufferManager)
    (failed : StagingChunk) : Result (StagingBufferManager × StagingChunk) := do
  let (m, retried) ← m.getExistingBuffer failed.size
  if retried.address ≠ 0 then .ok (m, retried)
  else
    match env.usmHost chunkTransferId (m.stagingBufferSize retried.size) with
    | some usmHost => m.addStagingBuffer usmHost (m.stagingBufferSize retried.size) retried.size
    -- the allocator and the null address of the first attempt
    | none => .ok (m, ⟨failed.allocator, failed.address, retried.size⟩)

def requestStagingBuffer (env : Surroundings) (chunkTransferId : Nat) (m : StagingBufferManager)
    (size : Nat) : Result (StagingBufferManager × StagingChunk) := do
  let (m, chunk) ← m.getExistingBuffer size
  if chunk.address ≠ 0 then .ok (m, chunk)
  else
    let m := m.clearTrackedChunks (env.completed chunkTransferId)
    m.retryStagingBuffer env chunkTransferId chunk

end StagingBufferManager

end ComputeRuntime
