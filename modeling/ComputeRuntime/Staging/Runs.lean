import ComputeRuntime.Staging.Release

/-! Whole runs of a staging buffer manager: any sequence of transfers, with any answers of the
callbacks, the waits and the host allocator. -/
namespace ComputeRuntime

open Transition

namespace StagingBufferManager

inductive Call where
  | performCopy (env : Surroundings) (dstPtr srcPtr size csr : Nat)
  | performImageTransfer (env : Surroundings) (ptr : Nat) (globalOrigin : Origin)
      (globalRegion : Region) (rowPitch slicePitch bytesPerPixel : Nat) (isMipMapped3DImage : Bool)
      (csr : Nat) (isRead : Bool)
  | performBufferTransfer (env : Surroundings) (ptr globalOffset globalSize csr : Nat)
      (isRead : Bool)
  /-- The user writes memory of their own between two transfers. -/
  | userWrites (hostMemory : Nat → UInt8)

/-- One returning call. -/
inductive Step : StagingBufferManager → Call → StagingBufferManager → Prop where
  | performCopy {m m' : StagingBufferManager} {status : StagingTransferStatus} {env : Surroundings}
      {dstPtr srcPtr size csr : Nat} (fuel : Nat)
      (returned : m.performCopy env fuel dstPtr srcPtr size csr = .ok (m', status)) :
      Step m (.performCopy env dstPtr srcPtr size csr) m'
  | performImageTransfer {m m' : StagingBufferManager} {status : StagingTransferStatus}
      {env : Surroundings} {ptr : Nat} {globalOrigin : Origin} {globalRegion : Region}
      {rowPitch slicePitch bytesPerPixel : Nat} {isMipMapped3DImage : Bool} {csr : Nat}
      {isRead : Bool} (fuel : Nat)
      (returned : m.performImageTransfer env fuel ptr globalOrigin globalRegion rowPitch slicePitch
        bytesPerPixel isMipMapped3DImage csr isRead = .ok (m', status)) :
      Step m (.performImageTransfer env ptr globalOrigin globalRegion rowPitch slicePitch
        bytesPerPixel isMipMapped3DImage csr isRead) m'
  | performBufferTransfer {m m' : StagingBufferManager} {status : StagingTransferStatus}
      {env : Surroundings} {ptr globalOffset globalSize csr : Nat} {isRead : Bool} (fuel : Nat)
      (returned : m.performBufferTransfer env fuel ptr globalOffset globalSize csr isRead =
        .ok (m', status)) :
      Step m (.performBufferTransfer env ptr globalOffset globalSize csr isRead) m'
  | userWrites {m : StagingBufferManager} (hostMemory : Nat → UInt8) :
      Step m (.userWrites hostMemory) { m with hostMemory }

/-- A new manager has no staging buffers. -/
structure IsNew (m : StagingBufferManager) : Prop where
  stagingBuffers : m.stagingBuffers = []
  trackers : m.trackers = []
  badFrees : m.badFrees = []

def system : System StagingBufferManager Call where
  init := IsNew
  step := Step

/-- A read must run to its end: no callback of it fails, no wait that could end it hangs, and the
waits of its final drain come back when the GPU is done.
What the surroundings would answer to questions the call never asks can be taken to be fine. -/
def Finishes (_ : StagingBufferManager) : Call → Prop
  | .performImageTransfer env _ _ _ _ _ _ _ _ isRead => isRead = true → GoodImageRead env
  | .performBufferTransfer env _ _ _ _ isRead => isRead = true → GoodBufferRead env
  | _ => True

/-- The staging buffers a call adds have the property. -/
def Call.Creates (I : PoolInvariant) : Call → Prop
  | .performCopy env .. => env.Creates I
  | .performImageTransfer env .. => env.Creates I
  | .performBufferTransfer env .. => env.Creates I
  | .userWrites _ => True

/-- No chunk is freed by a drain whose wait came back too early. -/
def Call.Punctual : Call → Prop
  | .performImageTransfer env _ _ _ _ _ _ _ _ isRead => isRead = true → env.Punctual
  | .performBufferTransfer env _ _ _ _ isRead => isRead = true → env.Punctual
  | _ => True

theorem Finishes.punctual {m : StagingBufferManager} {call : Call} (finishes : Finishes m call) :
    call.Punctual := by
  cases call with
  | performImageTransfer => exact fun read => .of_ready (finishes read).2
  | performBufferTransfer => exact fun read => .of_ready (finishes read).2
  | _ => trivial

/-- The property every staging buffer has. -/
def anyBuffer : PoolInvariant where
  holds := fun _ => True
  allocate := fun _ _ => trivial
  free := fun _ _ => trivial

theorem Call.creates_anyBuffer (call : Call) : call.Creates anyBuffer := by
  cases call with
  | userWrites => trivial
  | _ => exact fun _ _ _ _ => trivial

/-- The shared list has a tracker for every chunk that was handed out and not freed, one for
each, and no chunk was freed that nobody held or that the GPU still used. -/
structure Recorded (m : StagingBufferManager) : Prop where
  chunks : ∀ (index : Nat) (stagingBuffer : StagingBuffer),
    m.stagingBuffers[index]? = some stagingBuffer →
      stagingBuffer.allocator.live.Perm (heldChunks index m.trackers)
  clean : m.badFrees = []

variable {I : PoolInvariant} {m m' : StagingBufferManager} {call : Call} {lost : List StagingBufferTracker}

theorem InOrder.recorded (order : m.InOrder I []) : m.Recorded := by
  constructor
  · intro index stagingBuffer found
    have owned := order.accounts.owned index stagingBuffer found
    rwa [List.append_nil] at owned
  · exact order.clean

theorem IsNew.inOrder (new : m.IsNew) : m.InOrder I [] := by
  refine ⟨⟨?_, ?_⟩, new.badFrees, ?_⟩
  · intro index stagingBuffer found
    simp [new.stagingBuffers] at found
  · intro t member
    simp [new.trackers] at member
  · intro b member
    simp [new.stagingBuffers] at member

/-- What one call does to the ledger. -/
theorem Step.settled (step : Step m call m') (creates : call.Creates I) (punctual : call.Punctual)
    (order : m.InOrder I lost) : Settled I (Finishes m call) lost m' := by
  cases step with
  | performCopy fuel returned =>
    exact ⟨[], performCopy_inOrder creates order returned, fun _ => rfl⟩
  | performImageTransfer fuel returned =>
    exact performImageTransfer_settled creates punctual order (fun finishes => finishes) returned
  | performBufferTransfer fuel returned =>
    exact performBufferTransfer_settled creates punctual order (fun finishes => finishes) returned
  | userWrites hostMemory => exact ⟨[], order.congr rfl rfl rfl, fun _ => rfl⟩

/-- Steps whose host allocations make staging buffers with the property, and whose drains are
punctual. -/
def Orderly (I : PoolInvariant) (_ : StagingBufferManager) (call : Call) : Prop :=
  call.Creates I ∧ call.Punctual

/-- In every such run, whatever fails, no chunk is freed twice or too early, the staging buffers keep
their property, and what is missing from the shared list is lost for good. -/
theorem reachable_inOrder (reachable : Reachable (system.restrict (Orderly I)) m) :
    ∃ lost, m.InOrder I lost := by
  have invariant : Invariant (system.restrict (Orderly I)) fun m => ∃ lost, m.InOrder I lost :=
    { initial := fun _ new => ⟨[], new.inOrder⟩
      preserved := by
        rintro m call m' _ ⟨lost, order⟩ ⟨⟨creates, punctual⟩, step⟩
        obtain ⟨extra, order, _⟩ := step.settled creates punctual order
        exact ⟨extra ++ lost, order⟩ }
  exact invariant.holds reachable

/-- In a run whose reads all finish, no chunk is lost. -/
theorem reachable_recorded (reachable : Reachable (system.restrict Finishes) m) : m.Recorded := by
  have invariant : Invariant (system.restrict Finishes) fun m => m.InOrder anyBuffer [] :=
    { initial := fun _ new => new.inOrder
      preserved := by
        rintro m call m' _ order ⟨finishes, step⟩
        obtain ⟨extra, order, none⟩ := Step.settled step call.creates_anyBuffer finishes.punctual order
        rwa [none finishes] at order }
  exact (invariant.holds reachable).recorded

/-- A manager with chunks of two megabytes. -/
def newManager : StagingBufferManager where
  chunkSize := 0x200000
  stagingBuffers := []
  trackers := []
  completed := fun _ => 0
  stagingMemory := fun _ _ => 0
  hostMemory := fun _ => 0
  submissions := []
  badFrees := []

/-- Surroundings in which everything goes well, but for the status the callbacks return. -/
def answering (chunkCopyStatus : Int) : Surroundings where
  usmHost := fun _ _ => some 0x10000000
  completed := fun _ _ => 0
  func := fun _ => chunkCopyStatus
  peekTaskCount := fun _ => 1
  staged := fun _ _ => 0
  slotWait := fun _ => ⟨.ready, fun _ => 0⟩
  drainWait := fun _ => ⟨.ready, fun _ => 0⟩

/-- What a read of one page leaves in the shared list and with the allocators. -/
def afterPage (chunkCopyStatus : Int) :
    Result (List StagingBufferTracker × List (List HeapChunk)) :=
  (newManager.performBufferTransfer (answering chunkCopyStatus) 1 0x1000 0 0x1000 0 true).map
    fun r => (r.1.trackers, r.1.stagingBuffers.map fun b => b.allocator.live)

private theorem read_page {chunkCopyStatus : Int} {trackers : List StagingBufferTracker}
    {live : List (List HeapChunk)} (ran : afterPage chunkCopyStatus = .ok (trackers, live)) :
    ∃ m, Step newManager (.performBufferTransfer (answering chunkCopyStatus) 0x1000 0 0x1000 0 true)
      m ∧ m.trackers = trackers ∧ (m.stagingBuffers.map fun b => b.allocator.live) = live := by
  cases returned : newManager.performBufferTransfer (answering chunkCopyStatus) 1 0x1000 0 0x1000 0
      true with
  | error abort =>
    rw [afterPage, returned] at ran
    cases ran
  | ok r =>
    rw [afterPage, returned] at ran
    cases ran
    exact ⟨r.1, .performBufferTransfer 1 returned, rfl, rfl⟩

theorem reachable_recorded_page : ∃ m, Reachable (system.restrict Finishes) m ∧
    m.stagingBuffers.length = 1 ∧ m.Recorded := by
  have start : Reachable (system.restrict Finishes) newManager := .start ⟨rfl, rfl, rfl⟩
  have ran : afterPage 0 = .ok ([], [[]]) := by decide +kernel
  obtain ⟨m, step, _, live⟩ := read_page ran
  have finishes : Finishes newManager
      (.performBufferTransfer (answering 0) 0x1000 0 0x1000 0 true) := by
    intro _
    exact ⟨fun n => by simp [chunkStatus, answering], fun _ => rfl⟩
  have reached := start.next ⟨finishes, step⟩
  exact ⟨m, reached, by simpa using congrArg List.length live, reachable_recorded reached⟩

/-- A read of one page whose callback fails keeps its chunk for ever: the allocator has handed it
out, and no tracker stands for it. -/
theorem failed_read_loses_chunk : ∃ m, Reachable system m ∧ ¬ m.Recorded := by
  have start : Reachable system newManager := .start ⟨rfl, rfl, rfl⟩
  have ran : afterPage 1 = .ok ([], [[⟨0x10000000, 0x1000⟩]]) := by decide +kernel
  obtain ⟨m, step, trackers, live⟩ := read_page ran
  refine ⟨m, start.next step, fun recorded => ?_⟩
  obtain ⟨stagingBuffer, buffers, held⟩ := List.map_eq_singleton_iff.mp live
  have chunks := recorded.chunks 0 stagingBuffer (by rw [buffers]; rfl)
  rw [trackers, held] at chunks
  simp [heldChunks] at chunks

end StagingBufferManager

end ComputeRuntime
