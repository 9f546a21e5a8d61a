import ComputeRuntime.Staging.ImageStuck

/-! Image transfers in whole runs of a staging buffer manager. When nothing fails, a transfer goes
wrong only because one of its loops has more rounds than its counter can count, or because a wait of
a read comes back before the GPU is done with the chunk. -/
namespace ComputeRuntime

open Transition Loop StagingBufferManager ImageRequest

namespace StagingBufferManager

variable {env : Surroundings} {fuel csr : Nat} {isRead : Bool} {m : StagingBufferManager}
  {q : ImageRequest}

section Stuck

variable {I : PoolInvariant} {lost : List StagingBufferTracker} (creates : env.Creates I)
  (calm : env.Calm) (order : m.InOrder I lost) (sound : q.Sound)

include creates calm order sound

/-- The row loop of the first slices does not end. -/
private theorem stuck_of_chunks {transferred : Transferred}
    (many : 2 ^ 32 ≤ q.numOfChunksInYDim m.chunkSize) :
    m.performImageTransfer env fuel q.ptr q.origin q.region q.rowPitch q.slicePitch
      q.bytesPerPixel q.isMipMapped3DImage csr isRead ≠ .ok transferred := by
  rw [performImageTransfer_eq sound]
  intro finished
  obtain ⟨_, followed⟩ := finish_ok finished
  obtain ⟨_, ended⟩ := andThen_ok followed
  have someSteps := Nat.div_pos (slicesPerStep_le sound m.chunkSize)
    (slicesPerStep_pos sound m.chunkSize)
  obtain ⟨_, stepped⟩ := forWord_first someSteps ended
  obtain ⟨performed, slices, _⟩ := bind_eq_ok.mp stepped
  refine absurd slices (ImageLoop.performSlices_stuck creates calm lost ?_ many _)
  exact Holding.start isRead order

/-- The loop over the slices does not end. -/
private theorem stuck_of_steps {transferred : Transferred}
    (many : 2 ^ 32 ≤ q.region.z / q.slicesPerStep m.chunkSize) :
    m.performImageTransfer env fuel q.ptr q.origin q.region q.rowPitch q.slicePitch
      q.bytesPerPixel q.isMipMapped3DImage csr isRead ≠ .ok transferred := by
  rw [performImageTransfer_eq sound]
  intro finished
  obtain ⟨_, followed⟩ := finish_ok finished
  obtain ⟨o, ended⟩ := andThen_ok followed
  refine absurd ended (forWord_stuck (P := fun loop : ImageLoop =>
    loop.Holding I False isRead lost) many ?_ (by decide) ?_ o)
  · exact fun _ _ kept => ImageLoop.step_goesOn creates calm kept
  · exact Holding.start isRead order

omit creates order in
/-- The first wait for the first chunk does not end. -/
private theorem stuck_of_copies {transferred : Transferred} (read : isRead = true)
    (chunks : q.numOfChunksInYDim m.chunkSize < 2 ^ 32)
    (steps : q.region.z / q.slicesPerStep m.chunkSize < 2 ^ 32)
    (wide : ¬ (q.metadata (q.rowsPerChunk m.chunkSize) (q.slicesPerStep m.chunkSize)).Copyable) :
    m.performImageTransfer env fuel q.ptr q.origin q.region q.rowPitch q.slicePitch
      q.bytesPerPixel q.isMipMapped3DImage csr isRead ≠ .ok transferred := by
  subst read
  rw [performImageTransfer_eq sound]
  intro finished
  have someSteps := Nat.div_pos (slicesPerStep_le sound m.chunkSize)
    (slicesPerStep_pos sound m.chunkSize)
  refine Ends.finish (P := ImageLoop.Wide) (Q := fun _ => False)
    (Ends.andThen (P := ImageLoop.Wide) ?_ ?_) ?_ finished
  · refine (forWord_runs (P := fun sliceId loop =>
      sliceId = 0 ∧ loop = ImageLoop.start q m ∨ ImageLoop.Wide loop)
      steps ?_ (Nat.zero_le _) (.inl ⟨rfl, rfl⟩)).mono ?_ fun _ => id
    · rintro sliceId loop _ (⟨rfl, rfl⟩ | kept)
      · refine (ImageLoop.step_wide fun returned performed => ?_).mono (fun _ => .inr) fun _ => id
        exact ImageLoop.performSlices_first calm rfl sound chunks wide rfl ⟨rfl, rfl, rfl⟩ performed
      · exact (ImageLoop.step_later calm rfl kept).mono (fun _ => .inr) fun _ => id
    · rintro loop (⟨none, -⟩ | kept)
      · exact absurd none someSteps.ne'
      · exact kept
  · intro loop kept
    split
    next => exact .goesOn kept
    next => exact ImageLoop.step_later calm rfl kept
  · intro loop kept drained
    obtain ⟨_, drained, -⟩ := bind_eq_ok.mp drained
    exact drain_stuck calm kept.submitted kept.held drained

/-- A transfer with a loop that its 32-bit counter cannot finish goes on for ever. -/
theorem performImageTransfer_stuck (uncounted : ¬ q.Counted m.chunkSize isRead)
    (transferred : Transferred) :
    m.performImageTransfer env fuel q.ptr q.origin q.region q.rowPitch q.slicePitch
      q.bytesPerPixel q.isMipMapped3DImage csr isRead ≠ .ok transferred := by
  by_cases chunks : q.numOfChunksInYDim m.chunkSize < 2 ^ 32
  · by_cases steps : q.region.z / q.slicesPerStep m.chunkSize < 2 ^ 32
    · have wide : isRead = true ∧
          ¬ (q.metadata (q.rowsPerChunk m.chunkSize) (q.slicesPerStep m.chunkSize)).Copyable := by
        by_contra copies
        exact uncounted ⟨chunks, steps, fun read => by_contra fun wide => copies ⟨read, wide⟩⟩
      exact stuck_of_copies calm sound wide.1 chunks steps wide.2
    · exact stuck_of_steps creates calm order sound (Nat.le_of_not_lt steps)
  · exact stuck_of_chunks creates calm order sound (Nat.le_of_not_lt chunks)

end Stuck

/-- In every run of a manager whose drains waited for the GPU, an image transfer that its
surroundings serve does all it should exactly when its loops can count their rounds and, if it is
a read, every chunk is complete when it is copied to the user. -/
theorem reachable_image_tiled (reachable : Reachable (system.restrict (Orderly soundBuffer)) m)
    (sound : q.Sound) (room : m.chunkSize + 0x400000 < 2 ^ 64)
    (serves : env.Serves m q.size) (enough : 2 ^ 32 ≤ fuel) :
    (∃ m' chunks, m.performImageTransfer env fuel q.ptr q.origin q.region q.rowPitch q.slicePitch
        q.bytesPerPixel q.isMipMapped3DImage csr isRead = .ok (m', .success) ∧
      m'.submissions = m.submissions ++ chunks ∧ q.Tiled chunks ∧ (∀ c ∈ chunks, c.Fits) ∧
      (isRead = true → q.Landed env.staged chunks m.hostMemory m'.hostMemory)) ↔
    q.Counted m.chunkSize isRead ∧ (isRead = true → q.Awaited env m.chunkSize) := by
  obtain ⟨lost, order⟩ := reachable_inOrder reachable
  constructor
  · rintro ⟨m₁, chunks₁, returned, submissions₁, -, -, landed₁⟩
    have counted : q.Counted m.chunkSize isRead := by
      by_contra uncounted
      exact performImageTransfer_stuck serves.sane.creates serves.calm order sound
        uncounted _ returned
    obtain ⟨m₂, chunks₂, sent, submissions₂, -, -, landed₂⟩ :=
      performImageTransfer_sends csr order sound counted room serves enough
    rw [sent, Except.ok.injEq, Prod.mk.injEq] at returned
    obtain ⟨rfl, -⟩ := returned
    obtain rfl := List.append_cancel_left (submissions₁.symm.trans submissions₂)
    exact ⟨counted, fun read => (landed₂ read).mp (landed₁ read)⟩
  · rintro ⟨counted, awaited⟩
    obtain ⟨m', chunks, sent, submissions, tiled, fits, landed⟩ :=
      performImageTransfer_sends csr order sound counted room serves enough
    exact ⟨m', chunks, sent, submissions, tiled, fits, fun read => (landed read).mpr (awaited read)⟩

/-- Waits that end with the GPU done find every chunk complete. -/
theorem awaited_of_ready {chunkSize : Nat} (slots : ∀ n, (env.slotWait n).status = .ready)
    (drains : ∀ i, (env.drainWait i).status = .ready) : q.Awaited env chunkSize := by
  intro k _ o _
  rw [Surroundings.seen, Surroundings.slotSeen, TaskCountWait.shows, TaskCountWait.shows,
    if_pos (slots _), if_pos (drains _), ite_self]

/-- Surroundings whose host has some memory and whose GPU shows `pixel` everywhere. -/
def showing (hostBytes : Nat) (pixel : UInt8) : Surroundings where
  usmHost := fun _ size => if size ≤ hostBytes then some 0x10000000 else none
  completed := fun _ _ => 0
  func := fun _ => 0
  peekTaskCount := fun _ => 1
  staged := fun _ _ => pixel
  slotWait := fun _ => ⟨.ready, fun _ => 0⟩
  drainWait := fun _ => ⟨.ready, fun _ => 0⟩

theorem showing_calm (hostBytes : Nat) (pixel : UInt8) : (showing hostBytes pixel).Calm := by
  have silent : WaitStatus.ready ≠ .gpuHang := by decide
  exact ⟨fun _ => rfl, fun _ => silent, fun _ => silent⟩

/-- Five rows of a megabyte and a half, each a chunk of its own. -/
def fiveRows : ImageRequest where
  ptr := 0x1000
  origin := ⟨7, 8, 9, 0⟩
  region := ⟨4, 5, 1⟩
  rowPitch := 0x180000
  slicePitch := 0x780000
  bytesPerPixel := 4
  isMipMapped3DImage := false

theorem fiveRows_counted : fiveRows.Counted newManager.chunkSize true := by
  refine ⟨by decide, by decide, fun _ _ => ?_⟩
  decide

theorem reachable_image_tiled_fiveRows : ∃ m' chunks,
    newManager.performImageTransfer (showing 0x40000000 255) (2 ^ 32) fiveRows.ptr fiveRows.origin
      fiveRows.region fiveRows.rowPitch fiveRows.slicePitch fiveRows.bytesPerPixel
      fiveRows.isMipMapped3DImage 0 true = .ok (m', .success) ∧
    m'.submissions = [] ++ chunks ∧ fiveRows.Tiled chunks ∧ (∀ c ∈ chunks, c.Fits) ∧
    (true = true → fiveRows.Landed (fun _ _ => 255) chunks (fun _ => 0) m'.hostMemory) := by
  have host : ∀ size usmHost, (showing 0x40000000 255).usmHost 0 size = some usmHost →
      usmHost = 0x10000000 ∧ size ≤ 0x40000000 := by
    intro size usmHost given
    simp only [showing, Option.ite_none_right_eq_some, Option.some.injEq] at given
    exact ⟨given.2.symm, given.1⟩
  have serves : (showing 0x40000000 255).Serves newManager fiveRows.size := {
    sane := by
      intro n size usmHost given
      obtain ⟨rfl, small⟩ := host size usmHost given
      exact ⟨by decide, by decide, by omega⟩
    supplied := by
      intro n bytes fits
      have size : newManager.stagingBufferSize fiveRows.size = 0x800000 := by decide +kernel
      rw [size] at fits
      have small : bytes ≤ 0x40000000 := by omega
      simp [showing, small]
    called := (showing_calm _ _).called
    slotSilent := (showing_calm _ _).slotSilent
    drainSilent := (showing_calm _ _).drainSilent }
  exact (reachable_image_tiled (.start ⟨rfl, rfl, rfl⟩) (by constructor <;> decide) (by decide)
    serves (Nat.le_refl _)).mpr ⟨fiveRows_counted, fun _ => awaited_of_ready (fun _ => rfl) fun _ => rfl⟩

/-- A host without memory gives the callback a null chunk to work on, and a write copies into it;
and a region of 2^32 rows that are a chunk each is never done. -/
theorem failing_host_and_wrapping_counter :
    (∀ fuel transferred, newManager.performImageTransfer (showing 0 255) fuel 0x1000 ⟨0, 0, 0, 0⟩
      ⟨1, 1, 1⟩ 1 1 1 false 0 false ≠ .ok transferred) ∧
    ∀ fuel transferred, newManager.performImageTransfer (showing 0x40000000 255) fuel 0x1000
      ⟨0, 0, 0, 0⟩ ⟨1, 2 ^ 32, 1⟩ 0x200000 (2 ^ 53) 1 false 0 false ≠ .ok transferred := by
  constructor
  · intro fuel transferred
    cases fuel with
    | zero => rintro ⟨⟩
    | succ fuel =>
      have aborted : newManager.performImageTransfer (showing 0 255) (fuel + 1) 0x1000 ⟨0, 0, 0, 0⟩
          ⟨1, 1, 1⟩ 1 1 1 false 0 false = .error .nullAccess := rfl
      rw [aborted]
      rintro ⟨⟩
  · intro fuel transferred
    have order : newManager.InOrder anyBuffer [] := IsNew.inOrder ⟨rfl, rfl, rfl⟩
    exact performImageTransfer_stuck
      (q := ⟨0x1000, ⟨0, 0, 0, 0⟩, ⟨1, 2 ^ 32, 1⟩, 0x200000, 2 ^ 53, 1, false⟩)
      (fun _ _ _ _ => trivial) (showing_calm _ _) order (by constructor <;> decide)
      (fun counted => absurd counted.chunks (by decide)) transferred

end StagingBufferManager

end ComputeRuntime
