import ComputeRuntime.DirectSubmission.Model

/-! What the sections of the ring leave alone: each one only appends commands. -/
namespace ComputeRuntime.DirectSubmissionHw

open DirectSubmission

/-- The parts of the state that no section changes. -/
structure Same (hw after : DirectSubmissionHw) : Prop where
  ringBuffers : after.ringBuffers = hw.ringBuffers
  currentRingBuffer : after.currentRingBuffer = hw.currentRingBuffer
  previousRingBuffer : after.previousRingBuffer = hw.previousRingBuffer
  ring : after.ring = hw.ring
  limit : after.limit = hw.limit
  currentQueueWorkCount : after.currentQueueWorkCount = hw.currentQueueWorkCount
  tagValue : after.tagValue = hw.tagValue
  ringStart : after.ringStart = hw.ringStart
  operation : after.operation = hw.operation

theorem Same.refl (hw : DirectSubmissionHw) : Same hw hw :=
  ⟨rfl, rfl, rfl, rfl, rfl, rfl, rfl, rfl, rfl⟩

theorem Same.trans {hw middle after : DirectSubmissionHw} (first : Same hw middle)
    (second : Same middle after) : Same hw after where
  ringBuffers := second.ringBuffers.trans first.ringBuffers
  currentRingBuffer := second.currentRingBuffer.trans first.currentRingBuffer
  previousRingBuffer := second.previousRingBuffer.trans first.previousRingBuffer
  ring := second.ring.trans first.ring
  limit := second.limit.trans first.limit
  currentQueueWorkCount := second.currentQueueWorkCount.trans first.currentQueueWorkCount
  tagValue := second.tagValue.trans first.tagValue
  ringStart := second.ringStart.trans first.ringStart
  operation := second.operation.trans first.operation

/-- Some commands were appended, all of a kind and at the place the ring is at. -/
structure Appends (kind : Command → Prop) (hw after : DirectSubmissionHw) : Prop where
  same : Same hw after
  used : hw.used ≤ after.used
  log : ∃ written : List Written,
    after.log = hw.log ++ written.map (fun w => ⟨hw.operation, .write w⟩) ∧
    ∀ w ∈ written, kind w.command ∧ w.ring = hw.ring ∧ w.limit = hw.limit ∧
      w.offset + w.size ≤ after.used

variable {kind : Command → Prop} {hw middle after : DirectSubmissionHw}

theorem Appends.refl (hw : DirectSubmissionHw) : Appends kind hw hw :=
  ⟨.refl hw, Nat.le_refl _, [], by simp, by simp⟩

theorem Appends.trans (first : Appends kind hw middle) (second : Appends kind middle after) :
    Appends kind hw after := by
  obtain ⟨early, earlyLog, earlyKind⟩ := first.log
  obtain ⟨late, lateLog, lateKind⟩ := second.log
  refine ⟨first.same.trans second.same, Nat.le_trans first.used second.used, early ++ late, ?_, ?_⟩
  · rw [lateLog, earlyLog, first.same.operation, List.map_append, List.append_assoc]
  · intro w member
    rcases List.mem_append.mp member with inEarly | inLate
    · obtain ⟨isKind, ring, limit, inside⟩ := earlyKind w inEarly
      exact ⟨isKind, ring, limit, Nat.le_trans inside second.used⟩
    · obtain ⟨isKind, ring, limit, inside⟩ := lateKind w inLate
      exact ⟨isKind, ring.trans first.same.ring, limit.trans first.same.limit, inside⟩

theorem Appends.write (hw : DirectSubmissionHw) {command : Command} (isKind : kind command)
    (size : Nat) : Appends kind hw (hw.write command size) := by
  refine ⟨⟨rfl, rfl, rfl, rfl, rfl, rfl, rfl, rfl, rfl⟩, Nat.le_add_right _ _,
    [⟨hw.ring, hw.used, size, command, hw.limit⟩], rfl, ?_⟩
  intro w member
  obtain rfl := List.mem_singleton.mp member
  exact ⟨isKind, rfl, rfl, Nat.le_refl _⟩

/-- A change of the state that the ring does not show. -/
theorem Appends.silent (same : Same hw after) (used : after.used = hw.used)
    (log : after.log = hw.log) : Appends kind hw after :=
  ⟨same, used ▸ Nat.le_refl _, [], by simp [log], by simp⟩

end ComputeRuntime.DirectSubmissionHw
