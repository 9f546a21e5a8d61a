import ComputeRuntime.DirectSubmission.Pacing

/-! Every operation keeps the order of the log, as long as the count of the work goes on. -/
namespace ComputeRuntime

open DirectSubmission

namespace DirectSubmissionHw

variable {settings : DirectSubmissionSettings} {hw middle final : DirectSubmissionHw}

/-- The log keeps to the order of the operations. -/
abbrev Paced (hw : DirectSubmissionHw) : Prop :=
  DirectSubmission.Paced hw.log hw.operation hw.currentQueueWorkCount

/-- The semaphores so far are of earlier operations, and the next unblock opens them. -/
def Earlier (hw : DirectSubmissionHw) : Prop :=
  ∀ wait ∈ waits hw.log, wait.1 < hw.operation ∧ wait.2 ≤ hw.currentQueueWorkCount

theorem Appends.pacedAt (appends : Appends Command.Plain hw final) {count : Nat}
    (paced : DirectSubmission.Paced hw.log hw.operation count) :
    DirectSubmission.Paced final.log final.operation count := by
  obtain ⟨new, log, plain⟩ := appends.log
  rw [log, appends.same.operation]
  exact paced.plains fun w member => (plain w member).1

theorem Appends.paced (appends : Appends Command.Plain hw final) (paced : hw.Paced) :
    final.Paced := by
  simp only [Paced, appends.same.currentQueueWorkCount]
  exact appends.pacedAt paced

theorem Appends.waits (appends : Appends Command.Plain hw final) :
    waits final.log = waits hw.log := by
  obtain ⟨new, log, plain⟩ := appends.log
  rw [log, waits_append, waits_writes_plain fun w member => (plain w member).1, List.append_nil]

theorem Appends.grows {kind : Command → Prop} (appends : Appends kind hw final) :
    hw.log <+: final.log := by
  obtain ⟨new, log, -⟩ := appends.log
  exact log ▸ List.prefix_append _ _

theorem Appends.gated (appends : Appends Command.Plain hw final) {count barrier : Nat}
    (gated : Gated hw.log count barrier) : Gated final.log count barrier := by
  obtain ⟨new, log, plain⟩ := appends.log
  exact log ▸ gated.plains fun w member => (plain w member).1

theorem AppendsAround.grows {kind : Command → Prop} {command : Command}
    (appends : AppendsAround kind command hw final) : hw.log <+: final.log := by
  obtain ⟨before, size, early, late⟩ := appends
  exact early.grows.trans ((List.prefix_append _ _).trans late.grows)

/-- The barrier in the midst of a section is the last one behind it. -/
theorem AppendsAround.gated {command : Command} {count : Nat}
    (appends : AppendsAround Command.Plain command hw final) (closed : command.Closed count) :
    ∃ barrier, (writes hw.log).length ≤ barrier ∧ Gated final.log count barrier := by
  obtain ⟨before, size, early, late⟩ := appends
  obtain ⟨new, log, -⟩ := early.log
  refine ⟨(writes before.log).length, ?_, late.gated (Gated.concat closed)⟩
  simp [log]

/-- Between two dispatches: what a stop or a switch does, if all the semaphores are earlier. -/
structure Quiet (hw after : DirectSubmissionHw) : Prop where
  grows : hw.log <+: after.log
  operation : after.operation = hw.operation
  count : after.currentQueueWorkCount = hw.currentQueueWorkCount
  awaits : waits after.log = waits hw.log
  stops : after.ringStart = true → hw.ringStart = true
  paced : (hw.ringStart = true → hw.Earlier) → hw.Paced → after.Paced

theorem Quiet.refl (hw : DirectSubmissionHw) : Quiet hw hw :=
  ⟨List.prefix_rfl, rfl, rfl, rfl, id, fun _ => id⟩

theorem Quiet.earlier (quiet : Quiet hw final) (earlier : hw.Earlier) : final.Earlier := by
  intro wait member
  rw [quiet.operation, quiet.count]
  exact earlier wait (quiet.awaits ▸ member)

theorem Quiet.trans (first : Quiet hw middle) (second : Quiet middle final) : Quiet hw final where
  grows := first.grows.trans second.grows
  operation := second.operation.trans first.operation
  count := second.count.trans first.count
  awaits := second.awaits.trans first.awaits
  stops := first.stops ∘ second.stops
  paced := fun earlier paced => second.paced
    (fun started => first.earlier (earlier (first.stops started))) (first.paced earlier paced)

theorem Appends.quiet (appends : Appends Command.Plain hw final) : Quiet hw final where
  grows := appends.grows
  operation := appends.same.operation
  count := appends.same.currentQueueWorkCount
  awaits := appends.waits
  stops := fun started => appends.same.ringStart ▸ started
  paced := fun _ => appends.paced

/-- A change of what the log says nothing about. -/
theorem Quiet.silent (log : final.log = hw.log) (operation : final.operation = hw.operation)
    (count : final.currentQueueWorkCount = hw.currentQueueWorkCount)
    (ringStart : final.ringStart = true → hw.ringStart = true) : Quiet hw final where
  grows := log ▸ List.prefix_rfl
  operation := operation
  count := count
  awaits := congrArg _ log
  stops := ringStart
  paced := fun _ paced => by simpa only [Paced, log, operation, count] using paced

theorem dispatchEnd_waits (ordered : settings.relaxedOrderingEnabled = false) :
    waits (hw.dispatchEnd settings).log = waits hw.log := by
  obtain ⟨before, size, early, late⟩ := dispatchEnd_around hw ordered
  rw [late.waits, ← early.waits]
  simp [write, act, waits, waitOf, Command.waitsFor]

theorem dispatchEnd_paced (ordered : settings.relaxedOrderingEnabled = false) (paced : hw.Paced) :
    (hw.dispatchEnd settings).Paced := by
  obtain ⟨before, size, early, late⟩ := dispatchEnd_around hw ordered
  exact late.paced ((early.paced paced).silent trivial rfl rfl)

section Quiet

variable (hw)

theorem handleStopRingBuffer_quiet : Quiet hw (hw.handleStopRingBuffer settings) := by
  unfold handleStopRingBuffer
  split
  · exact .silent rfl rfl rfl id
  · exact .refl hw

/-- A stop lets the GPU go on to the end it has just written. -/
theorem stopRingBuffer_quiet (ordered : settings.relaxedOrderingEnabled = false) :
    Quiet hw (hw.stopRingBuffer settings) := by
  unfold stopRingBuffer
  split
  · exact .refl hw
  · rename_i started
    have around := dispatchEnd_around hw ordered
    have unblocked : Quiet hw (hw.dispatchEnd settings).unblockGpu := by
      constructor
      · exact around.grows.trans (List.prefix_append _ _)
      · exact around.same.operation
      · exact around.same.currentQueueWorkCount
      · simpa [unblockGpu, act] using dispatchEnd_waits ordered
      · exact fun _ => by simpa using started
      · intro earlier paced
        obtain ⟨barrier, -, gated⟩ := around.gated (.inl rfl)
        apply (dispatchEnd_paced ordered paced).unblock gated
        intro wait member
        rw [around.same.operation, around.same.currentQueueWorkCount]
        exact .inl (earlier (by simpa using started) wait (dispatchEnd_waits ordered ▸ member))
    apply (unblocked.trans (handleStopRingBuffer_quiet _)).trans
    exact .silent rfl rfl rfl nofun

theorem handleRingRestartForUllsLightResidency_quiet
    (ordered : settings.relaxedOrderingEnabled = false) (restartNeeded : Bool) :
    Quiet hw (hw.handleRingRestartForUllsLightResidency settings restartNeeded) := by
  unfold handleRingRestartForUllsLightResidency
  split
  · exact stopRingBuffer_quiet hw ordered
  · exact .refl hw

theorem switchRingBuffersAllocations_quiet (isCompleted : Nat → Bool) :
    Quiet hw (hw.switchRingBuffersAllocations settings isCompleted) := by
  unfold switchRingBuffersAllocations
  dsimp only
  split
  · exact .silent rfl rfl rfl id
  · split
    · exact .silent rfl rfl rfl id
    · exact .silent rfl rfl rfl id

theorem handleSwitchRingBuffers_quiet : Quiet hw (hw.handleSwitchRingBuffers settings) := by
  unfold handleSwitchRingBuffers
  split
  · exact .silent rfl rfl rfl id
  · exact .refl hw

theorem switchRingBuffers_quiet (ordered : settings.relaxedOrderingEnabled = false)
    (inputs : DispatchInputs) : Quiet hw (hw.switchRingBuffers settings inputs) := by
  have jump (middle : DirectSubmissionHw) : Quiet middle
      (if middle.ringStart then middle.dispatchSwitchRingBufferSection settings else middle) := by
    split
    · exact (dispatchSwitchRingBufferSection_appends middle settings
        (fun _ => trivial) trivial).quiet
    · exact .refl middle
  unfold switchRingBuffers
  apply (switchRingBuffersAllocations_quiet hw inputs.isCompleted).trans
  apply (handleRingRestartForUllsLightResidency_quiet _ ordered
    inputs.restartNeededOnSwitch).trans
  apply (jump _).trans
  refine .trans ?_ (handleSwitchRingBuffers_quiet _)
  exact .silent rfl rfl rfl id

theorem switchRingBuffersNeeded_quiet (ordered : settings.relaxedOrderingEnabled = false)
    (size : Nat) (inputs : DispatchInputs) :
    Quiet hw (hw.switchRingBuffersNeeded settings size inputs) := by
  unfold switchRingBuffersNeeded
  dsimp only
  split
  · exact (switchRingBuffers_quiet hw ordered inputs).trans (.silent rfl rfl rfl id)
  · exact .silent rfl rfl rfl id

end Quiet

/-- What holds between two operations: while the GPU is in the ring, the next unblock opens every
semaphore. -/
structure Ready (hw : DirectSubmissionHw) : Prop where
  paced : hw.Paced
  waiting : ∀ wait ∈ waits hw.log,
    wait.2 ≤ hw.currentQueueWorkCount + if hw.ringStart then 0 else 1

/-- The operation at work has no semaphore yet. -/
def Fresh (hw : DirectSubmissionHw) : Prop := ∀ wait ∈ waits hw.log, wait.1 < hw.operation

theorem Quiet.fresh (quiet : Quiet hw final) (fresh : hw.Fresh) : final.Fresh := by
  intro wait member
  rw [quiet.operation]
  exact fresh wait (quiet.awaits ▸ member)

theorem Ready.earlier (ready : hw.Ready) (fresh : hw.Fresh) (started : hw.ringStart = true) :
    hw.Earlier :=
  fun wait member => ⟨fresh wait member, by simpa [started] using ready.waiting wait member⟩

theorem Quiet.ready (quiet : Quiet hw final) (ready : hw.Ready) (fresh : hw.Fresh) :
    final.Ready := by
  constructor
  · exact quiet.paced (ready.earlier fresh) ready.paced
  · intro wait member
    have bound := ready.waiting wait (quiet.awaits ▸ member)
    rw [quiet.count]
    apply bound.trans
    cases stopped : final.ringStart with
    | true => simp [quiet.stops stopped]
    | false => split <;> simp

theorem Ready.nextOperation (ready : hw.Ready) : hw.nextOperation.Ready :=
  ⟨ready.paced.mono (Nat.le_succ _) (Nat.le_refl _), ready.waiting⟩

theorem Ready.fresh_nextOperation (ready : hw.Ready) : hw.nextOperation.Fresh := by
  intro wait member
  obtain ⟨entry, inside, isWait⟩ := List.mem_filterMap.mp member
  have order := ready.paced.operations entry inside
  rcases entry with ⟨operation, written | value | position⟩
  · obtain ⟨value, -, rfl⟩ := Option.map_eq_some_iff.mp isWait
    exact Nat.lt_succ_of_le order
  · cases isWait
  · cases isWait

theorem Ready.updateTagValue (ready : hw.Ready) (requireMonitorFence : Bool) :
    (hw.updateTagValue requireMonitorFence).Ready := by
  unfold DirectSubmissionHw.updateTagValue
  split
  · exact ⟨ready.paced, ready.waiting⟩
  · exact ready

/-- The commands of a dispatch are written, and the semaphore behind them is not opened by what is
stored next. -/
structure Sectioned (hw after : DirectSubmissionHw) : Prop where
  grows : hw.log <+: after.log
  operation : after.operation = hw.operation
  count : after.currentQueueWorkCount = hw.currentQueueWorkCount
  ringStart : after.ringStart = hw.ringStart
  awaits : waits after.log = waits hw.log ++ [(hw.operation, hw.currentQueueWorkCount + 1)]
  gated : ∀ count ≤ hw.currentQueueWorkCount,
    ∃ barrier, (writes hw.log).length ≤ barrier ∧ Gated after.log count barrier
  paced : after.Paced

theorem dispatchSections_sectioned (ordered : settings.relaxedOrderingEnabled = false)
    (batchBuffer : BatchBuffer settings.sizes) (isTlbFlushRequired : Bool)
    (room : hw.currentQueueWorkCount + 1 < 2 ^ 32) (paced : hw.Paced) :
    Sectioned hw (hw.dispatchSections settings batchBuffer isTlbFlushRequired) := by
  have around := dispatchSections_around hw (fun _ => Command.Ordinary.plain) ordered batchBuffer
    isTlbFlushRequired (fun _ _ => trivial)
  have value : add32 hw.currentQueueWorkCount 1 = hw.currentQueueWorkCount + 1 :=
    Nat.mod_eq_of_lt room
  rw [value] at around
  have same := around.same
  have grows := around.grows
  have gated (count : Nat) (bound : count ≤ hw.currentQueueWorkCount) :
      ∃ barrier, (writes hw.log).length ≤ barrier ∧
        Gated (hw.dispatchSections settings batchBuffer isTlbFlushRequired).log count barrier :=
    around.gated (.inr ⟨_, rfl, Nat.lt_succ_of_le bound⟩)
  obtain ⟨before, size, early, late⟩ := around
  constructor
  · exact grows
  · exact same.operation
  · exact same.currentQueueWorkCount
  · exact same.ringStart
  · rw [late.waits, ← early.waits, ← early.same.operation]
    simp [write, act]
  · exact gated
  · apply late.paced
    rw [← early.same.currentQueueWorkCount]
    exact (early.paced paced).semaphore _ _ _ _

section Sectioned

variable (sectioned : Sectioned hw middle)
  (old : ∀ wait ∈ waits hw.log, wait.2 ≤ hw.currentQueueWorkCount + 1)
include sectioned old

theorem Sectioned.waiting :
    ∀ wait ∈ waits middle.log, wait.2 ≤ middle.currentQueueWorkCount + 1 := by
  intro wait member
  rw [sectioned.awaits, List.mem_append] at member
  rw [sectioned.count]
  rcases member with earlier | here
  · exact old wait earlier
  · obtain rfl := List.mem_singleton.mp here
    exact Nat.le_refl _

/-- The kernel did not accept the submission, and the commands stay where they are. -/
theorem Sectioned.refused (position : Nat) : (middle.submit position false).Ready :=
  ⟨sectioned.paced, sectioned.waiting old⟩

/-- The count goes on when the GPU has something to do. -/
theorem Sectioned.counted (room : hw.currentQueueWorkCount + 1 < 2 ^ 32)
    {after : DirectSubmissionHw} (paced : after.Paced)
    (count : after.currentQueueWorkCount = middle.currentQueueWorkCount)
    (same : waits after.log = waits middle.log) :
    Ready { after with currentQueueWorkCount := add32 after.currentQueueWorkCount 1 } := by
  have value : add32 after.currentQueueWorkCount 1 = after.currentQueueWorkCount + 1 := by
    rw [count, sectioned.count]
    exact Nat.mod_eq_of_lt room
  rw [value]
  constructor
  · exact paced.mono (Nat.le_refl _) (Nat.le_succ _)
  · intro wait member
    have bound := sectioned.waiting old wait (same ▸ member)
    rw [← count] at bound
    exact bound.trans (Nat.le_add_right _ _)

omit old in
/-- The GPU is started before the last semaphore. -/
theorem Sectioned.submitted_paced : (middle.submit (writes hw.log).length true).Paced := by
  have bound := sectioned.paced.queueWorkCount_le
  rw [sectioned.count] at bound
  obtain ⟨barrier, behind, gated⟩ := sectioned.gated _ bound
  exact sectioned.paced.silent ⟨barrier, behind, gated⟩ rfl rfl

omit old in
theorem Sectioned.unblocked_paced (earlier : hw.Earlier) : middle.unblockGpu.Paced := by
  obtain ⟨barrier, -, gated⟩ := sectioned.gated _ (Nat.le_refl _)
  rw [← sectioned.count] at gated
  apply sectioned.paced.unblock gated
  intro wait member
  rw [sectioned.awaits, List.mem_append] at member
  rw [sectioned.operation, sectioned.count]
  rcases member with before | here
  · exact .inl (earlier wait before)
  · obtain rfl := List.mem_singleton.mp here
    exact .inr ⟨rfl, Nat.lt_succ_self _⟩

end Sectioned

/-- A dispatch, as long as the count of the work does not come to its end. -/
theorem finishDispatch_ready (ordered : settings.relaxedOrderingEnabled = false)
    (batchBuffer : BatchBuffer settings.sizes) (inputs : DispatchInputs)
    (room : hw.currentQueueWorkCount + 1 < 2 ^ 32) (ready : hw.Ready) (fresh : hw.Fresh) :
    (hw.finishDispatch settings batchBuffer (!hw.ringStart) inputs).Ready := by
  have quiet := switchRingBuffersNeeded_quiet hw ordered
    (hw.requiredMinimalSize settings batchBuffer) inputs
  have readySwitched := quiet.ready ready fresh
  have roomSwitched := quiet.count ▸ room
  have sectioned := dispatchSections_sectioned ordered batchBuffer inputs.isTlbFlushRequired
    roomSwitched readySwitched.paced
  have old : ∀ wait ∈ waits (hw.switchRingBuffersNeeded settings
      (hw.requiredMinimalSize settings batchBuffer) inputs).log,
      wait.2 ≤ (hw.switchRingBuffersNeeded settings
        (hw.requiredMinimalSize settings batchBuffer) inputs).currentQueueWorkCount + 1 := by
    intro wait member
    apply (readySwitched.waiting wait member).trans
    split <;> simp
  unfold finishDispatch
  cases started : hw.ringStart with
  | true =>
    -- the unblock opens what the GPU waits at, and the new semaphore holds it
    have unblocked := sectioned.unblocked_paced (quiet.earlier (ready.earlier fresh started))
    have counted := sectioned.counted old roomSwitched unblocked rfl (by simp [unblockGpu, act])
    exact counted.updateTagValue _
  | false =>
    cases submits : inputs.submits with
    | true =>
      have counted := sectioned.counted old roomSwitched sectioned.submitted_paced rfl
        (by simp [submit, act])
      exact counted.updateTagValue _
    | false => exact sectioned.refused old _

/-- What was written stays written. -/
theorem finishDispatch_grows (ordered : settings.relaxedOrderingEnabled = false)
    (batchBuffer : BatchBuffer settings.sizes) (needStart : Bool) (inputs : DispatchInputs) :
    hw.log <+: (hw.finishDispatch settings batchBuffer needStart inputs).log := by
  have switch := (switchRingBuffersNeeded_quiet hw ordered
    (hw.requiredMinimalSize settings batchBuffer) inputs).grows
  have sections := (dispatchSections_around (hw.switchRingBuffersNeeded settings
    (hw.requiredMinimalSize settings batchBuffer) inputs) (fun _ => Command.Ordinary.plain) ordered
    batchBuffer inputs.isTlbFlushRequired (fun _ _ => trivial)).grows
  apply (switch.trans sections).trans
  unfold finishDispatch updateTagValue
  dsimp only
  split
  · exact List.prefix_rfl
  · split
    · split
      · exact List.prefix_append _ _
      · exact List.prefix_append _ _
    · split
      · exact List.prefix_append _ _
      · exact List.prefix_append _ _

/-- The ring before the first dispatch: its semaphore waits for 1 while nothing is stored. -/
structure Opened (hw : DirectSubmissionHw) : Prop where
  paced : DirectSubmission.Paced hw.log hw.operation 0
  count : hw.currentQueueWorkCount = 1
  awaits : ∀ wait ∈ waits hw.log, wait.2 = 1
  gated : ∃ barrier, Gated hw.log 0 barrier

theorem opened (ordered : settings.relaxedOrderingEnabled = false)
    (systemMemoryFenceAddressSet : Bool) :
    Opened (((create settings systemMemoryFenceAddressSet).dispatchInitialState
      settings).dispatchSemaphoreSection settings 1) := by
  have state := dispatchInitialState_appends (create settings systemMemoryFenceAddressSet)
    settings fun _ => Command.Ordinary.plain
  have around := state.behind (dispatchSemaphoreSection_around _
    (fun _ => Command.Ordinary.plain) ordered 1)
  have count := around.same.currentQueueWorkCount
  obtain ⟨barrier, -, gated⟩ := around.gated (.inr ⟨1, rfl, Nat.one_pos⟩)
  obtain ⟨before, size, early, late⟩ := around
  constructor
  · exact late.pacedAt ((early.pacedAt .nil).semaphore _ _ _ _)
  · exact count
  · intro wait member
    rw [late.waits] at member
    simp only [write, act, waits_append, waits_semaphore, early.waits] at member
    obtain rfl : wait = (before.operation, 1) := by simpa [create, waits] using member
    rfl
  · exact ⟨barrier, gated⟩

theorem Opened.submit (opened : hw.Opened) (submits : Bool) : (hw.submit 0 submits).Ready := by
  obtain ⟨barrier, gated⟩ := opened.gated
  have nothing : queueWorkCount hw.log = 0 := Nat.le_zero.mp opened.paced.queueWorkCount_le
  have paced : hw.Paced := opened.paced.mono (Nat.le_refl _) (Nat.zero_le _)
  cases submits with
  | true =>
    constructor
    · exact paced.silent ⟨barrier, Nat.zero_le _, nothing ▸ gated⟩ rfl rfl
    · intro wait member
      have value := opened.awaits wait (by simpa [DirectSubmissionHw.submit, act] using member)
      simp [DirectSubmissionHw.submit, act, opened.count, value]
  | false =>
    refine ⟨paced, ?_⟩
    intro wait member
    have value := opened.awaits wait member
    simp [DirectSubmissionHw.submit, opened.count, value]

theorem initializeRing_ready (ordered : settings.relaxedOrderingEnabled = false)
    (systemMemoryFenceAddressSet submitOnInit submits : Bool) :
    ((create settings systemMemoryFenceAddressSet).initializeRing settings submitOnInit
      submits).Ready := by
  unfold initializeRing
  split
  · exact ⟨.nil, by simp [create, waits]⟩
  · have state := dispatchInitialState_appends (create settings systemMemoryFenceAddressSet)
      settings fun _ => Command.Ordinary.plain
    have value : ((create settings systemMemoryFenceAddressSet).dispatchInitialState
      settings).currentQueueWorkCount = 1 := state.same.currentQueueWorkCount
    dsimp only
    rw [value]
    exact (opened ordered systemMemoryFenceAddressSet).submit submits

end DirectSubmissionHw

end ComputeRuntime
