import ComputeRuntime.DirectSubmission.Ready

/-! What the GPU can always do: go on to the barrier that it is let to. -/
namespace ComputeRuntime

open DirectSubmission

namespace DirectSubmissionHw

variable {settings : DirectSubmissionSettings} {hw middle final : DirectSubmissionHw}

/-- Plain commands were added while the GPU stays in the ring. -/
structure Adds (hw after : DirectSubmissionHw) : Prop where
  log : ∃ new : List Written, after.log = hw.log ++ new.map (fun w => ⟨hw.operation, .write w⟩) ∧
    ∀ w ∈ new, w.command.Plain
  operation : after.operation = hw.operation
  count : after.currentQueueWorkCount = hw.currentQueueWorkCount
  ringStart : after.ringStart = hw.ringStart

theorem Adds.trans (first : Adds hw middle) (second : Adds middle final) : Adds hw final := by
  obtain ⟨early, earlyLog, earlyPlain⟩ := first.log
  obtain ⟨late, lateLog, latePlain⟩ := second.log
  constructor
  · refine ⟨early ++ late, ?_, ?_⟩
    · rw [lateLog, earlyLog, first.operation, List.map_append, List.append_assoc]
    · exact fun w member => (List.mem_append.mp member).elim (earlyPlain w) (latePlain w)
  · exact second.operation.trans first.operation
  · exact second.count.trans first.count
  · exact second.ringStart.trans first.ringStart

theorem Appends.adds (appends : Appends Command.Plain hw final) : Adds hw final := by
  obtain ⟨new, log, plain⟩ := appends.log
  exact ⟨⟨new, log, fun w member => (plain w member).1⟩, appends.same.operation,
    appends.same.currentQueueWorkCount, appends.same.ringStart⟩

theorem Adds.silent (log : final.log = hw.log) (operation : final.operation = hw.operation)
    (count : final.currentQueueWorkCount = hw.currentQueueWorkCount)
    (ringStart : final.ringStart = hw.ringStart) : Adds hw final :=
  ⟨⟨[], by simp [log], by simp⟩, operation, count, ringStart⟩

/-- Inputs with which the ring is never restarted. -/
def steadyInputs : DispatchInputs where
  restartNeeded := false
  restartNeededOnSwitch := false
  isCompleted := fun _ => false
  isTlbFlushRequired := false
  submits := true

theorem switchRingBuffersAllocations_adds (isCompleted : Nat → Bool) :
    Adds hw (hw.switchRingBuffersAllocations settings isCompleted) := by
  unfold switchRingBuffersAllocations
  dsimp only
  split
  · exact .silent rfl rfl rfl rfl
  · split
    · exact .silent rfl rfl rfl rfl
    · exact .silent rfl rfl rfl rfl

theorem handleSwitchRingBuffers_adds : Adds hw (hw.handleSwitchRingBuffers settings) := by
  unfold handleSwitchRingBuffers
  split
  · exact .silent rfl rfl rfl rfl
  · exact .silent rfl rfl rfl rfl

theorem switchRingBuffersNeeded_adds (size : Nat) :
    Adds hw (hw.switchRingBuffersNeeded settings size steadyInputs) := by
  have jump (middle : DirectSubmissionHw) : Adds middle
      (if middle.ringStart then middle.dispatchSwitchRingBufferSection settings else middle) := by
    split
    · exact (dispatchSwitchRingBufferSection_appends middle settings
        (fun _ => trivial) trivial).adds
    · exact .silent rfl rfl rfl rfl
  have switched : Adds hw (hw.switchRingBuffers settings steadyInputs) := by
    apply (switchRingBuffersAllocations_adds _).trans
    apply (jump _).trans
    refine .trans ?_ handleSwitchRingBuffers_adds
    exact .silent rfl rfl rfl rfl
  unfold switchRingBuffersNeeded
  dsimp only
  split
  · exact switched.trans (.silent rfl rfl rfl rfl)
  · exact .silent rfl rfl rfl rfl

/-- A dispatch while the GPU is in the ring writes one semaphore and then unblocks the GPU. -/
structure Goes (hw after : DirectSubmissionHw) : Prop where
  log : ∃ early late : List Written, ∃ written : Written,
    after.log = hw.log ++ (early ++ written :: late).map (fun w => ⟨hw.operation, .write w⟩) ++
      [⟨hw.operation, .unblock hw.currentQueueWorkCount⟩] ∧
    written.command = .semaphoreWait (add32 hw.currentQueueWorkCount 1) ∧
    (∀ w ∈ early, w.command.Plain) ∧ ∀ w ∈ late, w.command.Plain
  count : after.currentQueueWorkCount = add32 hw.currentQueueWorkCount 1
  ringStart : after.ringStart = hw.ringStart
  operation : after.operation = hw.operation

/-- The commands of a section around its barrier. -/
theorem AppendsAround.log {command : Command}
    (around : AppendsAround Command.Plain command hw final) :
    ∃ early late : List Written, ∃ written : Written,
      final.log = hw.log ++ (early ++ written :: late).map (fun w => ⟨hw.operation, .write w⟩) ∧
      written.command = command ∧ (∀ w ∈ early, w.command.Plain) ∧ ∀ w ∈ late, w.command.Plain := by
  obtain ⟨before, size, early, late⟩ := around
  obtain ⟨first, firstLog, firstPlain⟩ := early.adds.log
  obtain ⟨last, lastLog, lastPlain⟩ := late.adds.log
  refine ⟨first, last, ⟨before.ring, before.used, size, command, before.limit⟩, ?_, rfl,
    firstPlain, lastPlain⟩
  simp [lastLog, DirectSubmissionHw.write, act, firstLog, early.same.operation]

theorem Adds.around {command : Command} (adds : Adds hw middle)
    (around : AppendsAround Command.Plain command middle final) :
    ∃ early late : List Written, ∃ written : Written,
      final.log = hw.log ++ (early ++ written :: late).map (fun w => ⟨hw.operation, .write w⟩) ∧
      written.command = command ∧ (∀ w ∈ early, w.command.Plain) ∧ ∀ w ∈ late, w.command.Plain := by
  obtain ⟨first, firstLog, firstPlain⟩ := adds.log
  obtain ⟨early, late, written, log, here, earlyPlain, latePlain⟩ := around.log
  refine ⟨first ++ early, late, written, ?_, here, ?_, latePlain⟩
  · simp [log, firstLog, adds.operation]
  · exact fun w member => (List.mem_append.mp member).elim (firstPlain w) (earlyPlain w)

theorem Goes.of_around {command : Command} (adds : Adds hw middle)
    (around : AppendsAround Command.Plain command middle final)
    (semaphore : command = .semaphoreWait (add32 middle.currentQueueWorkCount 1)) :
    Goes hw { final.unblockGpu with
      currentQueueWorkCount := add32 final.unblockGpu.currentQueueWorkCount 1 } := by
  obtain ⟨early, late, written, log, here, earlyPlain, latePlain⟩ := adds.around around
  have operation := around.same.operation.trans adds.operation
  have count := around.same.currentQueueWorkCount.trans adds.count
  constructor
  · refine ⟨early, late, written, ?_, ?_, earlyPlain, latePlain⟩
    · simp only [unblockGpu, act, log, operation, count]
    · rw [here, semaphore, adds.count]
  · exact congrArg (add32 · 1) count
  · exact around.same.ringStart.trans adds.ringStart
  · exact operation

theorem Goes.updateTagValue (goes : Goes hw final) (requireMonitorFence : Bool) :
    Goes hw (final.updateTagValue requireMonitorFence) := by
  unfold DirectSubmissionHw.updateTagValue
  split
  · exact ⟨goes.log, goes.count, goes.ringStart, goes.operation⟩
  · exact goes

theorem Goes.operations (goes : Goes hw final)
    (bound : ∀ entry ∈ hw.log, entry.operation ≤ hw.operation) :
    ∀ entry ∈ final.log, entry.operation ≤ final.operation := by
  obtain ⟨early, late, written, log, -⟩ := goes.log
  intro entry member
  rw [goes.operation]
  rw [log, List.append_assoc, List.mem_append] at member
  rcases member with old | new
  · exact bound entry old
  · have same : entry.operation = hw.operation := by
      rcases List.mem_append.mp new with written | unblock
      · obtain ⟨w, -, rfl⟩ := List.mem_map.mp written
        rfl
      · rw [List.mem_singleton.mp unblock]
    exact same.le

theorem finishDispatch_goes (ordered : settings.relaxedOrderingEnabled = false)
    (batchBuffer : BatchBuffer settings.sizes) :
    Goes hw (hw.finishDispatch settings batchBuffer false steadyInputs) := by
  have around := dispatchSections_around (hw.switchRingBuffersNeeded settings
    (hw.requiredMinimalSize settings batchBuffer) steadyInputs)
    (fun _ => Command.Ordinary.plain) ordered batchBuffer false (fun _ _ => trivial)
  exact (Goes.of_around (switchRingBuffersNeeded_adds _) around rfl).updateTagValue _

theorem dispatchCommandBuffer_goes (ordered : settings.relaxedOrderingEnabled = false)
    (batchBuffer : BatchBuffer settings.sizes) (started : hw.ringStart = true) :
    Goes hw (hw.dispatchCommandBuffer settings batchBuffer steadyInputs) := by
  have parts : hw.dispatchCommandBuffer settings batchBuffer steadyInputs =
      hw.finishDispatch settings batchBuffer (!hw.ringStart) steadyInputs := rfl
  rw [parts, started]
  exact finishDispatch_goes ordered batchBuffer

end DirectSubmissionHw

namespace DirectSubmission

variable {settings : DirectSubmissionSettings} {activeTiles : Nat}

/-- Only the second part of a dispatch may be forbidden. -/
def Lenient (allowed : System settings → Event settings → Prop) : Prop :=
  ∀ state event, (∀ inputs, event ≠ .finish inputs) → allowed state event

section Lenient

variable {allowed : System settings → Event settings → Prop} (lenient : Lenient allowed)
include lenient

/-- The CPU can do all it decided to do. -/
theorem reachable_settled {state : System settings}
    (reachable : Transition.Reachable ((system settings activeTiles).restrict allowed) state)
    (performed : state.performed ≤ state.hw.log.length) :
    Transition.Reachable ((system settings activeTiles).restrict allowed)
      { state with performed := state.hw.log.length } := by
  obtain ⟨more, all⟩ := Nat.exists_eq_add_of_le performed
  induction more generalizing state with
  | zero =>
    have same : state.hw.log.length = state.performed := all
    rw [same]
    exact reachable
  | succ more ih =>
    have room : state.performed < state.hw.log.length := by omega
    have next : Transition.Reachable ((system settings activeTiles).restrict allowed)
        { state with performed := state.performed + 1 } :=
      reachable.next ⟨lenient _ _ (by simp), .perform room⟩
    apply ih next room
    simp only [all]
    omega

theorem reachable_gpu (t : Nat) {state : System settings} {next : Tile}
    (reachable : Transition.Reachable ((system settings activeTiles).restrict allowed) state)
    (steps : (state.tiles t).step state.visible = some next) :
    Transition.Reachable ((system settings activeTiles).restrict allowed)
      { state with tiles := Function.update state.tiles t next } :=
  reachable.next ⟨lenient _ (.gpu t) (by simp), .gpu steps⟩

theorem reachable_begin (t : Nat) {state : System settings} {start : Nat}
    (reachable : Transition.Reachable ((system settings activeTiles).restrict allowed) state)
    {log : List Entry} (visible : state.visible = log) (idle : (state.tiles t).position = none)
    (pending : (submitted log)[(state.tiles t).batches]? = some start) :
    ∃ tile : Tile, tile.position = some start ∧
      Transition.Reachable ((system settings activeTiles).restrict allowed)
        { state with tiles := Function.update state.tiles t tile } := by
  subst visible
  have steps : (state.tiles t).step state.visible = some { state.tiles t with
      batches := (state.tiles t).batches + 1, position := some start } := by
    simp [Tile.step, idle, pending]
  exact ⟨_, rfl, reachable_gpu lenient t reachable steps⟩

omit lenient in
/-- A tile that nothing holds goes on to the next command. -/
theorem Tile.step_goes {log : List Entry} {tile : Tile} {position : Nat} {written : Written}
    (here : tile.position = some position) (there : (writes log)[position]? = some written)
    (passes : ¬ written.command.Closed (queueWorkCount log)) :
    ∃ next, tile.step log = some next ∧ next.position = some (position + 1) := by
  have step : tile.step log = tile.execute log position written.command := by
    simp [Tile.step, here, there]
  rw [step]
  cases command : written.command with
  | semaphoreWait value | relaxedOrderingScheduler value =>
    have opened : value ≤ queueWorkCount log :=
      Nat.le_of_not_lt fun closed => passes (.inr ⟨value, congrArg Command.waitsFor command, closed⟩)
    exact ⟨_, if_pos opened, rfl⟩
  | stopCommandBuffer => exact absurd (.inl command) passes
  | _ => exact ⟨_, rfl, rfl⟩

/-- A tile goes on through commands that do not hold it to a semaphore. -/
theorem reachable_semaphore (t : Nat) {state : System settings} {position semaphore : Nat}
    {written : Written}
    (reachable : Transition.Reachable ((system settings activeTiles).restrict allowed) state)
    {log : List Entry} (visible : state.visible = log)
    (here : (state.tiles t).position = some position) (before : position ≤ semaphore)
    (there : (writes log)[semaphore]? = some written)
    (passes : ∀ p w, position ≤ p → p < semaphore → (writes log)[p]? = some w →
      ¬ w.command.Closed (queueWorkCount log)) :
    ∃ tile, tile.position = some semaphore ∧
      Transition.Reachable ((system settings activeTiles).restrict allowed)
        { state with tiles := Function.update state.tiles t tile } := by
  subst visible
  -- the induction is on how far the semaphore is
  induction distance : semaphore - position generalizing state position with
  | zero =>
    obtain rfl : position = semaphore := by omega
    exact ⟨state.tiles t, here, by simpa using reachable⟩
  | succ distance ih =>
    have further : position < semaphore := by omega
    have inside : semaphore < (writes state.visible).length := (List.getElem?_eq_some_iff.mp there).1
    obtain ⟨w, found⟩ : ∃ w, (writes state.visible)[position]? = some w :=
      ⟨_, List.getElem?_eq_getElem (further.trans inside)⟩
    obtain ⟨next, steps, goesOn⟩ := Tile.step_goes here found
      (passes position _ (Nat.le_refl _) further found)
    have reached := reachable_gpu lenient t reachable steps
    obtain ⟨tile, arrived, reaches⟩ := ih reached (by simpa using goesOn) further there
      (fun p w behind => passes p w (Nat.le_of_succ_le behind)) (by omega)
    exact ⟨tile, arrived, by simpa using reaches⟩

end Lenient

/-- The GPU waits for the next dispatch at the semaphore of the last operation. -/
structure Waiting (activeTiles : Nat) (allowed : System settings → Event settings → Prop)
    (state : System settings) (count : Nat) : Prop where
  reachable : Transition.Reachable ((system settings activeTiles).restrict allowed) state
  settled : state.Settled
  idle : state.dispatching = none
  ringStart : state.hw.ringStart = true
  counts : state.hw.currentQueueWorkCount = count
  operations : ∀ entry ∈ state.hw.log, entry.operation ≤ state.hw.operation
  semaphore : ∃ position written, (state.tiles 0).position = some position ∧
    WrittenBy state.hw.log position state.hw.operation written ∧
    written.command = .semaphoreWait count ∧
    ∀ p w, position < p → (writes state.hw.log)[p]? = some w → w.command.Plain

/-- What follows the semaphore of an operation. -/
theorem writtenBy_semaphore (log rest : List Entry) {operation : Nat} {early late : List Written}
    {written : Written} : WrittenBy (log ++ (early ++ written :: late).map
      (fun w => ⟨operation, .write w⟩) ++ rest) ((writes log).length + early.length) operation
      written := by
  refine ⟨log ++ early.map fun w => ⟨operation, .write w⟩, ?_, by simp⟩
  simp

theorem writes_dispatch {log : List Entry} {operation count : Nat} {early late : List Written}
    {written : Written} : writes (log ++ (early ++ written :: late).map
      (fun w => ⟨operation, .write w⟩) ++ [⟨operation, .unblock count⟩]) =
      writes log ++ early ++ written :: late := by
  rw [writes_append, writes_append, writes_map]
  simp

theorem plain_between {first early late : List Written} {written : Written} {position : Nat}
    (plain : ∀ p w, position < p → first[p]? = some w → w.command.Plain)
    (earlyPlain : ∀ w ∈ early, w.command.Plain) {p : Nat} {w : Written} (behind : position < p)
    (before : p < first.length + early.length)
    (there : (first ++ early ++ written :: late)[p]? = some w) : w.command.Plain := by
  rw [List.getElem?_append_left (by simpa using before)] at there
  rcases Nat.lt_or_ge p first.length with inFirst | inEarly
  · rw [List.getElem?_append_left inFirst] at there
    exact plain p w behind there
  · rw [List.getElem?_append_right inEarly] at there
    exact earlyPlain w (List.mem_of_getElem? there)

theorem plain_behind {first early late : List Written} {written : Written}
    (latePlain : ∀ w ∈ late, w.command.Plain) {p : Nat} {w : Written}
    (behind : first.length + early.length < p)
    (there : (first ++ early ++ written :: late)[p]? = some w) : w.command.Plain := by
  have far : (first ++ early ++ [written]).length ≤ p := by
    rw [List.length_append, List.length_append]
    exact behind
  rw [List.append_cons, List.getElem?_append_right far] at there
  exact latePlain w (List.mem_of_getElem? there)

section Runs

variable {allowed : System settings → Event settings → Prop} (lenient : Lenient allowed)
include lenient

/-- The CPU makes a dispatch and does all of it, before the GPU goes on. -/
theorem Waiting.dispatch {state : System settings} {count : Nat}
    (waiting : Waiting activeTiles allowed state count) (batchBuffer : BatchBuffer settings.sizes)
    (allows : ∀ state : System settings, state.hw.currentQueueWorkCount = count →
      ∀ inputs, allowed state (.finish inputs))
    {hw : DirectSubmissionHw} (finished : hw = state.hw.nextOperation.dispatchCommandBuffer settings
      batchBuffer DirectSubmissionHw.steadyInputs)
    (longer : state.hw.log.length ≤ hw.log.length) :
    Transition.Reachable ((system settings activeTiles).restrict allowed)
      { state with hw, performed := hw.log.length, dispatching := none } := by
  have begins : Step activeTiles state (.dispatch batchBuffer false)
      { state with
        hw := state.hw.nextOperation
        dispatching := some ⟨batchBuffer, !state.hw.nextOperation.ringStart⟩ } :=
    .dispatch waiting.settled waiting.idle rfl
  have ends : Step activeTiles
      { state with
        hw := state.hw.nextOperation
        dispatching := some ⟨batchBuffer, !state.hw.nextOperation.ringStart⟩ }
      (.finish DirectSubmissionHw.steadyInputs) { state with hw, dispatching := none } := by
    rw [finished]
    exact @Step.finish settings activeTiles _ ⟨batchBuffer, _⟩ _ waiting.settled rfl
      (by simp [DirectSubmissionHw.steadyInputs])
  have begun := waiting.reachable.next ⟨lenient _ _ (by simp), begins⟩
  have decided := begun.next ⟨allows _ (by exact waiting.counts) _, ends⟩
  exact reachable_settled lenient decided ((le_of_eq waiting.settled).trans longer)

/-- The GPU comes to the semaphore of each dispatch that follows. -/
theorem Waiting.next (ordered : settings.relaxedOrderingEnabled = false) {state : System settings}
    {count : Nat} (waiting : Waiting activeTiles allowed state count)
    (batchBuffer : BatchBuffer settings.sizes)
    (allows : ∀ state : System settings, state.hw.currentQueueWorkCount = count →
      ∀ inputs, allowed state (.finish inputs)) :
    ∃ after : System settings, Waiting activeTiles allowed after (add32 count 1) ∧
      queueWorkCount after.hw.log = count := by
  have started : state.hw.nextOperation.ringStart = true := waiting.ringStart
  have goes := DirectSubmissionHw.dispatchCommandBuffer_goes ordered batchBuffer started
  generalize finished : state.hw.nextOperation.dispatchCommandBuffer settings batchBuffer
    DirectSubmissionHw.steadyInputs = hw at goes
  obtain ⟨early, late, written, log, semaphore, earlyPlain, latePlain⟩ := goes.log
  obtain ⟨position, old, here, oldWritten, oldSemaphore, plain⟩ := waiting.semaphore
  have oldHere := oldWritten.getElem?
  have inside := (List.getElem?_eq_some_iff.mp oldHere).1
  have counts : state.hw.nextOperation.currentQueueWorkCount = count := waiting.counts
  have operation : state.hw.nextOperation.operation = state.hw.operation + 1 := rfl
  have logBefore : state.hw.nextOperation.log = state.hw.log := rfl
  rw [counts, operation, logBefore] at log
  have reachable := waiting.dispatch lenient batchBuffer allows finished.symm (by simp [log])
  have written_ : WrittenBy hw.log ((writes state.hw.log).length + early.length)
      (state.hw.operation + 1) written := by
    rw [log]
    exact writtenBy_semaphore _ _
  have stored : queueWorkCount hw.log = count := by
    rw [log, queueWorkCount_unblock]
  have all : writes hw.log = writes state.hw.log ++ early ++ written :: late := by
    rw [log, writes_dispatch]
  have before : position ≤ (writes state.hw.log).length + early.length := by omega
  have passes : ∀ p w, position ≤ p → p < (writes state.hw.log).length + early.length →
      (writes hw.log)[p]? = some w → ¬ w.command.Closed (queueWorkCount hw.log) := by
    intro p w behind until_ there
    rcases Nat.eq_or_lt_of_le behind with rfl | further
    · -- the unblock opens the semaphore the tile waited at
      rw [all, List.append_assoc, List.getElem?_append_left inside, oldHere] at there
      obtain rfl := Option.some.inj there
      rw [oldSemaphore, stored]
      exact Command.not_closed nofun fun value same => (Option.some.inj same).ge
    · rw [all] at there
      exact fun closed => closed.not_plain (plain_between plain earlyPlain further until_ there)
  have visible : ({ state with hw, performed := hw.log.length, dispatching := none } :
      System settings).visible = hw.log := List.take_length
  obtain ⟨tile, arrived, reached⟩ := reachable_semaphore lenient 0 reachable visible here before
    written_.getElem? passes
  refine ⟨_, ⟨reached, rfl, rfl, ?_, ?_, ?_, ?_⟩, stored⟩
  · exact goes.ringStart.trans waiting.ringStart
  · exact goes.count.trans (congrArg (add32 · 1) counts)
  · exact goes.operations fun entry member => (waiting.operations entry member).trans (Nat.le_succ _)
  · refine ⟨_, written, by simpa using arrived, ?_, by rw [semaphore, counts], ?_⟩
    · exact goes.operation.symm ▸ written_
    · intro p w behind there
      rw [all] at there
      exact plain_behind latePlain behind there

omit lenient in
open DirectSubmissionHw in
theorem initializeRing_submitted :
    (create settings false).initializeRing settings true true =
      (((create settings false).dispatchInitialState settings).dispatchSemaphoreSection settings
        1).submit 0 true := by
  have state := dispatchInitialState_appends (create settings false) settings
    fun _ => Command.Ordinary.plain
  have value : ((create settings false).dispatchInitialState settings).currentQueueWorkCount = 1 :=
    state.same.currentQueueWorkCount
  unfold initializeRing
  dsimp only
  rw [value]
  rfl

open DirectSubmissionHw in
/-- The GPU comes to the semaphore of an initialisation that starts it. -/
theorem waiting_first (ordered : settings.relaxedOrderingEnabled = false) :
    ∃ state : System settings, Waiting activeTiles allowed state 1 := by
  have initialState := dispatchInitialState_appends (create settings false) settings
    fun _ => Command.Ordinary.plain
  have around := initialState.behind (dispatchSemaphoreSection_around _
    (fun _ => Command.Ordinary.plain) ordered 1)
  have same := around.same
  obtain ⟨early, late, written, log, semaphore, earlyPlain, latePlain⟩ := around.log
  have initial : Transition.Reachable ((system settings activeTiles).restrict allowed)
      ⟨(create settings false).initializeRing settings true true, 0, none, fun _ => .start⟩ :=
    .start (.initialised false true true)
  rw [initializeRing_submitted] at initial
  generalize ((create settings false).dispatchInitialState settings).dispatchSemaphoreSection
    settings 1 = sections at initial log same
  have settled := reachable_settled lenient initial (Nat.zero_le _)
  have whole : (sections.submit 0 true).log = (early ++ written :: late).map
      (fun w => ⟨0, .write w⟩) ++ [⟨0, .submit 0⟩] := by
    simp [submit, act, log, same.operation, create]
  have commands : writes (sections.submit 0 true).log = early ++ written :: late := by
    rw [whole, writes_append, writes_map]
    simp
  have starts : submitted (sections.submit 0 true).log = [0] := by
    rw [whole, submitted_append, submitted_map]
    rfl
  have started : (sections.submit 0 true).ringStart = true := rfl
  have counts : (sections.submit 0 true).currentQueueWorkCount = 1 := same.currentQueueWorkCount
  have operation : (sections.submit 0 true).operation = 0 := same.operation
  generalize sections.submit 0 true = hw at *
  have visible (tiles : Nat → Tile) : (⟨hw, hw.log.length, none, tiles⟩ :
      System settings).visible = hw.log := List.take_length
  have there : WrittenBy hw.log early.length 0 written := by
    rw [whole]
    simpa using writtenBy_semaphore [] [⟨0, .submit 0⟩]
  have passes : ∀ p w, 0 ≤ p → p < early.length → (writes hw.log)[p]? = some w →
      ¬ w.command.Closed (queueWorkCount hw.log) := by
    intro p w _ before there closed
    rw [commands, List.getElem?_append_left before] at there
    exact closed.not_plain (earlyPlain w (List.mem_of_getElem? there))
  have pending : (submitted hw.log)[Tile.start.batches]? = some 0 := by
    rw [starts]
    rfl
  -- the tile begins the batch, and nothing holds it before the semaphore
  obtain ⟨begun, atStart, begins⟩ := reachable_begin lenient 0 settled (visible _) rfl pending
  obtain ⟨tile, arrived, reached⟩ := reachable_semaphore lenient 0 begins (visible _)
    (by simpa using atStart) (Nat.zero_le _) there.getElem? passes
  refine ⟨_, ⟨reached, rfl, rfl, started, counts, ?_, ?_⟩⟩
  · intro entry member
    simp only [whole, List.mem_append, List.mem_map, List.mem_singleton] at member
    rcases member with ⟨w, -, rfl⟩ | rfl
    · exact Nat.zero_le _
    · exact Nat.zero_le _
  · refine ⟨_, written, by simpa using arrived, operation.symm ▸ there, semaphore, ?_⟩
    intro p w behind here
    have far : ([] : List Written).length + early.length < p := by simpa using behind
    exact plain_behind latePlain far (commands ▸ here)

/-- The run goes on for as many dispatches as are allowed, and the count comes round. -/
theorem waiting_all (ordered : settings.relaxedOrderingEnabled = false)
    (batchBuffer : BatchBuffer settings.sizes) (dispatches : Nat)
    (allows : ∀ k < dispatches, ∀ state : System settings,
      state.hw.currentQueueWorkCount = (1 + k) % 2 ^ 32 → ∀ inputs, allowed state (.finish inputs)) :
    ∃ state : System settings, Waiting activeTiles allowed state ((1 + dispatches) % 2 ^ 32) := by
  induction dispatches with
  | zero => exact waiting_first lenient ordered
  | succ dispatches ih =>
    obtain ⟨state, waiting⟩ := ih fun k less => allows k (less.trans (Nat.lt_succ_self _))
    obtain ⟨after, next, -⟩ :=
      waiting.next lenient ordered batchBuffer (allows dispatches (Nat.lt_succ_self _))
    have counts : add32 ((1 + dispatches) % 2 ^ 32) 1 = (1 + (dispatches + 1)) % 2 ^ 32 :=
      Nat.mod_add_mod _ _ _
    exact ⟨after, counts ▸ next⟩

end Runs

end DirectSubmission

end ComputeRuntime
