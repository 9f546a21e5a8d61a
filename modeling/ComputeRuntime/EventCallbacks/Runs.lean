import ComputeRuntime.EventCallbacks.Waiting

/-! Runs of an event: every callback is executed once, with a status that the event has had. -/
namespace ComputeRuntime.EventCallbacks

open Transition Weight

variable {isUserEvent : Bool} {s s' : State}

structure State.Consistent (isUserEvent : Bool) (s : State) : Prop where
  accounted : s.Accounted
  justified : s.Justified
  expected : s.Expected isUserEvent
  handled : s.Handled isUserEvent

theorem consistent_init : State.Consistent isUserEvent {} where
  accounted := by
    constructor
    · intro id
      rw [if_neg (Nat.not_lt_zero id)]
      rfl
    · rfl
    · nofun
    · nofun
  justified := by
    constructor
    · exact List.mem_singleton.mpr rfl
    · nofun
    · nofun
    · nofun
    · nofun
  expected := by
    constructor
    · intro _ _ target some
      exact absurd rfl some
    · intro _ target some
      exact absurd rfl some
  handled := by
    constructor
    · simp
    · simp
    · exact fun _ => rfl

/-- A thread begins. -/
theorem State.Consistent.begin (consistent : s.Consistent isUserEvent) {refInternal added : Nat}
    {program : List Instruction}
    (accounted : State.Accounted
      { s with refInternal := refInternal, added := added, threads := s.threads ++ [program] })
    (justified : ∀ instruction ∈ program, instruction.Justified s) :
    State.Consistent isUserEvent
      { s with refInternal := refInternal, added := added, threads := s.threads ++ [program] } := by
  have before := consistent.justified
  have expected := consistent.expected
  have later : s.Later
      { s with refInternal := refInternal, added := added, threads := s.threads ++ [program] } :=
    ⟨Int.le_refl _, List.Subset.refl _⟩
  constructor
  · exact accounted
  · constructor
    · exact before.current
    · exact before.lists
    · intro thread member
      rcases List.mem_append.mp member with old | new
      · exact fun instruction inside => (before.threads thread old instruction inside).mono later
      · obtain rfl := List.mem_singleton.mp new
        exact fun instruction inside => (justified instruction inside).mono later
    · exact fun instruction inside => (before.handler instruction inside).mono later
    · exact before.executed
  · constructor
    · intro user completed target some
      obtain ⟨thread, member, rest⟩ := expected.user user completed target some
      exact ⟨thread, List.mem_append_left _ member, rest⟩
    · intro command target some
      rcases expected.command command target some with known | ⟨thread, member, rest⟩
      · exact .inl known
      · exact .inr ⟨thread, List.mem_append_left _ member, rest⟩
  · exact ⟨consistent.handled.last, consistent.handled.push, consistent.handled.user⟩

theorem State.Consistent.call (consistent : s.Consistent isUserEvent) {instruction : Instruction}
    (begins : s.call [instruction] = some s') (nothing : ∀ f r, instruction.held f r = 0)
    (own : instruction ≠ .keepOrRelease) (justified : instruction.Justified s) :
    s'.Consistent isUserEvent := by
  have accounted := consistent.accounted.call begins (by simp [nothing]) (by simpa using own.symm)
  obtain ⟨_, begun⟩ := Option.ite_none_right_eq_some.mp begins
  cases begun
  exact consistent.begin accounted (by simpa using justified)

theorem State.Consistent.addCallback (consistent : s.Consistent isUserEvent) {type : Int}
    (begins : s.addCallback type = some s') : s'.Consistent isUserEvent := by
  have accounted := consistent.accounted.addCallback begins
  unfold State.addCallback at begins
  split at begins
  next => cases begins
  next target translated =>
    obtain ⟨_, begun⟩ := Option.ite_none_right_eq_some.mp begins
    cases begun
    exact consistent.begin accounted (by simpa [Instruction.Justified] using translated)

/-- Only the references of the callers change. -/
theorem State.Consistent.refer (consistent : s.Consistent isUserEvent) {refInternal references : Nat}
    (balance : refInternal + s.references = s.refInternal + references)
    (callers : references = 0 → ∀ thread ∈ s.threads, thread = []) :
    State.Consistent isUserEvent
      { s with refInternal := refInternal, references := references } := by
  have accounted := consistent.accounted
  have before := consistent.justified
  have expected := consistent.expected
  have later : s.Later { s with refInternal := refInternal, references := references } :=
    ⟨Int.le_refl _, List.Subset.refl _⟩
  constructor
  · constructor
    · exact accounted.callbacks
    · have known := accounted.references
      change refInternal = references + s.registered + s.held _ _
      omega
    · intro thread member unfinished
      refine ⟨?_, (accounted.callers thread member unfinished).2⟩
      by_contra none
      exact unfinished (callers (Nat.eq_zero_of_not_pos none) thread member)
    · exact accounted.handler
  · constructor
    · exact before.current
    · exact before.lists
    · exact fun thread member instruction inside =>
        (before.threads thread member instruction inside).mono later
    · exact fun instruction inside => (before.handler instruction inside).mono later
    · exact before.executed
  · exact ⟨expected.user, expected.command⟩
  · exact ⟨consistent.handled.last, consistent.handled.push, consistent.handled.user⟩

/-- The handler turns to the event, with a program that holds nothing. -/
theorem State.Consistent.turn (consistent : s.Consistent isUserEvent)
    (known : 0 < s.registered) (idle : s.handler = []) {program : List Instruction}
    (nothing : ∀ f r, weight (Instruction.held f r) program = 0)
    (justified : ∀ instruction ∈ program, instruction.Justified s)
    (last : Instruction.keepOrRelease ∉ program.dropLast)
    (push : ∀ target callback, Instruction.push target callback ∉ program) :
    State.Consistent isUserEvent { s with handler := program } := by
  have accounted := consistent.accounted
  have before := consistent.justified
  have expected := consistent.expected
  have later : s.Later { s with handler := program } := ⟨Int.le_refl _, List.Subset.refl _⟩
  constructor
  · constructor
    · intro id
      have count := accounted.callbacks id
      simp only [State.held, idle, weight_nil] at count
      simp only [State.held, nothing]
      exact count
    · have balance := accounted.references
      simp only [State.held, idle, weight_nil] at balance
      simp only [State.held, nothing]
      exact balance
    · exact accounted.callers
    · exact fun _ => known
  · constructor
    · exact before.current
    · exact before.lists
    · exact fun thread member instruction inside =>
        (before.threads thread member instruction inside).mono later
    · exact fun instruction inside => (justified instruction inside).mono later
    · exact before.executed
  · exact ⟨expected.user, expected.command⟩
  · exact ⟨last, push, consistent.handled.user⟩

/-! ### Every run -/

/-- What a step may do: the next instruction of its thread is allowed. -/
def Allowed (isUserEvent : Bool) (s : State) : Action → Prop
  | .stepThread thread _ =>
    ∀ instruction ∈ s.threads[thread]?.bind List.head?, instruction.Allowed isUserEvent s
  | .stepHandler _ => ∀ instruction ∈ s.handler.head?, instruction.Allowed isUserEvent s
  | _ => True

instance (instruction : Instruction) : Decidable (instruction.Allowed isUserEvent s) :=
  match instruction with
  | .transitionAndExecute status =>
    inferInstanceAs (Decidable (s.executionStatus < 0 → status ≤ s.executionStatus))
  | .transition status =>
    inferInstanceAs (Decidable (isUserEvent = true → status < s.executionStatus →
      isStatusCompleted s.executionStatus = true))
  | .push .. | .updateExecutionStatus | .checkGpuCompletion | .executeIfCompleted
  | .registerEvent | .setStatus _ | .submitCommand | .applyStatus _ | .executeCallbacks ..
  | .execute .. | .decRefInternal | .keepOrRelease => .isTrue trivial

instance (action : Action) : Decidable (Allowed isUserEvent s action) :=
  match action with
  | .stepThread thread _ =>
    inferInstanceAs (Decidable (∀ instruction ∈ s.threads[thread]?.bind List.head?,
      instruction.Allowed isUserEvent s))
  | .stepHandler _ =>
    inferInstanceAs (Decidable (∀ instruction ∈ s.handler.head?,
      instruction.Allowed isUserEvent s))
  | .addCallback _ | .setStatus _ | .updateExecutionStatus | .abortExecutionDueToGpuHang
  | .retain | .release | .processList | .wait _ => .isTrue trivial

theorem State.Consistent.step (consistent : s.Consistent isUserEvent) {action : Action}
    (allowed : Allowed isUserEvent s action) (step : s.step isUserEvent action = some s') :
    s'.Consistent isUserEvent := by
  cases action with
  | addCallback type => exact consistent.addCallback step
  | setStatus status => exact consistent.call step (fun _ _ => rfl) nofun trivial
  | updateExecutionStatus => exact consistent.call step (fun _ _ => rfl) nofun trivial
  | abortExecutionDueToGpuHang => exact consistent.call step (fun _ _ => rfl) nofun trivial
  | retain =>
    obtain ⟨_, retained⟩ := Option.ite_none_right_eq_some.mp step
    cases retained
    exact consistent.refer (by omega) nofun
  | release =>
    have balance := consistent.accounted.references
    obtain ⟨held, released⟩ := Option.ite_none_right_eq_some.mp step
    cases released
    apply consistent.refer
    · omega
    · intro none
      rcases held with more | ⟨_, idle⟩
      · omega
      · exact idle
  | processList =>
    obtain ⟨⟨known, idle⟩, begun⟩ := Option.ite_none_right_eq_some.mp step
    cases begun
    apply consistent.turn known idle
    · simp [weight_cons, weight_nil, Instruction.held]
    · simp [Instruction.Justified]
    · simp
    · simp
  | wait gpuHang =>
    obtain ⟨⟨known, idle⟩, begun⟩ := Option.ite_none_right_eq_some.mp step
    cases begun
    apply consistent.turn known idle
    · cases gpuHang <;> simp [weight_cons, weight_nil, Instruction.held]
    · cases gpuHang <;> simp [Instruction.Justified]
    · simp
    · cases gpuHang <;> simp
  | stepThread thread env =>
    simp only [State.step] at step
    split at step
    next instruction rest current =>
      cases step
      have allowed : instruction.Allowed isUserEvent s := allowed instruction (by simp [current])
      exact ⟨consistent.accounted.stepThread current rfl,
        consistent.justified.stepThread current rfl allowed,
        consistent.expected.stepThread current rfl allowed, consistent.handled.stepThread rfl⟩
    next => cases step
  | stepHandler env =>
    simp only [State.step] at step
    split at step
    next instruction rest current =>
      cases step
      have allowed : instruction.Allowed isUserEvent s := allowed instruction (by simp [current])
      have last : instruction = .keepOrRelease → rest = [] := by
        rintro rfl
        have last := consistent.handled.last
        rw [current] at last
        cases rest with
        | nil => rfl
        | cons _ _ => simp at last
      exact ⟨consistent.accounted.stepHandler current rfl last,
        consistent.justified.stepHandler current rfl allowed,
        consistent.expected.stepHandler consistent.accounted consistent.handled current rfl,
        consistent.handled.stepHandler current rfl⟩
    next => cases step

/-- How often a callback was executed. -/
def State.executions (s : State) (id : Nat) : Nat :=
  (s.executed.map fun execution => execution.callback.id).count id

/-- What callbacks are promised. -/
structure State.Sound (isUserEvent : Bool) (s : State) : Prop where
  once : ∀ id, s.executions id ≤ 1
  added : ∀ execution ∈ s.executed, execution.callback.id < s.added
  right : ∀ execution ∈ s.executed, execution.Right s.history
  references : s.refInternal = s.references + s.registered + s.held (fun _ => 1) 1
  alive : (∃ thread ∈ s.threads, thread ≠ []) ∨ s.handler ≠ [] → 0 < s.refInternal
  destroyed : s.refInternal = 0 → ∀ id < s.added, s.executions id = 1
  completed : (∀ thread ∈ s.threads, thread = []) → isUserEvent = true →
    isStatusCompleted s.executionStatus = true → ∀ id < s.added, s.executions id = 1
  handled : (∀ thread ∈ s.threads, thread = []) → isUserEvent = false → s.registered = 0 →
    ∀ id < s.added, s.executions id = 1

theorem finished_isCallback (s : State) (id : Nat) :
    s.finished (isCallback id) = s.executions id := by
  unfold State.finished State.executions
  induction s.executed with
  | nil => rfl
  | cons execution executed ih =>
    rw [weight_cons, ih, List.map_cons, List.count_cons]
    simp only [isCallback, beq_iff_eq]
    omega

theorem held_le (s : State) (id : Nat) : s.held (isCallback id) 0 ≤ s.held (fun _ => 1) 1 := by
  have one : ∀ callback, isCallback id callback ≤ 1 := by
    intro callback
    unfold isCallback
    split <;> simp
  have instruction : ∀ instruction : Instruction,
      instruction.held (isCallback id) 0 ≤ instruction.held (fun _ => 1) 1 := by
    intro instruction
    cases instruction with
    | push target callback => exact Nat.add_le_add (one callback) (Nat.zero_le _)
    | execute status callbacks => exact weight_mono one callbacks
    | _ => exact Nat.zero_le _
  unfold State.held State.pending
  have lists := fun target => weight_mono one (s.callbacks target)
  have threads := weight_mono (weight_mono instruction) s.threads
  have handler := weight_mono instruction s.handler
  have queued := lists .queued
  have submitted := lists .submitted
  have running := lists .running
  have completed := lists .completed
  omega

/-- Nothing is on its way. -/
theorem held_idle (s : State) (f : Callback → Nat) (r : Nat)
    (threads : ∀ thread ∈ s.threads, thread = []) (handler : s.handler = [])
    (lists : ∀ target, s.callbacks target = []) : s.held f r = 0 := by
  have idle : weight (weight (Instruction.held f r)) s.threads = 0 := by
    apply weight_eq_zero
    intro thread member
    rw [threads thread member]
    rfl
  simp only [State.held, State.pending, lists, handler, idle, weight_nil]

/-- Every callback that is not on its way was executed. -/
theorem State.Accounted.executed (accounted : s.Accounted) {id : Nat}
    (nothing : s.held (isCallback id) 0 = 0) (added : id < s.added) : s.executions id = 1 := by
  have count := accounted.callbacks id
  rw [nothing, finished_isCallback, if_pos added] at count
  omega

theorem State.Consistent.sound (consistent : s.Consistent isUserEvent) : s.Sound isUserEvent := by
  have accounted := consistent.accounted
  constructor
  · intro id
    have count := accounted.callbacks id
    rw [finished_isCallback] at count
    split at count <;> omega
  · intro execution member
    by_contra unknown
    have count := accounted.callbacks execution.callback.id
    rw [finished_isCallback, if_neg unknown] at count
    have some : 0 < s.executions execution.callback.id :=
      List.count_pos_iff.mpr (List.mem_map.mpr ⟨execution, member, rfl⟩)
    omega
  · exact consistent.justified.executed
  · exact accounted.references
  · have balance := accounted.references
    rintro (⟨thread, member, unfinished⟩ | busy)
    · have caller := (accounted.callers thread member unfinished).1
      omega
    · have known := accounted.handler busy
      omega
  · intro gone id added
    have balance := accounted.references
    have most := held_le s id
    exact accounted.executed (by omega) added
  · intro idle user completed id added
    refine accounted.executed (held_idle s _ _ idle ?_ ?_) added
    · by_contra busy
      have known := accounted.handler busy
      rw [consistent.handled.user user] at known
      cases known
    · intro target
      by_contra some
      obtain ⟨thread, member, instruction, inside, _⟩ :=
        consistent.expected.user user completed target some
      rw [idle thread member] at inside
      cases inside
  · intro idle command unknown id added
    refine accounted.executed (held_idle s _ _ idle ?_ ?_) added
    · by_contra busy
      have known := accounted.handler busy
      omega
    · intro target
      by_contra some
      rcases consistent.expected.command command target some with known | ⟨thread, member, inside⟩
      · omega
      · rw [idle thread member] at inside
        cases inside

/-- In every run whose threads ask for no status above the error of a terminated event, and which
aborts no event without a command before it is completed, every callback is executed once. -/
theorem reachable_callbacks_sound
    (reachable : Reachable ((system isUserEvent).restrict (Allowed isUserEvent)) s) :
    s.Sound isUserEvent := by
  have invariant : Invariant ((system isUserEvent).restrict (Allowed isUserEvent))
      (State.Consistent isUserEvent) := by
    constructor
    · rintro s rfl
      exact consistent_init
    · intro s action s' _ consistent step
      exact consistent.step step.1 step.2
  exact (invariant.holds reachable).sound

/-- A run that stops at a step that is not allowed. -/
def runAllowed (isUserEvent : Bool) (actions : List Action) : Option State :=
  actions.foldlM
    (fun s action => if Allowed isUserEvent s action then s.step isUserEvent action else none) {}

theorem reachable_of_runAllowed {actions : List Action}
    (run : runAllowed isUserEvent actions = some s) :
    Reachable ((system isUserEvent).restrict (Allowed isUserEvent)) s :=
  Reachable.foldlM (fun _ _ _ step => Option.ite_none_right_eq_some.mp step) (.start rfl) run

theorem reachable_of_run {actions : List Action}
    (run : actions.foldlM (State.step isUserEvent) {} = some s) :
    Reachable (system isUserEvent) s :=
  Reachable.foldlM (fun _ _ _ step => step) (.start rfl) run

def steps (thread count : Nat) (env : Environment) : List Action :=
  List.replicate count (.stepThread thread env)

/-- A callback on a command: the handler submits it, finds it completed, and lets the event go. -/
def completes : List Action :=
  [.addCallback complete] ++ steps 0 5 { taskLevelNotReady := true } ++ [.processList] ++
    List.replicate 22 (.stepHandler { isCompleted := true }) ++ [.release]

theorem reachable_callbacks_sound_completes :
    ∃ s, runAllowed false completes = some s ∧ s.refInternal = 0 ∧ s.executions 0 = 1 ∧
      s.Sound false := by
  have ran : (runAllowed false completes).any (fun s => s.refInternal = 0 ∧ s.added = 1) = true := by
    decide +kernel
  obtain ⟨s, run, found⟩ := (Option.any_eq_true _ _).mp ran
  obtain ⟨gone, added⟩ := of_decide_eq_true found
  have sound : s.Sound false := reachable_callbacks_sound (reachable_of_runAllowed run)
  refine ⟨s, run, gone, ?_, sound⟩
  apply sound.destroyed gone
  rw [added]
  exact Nat.one_pos

/-- Nothing happens any more. -/
theorem step_eq_none (references : s.references = 0) (registered : s.registered = 0)
    (threads : ∀ thread ∈ s.threads, thread = []) (handler : s.handler = []) (action : Action) :
    s.step isUserEvent action = none := by
  cases action with
  | addCallback type =>
    simp only [State.step, State.addCallback]
    split
    · rfl
    · simp [State.call, references]
  | setStatus | updateExecutionStatus | abortExecutionDueToGpuHang =>
    simp [State.step, State.call, references]
  | retain => simp [State.step, references]
  | release => simp [State.step, State.release, references]
  | processList | wait => simp [State.step, registered]
  | stepThread thread env =>
    simp only [State.step]
    split
    next instruction rest current =>
      have idle := threads _ (List.mem_of_getElem? current)
      cases idle
    · rfl
  | stepHandler env =>
    simp only [State.step]
    rw [handler]

/-- The submission of a command finds the GPU hanging, with a callback for it. -/
def submissionHangs : List Action :=
  [.addCallback submitted] ++ steps 0 5 { taskLevelNotReady := true } ++
    [.updateExecutionStatus, .stepThread 1 {}, .stepThread 1 { gpuHang := true }] ++ steps 1 5 {}

/-- A user event is aborted, and nobody can complete it behind that. -/
def aborted : List Action :=
  [.addCallback complete] ++ steps 0 5 {} ++ [.abortExecutionDueToGpuHang, .stepThread 1 {}] ++
    [.setStatus complete, .stepThread 2 {}, .release]

/-- A callback of a terminated event is executed with a status that the event never had; and a
callback is never executed, though its event is terminated. -/
theorem unsound_terminated :
    (∃ s, Reachable (system false) s ∧ ∃ execution ∈ s.executed,
      execution.status = submitted ∧ execution.executionStatus = executionAbortedDueToGpuHang ∧
      s.history = [executionAbortedDueToGpuHang, queued]) ∧
    ∃ s, Reachable (system true) s ∧ s.executionStatus = executionAbortedDueToGpuHang ∧
      s.added = 1 ∧ s.executions 0 = 0 ∧ ∀ action, s.step true action = none := by
  constructor
  · have ran : (submissionHangs.foldlM (State.step false) {}).any (fun s =>
        ∃ execution ∈ s.executed, execution.status = submitted ∧
          execution.executionStatus = executionAbortedDueToGpuHang ∧
          s.history = [executionAbortedDueToGpuHang, queued]) = true := by
      decide +kernel
    obtain ⟨s, run, found⟩ := (Option.any_eq_true _ _).mp ran
    exact ⟨s, reachable_of_run run, of_decide_eq_true found⟩
  · have ran : (aborted.foldlM (State.step true) {}).any (fun s =>
        s.executionStatus = executionAbortedDueToGpuHang ∧ s.added = 1 ∧ s.executions 0 = 0 ∧
          s.references = 0 ∧ s.registered = 0 ∧ (∀ thread ∈ s.threads, thread = []) ∧
          s.handler = []) = true := by
      decide +kernel
    obtain ⟨s, run, found⟩ := (Option.any_eq_true _ _).mp ran
    obtain ⟨terminated, added, never, references, registered, threads, handler⟩ :=
      of_decide_eq_true found
    exact ⟨s, reachable_of_run run, terminated, added, never,
      step_eq_none references registered threads handler⟩

end ComputeRuntime.EventCallbacks
