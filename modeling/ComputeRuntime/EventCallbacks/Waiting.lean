import ComputeRuntime.EventCallbacks.Statuses

/-! Callbacks that wait in the lists: there is always somebody who will execute them. -/
namespace ComputeRuntime.EventCallbacks

variable {isUserEvent : Bool} {s : State}

/-- What an instruction does for the callbacks of a target: a completed event executes them. -/
def Instruction.Drains (target : ECallbackTarget) : Instruction → Prop
  | .executeCallbacks _ targets => target ∈ targets
  | .executeIfCompleted => True
  | _ => False

/-- While a callback of a completed user event is in a list, some thread will execute it; and the
handler knows an event with a command, or will. -/
structure State.Expected (isUserEvent : Bool) (s : State) : Prop where
  user : isUserEvent = true → isStatusCompleted s.executionStatus = true →
    ∀ target, s.callbacks target ≠ [] →
      ∃ thread ∈ s.threads, ∃ instruction ∈ thread, instruction.Drains target
  command : isUserEvent = false → ∀ target, s.callbacks target ≠ [] →
    0 < s.registered ∨ ∃ thread ∈ s.threads, Instruction.registerEvent ∈ thread

theorem peekHasCallbacks_of_ne {target : ECallbackTarget} (some : s.callbacks target ≠ []) :
    s.peekHasCallbacks = true := by
  unfold State.peekHasCallbacks
  cases target <;> simp [some]

/-- Only new callbacks come into the lists. -/
theorem run_lists {env : Environment} {instruction : Instruction} {s' : State}
    {next : List Instruction} (ran : instruction.run isUserEvent env s = (s', next))
    {target : ECallbackTarget} (some : s'.callbacks target ≠ []) :
    s.callbacks target ≠ [] ∨ (∃ target callback, instruction = .push target callback) ∧
      next = [.updateExecutionStatus, .executeIfCompleted, .registerEvent, .decRefInternal] := by
  cases instruction with
  | push target' callback =>
    cases ran
    exact .inr ⟨⟨_, _, rfl⟩, rfl⟩
  | executeCallbacks status targets =>
    cases targets with
    | nil =>
      cases ran
      exact .inl some
    | cons target' targets =>
      cases ran
      left
      intro none
      simp [Function.update_apply, none] at some
  | execute status callbacks => cases callbacks <;> cases ran <;> exact .inl some
  | submitCommand =>
    obtain ⟨_, _, transition⟩ := transition_eq s executionAbortedDueToGpuHang
    simp only [Instruction.run, transition] at ran
    split at ran <;> cases ran <;> exact .inl some
  | transition status | transitionAndExecute status =>
    obtain ⟨_, _, transition⟩ := transition_eq s status
    simp only [Instruction.run, transition] at ran
    cases ran
    exact .inl some
  | _ =>
    simp only [Instruction.run] at ran
    repeat' split at ran
    all_goals
      cases ran
      exact .inl some

theorem transition_completed {status : Int}
    (completed : isStatusCompleted (s.transitionExecutionStatus status).executionStatus = true) :
    isStatusCompleted s.executionStatus = true ∨
      (status < s.executionStatus ∧ isStatusCompleted status = true) := by
  unfold State.transitionExecutionStatus at completed
  split at completed
  next sinks => exact .inr ⟨sinks, completed⟩
  next => exact .inl completed

/-- How a user event comes to be completed. -/
theorem run_completed {env : Environment} {instruction : Instruction} {s' : State}
    {next : List Instruction} (ran : instruction.run true env s = (s', next))
    (allowed : instruction.Allowed true s)
    (completed : isStatusCompleted s'.executionStatus = true) :
    isStatusCompleted s.executionStatus = true ∨
      ∀ target, ∃ instruction ∈ next, instruction.Drains target := by
  cases instruction with
  | executeCallbacks status targets => cases targets <;> cases ran <;> exact .inl completed
  | execute status callbacks => cases callbacks <;> cases ran <;> exact .inl completed
  | submitCommand =>
    simp only [Instruction.run, Bool.not_true, Bool.and_false, Bool.false_eq_true, if_false] at ran
    cases ran
    exact .inl completed
  | transition status =>
    cases ran
    rcases transition_completed completed with before | ⟨sinks, _⟩
    · exact .inl before
    · exact .inl (allowed rfl sinks)
  | transitionAndExecute status =>
    cases ran
    rcases transition_completed completed with before | ⟨_, asked⟩
    · exact .inl before
    · right
      intro target
      exact ⟨_, List.mem_singleton.mpr rfl, mem_targetsOf_completed asked target⟩
  | _ =>
    simp only [Instruction.run] at ran
    repeat' split at ran
    all_goals
      cases ran
      exact .inl completed

/-- Of a completed event, an instruction executes what it is there for. -/
theorem run_drains {env : Environment} {instruction : Instruction} {s' : State}
    {next : List Instruction} (ran : instruction.run isUserEvent env s = (s', next))
    (completed : isStatusCompleted s.executionStatus = true) {target : ECallbackTarget}
    (drains : instruction.Drains target) :
    s'.callbacks target = [] ∨ ∃ instruction ∈ next, instruction.Drains target := by
  cases instruction with
  | executeCallbacks status targets =>
    cases targets with
    | nil => cases drains
    | cons target' targets =>
      cases ran
      rcases List.mem_cons.mp drains with rfl | later
      · left
        simp
      · right
        exact ⟨.executeCallbacks status targets, by simp, later⟩
  | executeIfCompleted =>
    simp only [Instruction.run, completed, if_true] at ran
    cases ran
    right
    exact ⟨_, List.mem_singleton.mpr rfl, mem_targetsOf_completed completed target⟩
  | _ => cases drains

/-- Of an event with a command, the thread that added a callback tells the handler, and the handler
keeps the event. -/
theorem run_tells {env : Environment} {instruction : Instruction} {s' : State}
    {next : List Instruction} (ran : instruction.run false env s = (s', next))
    {target : ECallbackTarget} (some : s.callbacks target ≠ []) :
    (0 < s.registered → 0 < s'.registered) ∧
      (instruction = .registerEvent → 0 < s'.registered) := by
  have has := peekHasCallbacks_of_ne some
  constructor
  · intro known
    by_cases other : instruction = .keepOrRelease
    · subst other
      simp only [Instruction.run, has, Bool.true_or, if_true] at ran
      cases ran
      exact known
    · exact Nat.lt_of_lt_of_le known (run_registered ran other)
  · rintro rfl
    simp only [Instruction.run, has, Bool.not_false, Bool.and_self, if_true] at ran
    cases ran
    exact Nat.succ_pos _

/-- What a thread keeps for later. -/
theorem exists_mem_set {threads : List (List Instruction)} {thread : Nat}
    {instruction : Instruction} {rest : List Instruction} (next : List Instruction)
    (current : threads[thread]? = some (instruction :: rest)) {P : Instruction → Prop}
    (some : ∃ program ∈ threads, ∃ wanted ∈ program, P wanted)
    (own : P instruction → ∃ wanted ∈ next, P wanted) :
    ∃ program ∈ threads.set thread (next ++ rest), ∃ wanted ∈ program, P wanted := by
  obtain ⟨program, member, wanted, inside, holds⟩ := some
  obtain ⟨position, found⟩ := List.mem_iff_getElem?.mp member
  have mine := List.mem_set (List.getElem?_eq_some_iff.mp current).1 (next ++ rest)
  by_cases here : position = thread
  · subst here
    rw [current] at found
    cases found
    rcases List.mem_cons.mp inside with rfl | later
    · obtain ⟨wanted, inside, holds⟩ := own holds
      exact ⟨_, mine, wanted, List.mem_append_left _ inside, holds⟩
    · exact ⟨_, mine, wanted, List.mem_append_right _ later, holds⟩
  · refine ⟨program, ?_, wanted, inside, holds⟩
    apply List.mem_of_getElem?
    rw [List.getElem?_set_ne (Ne.symm here)]
    exact found

theorem State.Expected.stepThread (expected : s.Expected isUserEvent) {thread : Nat}
    {instruction : Instruction} {rest : List Instruction}
    (current : s.threads[thread]? = some (instruction :: rest)) {env : Environment} {s' : State}
    {next : List Instruction} (ran : instruction.run isUserEvent env s = (s', next))
    (allowed : instruction.Allowed isUserEvent s) :
    State.Expected isUserEvent { s' with threads := s'.threads.set thread (next ++ rest) } := by
  obtain ⟨threads, _, _, _⟩ := run_frame ran
  have mine := List.mem_set (List.getElem?_eq_some_iff.mp current).1 (next ++ rest)
  constructor
  · rintro rfl completed target some
    simp only [threads] at completed some ⊢
    rcases run_lists ran some with old | ⟨_, rfl⟩
    · rcases run_completed ran allowed completed with before | drained
      · apply exists_mem_set next current (expected.user rfl before target old)
        intro drains
        rcases run_drains ran before drains with none | later
        · exact absurd none some
        · exact later
      · obtain ⟨wanted, inside, drains⟩ := drained target
        exact ⟨_, mine, wanted, List.mem_append_left _ inside, drains⟩
    · exact ⟨_, mine, .executeIfCompleted, by simp, trivial⟩
  · rintro rfl target some
    simp only [threads] at some ⊢
    rcases run_lists ran some with old | ⟨_, rfl⟩
    · obtain ⟨stays, tells⟩ := run_tells ran old
      rcases expected.command rfl target old with known | ⟨program, member, inside⟩
      · exact .inl (stays known)
      · by_cases last : instruction = .registerEvent
        · exact .inl (tells last)
        · right
          obtain ⟨program, member, _, inside, rfl⟩ := exists_mem_set next current
            ⟨program, member, _, inside, rfl⟩ (fun same => absurd same.symm last)
          exact ⟨program, member, inside⟩
    · exact .inr ⟨_, mine, by simp⟩

/-- What the handler does: it adds no callbacks, and lets an event go with its last step. -/
structure State.Handled (isUserEvent : Bool) (s : State) : Prop where
  last : Instruction.keepOrRelease ∉ s.handler.dropLast
  push : ∀ target callback, Instruction.push target callback ∉ s.handler
  user : isUserEvent = true → s.registered = 0

theorem run_push {env : Environment} {instruction : Instruction} {s' : State}
    {next : List Instruction} (ran : instruction.run isUserEvent env s = (s', next))
    (target : ECallbackTarget) (callback : Callback) :
    Instruction.push target callback ∉ next := by
  cases instruction with
  | executeCallbacks status targets => cases targets <;> cases ran <;> simp
  | execute status callbacks => cases callbacks <;> cases ran <;> simp
  | _ =>
    simp only [Instruction.run] at ran
    repeat' split at ran
    all_goals
      cases ran
      simp

theorem run_user {env : Environment} {instruction : Instruction} {s' : State}
    {next : List Instruction} (ran : instruction.run true env s = (s', next))
    (none : s.registered = 0) : s'.registered = 0 := by
  cases instruction with
  | executeCallbacks status targets => cases targets <;> cases ran <;> exact none
  | execute status callbacks => cases callbacks <;> cases ran <;> exact none
  | submitCommand =>
    simp only [Instruction.run, Bool.not_true, Bool.and_false, Bool.false_eq_true, if_false] at ran
    cases ran
    exact none
  | transition status | transitionAndExecute status =>
    obtain ⟨_, _, transition⟩ := transition_eq s status
    simp only [Instruction.run, transition] at ran
    cases ran
    exact none
  | _ =>
    simp only [Instruction.run, Bool.not_true, Bool.and_false, Bool.false_eq_true, if_false] at ran
    repeat' split at ran
    all_goals
      cases ran
      simp [none]

theorem State.Handled.stepThread (handled : s.Handled isUserEvent) {thread : Nat}
    {rest : List Instruction} {env : Environment} {instruction : Instruction} {s' : State}
    {next : List Instruction} (ran : instruction.run isUserEvent env s = (s', next)) :
    State.Handled isUserEvent { s' with threads := s'.threads.set thread (next ++ rest) } := by
  obtain ⟨_, handler, _, _⟩ := run_frame ran
  constructor
  · simp only [handler]
    exact handled.last
  · simp only [handler]
    exact handled.push
  · rintro rfl
    have none := run_user ran (handled.user rfl)
    exact none

theorem State.Handled.stepHandler (handled : s.Handled isUserEvent) {instruction : Instruction}
    {rest : List Instruction} (current : s.handler = instruction :: rest) {env : Environment}
    {s' : State} {next : List Instruction}
    (ran : instruction.run isUserEvent env s = (s', next)) :
    State.Handled isUserEvent { s' with handler := next ++ rest } := by
  have last := handled.last
  have push := handled.push
  rw [current] at last push
  constructor
  · intro wrong
    cases rest with
    | nil =>
      rw [List.append_nil] at wrong
      exact run_keepOrRelease ran (List.dropLast_subset _ wrong)
    | cons instruction' rest =>
      rw [List.dropLast_append_cons] at wrong
      rcases List.mem_append.mp wrong with new | old
      · exact run_keepOrRelease ran new
      · exact last (List.mem_cons_of_mem _ old)
  · intro target callback inside
    rcases List.mem_append.mp inside with new | old
    · exact run_push ran target callback new
    · exact push target callback (List.mem_cons_of_mem _ old)
  · rintro rfl
    have none := run_user ran (handled.user rfl)
    exact none

theorem State.Expected.stepHandler (expected : s.Expected isUserEvent)
    (accounted : s.Accounted) (handled : s.Handled isUserEvent) {instruction : Instruction}
    {rest : List Instruction} (current : s.handler = instruction :: rest) {env : Environment}
    {s' : State} {next : List Instruction}
    (ran : instruction.run isUserEvent env s = (s', next)) :
    State.Expected isUserEvent { s' with handler := next ++ rest } := by
  have entry := accounted.handler (by simp [current])
  obtain ⟨threads, _, _, _⟩ := run_frame ran
  constructor
  · intro user
    rw [handled.user user] at entry
    cases entry
  · rintro rfl target some
    simp only [threads] at some ⊢
    left
    rcases run_lists ran some with old | ⟨⟨target', callback, rfl⟩, _⟩
    · exact (run_tells ran old).1 entry
    · exact absurd (by simp [current]) (handled.push target' callback)

end ComputeRuntime.EventCallbacks
