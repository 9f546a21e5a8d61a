import ComputeRuntime.EventCallbacks.References

/-! Which statuses callbacks are executed with, and that the event has had them. -/
namespace ComputeRuntime.EventCallbacks

variable {isUserEvent : Bool} {s : State}

/-- The event has had the status, or has passed it without an error. -/
def Attained (history : List Int) (status : Int) : Prop :=
  if status < 0 then status ∈ history else ∃ past ∈ history, 0 ≤ past ∧ past ≤ status

/-- What a thread may rely on when it executes callbacks. -/
def Instruction.Justified (s : State) : Instruction → Prop
  | .push target callback =>
    translateToCallbackTarget callback.callbackExecutionStatusTarget = some target
  | .executeCallbacks status targets =>
    s.executionStatus ≤ status ∧ Attained s.history status ∧ targets ⊆ targetsOf status
  | .execute status callbacks =>
    s.executionStatus ≤ status ∧ Attained s.history status ∧
      ∀ callback ∈ callbacks, status ≤ callback.callbackExecutionStatusTarget ∧
        0 ≤ callback.callbackExecutionStatusTarget
  | _ => True

/-- An execution with the status of the callback, or with an error that the event had before. -/
structure Execution.Right (history : List Int) (execution : Execution) : Prop where
  reached : execution.executionStatus ≤ execution.callback.callbackExecutionStatusTarget
  target : 0 ≤ execution.status →
    execution.status = execution.callback.callbackExecutionStatusTarget ∧
      ∃ past ∈ history, 0 ≤ past ∧ past ≤ execution.status
  error : execution.status < 0 → execution.status ∈ history

structure State.Justified (s : State) : Prop where
  current : s.executionStatus ∈ s.history
  lists : ∀ target, ∀ callback ∈ s.callbacks target,
    translateToCallbackTarget callback.callbackExecutionStatusTarget = some target
  threads : ∀ thread ∈ s.threads, ∀ instruction ∈ thread, instruction.Justified s
  handler : ∀ instruction ∈ s.handler, instruction.Justified s
  executed : ∀ execution ∈ s.executed, execution.Right s.history

/-- A later state: the status sinks, and what it was is remembered. -/
structure State.Later (s s' : State) : Prop where
  sinks : s'.executionStatus ≤ s.executionStatus
  remembers : s.history ⊆ s'.history

theorem Attained.mono {history history' : List Int} (remembers : history ⊆ history')
    {status : Int} (attained : Attained history status) : Attained history' status := by
  unfold Attained at attained ⊢
  split
  next negative =>
    rw [if_pos negative] at attained
    exact remembers attained
  next positive =>
    rw [if_neg positive] at attained
    obtain ⟨past, member, rest⟩ := attained
    exact ⟨past, remembers member, rest⟩

theorem Instruction.Justified.mono {s s' : State} (later : s.Later s')
    {instruction : Instruction} (justified : instruction.Justified s) :
    instruction.Justified s' := by
  cases instruction with
  | executeCallbacks status targets =>
    obtain ⟨reached, attained, targets⟩ := justified
    exact ⟨Int.le_trans later.sinks reached, attained.mono later.remembers, targets⟩
  | execute status callbacks =>
    obtain ⟨reached, attained, callbacks⟩ := justified
    exact ⟨Int.le_trans later.sinks reached, attained.mono later.remembers, callbacks⟩
  | push target callback => exact justified
  | _ => trivial

theorem Execution.Right.mono {history history' : List Int} (remembers : history ⊆ history')
    {execution : Execution} (right : execution.Right history) : execution.Right history' where
  reached := right.reached
  target := by
    intro positive
    obtain ⟨own, past, member, rest⟩ := right.target positive
    exact ⟨own, past, remembers member, rest⟩
  error negative := remembers (right.error negative)

theorem later_transition (s : State) (status : Int) :
    s.Later (s.transitionExecutionStatus status) := by
  unfold State.transitionExecutionStatus
  split
  next sinks => exact ⟨Int.le_of_lt sinks, List.subset_cons_self _ _⟩
  next => exact ⟨Int.le_refl _, List.Subset.refl _⟩

/-- The status that a target stands for. -/
def ECallbackTarget.status : ECallbackTarget → Int
  | .queued => EventCallbacks.queued
  | .submitted => EventCallbacks.submitted
  | .running => EventCallbacks.running
  | .completed => complete

theorem ECallbackTarget.status_nonneg (target : ECallbackTarget) : 0 ≤ target.status := by
  cases target <;> decide

theorem translateToCallbackTarget_eq_some {status : Int} {target : ECallbackTarget}
    (translated : translateToCallbackTarget status = some target) : status = target.status := by
  unfold translateToCallbackTarget at translated
  repeat' split at translated
  all_goals cases translated
  all_goals assumption

theorem mem_targetsUpTo {bound target : ECallbackTarget} :
    target ∈ targetsUpTo bound ↔ bound.status ≤ target.status := by
  cases bound <;> cases target <;> decide

/-- A callback in one of the lists of a status is triggered by it. -/
theorem le_target {status : Int} {target : ECallbackTarget} (listed : target ∈ targetsOf status)
    {callback : Callback}
    (mine : translateToCallbackTarget callback.callbackExecutionStatusTarget = some target) :
    status ≤ callback.callbackExecutionStatusTarget ∧
      0 ≤ callback.callbackExecutionStatusTarget := by
  rw [translateToCallbackTarget_eq_some mine]
  refine ⟨?_, target.status_nonneg⟩
  unfold targetsOf isStatusCompletedByTermination at listed
  split at listed
  next negative =>
    exact Int.le_trans (Int.le_of_lt (of_decide_eq_true negative)) target.status_nonneg
  next =>
    cases translated : translateToCallbackTarget status with
    | none => simp [translated] at listed
    | some bound =>
      rw [translated] at listed
      rw [translateToCallbackTarget_eq_some translated]
      exact mem_targetsUpTo.mp listed

/-- The lists that a completed status executes are all. -/
theorem mem_targetsOf_completed {status : Int} (completed : isStatusCompleted status = true)
    (target : ECallbackTarget) : target ∈ targetsOf status := by
  have low : status ≤ 0 := of_decide_eq_true completed
  have all : target ∈ targetsUpTo .completed := mem_targetsUpTo.mpr target.status_nonneg
  unfold targetsOf isStatusCompletedByTermination
  by_cases negative : status < 0
  · rw [if_pos (decide_eq_true negative)]
    exact all
  · have zero : status = complete := Int.le_antisymm low (Int.not_lt.mp negative)
    rw [zero]
    exact all

/-- A status that is asked for is attained, unless the event had been terminated with a lower
one. -/
theorem attained_transition {s : State} (current : s.executionStatus ∈ s.history)
    {status : Int} (timely : s.executionStatus < 0 → status ≤ s.executionStatus) :
    (s.transitionExecutionStatus status).executionStatus ≤ status ∧
      Attained (s.transitionExecutionStatus status).history status := by
  unfold State.transitionExecutionStatus Attained
  split
  next sinks =>
    refine ⟨Int.le_refl _, ?_⟩
    split
    · exact List.mem_cons_self
    next positive => exact ⟨status, List.mem_cons_self, Int.not_lt.mp positive, Int.le_refl _⟩
  next stays =>
    have low : s.executionStatus ≤ status := Int.not_lt.mp stays
    refine ⟨low, ?_⟩
    split
    next negative =>
      have same : s.executionStatus = status :=
        Int.le_antisymm low (timely (Int.lt_of_le_of_lt low negative))
      rw [← same]
      exact current
    next positive =>
      refine ⟨s.executionStatus, current, ?_, low⟩
      by_contra negative
      have most := timely (Int.not_le.mp negative)
      omega

/-- What is allowed: a thread asks for no status above the error that an event was terminated
with, and an event without a command is not aborted before it is completed. -/
def Instruction.Allowed (isUserEvent : Bool) (s : State) : Instruction → Prop
  | .transitionAndExecute status => s.executionStatus < 0 → status ≤ s.executionStatus
  | .transition status =>
    isUserEvent = true → status < s.executionStatus → isStatusCompleted s.executionStatus = true
  | _ => True

theorem transition_current (current : s.executionStatus ∈ s.history) (status : Int) :
    (s.transitionExecutionStatus status).executionStatus ∈
      (s.transitionExecutionStatus status).history := by
  unfold State.transitionExecutionStatus
  split
  · exact List.mem_cons_self
  · exact current

/-- What an instruction makes of the statuses: `s'` is later, and `next` justified there. -/
structure Follows (s s' : State) (next : List Instruction) : Prop where
  later : s.Later s'
  current : s'.executionStatus ∈ s'.history
  lists : ∀ target, ∀ callback ∈ s'.callbacks target,
    translateToCallbackTarget callback.callbackExecutionStatusTarget = some target
  next : ∀ instruction ∈ next, instruction.Justified s'
  executed : ∀ execution ∈ s'.executed, execution.Right s'.history

theorem Follows.same (justified : s.Justified) {s' : State}
    (executionStatus : s'.executionStatus = s.executionStatus) (history : s'.history = s.history)
    (callbacks : s'.callbacks = s.callbacks) (executed : s'.executed = s.executed)
    {next : List Instruction} (own : ∀ instruction ∈ next, instruction.Justified s') :
    Follows s s' next where
  later := ⟨Int.le_of_eq executionStatus, by rw [history]; exact List.Subset.refl _⟩
  current := by
    rw [executionStatus, history]
    exact justified.current
  lists := by
    rw [callbacks]
    exact justified.lists
  next := own
  executed := by
    rw [executed, history]
    exact justified.executed

theorem Follows.transition (justified : s.Justified) (status : Int) {next : List Instruction}
    (own : ∀ instruction ∈ next, instruction.Justified (s.transitionExecutionStatus status)) :
    Follows s (s.transitionExecutionStatus status) next := by
  have later := later_transition s status
  obtain ⟨_, _, transition⟩ := transition_eq s status
  constructor
  · exact later
  · exact transition_current justified.current status
  · rw [transition]
    exact justified.lists
  · exact own
  · intro execution member
    apply Execution.Right.mono later.remembers
    rw [transition] at member
    exact justified.executed execution member

theorem run_justified (justified : s.Justified) {env : Environment} {instruction : Instruction}
    (own : instruction.Justified s) (allowed : instruction.Allowed isUserEvent s) {s' : State}
    {next : List Instruction} (ran : instruction.run isUserEvent env s = (s', next)) :
    Follows s s' next := by
  have completed : ∀ instruction ∈ [Instruction.executeCallbacks s.executionStatus
      (targetsOf s.executionStatus)], isStatusCompleted s.executionStatus = true →
        instruction.Justified s := by
    intro instruction member completed
    obtain rfl := List.mem_singleton.mp member
    refine ⟨Int.le_refl _, ?_, List.Subset.refl _⟩
    unfold Attained
    split
    · exact justified.current
    next positive => exact ⟨_, justified.current, Int.not_lt.mp positive, Int.le_refl _⟩
  cases instruction with
  | push target callback =>
    cases ran
    constructor
    · exact ⟨Int.le_refl _, List.Subset.refl _⟩
    · exact justified.current
    · intro target' callback' member
      by_cases mine : target' = target
      · subst mine
        simp only [Function.update_self] at member
        rcases List.mem_cons.mp member with rfl | old
        · exact own
        · exact justified.lists _ _ old
      · simp only [Function.update_of_ne mine] at member
        exact justified.lists _ _ member
    · simp [Instruction.Justified]
    · exact justified.executed
  | executeCallbacks status targets =>
    cases targets with
    | nil =>
      cases ran
      exact Follows.same justified rfl rfl rfl rfl (by simp)
    | cons target targets =>
      cases ran
      obtain ⟨reached, attained, listed⟩ := own
      constructor
      · exact ⟨Int.le_refl _, List.Subset.refl _⟩
      · exact justified.current
      · intro target' callback' member
        by_cases mine : target' = target
        · subst mine
          simp only [Function.update_self] at member
          cases member
        · simp only [Function.update_of_ne mine] at member
          exact justified.lists _ _ member
      · intro instruction member
        rcases List.mem_cons.mp member with rfl | other
        · refine ⟨reached, attained, ?_⟩
          intro callback mine
          exact le_target (listed List.mem_cons_self) (justified.lists _ _ mine)
        · obtain rfl := List.mem_singleton.mp other
          exact ⟨reached, attained, fun _ rest => listed (List.mem_cons_of_mem _ rest)⟩
      · exact justified.executed
  | execute status callbacks =>
    cases callbacks with
    | nil =>
      cases ran
      exact Follows.same justified rfl rfl rfl rfl (by simp)
    | cons callback callbacks =>
      cases ran
      obtain ⟨reached, attained, listed⟩ := own
      obtain ⟨target, positive⟩ := listed callback List.mem_cons_self
      constructor
      · exact ⟨Int.le_refl _, List.Subset.refl _⟩
      · exact justified.current
      · exact justified.lists
      · intro instruction member
        rcases List.mem_cons.mp member with rfl | other
        · trivial
        · obtain rfl := List.mem_singleton.mp other
          exact ⟨reached, attained, fun _ rest => listed _ (List.mem_cons_of_mem _ rest)⟩
      · intro execution member
        rcases List.mem_cons.mp member with rfl | old
        · unfold Attained at attained
          unfold isStatusCompletedByTermination
          by_cases negative : status < 0
          · rw [if_pos negative] at attained
            constructor
            · exact Int.le_trans reached target
            · intro nonneg
              simp only [negative, decide_true, if_true] at nonneg
              omega
            · intro _
              simpa only [negative, decide_true, if_true] using attained
          · rw [if_neg negative] at attained
            obtain ⟨past, known, low, most⟩ := attained
            constructor
            · exact Int.le_trans reached target
            · intro _
              simp only [negative, decide_false, Bool.false_eq_true, if_false]
              exact ⟨trivial, past, known, low, Int.le_trans most target⟩
            · intro wrong
              simp only [negative, decide_false, Bool.false_eq_true, if_false] at wrong
              omega
        · exact justified.executed _ old
  | updateExecutionStatus =>
    simp only [Instruction.run] at ran
    repeat' split at ran
    all_goals cases ran
    · exact Follows.same justified rfl rfl rfl rfl (by simp)
    next done =>
      exact Follows.same justified rfl rfl rfl rfl fun _ member => completed _ member done
    all_goals
      exact Follows.same justified rfl rfl rfl rfl (by simp [Instruction.Justified])
  | executeIfCompleted =>
    simp only [Instruction.run] at ran
    split at ran <;> cases ran
    next done =>
      exact Follows.same justified rfl rfl rfl rfl fun _ member => completed _ member done
    · exact Follows.same justified rfl rfl rfl rfl (by simp)
  | submitCommand =>
    simp only [Instruction.run] at ran
    split at ran <;> cases ran
    · exact Follows.transition justified _ (by simp)
    · exact Follows.same justified rfl rfl rfl rfl (by simp)
  | transition status =>
    cases ran
    exact Follows.transition justified _ (by simp)
  | transitionAndExecute status =>
    cases ran
    apply Follows.transition justified
    intro instruction member
    obtain rfl := List.mem_singleton.mp member
    obtain ⟨reached, attained⟩ := attained_transition justified.current allowed
    exact ⟨reached, attained, List.Subset.refl _⟩
  | _ =>
    simp only [Instruction.run] at ran
    repeat' split at ran
    all_goals
      cases ran
      apply Follows.same justified
      all_goals first | rfl | simp [Instruction.Justified]

theorem State.Justified.stepThread (justified : s.Justified) {thread : Nat}
    {instruction : Instruction} {rest : List Instruction}
    (current : s.threads[thread]? = some (instruction :: rest)) {env : Environment} {s' : State}
    {next : List Instruction} (ran : instruction.run isUserEvent env s = (s', next))
    (allowed : instruction.Allowed isUserEvent s) :
    State.Justified { s' with threads := s'.threads.set thread (next ++ rest) } := by
  obtain ⟨threads, handler, _, _⟩ := run_frame ran
  have own := justified.threads _ (List.mem_of_getElem? current)
  have follows := run_justified justified (own _ List.mem_cons_self) allowed ran
  constructor
  · exact follows.current
  · exact follows.lists
  · intro program member
    simp only [threads] at member
    rcases List.mem_or_eq_of_mem_set member with old | rfl
    · exact fun instruction inside => (justified.threads program old instruction inside).mono
        follows.later
    · intro instruction inside
      rcases List.mem_append.mp inside with new | old
      · exact follows.next instruction new
      · exact (own instruction (List.mem_cons_of_mem _ old)).mono follows.later
  · intro instruction inside
    simp only [handler] at inside
    exact (justified.handler instruction inside).mono follows.later
  · exact follows.executed

theorem State.Justified.stepHandler (justified : s.Justified) {instruction : Instruction}
    {rest : List Instruction} (current : s.handler = instruction :: rest) {env : Environment}
    {s' : State} {next : List Instruction}
    (ran : instruction.run isUserEvent env s = (s', next))
    (allowed : instruction.Allowed isUserEvent s) :
    State.Justified { s' with handler := next ++ rest } := by
  obtain ⟨threads, _, _, _⟩ := run_frame ran
  have own := justified.handler
  rw [current] at own
  have follows := run_justified justified (own _ List.mem_cons_self) allowed ran
  constructor
  · exact follows.current
  · exact follows.lists
  · intro program member instruction inside
    simp only [threads] at member
    exact (justified.threads program member instruction inside).mono follows.later
  · intro instruction inside
    rcases List.mem_append.mp inside with new | old
    · exact follows.next instruction new
    · exact (own instruction (List.mem_cons_of_mem _ old)).mono follows.later
  · exact follows.executed

end ComputeRuntime.EventCallbacks
