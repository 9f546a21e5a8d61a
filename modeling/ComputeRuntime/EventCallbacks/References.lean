import ComputeRuntime.EventCallbacks.Model
import ComputeRuntime.Library.Weight

/-! Where the callbacks of an event are, and what its references are for. -/
namespace ComputeRuntime.EventCallbacks

open Weight

variable {isUserEvent : Bool} {s : State}

/-! ### What is held -/

section Held

variable (f : Callback → Nat) (r : Nat)

/-- The callbacks in the lists. -/
def State.pending (s : State) : Nat :=
  weight f (s.callbacks .queued) + weight f (s.callbacks .submitted) +
    weight f (s.callbacks .running) + weight f (s.callbacks .completed)

/-- The callbacks and the references that a thread has with it. -/
def Instruction.held : Instruction → Nat
  | .push _ callback => f callback + r
  | .execute _ callbacks => weight f callbacks
  | .decRefInternal => r
  | _ => 0

def State.held (s : State) : Nat :=
  s.pending f + weight (weight (Instruction.held f r)) s.threads +
    weight (Instruction.held f r) s.handler

def State.finished (s : State) : Nat := weight (fun execution => f execution.callback) s.executed

end Held

theorem pending_update (f : Callback → Nat) (target : ECallbackTarget)
    (callbacks : List Callback) :
    State.pending f { s with callbacks := Function.update s.callbacks target callbacks } +
      weight f (s.callbacks target) = s.pending f + weight f callbacks := by
  cases target <;> simp [State.pending] <;> omega

/-- A transition changes the status and its history, and nothing else. -/
theorem transition_eq (s : State) (status : Int) :
    ∃ executionStatus history, s.transitionExecutionStatus status =
      { s with executionStatus := executionStatus, history := history } := by
  unfold State.transitionExecutionStatus
  split
  · exact ⟨_, _, rfl⟩
  · exact ⟨s.executionStatus, s.history, rfl⟩

/-- No instruction loses a callback or executes one that stays where it is, and every instruction
changes the references as it changes what they are for. -/
theorem run_held (f : Callback → Nat) (r : Nat) (alive : 0 < s.refInternal) (env : Environment)
    (instruction : Instruction) (known : instruction = .keepOrRelease → 0 < s.registered)
    {s' : State} {next : List Instruction}
    (ran : instruction.run isUserEvent env s = (s', next)) :
    s'.pending f + weight (Instruction.held f r) next + s'.finished f +
        r * (s.refInternal + s'.registered + s.executed.length) =
      s.pending f + instruction.held f r + s.finished f +
        r * (s'.refInternal + s.registered + s'.executed.length) := by
  cases instruction with
  | push target callback =>
    have moved := pending_update (s := s) f target (callback :: s.callbacks target)
    rw [weight_cons] at moved
    cases ran
    simp only [Instruction.held, weight_cons, weight_nil, State.finished] at moved ⊢
    omega
  | executeCallbacks status targets =>
    cases targets with
    | nil =>
      cases ran
      simp [Instruction.held]
    | cons target targets =>
      have moved := pending_update (s := s) f target []
      rw [weight_nil] at moved
      cases ran
      simp only [Instruction.held, weight_cons, weight_nil, State.finished] at moved ⊢
      omega
  | execute status callbacks =>
    cases callbacks with
    | nil =>
      cases ran
      simp [Instruction.held]
    | cons callback callbacks =>
      cases ran
      simp only [Instruction.held, weight_cons, weight_nil, State.finished, State.pending,
        List.length_cons, ← Nat.add_assoc, Nat.mul_add, Nat.mul_one]
      omega
  | updateExecutionStatus =>
    simp only [Instruction.run] at ran
    repeat' split at ran
    all_goals
      cases ran
      simp [Instruction.held]
  | setStatus status =>
    simp only [Instruction.run] at ran
    repeat' split at ran
    all_goals
      cases ran
      simp [Instruction.held]
  | submitCommand =>
    obtain ⟨_, _, transition⟩ := transition_eq s executionAbortedDueToGpuHang
    simp only [Instruction.run, transition] at ran
    split at ran
    all_goals
      cases ran
      simp [Instruction.held, State.pending, State.finished]
  | transition status | transitionAndExecute status =>
    obtain ⟨_, _, transition⟩ := transition_eq s status
    simp only [Instruction.run, transition] at ran
    cases ran
    simp [Instruction.held, State.pending, State.finished]
  | checkGpuCompletion | executeIfCompleted =>
    simp only [Instruction.run] at ran
    split at ran
    all_goals
      cases ran
      simp [Instruction.held]
  | registerEvent =>
    simp only [Instruction.run] at ran
    split at ran
    · cases ran
      simp only [Instruction.held, weight_nil, State.pending, State.finished, Nat.mul_add,
        Nat.mul_one]
      omega
    · cases ran
      simp [Instruction.held]
  | keepOrRelease =>
    have entry := known rfl
    simp only [Instruction.run] at ran
    split at ran
    · cases ran
      simp [Instruction.held]
    · cases ran
      have exchanged : s.refInternal + (s.registered - 1) = s.refInternal - 1 + s.registered := by
        omega
      simp only [Instruction.held, weight_nil, State.pending, State.finished, exchanged]
  | applyStatus status =>
    cases ran
    simp only [Instruction.held, weight_cons, weight_nil, State.pending, State.finished,
      Nat.mul_add, Nat.mul_one]
    omega
  | decRefInternal =>
    obtain ⟨refInternal, one⟩ : ∃ refInternal, s.refInternal = refInternal + 1 :=
      ⟨s.refInternal - 1, by omega⟩
    cases ran
    simp only [Instruction.held, weight_nil, State.pending, State.finished, one,
      Nat.add_sub_cancel, Nat.mul_add, Nat.mul_one]
    omega

/-- What no instruction touches. -/
theorem run_frame {env : Environment} {instruction : Instruction} {s' : State}
    {next : List Instruction} (ran : instruction.run isUserEvent env s = (s', next)) :
    s'.threads = s.threads ∧ s'.handler = s.handler ∧ s'.references = s.references ∧
      s'.added = s.added := by
  have transition : ∀ status, (s.transitionExecutionStatus status).threads = s.threads ∧
      (s.transitionExecutionStatus status).handler = s.handler ∧
      (s.transitionExecutionStatus status).references = s.references ∧
      (s.transitionExecutionStatus status).added = s.added := by
    intro status
    obtain ⟨_, _, transition⟩ := transition_eq s status
    rw [transition]
    exact ⟨rfl, rfl, rfl, rfl⟩
  cases instruction with
  | executeCallbacks status targets =>
    cases targets <;> cases ran <;> exact ⟨rfl, rfl, rfl, rfl⟩
  | execute status callbacks =>
    cases callbacks <;> cases ran <;> exact ⟨rfl, rfl, rfl, rfl⟩
  | transition status | transitionAndExecute status =>
    cases ran
    exact transition status
  | submitCommand =>
    simp only [Instruction.run] at ran
    split at ran
    · cases ran
      exact transition _
    · cases ran
      exact ⟨rfl, rfl, rfl, rfl⟩
  | _ =>
    simp only [Instruction.run] at ran
    repeat' split at ran
    all_goals
      cases ran
      exact ⟨rfl, rfl, rfl, rfl⟩

/-! ### Callbacks and references -/

/-- Counts the callback with a number. -/
def isCallback (id : Nat) (callback : Callback) : Nat := if callback.id = id then 1 else 0

/-- Every callback is in one place, and every reference has a holder. -/
structure State.Accounted (s : State) : Prop where
  callbacks : ∀ id, s.held (isCallback id) 0 + s.finished (isCallback id) =
    if id < s.added then 1 else 0
  references : s.refInternal = s.references + s.registered + s.held (fun _ => 1) 1
  callers : ∀ thread ∈ s.threads, thread ≠ [] →
    0 < s.references ∧ Instruction.keepOrRelease ∉ thread
  handler : s.handler ≠ [] → 0 < s.registered

@[simp] theorem finished_one (s : State) : s.finished (fun _ => 1) = s.executed.length := by
  simp [State.finished, weight]

/-- Only the handler lets an event go. -/
theorem run_registered {env : Environment} {instruction : Instruction} {s' : State}
    {next : List Instruction} (ran : instruction.run isUserEvent env s = (s', next))
    (other : instruction ≠ .keepOrRelease) : s.registered ≤ s'.registered := by
  cases instruction with
  | keepOrRelease => exact absurd rfl other
  | executeCallbacks status targets => cases targets <;> cases ran <;> exact Nat.le_refl _
  | execute status callbacks => cases callbacks <;> cases ran <;> exact Nat.le_refl _
  | submitCommand =>
    obtain ⟨_, _, transition⟩ := transition_eq s executionAbortedDueToGpuHang
    simp only [Instruction.run, transition] at ran
    split at ran <;> cases ran <;> exact Nat.le_refl _
  | transition status | transitionAndExecute status =>
    obtain ⟨_, _, transition⟩ := transition_eq s status
    simp only [Instruction.run, transition] at ran
    cases ran
    exact Nat.le_refl _
  | registerEvent =>
    simp only [Instruction.run] at ran
    split at ran <;> cases ran
    · exact Nat.le_succ _
    · exact Nat.le_refl _
  | _ =>
    simp only [Instruction.run] at ran
    repeat' split at ran
    all_goals
      cases ran
      exact Nat.le_refl _

theorem run_keepOrRelease {env : Environment} {instruction : Instruction} {s' : State}
    {next : List Instruction} (ran : instruction.run isUserEvent env s = (s', next)) :
    Instruction.keepOrRelease ∉ next := by
  cases instruction with
  | executeCallbacks status targets => cases targets <;> cases ran <;> simp
  | execute status callbacks => cases callbacks <;> cases ran <;> simp
  | _ =>
    simp only [Instruction.run] at ran
    repeat' split at ran
    all_goals
      cases ran
      simp

/-- A step of a caller. -/
theorem State.Accounted.stepThread (accounted : s.Accounted) {thread : Nat}
    {instruction : Instruction} {rest : List Instruction}
    (current : s.threads[thread]? = some (instruction :: rest)) {env : Environment} {s' : State}
    {next : List Instruction} (ran : instruction.run isUserEvent env s = (s', next)) :
    State.Accounted { s' with threads := s'.threads.set thread (next ++ rest) } := by
  obtain ⟨threads, handler, references, added⟩ := run_frame ran
  obtain ⟨caller, own⟩ := accounted.callers _ (List.mem_of_getElem? current) (List.cons_ne_nil _ _)
  have balance := accounted.references
  have other : instruction ≠ .keepOrRelease := by
    rintro rfl
    exact own List.mem_cons_self
  have held := fun f r =>
    run_held f r (by omega) env instruction (fun last => absurd last other) ran
  have moved := fun f r => weight_set (weight (Instruction.held f r)) current (next ++ rest)
  constructor
  · intro id
    have before := accounted.callbacks id
    have ran := held (isCallback id) 0
    have set := moved (isCallback id) 0
    simp only [weight_cons, weight_append, Nat.zero_mul] at ran set
    simp only [State.held, threads, handler, added] at before ⊢
    change s'.pending _ + _ + _ + s'.finished _ = _
    omega
  · have ran := held (fun _ => 1) 1
    have set := moved (fun _ => 1) 1
    simp only [weight_cons, weight_append, Nat.one_mul, finished_one] at ran set
    simp only [State.held, threads, handler, references] at balance ⊢
    change _ = _ + _ + (s'.pending _ + _ + _)
    omega
  · intro program member unfinished
    simp only [threads] at member
    rw [references]
    refine ⟨caller, ?_⟩
    rcases List.mem_or_eq_of_mem_set member with old | rfl
    · exact (accounted.callers program old unfinished).2
    · rw [List.mem_append]
      rintro (new | old)
      · exact run_keepOrRelease ran new
      · exact own (List.mem_cons_of_mem _ old)
  · intro busy
    simp only [handler] at busy
    have kept := run_registered ran other
    exact Nat.lt_of_lt_of_le (accounted.handler busy) kept

/-- A step of the handler. -/
theorem State.Accounted.stepHandler (accounted : s.Accounted) {instruction : Instruction}
    {rest : List Instruction} (current : s.handler = instruction :: rest) {env : Environment}
    {s' : State} {next : List Instruction}
    (ran : instruction.run isUserEvent env s = (s', next))
    (last : instruction = .keepOrRelease → rest = []) :
    State.Accounted { s' with handler := next ++ rest } := by
  obtain ⟨threads, handler, references, added⟩ := run_frame ran
  have entry := accounted.handler (by simp [current])
  have balance := accounted.references
  have held := fun f r => run_held f r (by omega) env instruction (fun _ => entry) ran
  constructor
  · intro id
    have before := accounted.callbacks id
    have ran := held (isCallback id) 0
    simp only [Nat.zero_mul] at ran
    simp only [State.held, threads, added, current, weight_cons, weight_append] at before ⊢
    change s'.pending _ + _ + _ + s'.finished _ = _
    omega
  · have ran := held (fun _ => 1) 1
    simp only [Nat.one_mul, finished_one] at ran
    simp only [State.held, threads, references, current, weight_cons, weight_append] at balance ⊢
    change _ = _ + _ + (s'.pending _ + _ + _)
    omega
  · intro program member unfinished
    simp only [threads] at member
    rw [references]
    exact accounted.callers program member unfinished
  · intro busy
    by_cases letGo : instruction = .keepOrRelease
    · have none := last letGo
      subst letGo none
      simp only [Instruction.run] at ran
      split at ran <;> cases ran <;> exact absurd rfl busy
    · have kept := run_registered ran letGo
      exact Nat.lt_of_lt_of_le entry kept

/-- A call begins, on an event that its caller holds. -/
theorem State.Accounted.call (accounted : s.Accounted) {program : List Instruction} {s' : State}
    (begins : s.call program = some s') (nothing : ∀ f r, weight (Instruction.held f r) program = 0)
    (own : Instruction.keepOrRelease ∉ program) : s'.Accounted := by
  obtain ⟨caller, begun⟩ := Option.ite_none_right_eq_some.mp begins
  cases begun
  constructor
  · intro id
    have before := accounted.callbacks id
    simp only [State.held, weight_append, weight_cons, weight_nil, nothing] at before ⊢
    exact before
  · have balance := accounted.references
    simp only [State.held, weight_append, weight_cons, weight_nil, nothing] at balance ⊢
    exact balance
  · intro thread member unfinished
    rcases List.mem_append.mp member with old | new
    · exact accounted.callers thread old unfinished
    · obtain rfl := List.mem_singleton.mp new
      exact ⟨caller, own⟩
  · exact accounted.handler

theorem State.Accounted.addCallback (accounted : s.Accounted) {type : Int} {s' : State}
    (begins : s.addCallback type = some s') : s'.Accounted := by
  unfold State.addCallback at begins
  split at begins
  next => cases begins
  next target _ =>
    obtain ⟨caller, begun⟩ := Option.ite_none_right_eq_some.mp begins
    cases begun
    constructor
    · intro id
      have before := accounted.callbacks id
      simp only [State.held, State.pending, State.finished, weight_append, weight_cons,
        weight_nil, Instruction.held, isCallback] at before ⊢
      by_cases mine : s.added = id
      · subst mine
        simp only [Nat.lt_irrefl, if_false, if_true, Nat.lt_succ_self] at before ⊢
        omega
      · have same : id < s.added + 1 ↔ id < s.added := by omega
        simp only [mine, same, if_false] at before ⊢
        omega
    · have balance := accounted.references
      simp only [State.held, State.pending, weight_append, weight_cons, weight_nil,
        Instruction.held] at balance ⊢
      omega
    · intro thread member unfinished
      rcases List.mem_append.mp member with old | new
      · exact accounted.callers thread old unfinished
      · obtain rfl := List.mem_singleton.mp new
        exact ⟨caller, by simp⟩
    · exact accounted.handler

end ComputeRuntime.EventCallbacks
