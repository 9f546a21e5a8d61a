import ComputeRuntime.Library.Transition
import Mathlib.Logic.Function.Basic

/-! The callbacks of an event: threads that add them, threads that change the execution status and
execute what they find, and the references that keep the event alive meanwhile. -/
namespace ComputeRuntime.EventCallbacks

/-! Execution statuses; an error is negative. -/

def complete : Int := 0
def running : Int := 1
def submitted : Int := 2
def queued : Int := 3

def executionAbortedDueToGpuHang : Int := -777

def isStatusCompleted (status : Int) : Bool := status ≤ complete

def isStatusCompletedByTermination (status : Int) : Bool := status < 0

inductive ECallbackTarget where
  | queued
  | submitted
  | running
  | completed
  deriving DecidableEq

def translateToCallbackTarget (status : Int) : Option ECallbackTarget :=
  if status = queued then some .queued
  else if status = submitted then some .submitted
  else if status = running then some .running
  else if status = complete then some .completed
  else none

/-- A callback, by its number, and the status that triggers it. -/
structure Callback where
  id : Nat
  callbackExecutionStatusTarget : Int
  deriving DecidableEq

/-- The lists that callbacks are executed from, in this order. -/
def targetsUpTo : ECallbackTarget → List ECallbackTarget
  | .queued => [.queued]
  | .submitted => [.queued, .submitted]
  | .running => [.queued, .submitted, .running]
  | .completed => [.queued, .submitted, .running, .completed]

def targetsOf (status : Int) : List ECallbackTarget :=
  if isStatusCompletedByTermination status then targetsUpTo .completed
  else ((translateToCallbackTarget status).map targetsUpTo).getD []

/-- What a thread has still to do with the event. -/
inductive Instruction where
  /-- The callback is put in front of its list; then follows the rest of `addCallback`. -/
  | push (target : ECallbackTarget) (callback : Callback)
  | updateExecutionStatus
  /-- The test of `updateExecutionStatus` behind the submission. -/
  | checkGpuCompletion
  /-- The end of `addCallback`: what it does when the event is completed already. -/
  | executeIfCompleted
  | registerEvent
  /-- The tests of `setStatus`. -/
  | setStatus (status : Int)
  | submitCommand
  /-- The end of `setStatus`, which holds the event meanwhile. -/
  | applyStatus (status : Int)
  | transition (status : Int)
  /-- The transition, with `executeCallbacks` behind it. -/
  | transitionAndExecute (status : Int)
  /-- The loop of `executeCallbacks` over the lists that are left. -/
  | executeCallbacks (status : Int) (targets : List ECallbackTarget)
  /-- Its inner loop. -/
  | execute (status : Int) (callbacks : List Callback)
  | decRefInternal
  /-- The async events handler keeps the event, or lets it go. -/
  | keepOrRelease
  deriving DecidableEq

/-- What a step finds outside of the event. -/
structure Environment where
  taskLevelNotReady : Bool := false
  isBlocked : Bool := false
  isCompleted : Bool := false
  gpuHang : Bool := false
  isExternallySynchronized : Bool := false
  deriving DecidableEq

/-- A callback that was executed, the status it was given, and the status of the event then. -/
structure Execution where
  callback : Callback
  status : Int
  executionStatus : Int
  deriving DecidableEq

/-- The event. `references` are those of the application and of parent events, `registered` those
of the async events handler. `added` numbers the callbacks; `executed` and `history` say which of
them were executed, and which statuses the event has had. -/
structure State where
  executionStatus : Int := queued
  callbacks : ECallbackTarget → List Callback := fun _ => []
  refInternal : Nat := 1
  references : Nat := 1
  registered : Nat := 0
  handler : List Instruction := []
  threads : List (List Instruction) := []
  added : Nat := 0
  executed : List Execution := []
  history : List Int := [queued]

variable (isUserEvent : Bool)

def State.peekHasCallbacks (s : State) : Bool :=
  !(s.callbacks .queued).isEmpty || !(s.callbacks .submitted).isEmpty ||
    !(s.callbacks .running).isEmpty || !(s.callbacks .completed).isEmpty

def State.transitionExecutionStatus (s : State) (newExecutionStatus : Int) : State :=
  if newExecutionStatus < s.executionStatus then
    { s with
      executionStatus := newExecutionStatus
      history := newExecutionStatus :: s.history }
  else s

/-- The next instruction of a thread: the state behind it, and what the thread does next. A user
event has nothing to update. -/
def Instruction.run (env : Environment) (s : State) : Instruction → State × List Instruction
  | .push target callback =>
    ({ s with
      callbacks := Function.update s.callbacks target (callback :: s.callbacks target) },
      [.updateExecutionStatus, .executeIfCompleted, .registerEvent, .decRefInternal])
  | .updateExecutionStatus =>
    if isUserEvent || env.taskLevelNotReady then (s, [])
    else if isStatusCompleted s.executionStatus then
      (s, [.executeCallbacks s.executionStatus (targetsOf s.executionStatus)])
    else if env.isBlocked then (s, [.transitionAndExecute queued])
    else if s.executionStatus = queued then
      (s, [.submitCommand, .transitionAndExecute submitted, .checkGpuCompletion])
    else (s, [.checkGpuCompletion])
  | .checkGpuCompletion =>
    if env.isCompleted then (s, [.transitionAndExecute complete])
    else (s, [.transition submitted])
  | .executeIfCompleted =>
    if isStatusCompleted s.executionStatus then
      (s, [.executeCallbacks s.executionStatus (targetsOf s.executionStatus)])
    else (s, [])
  | .registerEvent =>
    if s.peekHasCallbacks && !isUserEvent then
      ({ s with refInternal := s.refInternal + 1, registered := s.registered + 1 }, [])
    else (s, [])
  | .setStatus status =>
    if isStatusCompleted s.executionStatus then (s, [])
    else if status = s.executionStatus then (s, [])
    else if env.isBlocked && !isStatusCompletedByTermination status then (s, [])
    else if status = submitted || isStatusCompleted status then
      (s, [.submitCommand, .applyStatus status])
    else (s, [.applyStatus status])
  | .submitCommand =>
    -- A user event has no command.
    if env.gpuHang && !isUserEvent then
      (s.transitionExecutionStatus executionAbortedDueToGpuHang, [])
    else (s, [])
  | .applyStatus status =>
    ({ s with refInternal := s.refInternal + 1 }, [.transitionAndExecute status, .decRefInternal])
  | .transition status => (s.transitionExecutionStatus status, [])
  | .transitionAndExecute status =>
    (s.transitionExecutionStatus status, [.executeCallbacks status (targetsOf status)])
  | .executeCallbacks _ [] => (s, [])
  | .executeCallbacks status (target :: targets) =>
    ({ s with callbacks := Function.update s.callbacks target [] },
      [.execute status (s.callbacks target), .executeCallbacks status targets])
  | .execute _ [] => (s, [])
  | .execute status (callback :: callbacks) =>
    ({ s with
      executed := {
        callback := callback
        status :=
          if isStatusCompletedByTermination status then status
          else callback.callbackExecutionStatusTarget
        executionStatus := s.executionStatus } :: s.executed },
      [.decRefInternal, .execute status callbacks])
  | .decRefInternal => ({ s with refInternal := s.refInternal - 1 }, [])
  | .keepOrRelease =>
    if s.peekHasCallbacks || (env.isExternallySynchronized && complete < s.executionStatus) then
      (s, [])
    else ({ s with refInternal := s.refInternal - 1, registered := s.registered - 1 }, [])

/-- What can happen next: calls that begin, and steps of threads and of the handler. -/
inductive Action where
  | addCallback (type : Int)
  | setStatus (status : Int)
  | updateExecutionStatus
  | abortExecutionDueToGpuHang
  | retain
  | release
  | processList
  /-- The handler waits for the event, and `gpuHang` is what the wait ends with. -/
  | wait (gpuHang : Bool)
  | stepThread (thread : Nat) (env : Environment)
  | stepHandler (env : Environment)
  deriving DecidableEq

/-- A call begins, on an event that its caller holds. -/
def State.call (s : State) (instructions : List Instruction) : Option State :=
  if 0 < s.references then some { s with threads := s.threads ++ [instructions] } else none

/-- `addCallback` takes two references: one for the callback, one for the call. -/
def State.addCallback (s : State) (type : Int) : Option State :=
  match translateToCallbackTarget type with
  | none => none
  | some target =>
    { s with refInternal := s.refInternal + 2, added := s.added + 1 }.call
      [.push target { id := s.added, callbackExecutionStatusTarget := type }]

/-- The last reference of a caller is not given up while calls are on their way. -/
def State.release (s : State) : Option State :=
  if 1 < s.references ∨ (s.references = 1 ∧ ∀ thread ∈ s.threads, thread = []) then
    some { s with references := s.references - 1, refInternal := s.refInternal - 1 }
  else none

def State.step (s : State) : Action → Option State
  | .addCallback type => s.addCallback type
  | .setStatus status => s.call [.setStatus status]
  | .updateExecutionStatus => s.call [.updateExecutionStatus]
  | .abortExecutionDueToGpuHang => s.call [.transition executionAbortedDueToGpuHang]
  | .retain =>
    if 0 < s.references then
      some { s with references := s.references + 1, refInternal := s.refInternal + 1 }
    else none
  | .release => s.release
  | .processList =>
    if 0 < s.registered ∧ s.handler = [] then
      some { s with handler := [.updateExecutionStatus, .keepOrRelease] }
    else none
  | .wait gpuHang =>
    if 0 < s.registered ∧ s.handler = [] then
      some { s with handler := [if gpuHang then .transition executionAbortedDueToGpuHang
        else .updateExecutionStatus] }
    else none
  | .stepThread thread env =>
    match s.threads[thread]? with
    | some (instruction :: rest) =>
      let (s', next) := instruction.run isUserEvent env s
      some { s' with threads := s'.threads.set thread (next ++ rest) }
    | _ => none
  | .stepHandler env =>
    match s.handler with
    | instruction :: rest =>
      let (s', next) := instruction.run isUserEvent env s
      some { s' with handler := next ++ rest }
    | [] => none

def system : Transition.System State Action where
  init s := s = {}
  step s action s' := s.step isUserEvent action = some s'

end ComputeRuntime.EventCallbacks
