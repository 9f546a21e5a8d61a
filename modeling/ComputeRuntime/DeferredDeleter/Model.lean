import ComputeRuntime.Library.Transition
import Mathlib.Data.List.Perm.Basic

/-! The deleter of deferred elements: its queue and counters, the worker thread that empties the
queue in the background, and the threads that defer elements and drain them. -/
namespace ComputeRuntime.DeferredDeleter

structure DeferrableDeletion where
  id : Nat
  externalHostptr : Bool
  deriving DecidableEq

/-- The queue and the counters, with the elements that were applied with success. -/
structure Deletions where
  queue : List DeferrableDeletion := []
  elementsToRelease : Int := 0
  hostptrsToRelease : Int := 0
  applied : List DeferrableDeletion := []
  deriving DecidableEq

namespace Deletions

def areElementsReleased (s : Deletions) (hostptrsOnly : Bool) : Bool :=
  if hostptrsOnly then s.hostptrsToRelease == 0 else s.elementsToRelease == 0

/-- The test that ends the loop of `clearQueue`. -/
def cleared (s : Deletions) (hostptrsOnly : Bool) : Bool :=
  if hostptrsOnly then s.areElementsReleased hostptrsOnly else s.queue.isEmpty

end Deletions

/-! ### clearQueue -/

/-- What a thread inside `clearQueue` does next. -/
inductive ClearStep where
  | removeFrontOne
  | apply (deletion : DeferrableDeletion)
  | lowerElements (deletion : DeferrableDeletion)
  | lowerHostptrs (deletion : DeferrableDeletion)
  | pushTailOne (deletion : DeferrableDeletion)
  | check
  deriving DecidableEq

/-- One step of a thread inside `clearQueue`; without a next step it leaves. -/
def clearQueue (hostptrsOnly : Bool) (s : Deletions) (succeeds : Bool) :
    ClearStep → Deletions × Option ClearStep
  | .removeFrontOne =>
    match s.queue with
    | [] => (s, some .check)
    | deletion :: queue =>
      ({ s with queue := queue },
        some (if !hostptrsOnly || deletion.externalHostptr then .apply deletion
          else .pushTailOne deletion))
  | .apply deletion =>
    if succeeds then
      ({ s with applied := s.applied ++ [deletion] }, some (.lowerElements deletion))
    else (s, some (.pushTailOne deletion))
  | .lowerElements deletion =>
    ({ s with elementsToRelease := s.elementsToRelease - 1 },
      some (if deletion.externalHostptr then .lowerHostptrs deletion else .check))
  | .lowerHostptrs _ => ({ s with hostptrsToRelease := s.hostptrsToRelease - 1 }, some .check)
  -- Nobody is notified here.
  | .pushTailOne deletion => ({ s with queue := s.queue ++ [deletion] }, some .check)
  | .check => (s, if s.cleared hostptrsOnly then none else some .removeFrontOne)

/-! ### Threads -/

inductive Worker where
  | absent
  | created
  | waiting
  | woken
  | clearing (step : ClearStep)
  | locking
  | leaving
  | exited
  deriving DecidableEq

/-- A call of `drain`; without a step it is past `clearQueue` and polls its counter. -/
structure Drain where
  blocking : Bool
  hostptrsOnly : Bool
  step : Option ClearStep := some .removeFrontOne
  deriving DecidableEq

/-- What the thread inside `stop` does next. -/
inductive Stop where
  | awaitStart
  | notify
  | awaitExit
  | drain (step : ClearStep)
  deriving DecidableEq

/-- A drain has returned: the deletions at that moment and all elements deferred by then. -/
structure Return where
  blocking : Bool
  hostptrsOnly : Bool
  deletions : Deletions
  deferred : List DeferrableDeletion
  deriving DecidableEq

structure State where
  deletions : Deletions := {}
  doWorkInBackground : Bool := false
  exitedMainLoop : Bool := false
  worker : Worker := .absent
  numClients : Int := 0
  /-- The thread that holds the thread mutex inside `stop`. -/
  stopping : Option Stop := none
  destroying : Bool := false
  destroyed : Bool := false
  drains : List Drain := []
  /-- The threads that have deferred an element and not yet notified the worker. -/
  notifiers : Nat := 0
  deferred : List DeferrableDeletion := []
  returns : List Return := []
  deriving DecidableEq

inductive Action where
  | deferDeletion (deletion : DeferrableDeletion)
  | notify
  | beginDrain (blocking hostptrsOnly : Bool)
  | stepDrain (i : Nat) (succeeds : Bool)
  | addClient
  | removeClient
  | destroy
  | stepStop (succeeds : Bool)
  | stepWorker (succeeds : Bool)
  | wakeSpuriously
  deriving DecidableEq

namespace State

/-- One waiting thread is notified, if there is one. -/
def notifyOne (s : State) : State :=
  if s.worker = .waiting then { s with worker := .woken } else s

/-- The worker has the queue mutex: it waits on an empty queue. -/
def beginLoop (s : State) : State :=
  { s with worker := if s.deletions.queue.isEmpty then .waiting else .clearing .removeFrontOne }

/-- `run`. -/
def stepWorker (s : State) (succeeds : Bool) : Option State :=
  match s.worker with
  | .absent | .waiting | .exited => none
  | .created => some { s with doWorkInBackground := true }.beginLoop
  | .woken => some { s with worker := .clearing .removeFrontOne }
  | .clearing step =>
    let (deletions, next) := clearQueue false s.deletions succeeds step
    some { s with
      deletions := deletions
      worker := match next with
        | some step => .clearing step
        | none => .locking }
  | .locking => some (if s.doWorkInBackground then s.beginLoop else { s with worker := .leaving })
  | .leaving => some { s with worker := .exited, exitedMainLoop := true }

/-- `stop`. -/
def stepStop (s : State) (succeeds : Bool) : Option State :=
  match s.stopping with
  | none => none
  | some .awaitStart =>
    some (if s.doWorkInBackground then
      { s with doWorkInBackground := false, stopping := some .notify } else s)
  | some .notify => some { s.notifyOne with stopping := some .awaitExit }
  | some .awaitExit =>
    some (if s.exitedMainLoop then
      { s with worker := .absent, stopping := some (.drain .removeFrontOne) } else s)
  | some (.drain step) =>
    let (deletions, next) := clearQueue false s.deletions succeeds step
    some { s with
      deletions := deletions
      stopping := next.map .drain
      destroyed := s.destroying && next.isNone }

def beginStop (s : State) : State :=
  { s with stopping := some (if s.worker = .absent then .drain .removeFrontOne else .awaitStart) }

def returnDrain (s : State) (i : Nat) (drain : Drain) : State :=
  { s with
    drains := s.drains.eraseIdx i
    returns := s.returns ++ [⟨drain.blocking, drain.hostptrsOnly, s.deletions, s.deferred⟩] }

/-- `drain`. -/
def stepDrain (s : State) (i : Nat) (succeeds : Bool) : Option State :=
  s.drains[i]?.map fun drain =>
    match drain.step with
    | some step =>
      let (deletions, next) := clearQueue drain.hostptrsOnly s.deletions succeeds step
      { s with deletions := deletions, drains := s.drains.set i { drain with step := next } }
    | none =>
      if drain.blocking && !s.deletions.areElementsReleased drain.hostptrsOnly then s
      else s.returnDrain i drain

/-- Each element is deferred once, and no other call runs while the deleter is destroyed. -/
def step (s : State) : Action → Option State
  | .deferDeletion deletion =>
    if s.destroying || s.deferred.contains deletion then none else
      some { s with
        deletions := { s.deletions with
          elementsToRelease := s.deletions.elementsToRelease + 1
          hostptrsToRelease :=
            if deletion.externalHostptr then s.deletions.hostptrsToRelease + 1
            else s.deletions.hostptrsToRelease
          queue := s.deletions.queue ++ [deletion] }
        deferred := s.deferred ++ [deletion]
        notifiers := s.notifiers + 1 }
  | .notify => if s.notifiers = 0 then none else some { s.notifyOne with notifiers := s.notifiers - 1 }
  | .beginDrain blocking hostptrsOnly =>
    if s.destroying then none else
      some { s with drains := s.drains ++ [{ blocking := blocking, hostptrsOnly := hostptrsOnly }] }
  | .stepDrain i succeeds => s.stepDrain i succeeds
  | .addClient =>
    if s.destroying || s.stopping.isSome then none
    else if s.worker = .absent then
      some { s with numClients := s.numClients + 1, exitedMainLoop := false, worker := .created }
    else some { s with numClients := s.numClients + 1 }
  | .removeClient =>
    if s.destroying || s.stopping.isSome then none
    else
      let lowered := { s with numClients := s.numClients - 1 }
      some (if lowered.numClients = 0 then lowered.beginStop else lowered)
  | .destroy =>
    if s.destroying || s.stopping.isSome || !s.drains.isEmpty || s.notifiers != 0 then none
    else some { s.beginStop with destroying := true }
  | .stepStop succeeds => s.stepStop succeeds
  | .stepWorker succeeds => s.stepWorker succeeds
  | .wakeSpuriously => if s.worker = .waiting then some { s with worker := .woken } else none

end State

def system : Transition.System State Action where
  init s := s = {}
  step s action s' := s.step action = some s'

end ComputeRuntime.DeferredDeleter
