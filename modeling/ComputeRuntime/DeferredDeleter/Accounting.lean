import ComputeRuntime.DeferredDeleter.Model
import ComputeRuntime.Library.Weight
import Mathlib.Data.List.Nodup
import Mathlib.Data.List.Perm.Basic

/-! Every deferred element is in one place, and the counters follow the elements that were applied. -/
namespace ComputeRuntime.DeferredDeleter

open Weight (weight)

variable {s s' : State} {action : Action} {weighs : ClearStep → Nat}

/-! ### What a thread inside clearQueue has in its hands -/

/-- The element that the thread has taken out of the queue and not applied. -/
def ClearStep.holds (f : DeferrableDeletion → Nat) : ClearStep → Nat
  | .apply deletion | .pushTailOne deletion => f deletion
  | _ => 0

/-- It has applied an element and not lowered `elementsToRelease`. -/
def ClearStep.owesElement : ClearStep → Nat
  | .lowerElements _ => 1
  | _ => 0

/-- It has applied a host pointer element and not lowered `hostptrsToRelease`. -/
def ClearStep.owesHostptr : ClearStep → Nat
  | .lowerElements deletion => if deletion.externalHostptr then 1 else 0
  | .lowerHostptrs _ => 1
  | _ => 0

def DeferrableDeletion.isHostptr (deletion : DeferrableDeletion) : Nat :=
  if deletion.externalHostptr then 1 else 0

/-- A thread that has left has nothing in its hands. -/
def weighNext (weighs : ClearStep → Nat) : Option ClearStep → Nat
  | some step => weighs step
  | none => 0

def Worker.weigh (weighs : ClearStep → Nat) : Worker → Nat
  | .clearing step => weighs step
  | _ => 0

def Stop.weigh (weighs : ClearStep → Nat) : Option Stop → Nat
  | some (.drain step) => weighs step
  | _ => 0

/-- All threads inside `clearQueue`. -/
def State.weigh (s : State) (weighs : ClearStep → Nat) : Nat :=
  s.worker.weigh weighs + Stop.weigh weighs s.stopping +
    weight (fun drain => weighNext weighs drain.step) s.drains

/-! ### One step of clearQueue -/

/-- An element is passed on, and a counter is lowered for each element that is applied. -/
structure Passes (before after : Deletions) (step : ClearStep) (next : Option ClearStep) : Prop where
  element : ∀ f, weight f before.queue + step.holds f + weight f before.applied =
    weight f after.queue + weighNext (ClearStep.holds f) next + weight f after.applied
  elements : before.elementsToRelease + weight (fun _ => 1) before.applied +
      weighNext ClearStep.owesElement next =
    after.elementsToRelease + weight (fun _ => 1) after.applied + step.owesElement
  hostptrs : before.hostptrsToRelease + weight DeferrableDeletion.isHostptr before.applied +
      weighNext ClearStep.owesHostptr next =
    after.hostptrsToRelease + weight DeferrableDeletion.isHostptr after.applied + step.owesHostptr

theorem clearQueue_passes (hostptrsOnly : Bool) (before : Deletions) (succeeds : Bool)
    (step : ClearStep) :
    Passes before (clearQueue hostptrsOnly before succeeds step).1 step
      (clearQueue hostptrsOnly before succeeds step).2 := by
  cases step with
  | removeFrontOne =>
    simp only [clearQueue]
    cases queued : before.queue with
    | nil => constructor <;> simp [weighNext, ClearStep.holds, ClearStep.owesElement,
        ClearStep.owesHostptr, queued]
    | cons deletion queue =>
      -- The element is applied next or put back: it is held in both cases.
      dsimp only
      split
      next =>
        constructor <;> simp [weighNext, ClearStep.holds, ClearStep.owesElement,
          ClearStep.owesHostptr, queued]
        intro f
        omega
      next =>
        constructor <;> simp [weighNext, ClearStep.holds, ClearStep.owesElement,
          ClearStep.owesHostptr, queued]
        intro f
        omega
  | apply deletion =>
    cases succeeds with
    | false => constructor <;> simp [clearQueue, weighNext, ClearStep.holds, ClearStep.owesElement,
        ClearStep.owesHostptr]
    | true =>
      constructor
      · intro f
        simp [clearQueue, weighNext, ClearStep.holds]
        omega
      · simp [clearQueue, weighNext, ClearStep.owesElement]
        omega
      · simp [clearQueue, weighNext, ClearStep.owesHostptr, DeferrableDeletion.isHostptr]
        omega
  | lowerElements deletion =>
    cases host : deletion.externalHostptr with
    | false =>
      constructor <;> simp [clearQueue, weighNext, ClearStep.holds, ClearStep.owesElement,
        ClearStep.owesHostptr, host]
      omega
    | true =>
      constructor <;> simp [clearQueue, weighNext, ClearStep.holds, ClearStep.owesElement,
        ClearStep.owesHostptr, host]
      omega
  | lowerHostptrs deletion =>
    constructor <;> simp [clearQueue, weighNext, ClearStep.holds, ClearStep.owesElement,
      ClearStep.owesHostptr]
    omega
  | pushTailOne deletion =>
    constructor <;> simp [clearQueue, weighNext, ClearStep.holds, ClearStep.owesElement,
      ClearStep.owesHostptr]
  | check =>
    simp only [clearQueue]
    cases before.cleared hostptrsOnly with
    | false => constructor <;> simp [weighNext, ClearStep.holds, ClearStep.owesElement,
        ClearStep.owesHostptr]
    | true => constructor <;> simp [weighNext, ClearStep.holds, ClearStep.owesElement,
        ClearStep.owesHostptr]

/-! ### The whole deleter -/

structure State.Accounted (s : State) : Prop where
  element : ∀ f, weight f s.deletions.queue + s.weigh (ClearStep.holds f) +
    weight f s.deletions.applied = weight f s.deferred
  elements : s.deletions.elementsToRelease + weight (fun _ => 1) s.deletions.applied =
    weight (fun _ => 1) s.deferred + s.weigh ClearStep.owesElement
  hostptrs : s.deletions.hostptrsToRelease + weight DeferrableDeletion.isHostptr s.deletions.applied =
    weight DeferrableDeletion.isHostptr s.deferred + s.weigh ClearStep.owesHostptr

theorem accounted_init : State.Accounted {} := by
  constructor
  · intro f
    rfl
  · rfl
  · rfl

/-- Nothing is deferred, and no thread changes what it has in its hands. -/
theorem State.Accounted.of_eq (accounted : s.Accounted) (deletions : s'.deletions = s.deletions)
    (deferred : s'.deferred = s.deferred)
    (weigh : ∀ weighs, weighs .removeFrontOne = 0 → s'.weigh weighs = s.weigh weighs) :
    s'.Accounted := by
  constructor
  · intro f
    rw [deletions, deferred, weigh (ClearStep.holds f) rfl]
    exact accounted.element f
  · rw [deletions, deferred, weigh ClearStep.owesElement rfl]
    exact accounted.elements
  · rw [deletions, deferred, weigh ClearStep.owesHostptr rfl]
    exact accounted.hostptrs

/-- One thread takes a step of `clearQueue`. -/
theorem State.Accounted.passes (accounted : s.Accounted) {step : ClearStep}
    {next : Option ClearStep} (passes : Passes s.deletions s'.deletions step next)
    (deferred : s'.deferred = s.deferred)
    (weigh : ∀ weighs, s'.weigh weighs + weighs step = s.weigh weighs + weighNext weighs next) :
    s'.Accounted := by
  constructor
  · intro f
    have before := accounted.element f
    have passed := passes.element f
    have moved := weigh (ClearStep.holds f)
    rw [deferred]
    omega
  · have before := accounted.elements
    have passed := passes.elements
    have moved := weigh ClearStep.owesElement
    rw [deferred]
    omega
  · have before := accounted.hostptrs
    have passed := passes.hostptrs
    have moved := weigh ClearStep.owesHostptr
    rw [deferred]
    omega

/-! ### Steps -/

theorem notifyOne_deletions (s : State) : s.notifyOne.deletions = s.deletions := by
  unfold State.notifyOne
  split <;> rfl

theorem notifyOne_deferred (s : State) : s.notifyOne.deferred = s.deferred := by
  unfold State.notifyOne
  split <;> rfl

theorem notifyOne_stopping (s : State) : s.notifyOne.stopping = s.stopping := by
  unfold State.notifyOne
  split <;> rfl

theorem notifyOne_weigh (s : State) : s.notifyOne.weigh weighs = s.weigh weighs := by
  unfold State.notifyOne
  split
  next waits => simp [State.weigh, waits, Worker.weigh]
  next => rfl

theorem beginLoop_weigh (worker : s.worker.weigh weighs = 0)
    (start : weighs .removeFrontOne = 0) : s.beginLoop.weigh weighs = s.weigh weighs := by
  unfold State.beginLoop State.weigh
  simp only [worker]
  split <;> simp [Worker.weigh, start]

theorem beginStop_weigh (stopping : s.stopping = none) (start : weighs .removeFrontOne = 0) :
    s.beginStop.weigh weighs = s.weigh weighs := by
  unfold State.beginStop State.weigh
  simp only [stopping]
  split <;> simp [Stop.weigh, start]

theorem stepWorker_accounted (accounted : s.Accounted) {succeeds : Bool}
    (stepped : s.stepWorker succeeds = some s') : s'.Accounted := by
  unfold State.stepWorker at stepped
  cases worker : s.worker with
  | absent | waiting | exited => simp [worker] at stepped
  | created =>
    simp only [worker] at stepped
    cases stepped
    refine accounted.of_eq rfl rfl ?_
    intro weighs start
    refine (beginLoop_weigh (by simp [Worker.weigh]) start).trans ?_
    simp [State.weigh, worker]
  | woken =>
    simp only [worker] at stepped
    cases stepped
    refine accounted.of_eq rfl rfl ?_
    intro weighs start
    simp [State.weigh, worker, Worker.weigh, start]
  | clearing step =>
    simp only [worker] at stepped
    cases stepped
    refine accounted.passes (clearQueue_passes false s.deletions succeeds step) rfl ?_
    intro weighs
    simp only [State.weigh, worker, Worker.weigh]
    cases (clearQueue false s.deletions succeeds step).2 with
    | none =>
      simp only [weighNext]
      omega
    | some next =>
      simp only [weighNext]
      omega
  | locking =>
    simp only [worker] at stepped
    cases stepped
    split
    next =>
      refine accounted.of_eq rfl rfl ?_
      intro weighs start
      apply beginLoop_weigh _ start
      simp [worker, Worker.weigh]
    next =>
      refine accounted.of_eq rfl rfl ?_
      intro weighs start
      simp [State.weigh, worker, Worker.weigh]
  | leaving =>
    simp only [worker] at stepped
    cases stepped
    refine accounted.of_eq rfl rfl ?_
    intro weighs start
    simp [State.weigh, worker, Worker.weigh]

/-- A worker that has left its loop is not inside `clearQueue`. -/
theorem stepStop_accounted (accounted : s.Accounted)
    (left : s.exitedMainLoop = true → s.worker = .absent ∨ s.worker = .exited) {succeeds : Bool}
    (stepped : s.stepStop succeeds = some s') : s'.Accounted := by
  unfold State.stepStop at stepped
  cases stopping : s.stopping with
  | none => simp [stopping] at stepped
  | some stop =>
    simp only [stopping] at stepped
    cases stop with
    | awaitStart =>
      cases stepped
      split
      next =>
        refine accounted.of_eq rfl rfl ?_
        intro weighs start
        simp [State.weigh, stopping, Stop.weigh]
      next => exact accounted
    | notify =>
      cases stepped
      refine accounted.of_eq (notifyOne_deletions s) (notifyOne_deferred s) ?_
      intro weighs start
      rw [← notifyOne_weigh s]
      simp [State.weigh, stopping, Stop.weigh, notifyOne_stopping]
    | awaitExit =>
      cases stepped
      split
      next exited =>
        refine accounted.of_eq rfl rfl ?_
        intro weighs start
        rcases left exited with absent | exited
        · simp [State.weigh, stopping, Stop.weigh, absent, Worker.weigh, start]
        · simp [State.weigh, stopping, Stop.weigh, exited, Worker.weigh, start]
      next => exact accounted
    | drain step =>
      cases stepped
      refine accounted.passes (clearQueue_passes false s.deletions succeeds step) rfl ?_
      intro weighs
      simp only [State.weigh, stopping, Stop.weigh]
      cases (clearQueue false s.deletions succeeds step).2 with
      | none =>
        simp only [weighNext, Option.map_none]
        omega
      | some next =>
        simp only [weighNext, Option.map_some]
        omega

theorem stepDrain_accounted (accounted : s.Accounted) {i : Nat} {succeeds : Bool}
    (stepped : s.stepDrain i succeeds = some s') : s'.Accounted := by
  obtain ⟨drain, current, rfl⟩ := Option.map_eq_some_iff.mp stepped
  cases running : drain.step with
  | some step =>
    refine accounted.passes (clearQueue_passes drain.hostptrsOnly s.deletions succeeds step) rfl ?_
    intro weighs
    have exchanged := Weight.weight_set (fun drain => weighNext weighs drain.step) current
      { drain with step := (clearQueue drain.hostptrsOnly s.deletions succeeds step).2 }
    simp only [running, weighNext] at exchanged
    simp only [State.weigh]
    simp only [weighNext]
    omega
  | none =>
    simp only
    split
    next => exact accounted
    next =>
      refine accounted.of_eq rfl rfl ?_
      intro weighs start
      have removed := Weight.weight_eraseIdx (fun drain => weighNext weighs drain.step) current
      simp only [running, weighNext] at removed
      simp only [State.weigh, State.returnDrain, weighNext]
      omega

theorem deferDeletion_accounted (accounted : s.Accounted) (deletion : DeferrableDeletion)
    (stepped : s.step (.deferDeletion deletion) = some s') : s'.Accounted := by
  obtain ⟨_, equal⟩ := Option.ite_none_left_eq_some.mp stepped
  cases equal
  constructor
  · intro f
    have before := accounted.element f
    simp only [State.weigh, Weight.weight_append, Weight.weight_cons, Weight.weight_nil] at before ⊢
    omega
  · have before := accounted.elements
    simp only [State.weigh, Weight.weight_append, Weight.weight_cons, Weight.weight_nil] at before ⊢
    omega
  · have before := accounted.hostptrs
    simp only [State.weigh, Weight.weight_append, Weight.weight_cons, Weight.weight_nil,
      DeferrableDeletion.isHostptr] at before ⊢
    split <;> omega

end ComputeRuntime.DeferredDeleter
