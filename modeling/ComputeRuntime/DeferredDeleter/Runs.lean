import ComputeRuntime.DeferredDeleter.Phases
import ComputeRuntime.Library.Search

/-! Runs of the deleter: no element is lost, and none is left in the queue while the worker
sleeps. -/
namespace ComputeRuntime.DeferredDeleter

open Transition
open Weight (weight)

variable {s s' : State} {action : Action}

/-! ### What is applied -/

theorem weigh_mono {weighs weighs' : ClearStep → Nat} (le : ∀ step, weighs step ≤ weighs' step)
    (s : State) : s.weigh weighs ≤ s.weigh weighs' := by
  have next : ∀ next, weighNext weighs next ≤ weighNext weighs' next := by
    intro next
    cases next with
    | none => exact Nat.le_refl 0
    | some step => exact le step
  apply Nat.add_le_add
  · apply Nat.add_le_add
    · cases s.worker with
      | clearing step => exact le step
      | _ => exact Nat.le_refl 0
    · cases s.stopping with
      | none => exact Nat.le_refl 0
      | some stop =>
        cases stop with
        | drain step => exact le step
        | _ => exact Nat.le_refl 0
  · exact Weight.weight_mono (fun drain => next drain.step) s.drains

theorem holds_mono {f g : DeferrableDeletion → Nat} (le : ∀ deletion, f deletion ≤ g deletion)
    (step : ClearStep) : step.holds f ≤ step.holds g := by
  cases step with
  | apply deletion | pushTailOne deletion => exact le deletion
  | _ => exact Nat.le_refl 0

/-- One element is counted. -/
def indicator (deletion other : DeferrableDeletion) : Nat :=
  if other == deletion then 1 else 0

theorem weight_indicator (deletion : DeferrableDeletion) (deletions : List DeferrableDeletion) :
    weight (indicator deletion) deletions = deletions.count deletion :=
  Weight.weight_indicator (· == deletion) deletions

/-- An element that is neither queued nor in the hands of a thread is applied. -/
theorem State.Accounted.mem_applied (accounted : s.Accounted) {deletion : DeferrableDeletion}
    (deferred : deletion ∈ s.deferred) {f : DeferrableDeletion → Nat} (counted : f deletion = 1)
    (none : weight f s.deletions.queue + s.weigh (ClearStep.holds f) = 0) :
    deletion ∈ s.deletions.applied := by
  have le : ∀ other, indicator deletion other ≤ f other := by
    intro other
    unfold indicator
    split
    next same =>
      rw [eq_of_beq same, counted]
    next => exact Nat.zero_le _
  have queued := Weight.weight_mono le s.deletions.queue
  have held := weigh_mono (holds_mono le) s
  have account := accounted.element (indicator deletion)
  simp only [weight_indicator] at account queued
  have some := List.count_pos_iff.mpr deferred
  apply List.count_pos_iff.mp
  omega

/-- The counter that a drain waits for counts what is queued or in the hands of a thread. -/
theorem State.Accounted.released (accounted : s.Accounted) {hostptrsOnly : Bool}
    (released : s.deletions.areElementsReleased hostptrsOnly = true) :
    let f := if hostptrsOnly then DeferrableDeletion.isHostptr else fun _ => 1
    weight f s.deletions.queue + s.weigh (ClearStep.holds f) = 0 := by
  cases hostptrsOnly with
  | true =>
    have zero : s.deletions.hostptrsToRelease = 0 := by
      simpa [Deletions.areElementsReleased] using released
    have account := accounted.element DeferrableDeletion.isHostptr
    have counter := accounted.hostptrs
    simp only [if_true]
    omega
  | false =>
    have zero : s.deletions.elementsToRelease = 0 := by
      simpa [Deletions.areElementsReleased] using released
    have account := accounted.element fun _ => 1
    have counter := accounted.elements
    simp only [Bool.false_eq_true, if_false]
    omega

theorem State.Accounted.count_le (accounted : s.Accounted) (deletion : DeferrableDeletion) :
    s.deletions.applied.count deletion ≤ s.deferred.count deletion := by
  have account := accounted.element (indicator deletion)
  rw [weight_indicator, weight_indicator, weight_indicator] at account
  omega

/-- The elements that were deferred and are not yet applied. -/
def State.pending (s : State) : List DeferrableDeletion :=
  s.deferred.filter fun deletion => !s.deletions.applied.contains deletion

theorem applied_append_pending (accounted : s.Accounted) (phased : s.Phased) :
    (s.deletions.applied ++ s.pending).Perm s.deferred := by
  apply List.perm_iff_count.mpr
  intro deletion
  have le := accounted.count_le deletion
  have once := List.nodup_iff_count_le_one.mp phased.distinct deletion
  rw [List.count_append]
  by_cases applied : deletion ∈ s.deletions.applied
  · have some := List.count_pos_iff.mpr applied
    have absent : s.pending.count deletion = 0 := by
      apply List.count_eq_zero.mpr
      simp [State.pending, applied]
    omega
  · have present : s.pending.count deletion = s.deferred.count deletion := by
      apply List.count_filter
      simp [applied]
    have absent := List.count_eq_zero.mpr applied
    omega

/-! ### Returned drains -/

/-- A blocking drain returns when the counter that it waits for is zero, and then all elements that
it waits for are applied. -/
def Return.Sound (r : Return) : Prop :=
  r.blocking = true → r.deletions.areElementsReleased r.hostptrsOnly = true ∧
    ∀ deletion ∈ r.deferred, (r.hostptrsOnly = true → deletion.externalHostptr = true) →
      deletion ∈ r.deletions.applied

theorem State.Accounted.return_sound (accounted : s.Accounted) {drain : Drain}
    (returns : ¬ (drain.blocking && !s.deletions.areElementsReleased drain.hostptrsOnly) = true) :
    Return.Sound ⟨drain.blocking, drain.hostptrsOnly, s.deletions, s.deferred⟩ := by
  intro blocking
  simp only at blocking ⊢
  have released : s.deletions.areElementsReleased drain.hostptrsOnly = true := by
    simpa [blocking] using returns
  constructor
  · exact released
  · intro deletion deferred wanted
    apply accounted.mem_applied deferred _ (accounted.released released)
    cases host : drain.hostptrsOnly with
    | true => simp [DeferrableDeletion.isHostptr, wanted host]
    | false => rfl

/-- Only drains return. -/
theorem step_returns (accounted : s.Accounted) (sound : ∀ r ∈ s.returns, r.Sound)
    (stepped : s.step action = some s') : ∀ r ∈ s'.returns, r.Sound := by
  cases action with
  | deferDeletion deletion =>
    obtain ⟨_, equal⟩ := Option.ite_none_left_eq_some.mp stepped
    cases equal
    exact sound
  | notify =>
    obtain ⟨_, equal⟩ := Option.ite_none_left_eq_some.mp stepped
    cases equal
    rw [notifyOne_fields]
    exact sound
  | beginDrain blocking hostptrsOnly =>
    obtain ⟨_, equal⟩ := Option.ite_none_left_eq_some.mp stepped
    cases equal
    exact sound
  | stepDrain i succeeds =>
    obtain ⟨drain, current, rfl⟩ := Option.map_eq_some_iff.mp stepped
    cases drain.step with
    | some step => exact sound
    | none =>
      simp only
      split
      next => exact sound
      next returns =>
        intro r member
        rcases List.mem_append.mp member with before | now
        · exact sound r before
        · cases List.mem_singleton.mp now
          exact accounted.return_sound returns
  | addClient =>
    obtain ⟨_, started⟩ := Option.ite_none_left_eq_some.mp stepped
    split at started <;> cases started <;> exact sound
  | removeClient =>
    obtain ⟨_, started⟩ := Option.ite_none_left_eq_some.mp stepped
    cases started
    split <;> exact sound
  | destroy =>
    obtain ⟨_, equal⟩ := Option.ite_none_left_eq_some.mp stepped
    cases equal
    exact sound
  | stepStop succeeds =>
    have stepped : s.stepStop succeeds = some s' := stepped
    unfold State.stepStop at stepped
    split at stepped
    next => cases stepped
    next =>
      cases stepped
      split <;> exact sound
    next =>
      cases stepped
      rw [notifyOne_fields]
      exact sound
    next =>
      cases stepped
      split <;> exact sound
    next =>
      cases stepped
      exact sound
  | stepWorker succeeds =>
    have worker := stepWorker_spec stepped
    rw [worker.frame]
    exact sound
  | wakeSpuriously =>
    obtain ⟨_, equal⟩ := Option.ite_none_right_eq_some.mp stepped
    cases equal
    exact sound

/-! ### Sleep -/

/-- A drain of all elements is inside `clearQueue`. -/
def State.Clearing (s : State) : Prop :=
  (∃ drain ∈ s.drains, drain.hostptrsOnly = false ∧ drain.step.isSome = true) ∨
    ∃ step, s.stopping = some (.drain step)

/-- The worker is up or about to be notified, or somebody else empties the queue. -/
def State.Awake (s : State) : Prop :=
  s.worker ≠ .waiting ∨ 0 < s.notifiers ∨ s.stopping = some .notify ∨ s.Clearing

/-- What is queued is taken care of. -/
def State.Attended (s : State) : Prop :=
  s.Awake ∨ s.deletions.queue = [] ∨
    (∀ deletion ∈ s.deletions.queue, deletion.externalHostptr = true) ∧
      ∃ drain ∈ s.drains, drain.hostptrsOnly = true ∧ drain.step.isSome = true

/-- The worker waits for a notification that is not on its way, nobody is inside `drain`, and an
element is queued. -/
def State.Stranded (s : State) : Prop :=
  s.worker = .waiting ∧ s.notifiers = 0 ∧ s.stopping ≠ some .notify ∧
    (s.drains = [] ∧ ∀ step, s.stopping ≠ some (.drain step)) ∧ s.deletions.queue ≠ []

/-- A drain of host pointer elements puts another element back only while the queue is taken care
of by the worker or by a drain of all elements. -/
def Allowed (s : State) : Action → Prop
  | .stepDrain i _ => ∀ drain, s.drains[i]? = some drain → drain.hostptrsOnly = true →
      ∀ deletion, drain.step = some (.pushTailOne deletion) → deletion.externalHostptr = false →
        s.Awake
  | _ => True

theorem State.Attended.not_stranded (attended : s.Attended) : ¬ s.Stranded := by
  rintro ⟨waits, notifiers, notify, ⟨drains, stop⟩, queued⟩
  rcases attended with (up | pending | stopping | clearing) | empty | ⟨_, drain, member, _⟩
  · exact up waits
  · omega
  · exact notify stopping
  · rcases clearing with ⟨drain, member, _⟩ | ⟨step, draining⟩
    · simp [drains] at member
    · exact stop step draining
  · exact queued empty
  · simp [drains] at member

theorem notifyOne_awake (s : State) : s.notifyOne.worker ≠ .waiting := by
  unfold State.notifyOne
  split
  next => nofun
  next awake => exact awake

/-- Nothing is queued, and what takes care of the queue goes on. -/
theorem State.Attended.of_le (attended : s.Attended)
    (worker : s.worker ≠ .waiting → s'.worker ≠ .waiting) (notifiers : s.notifiers ≤ s'.notifiers)
    (stopping : s.stopping = none ∨ s'.stopping = s.stopping)
    (drains : ∀ drain ∈ s.drains, drain ∈ s'.drains)
    (queue : s'.deletions.queue = s.deletions.queue) : s'.Attended := by
  rcases attended with (up | pending | notify | clearing) | empty | ⟨host, drain, member, runs⟩
  · exact .inl (.inl (worker up))
  · exact .inl (.inr (.inl (Nat.lt_of_lt_of_le pending notifiers)))
  · rcases stopping with none | same
    · simp [none] at notify
    · exact .inl (.inr (.inr (.inl (same.trans notify))))
  · rcases clearing with ⟨drain, member, runs⟩ | ⟨step, draining⟩
    · exact .inl (.inr (.inr (.inr (.inl ⟨drain, drains drain member, runs⟩))))
    · rcases stopping with none | same
      · simp [none] at draining
      · exact .inl (.inr (.inr (.inr (.inr ⟨step, same.trans draining⟩))))
  · exact .inr (.inl (queue.trans empty))
  · exact .inr (.inr ⟨queue ▸ host, drain, drains drain member, runs⟩)

/-- What a thread that goes on inside `clearQueue` does to the queue. -/
theorem clearQueue_queue {hostptrsOnly succeeds : Bool} {before : Deletions} {step : ClearStep} :
    (∀ deletion ∈ (clearQueue hostptrsOnly before succeeds step).1.queue,
      deletion ∈ before.queue ∨ step = .pushTailOne deletion) ∧
    ((clearQueue hostptrsOnly before succeeds step).2 = none →
      (clearQueue hostptrsOnly before succeeds step).1 = before ∧
        before.cleared hostptrsOnly = true) := by
  cases step with
  | removeFrontOne =>
    cases queued : before.queue with
    | nil => simp [clearQueue, queued]
    | cons first rest =>
      simp only [clearQueue, queued]
      constructor
      · intro deletion member
        exact .inl (List.mem_cons_of_mem first member)
      · simp
  | apply deletion =>
    simp only [clearQueue]
    split <;> exact ⟨fun _ member => .inl member, (by simp)⟩
  | lowerElements deletion => exact ⟨fun _ member => .inl member, by simp [clearQueue]⟩
  | lowerHostptrs deletion => exact ⟨fun _ member => .inl member, by simp [clearQueue]⟩
  | pushTailOne deletion =>
    constructor
    · intro other member
      rcases List.mem_append.mp member with old | new
      · exact .inl old
      · cases List.mem_singleton.mp new
        exact .inr rfl
    · simp [clearQueue]
  | check =>
    constructor
    · exact fun _ member => .inl member
    · intro left
      refine ⟨rfl, ?_⟩
      simp only [clearQueue] at left
      split at left
      next cleared => exact cleared
      next => cases left

/-- Host pointer elements cannot be queued when their counter is zero. -/
theorem State.Accounted.queue_of_host (accounted : s.Accounted)
    (host : ∀ deletion ∈ s.deletions.queue, deletion.externalHostptr = true)
    (released : s.deletions.areElementsReleased true = true) : s.deletions.queue = [] := by
  have none := accounted.released released
  simp only [if_true] at none
  cases queued : s.deletions.queue with
  | nil => rfl
  | cons deletion rest =>
    have isHost := host deletion (queued ▸ List.mem_cons_self)
    rw [queued, Weight.weight_cons] at none
    simp [DeferrableDeletion.isHostptr, isHost] at none

theorem State.Awake.set (awake : s.Awake) {i : Nat} {drain new : Drain}
    (current : s.drains[i]? = some drain) (host : drain.hostptrsOnly = true)
    (deletions : Deletions) :
    State.Awake { s with deletions := deletions, drains := s.drains.set i new } := by
  rcases awake with up | pending | notify | ⟨other, member, full, runs⟩ | draining
  · exact .inl up
  · exact .inr (.inl pending)
  · exact .inr (.inr (.inl notify))
  · rcases Search.mem_set_or current new member with stays | rfl
    · exact .inr (.inr (.inr (.inl ⟨other, stays, full, runs⟩)))
    · simp [host] at full
  · exact .inr (.inr (.inr (.inr draining)))

theorem stepDrain_attended (accounted : s.Accounted) (attended : s.Attended) {i : Nat}
    {succeeds : Bool} (allowed : Allowed s (.stepDrain i succeeds))
    (stepped : s.stepDrain i succeeds = some s') : s'.Attended := by
  obtain ⟨drain, current, rfl⟩ := Option.map_eq_some_iff.mp stepped
  cases running : drain.step with
  | none =>
    simp only
    split
    next => exact attended
    next =>
      -- The drain that returns has left `clearQueue` before.
      have stays : ∀ other ∈ s.drains, other.step.isSome = true → other ∈ s.drains.eraseIdx i := by
        intro other member runs
        rcases Search.mem_eraseIdx_or current member with stays | rfl
        · exact stays
        · simp [running] at runs
      rcases attended with (up | pending | notify | clearing) | empty | ⟨host, other, member, runs⟩
      · exact .inl (.inl up)
      · exact .inl (.inr (.inl pending))
      · exact .inl (.inr (.inr (.inl notify)))
      · rcases clearing with ⟨other, member, full, runs⟩ | draining
        · exact .inl (.inr (.inr (.inr (.inl ⟨other, stays other member runs, full, runs⟩))))
        · exact .inl (.inr (.inr (.inr (.inr draining))))
      · exact .inr (.inl empty)
      · exact .inr (.inr ⟨host, other, stays other member runs.2, runs⟩)
  | some step =>
    simp only
    have queue := @clearQueue_queue drain.hostptrsOnly succeeds s.deletions step
    have new := Search.mem_set_self current
      { drain with step := (clearQueue drain.hostptrsOnly s.deletions succeeds step).2 }
    cases host : drain.hostptrsOnly with
    | false =>
      rw [host] at queue new
      cases next : (clearQueue false s.deletions succeeds step).2 with
      | none =>
        right
        left
        exact queue_of_left next
      | some later =>
        rw [next] at new
        exact .inl (.inr (.inr (.inr (.inl ⟨_, new, rfl, rfl⟩))))
    | true =>
      rw [host] at queue new
      by_cases awake : s.Awake
      · exact .inl (awake.set current host _)
      · have before : ∀ deletion ∈ s.deletions.queue, deletion.externalHostptr = true := by
          rcases attended with up | empty | ⟨host, _⟩
          · exact absurd up awake
          · simp [empty]
          · exact host
        have after : ∀ deletion ∈ (clearQueue true s.deletions succeeds step).1.queue,
            deletion.externalHostptr = true := by
          intro deletion member
          rcases queue.1 deletion member with old | put
          · exact before deletion old
          · apply Bool.not_eq_false _ |>.mp
            intro other
            exact awake (allowed drain current host deletion (put ▸ running) other)
        cases next : (clearQueue true s.deletions succeeds step).2 with
        | none =>
          obtain ⟨same, cleared⟩ := queue.2 next
          have empty : s.deletions.queue = [] := by
            apply accounted.queue_of_host before
            simpa [Deletions.cleared] using cleared
          right
          left
          simp only [same]
          exact empty
        | some later =>
          rw [next] at new
          exact .inr (.inr ⟨after, _, new, rfl, rfl⟩)

theorem stepStop_attended (attended : s.Attended) {succeeds : Bool}
    (stepped : s.stepStop succeeds = some s') : s'.Attended := by
  unfold State.stepStop at stepped
  split at stepped
  next => cases stepped
  next =>
    cases stepped
    split
    next => exact .inl (.inr (.inr (.inl rfl)))
    next => exact attended
  next =>
    cases stepped
    exact .inl (.inl (notifyOne_awake s))
  next =>
    cases stepped
    split
    next => exact .inl (.inr (.inr (.inr (.inr ⟨_, rfl⟩))))
    next => exact attended
  next step _ =>
    cases stepped
    cases next : (clearQueue false s.deletions succeeds step).2 with
    | none =>
      right
      left
      exact queue_of_left next
    | some later =>
      exact .inl (.inr (.inr (.inr (.inr ⟨later, congrArg (Option.map Stop.drain) next⟩))))

theorem step_attended (accounted : s.Accounted) (attended : s.Attended) (allowed : Allowed s action)
    (stepped : s.step action = some s') : s'.Attended := by
  cases action with
  | deferDeletion deletion =>
    obtain ⟨_, equal⟩ := Option.ite_none_left_eq_some.mp stepped
    cases equal
    exact .inl (.inr (.inl (Nat.succ_pos _)))
  | notify =>
    obtain ⟨_, equal⟩ := Option.ite_none_left_eq_some.mp stepped
    cases equal
    exact .inl (.inl (notifyOne_awake s))
  | beginDrain blocking hostptrsOnly =>
    obtain ⟨_, equal⟩ := Option.ite_none_left_eq_some.mp stepped
    cases equal
    exact attended.of_le id (Nat.le_refl _) (.inr rfl)
      (fun _ member => List.mem_append_left _ member) rfl
  | stepDrain i succeeds => exact stepDrain_attended accounted attended allowed stepped
  | addClient =>
    obtain ⟨_, started⟩ := Option.ite_none_left_eq_some.mp stepped
    split at started
    next =>
      cases started
      exact .inl (.inl nofun)
    next =>
      cases started
      exact attended.of_le id (Nat.le_refl _) (.inr rfl) (fun _ member => member) rfl
  | removeClient =>
    obtain ⟨guard, started⟩ := Option.ite_none_left_eq_some.mp stepped
    simp only [Bool.or_eq_true, not_or, Bool.not_eq_true, Option.isSome_eq_false_iff,
      Option.isNone_iff_eq_none] at guard
    cases started
    split
    next => exact attended.of_le id (Nat.le_refl _) (.inl guard.2) (fun _ member => member) rfl
    next => exact attended.of_le id (Nat.le_refl _) (.inr rfl) (fun _ member => member) rfl
  | destroy =>
    obtain ⟨guard, equal⟩ := Option.ite_none_left_eq_some.mp stepped
    cases equal
    simp only [Bool.or_eq_true, not_or, Bool.not_eq_true, Option.isSome_eq_false_iff,
      Option.isNone_iff_eq_none] at guard
    exact attended.of_le id (Nat.le_refl _) (.inl guard.1.1.2) (fun _ member => member) rfl
  | stepStop succeeds => exact stepStop_attended attended stepped
  | stepWorker succeeds =>
    have worker := stepWorker_spec stepped
    by_cases waits : s'.worker = .waiting
    · exact .inr (.inl (worker.asleep waits))
    · exact .inl (.inl waits)
  | wakeSpuriously =>
    obtain ⟨_, equal⟩ := Option.ite_none_right_eq_some.mp stepped
    cases equal
    exact .inl (.inl nofun)

/-! ### Runs -/

/-- The elements are applied once each, and none is left when the deleter is destroyed. A counter
lags behind only by the threads that have applied an element and not yet lowered it. -/
structure State.Sound (s : State) : Prop where
  once : s.deletions.applied.Nodup
  deferred : ∀ deletion ∈ s.deletions.applied, deletion ∈ s.deferred
  destroyed : s.destroyed = true → s.deletions.applied.Perm s.deferred
  elements : s.deletions.elementsToRelease = s.pending.length + s.weigh ClearStep.owesElement
  hostptrs : s.deletions.hostptrsToRelease =
    s.pending.countP (·.externalHostptr) + s.weigh ClearStep.owesHostptr
  returns : ∀ r ∈ s.returns, r.Sound

theorem weigh_destroyed (phased : s.Phased) (destroyed : s.destroyed = true)
    (weighs : ClearStep → Nat) : s.weigh weighs = 0 := by
  obtain ⟨destroying, stopped, absent, _⟩ := phased.emptied destroyed
  simp [State.weigh, stopped, absent, (phased.idle destroying).1, Worker.weigh, Stop.weigh]

theorem State.Accounted.sound (accounted : s.Accounted) (phased : s.Phased)
    (returns : ∀ r ∈ s.returns, r.Sound) : s.Sound := by
  have split := applied_append_pending accounted phased
  constructor
  · have nodup := split.nodup_iff.mpr phased.distinct
    exact (List.nodup_append.mp nodup).1
  · intro deletion member
    exact split.mem_iff.mp (List.mem_append_left _ member)
  · intro destroyed
    apply List.perm_iff_count.mpr
    intro deletion
    have account := accounted.element (indicator deletion)
    simp only [weight_indicator, weigh_destroyed phased destroyed,
      (phased.emptied destroyed).2.2.2, List.count_nil] at account
    omega
  · have account := accounted.elements
    have whole := Weight.weight_perm (w := fun _ => 1) split
    simp only [Weight.weight_append, Weight.weight_one] at account whole
    omega
  · have account := accounted.hostptrs
    have whole := Weight.weight_perm (w := DeferrableDeletion.isHostptr) split
    have counted : weight DeferrableDeletion.isHostptr s.pending =
        s.pending.countP (·.externalHostptr) := Weight.weight_indicator _ _
    rw [Weight.weight_append, counted] at whole
    omega
  · exact returns

theorem reachable_phased (reachable : Reachable system s) :
    s.Accounted ∧ s.Phased ∧ ∀ r ∈ s.returns, r.Sound := by
  induction reachable with
  | start initial =>
    cases initial
    exact ⟨accounted_init, phased_init, nofun⟩
  | next _ stepped ih =>
    obtain ⟨accounted, phased, returns⟩ := ih
    exact ⟨step_accounted accounted phased stepped, step_phased phased stepped,
      step_returns accounted returns stepped⟩

theorem reachable_attended (reachable : Reachable (system.restrict Allowed) s) : s.Attended := by
  induction reachable with
  | start initial =>
    cases initial
    exact .inr (.inl rfl)
  | next before stepped ih =>
    have accounted := (reachable_phased before.of_restrict).1
    exact step_attended accounted ih stepped.1 stepped.2

/-- No run loses an element, and none is stranded in the runs whose drains of host pointer elements
put others back only while the queue is taken care of. -/
theorem reachable_deletions_sound {s : State} (reachable : Reachable system s) :
    s.Sound ∧ (Reachable (system.restrict Allowed) s → ¬ s.Stranded) := by
  obtain ⟨accounted, phased, returns⟩ := reachable_phased reachable
  constructor
  · exact accounted.sound phased returns
  · intro restricted
    exact (reachable_attended restricted).not_stranded

/-- A run from the start. -/
def run (actions : List Action) : Option State :=
  actions.foldlM State.step {}

theorem reachable_run {actions : List Action} {s : State} (ran : run actions = some s) :
    Reachable system s :=
  Reachable.foldlM (fun _ _ _ stepped => stepped) (.start rfl) ran

def hostptrDeletion : DeferrableDeletion := ⟨0, true⟩

def otherDeletion : DeferrableDeletion := ⟨1, false⟩

/-- A step; drains take theirs only while a notification is on its way. -/
def State.stepNotified (s : State) : Action → Option State
  | .stepDrain i succeeds => if 0 < s.notifiers then s.stepDrain i succeeds else none
  | action => s.step action

theorem stepNotified_allowed (stepped : s.stepNotified action = some s') :
    Allowed s action ∧ s.step action = some s' := by
  cases action with
  | stepDrain i succeeds =>
    obtain ⟨notified, stepped⟩ := Option.ite_none_right_eq_some.mp stepped
    exact ⟨fun _ _ _ _ _ _ => .inr (.inl notified), stepped⟩
  | _ => exact ⟨trivial, stepped⟩

/-- A drain of host pointer elements takes the only element out and puts it back before the worker
is notified, which applies it at the second attempt and goes to sleep. -/
def workerRun : List Action :=
  [.addClient, .stepWorker true, .deferDeletion otherDeletion, .beginDrain true true] ++
    List.replicate 4 (.stepDrain 0 true) ++ [.notify] ++
      [true, true, false, true, true, true, true, true, true, true].map .stepWorker

theorem reachable_deletions_sound_applied :
    ∃ s, workerRun.foldlM State.stepNotified {} = some s ∧ s.worker = .waiting ∧
      s.deletions.applied = [otherDeletion] ∧ s.returns.length = 1 ∧ s.Sound ∧ ¬ s.Stranded := by
  have ran : (workerRun.foldlM State.stepNotified {}).any (fun s => s.worker = .waiting ∧
      s.deletions.applied = [otherDeletion] ∧ s.returns.length = 1) = true := by
    decide +kernel
  obtain ⟨s, ran, state⟩ := (Option.any_eq_true _ _).mp ran
  obtain ⟨waits, applied, returned⟩ := of_decide_eq_true state
  have allowed : Reachable (system.restrict Allowed) s :=
    Reachable.foldlM (fun _ _ _ stepped => stepNotified_allowed stepped) (.start rfl) ran
  obtain ⟨sound, unstranded⟩ := reachable_deletions_sound allowed.of_restrict
  exact ⟨s, ran, waits, applied, returned, sound, unstranded allowed⟩

/-- A drain of host pointer elements takes the only element out, the worker finds nothing and goes
to sleep, and the drain puts the element back and returns. -/
def strandingRun : List Action :=
  [.addClient, .stepWorker true, .deferDeletion otherDeletion, .beginDrain true true,
    .stepDrain 0 true, .notify, .stepWorker true, .stepWorker true, .stepWorker true,
    .stepWorker true, .stepDrain 0 true, .stepDrain 0 true, .stepDrain 0 true]

/-- The worker has applied a host pointer element and lowered one of the counters. -/
def loweringRun : List Action :=
  [.addClient, .stepWorker true, .deferDeletion hostptrDeletion, .notify, .stepWorker true,
    .stepWorker true, .stepWorker true, .stepWorker true]

/-- A run strands an element, and a counter does not count what is not yet applied. -/
theorem deletions_unsound_stated :
    (∃ s, Reachable system s ∧ s.Stranded) ∧
      ∃ s, Reachable system s ∧
        s.deletions.hostptrsToRelease ≠ s.pending.countP (·.externalHostptr) := by
  constructor
  · have ran : (run strandingRun).any (fun s => s.worker = .waiting ∧ s.notifiers = 0 ∧
        s.stopping = none ∧ s.drains = [] ∧ s.deletions.queue = [otherDeletion]) = true := by
      decide +kernel
    obtain ⟨s, ran, state⟩ := (Option.any_eq_true _ _).mp ran
    obtain ⟨waits, notifiers, stopping, drains, queue⟩ := of_decide_eq_true state
    refine ⟨s, reachable_run ran, waits, notifiers, ?_, ⟨drains, ?_⟩, ?_⟩
    · simp [stopping]
    · simp [stopping]
    · simp [queue]
  · have ran : (run loweringRun).any (fun s => s.deletions.hostptrsToRelease = 1 ∧
        s.pending = []) = true := by
      decide +kernel
    obtain ⟨s, ran, state⟩ := (Option.any_eq_true _ _).mp ran
    obtain ⟨counter, pending⟩ := of_decide_eq_true state
    refine ⟨s, reachable_run ran, ?_⟩
    rw [counter, pending]
    decide

end ComputeRuntime.DeferredDeleter
