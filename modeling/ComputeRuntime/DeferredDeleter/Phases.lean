import ComputeRuntime.DeferredDeleter.Accounting

/-! What holds in each phase of the worker and of a stop, and that every step keeps it. -/
namespace ComputeRuntime.DeferredDeleter

variable {s s' : State} {action : Action}

/-! ### Phases -/

structure State.Phased (s : State) : Prop where
  left : s.exitedMainLoop = true → s.worker = .absent ∨ s.worker = .exited
  draining : ∀ step, s.stopping = some (.drain step) → s.worker = .absent
  idle : s.destroying = true → s.drains = [] ∧ s.notifiers = 0
  ended : s.destroying = true → s.stopping = none → s.destroyed = true
  emptied : s.destroyed = true →
    s.destroying = true ∧ s.stopping = none ∧ s.worker = .absent ∧ s.deletions.queue = []
  distinct : s.deferred.Nodup

theorem phased_init : State.Phased {} where
  left := nofun
  draining := nofun
  idle := nofun
  ended := nofun
  emptied := nofun
  distinct := List.nodup_nil

/-- A thread leaves `clearQueue(false)` when it sees the queue empty. -/
theorem queue_of_left {before : Deletions} {succeeds : Bool} {step : ClearStep}
    (left : (clearQueue false before succeeds step).2 = none) :
    (clearQueue false before succeeds step).1.queue = [] := by
  cases step with
  | check =>
    simp only [clearQueue] at left ⊢
    split at left
    next cleared => exact List.isEmpty_iff.mp cleared
    next => cases left
  | removeFrontOne =>
    simp only [clearQueue] at left
    split at left <;> cases left
  | apply deletion =>
    simp only [clearQueue] at left
    split at left <;> cases left
  | lowerElements deletion => cases left
  | lowerHostptrs deletion => cases left
  | pushTailOne deletion => cases left

/-- What a step of the worker changes, and when it takes one. -/
structure WorkerStep (s s' : State) : Prop where
  runs : s.worker ≠ .absent ∧ s.worker ≠ .exited
  frame : s' = { s with
    deletions := s'.deletions
    doWorkInBackground := s'.doWorkInBackground
    worker := s'.worker
    exitedMainLoop := s'.exitedMainLoop }
  left : s'.exitedMainLoop = s.exitedMainLoop ∨ s'.worker = .exited
  -- It goes to sleep on an empty queue only.
  asleep : s'.worker = .waiting → s'.deletions.queue = []

theorem beginLoop_asleep (s : State) :
    s.beginLoop.worker = .waiting → s.beginLoop.deletions.queue = [] := by
  unfold State.beginLoop
  simp only
  split
  next empty => exact fun _ => List.isEmpty_iff.mp empty
  next => nofun

theorem stepWorker_spec {succeeds : Bool} (stepped : s.stepWorker succeeds = some s') :
    WorkerStep s s' := by
  unfold State.stepWorker at stepped
  cases worker : s.worker with
  | absent | waiting | exited => simp [worker] at stepped
  | created =>
    simp only [worker] at stepped
    cases stepped
    exact ⟨by simp [worker], rfl, .inl rfl, beginLoop_asleep _⟩
  | woken =>
    simp only [worker] at stepped
    cases stepped
    exact ⟨by simp [worker], rfl, .inl rfl, nofun⟩
  | clearing step =>
    simp only [worker] at stepped
    cases stepped
    refine ⟨by simp [worker], rfl, .inl rfl, ?_⟩
    simp only
    split <;> nofun
  | locking =>
    simp only [worker] at stepped
    cases stepped
    split
    next => exact ⟨by simp [worker], rfl, .inl rfl, beginLoop_asleep _⟩
    next => exact ⟨by simp [worker], rfl, .inl rfl, nofun⟩
  | leaving =>
    simp only [worker] at stepped
    cases stepped
    exact ⟨by simp [worker], rfl, .inr rfl, nofun⟩

theorem stepWorker_phased (phased : s.Phased) {succeeds : Bool}
    (stepped : s.stepWorker succeeds = some s') : s'.Phased := by
  obtain ⟨⟨present, runs⟩, frame, left, _⟩ := stepWorker_spec stepped
  rw [frame]
  constructor
  · intro exited
    rcases left with same | exits
    · rw [same] at exited
      rcases phased.left exited with absent | exited
      · exact absurd absent present
      · exact absurd exited runs
    · exact .inr exits
  · intro step draining
    exact absurd (phased.draining step draining) present
  · exact phased.idle
  · exact phased.ended
  · intro destroyed
    exact absurd (phased.emptied destroyed).2.2.1 present
  · exact phased.distinct

theorem notifyOne_phased (phased : s.Phased) : s.notifyOne.Phased := by
  unfold State.notifyOne
  split
  next waits =>
    have awake : s.worker ≠ .absent ∧ s.worker ≠ .exited := by simp [waits]
    refine ⟨?_, ?_, phased.idle, phased.ended, ?_, phased.distinct⟩
    · intro exited
      rcases phased.left exited with absent | exited
      · exact absurd absent awake.1
      · exact absurd exited awake.2
    · intro step draining
      exact absurd (phased.draining step draining) awake.1
    · intro destroyed
      exact absurd (phased.emptied destroyed).2.2.1 awake.1
  next => exact phased

theorem notifyOne_fields (s : State) : s.notifyOne = { s with worker := s.notifyOne.worker } := by
  unfold State.notifyOne
  split <;> rfl

theorem stepStop_phased (phased : s.Phased) {succeeds : Bool}
    (stepped : s.stepStop succeeds = some s') : s'.Phased := by
  unfold State.stepStop at stepped
  cases stopping : s.stopping with
  | none => simp [stopping] at stepped
  | some stop =>
    have alive : s.destroyed ≠ true := by
      intro destroyed
      have stopped := (phased.emptied destroyed).2.1
      simp [stopping] at stopped
    simp only [stopping] at stepped
    cases stop with
    | awaitStart =>
      cases stepped
      split
      next => exact ⟨phased.left, nofun, phased.idle, nofun, fun destroyed => absurd destroyed alive,
        phased.distinct⟩
      next => exact phased
    | notify =>
      cases stepped
      have notified := notifyOne_phased phased
      refine ⟨notified.left, nofun, notified.idle, nofun, ?_, notified.distinct⟩
      intro destroyed
      rw [notifyOne_fields] at destroyed
      exact absurd destroyed alive
    | awaitExit =>
      cases stepped
      split
      next => exact ⟨fun _ => .inl rfl, fun _ _ => rfl, phased.idle, nofun,
        fun destroyed => absurd destroyed alive, phased.distinct⟩
      next => exact phased
    | drain step =>
      cases stepped
      have absent := phased.draining step stopping
      refine ⟨phased.left, fun _ _ => absent, phased.idle, ?_, ?_, phased.distinct⟩
      · intro destroying ended
        have left := Option.map_eq_none_iff.mp ended
        simpa [left] using destroying
      · intro destroyed
        obtain ⟨destroying, left⟩ := Bool.and_eq_true_iff.mp destroyed
        have left := Option.isNone_iff_eq_none.mp left
        exact ⟨destroying, by simp [left], absent, queue_of_left left⟩

theorem beginStop_phased (phased : s.Phased) (alive : s.destroying = false) :
    s.beginStop.Phased := by
  unfold State.beginStop
  have undestroyed : s.destroyed ≠ true := by
    intro destroyed
    have destroying := (phased.emptied destroyed).1
    simp [alive] at destroying
  refine ⟨phased.left, ?_, phased.idle, nofun, fun destroyed => absurd destroyed undestroyed,
    phased.distinct⟩
  intro step draining
  simp only [Option.some.injEq] at draining
  split at draining
  next absent => exact absent
  next => cases draining

theorem stepDrain_phased (phased : s.Phased) {i : Nat} {succeeds : Bool}
    (stepped : s.stepDrain i succeeds = some s') : s'.Phased := by
  obtain ⟨drain, current, rfl⟩ := Option.map_eq_some_iff.mp stepped
  have alive : s.destroying ≠ true := by
    intro destroying
    simp [(phased.idle destroying).1] at current
  have undestroyed : s.destroyed ≠ true := fun destroyed => alive (phased.emptied destroyed).1
  cases drain.step with
  | some step => exact ⟨phased.left, phased.draining, fun destroying => absurd destroying alive,
      phased.ended, fun destroyed => absurd destroyed undestroyed, phased.distinct⟩
  | none =>
    simp only
    split
    next => exact phased
    next => exact ⟨phased.left, phased.draining, fun destroying => absurd destroying alive,
      phased.ended, phased.emptied, phased.distinct⟩

theorem step_phased (phased : s.Phased) (stepped : s.step action = some s') : s'.Phased := by
  cases action with
  | deferDeletion deletion =>
    obtain ⟨guard, equal⟩ := Option.ite_none_left_eq_some.mp stepped
    cases equal
    simp only [Bool.or_eq_true, not_or, Bool.not_eq_true, List.contains_eq_mem,
      decide_eq_false_iff_not] at guard
    obtain ⟨alive, fresh⟩ := guard
    refine ⟨phased.left, phased.draining, ?_, phased.ended, ?_, ?_⟩
    · intro destroying
      simp [alive] at destroying
    · intro destroyed
      have destroying := (phased.emptied destroyed).1
      simp [alive] at destroying
    · exact List.nodup_append.mpr ⟨phased.distinct, List.nodup_singleton _, by
        intro other member _ same
        cases List.mem_singleton.mp same
        exact fun equal => fresh (equal ▸ member)⟩
  | notify =>
    obtain ⟨pending, equal⟩ := Option.ite_none_left_eq_some.mp stepped
    cases equal
    have notified := notifyOne_phased phased
    refine ⟨notified.left, notified.draining, ?_, notified.ended, notified.emptied,
      notified.distinct⟩
    intro destroying
    rw [notifyOne_fields] at destroying
    exact absurd (phased.idle destroying).2 pending
  | beginDrain blocking hostptrsOnly =>
    obtain ⟨alive, equal⟩ := Option.ite_none_left_eq_some.mp stepped
    cases equal
    exact ⟨phased.left, phased.draining, fun destroying => absurd destroying alive, phased.ended,
      phased.emptied, phased.distinct⟩
  | stepDrain i succeeds => exact stepDrain_phased phased stepped
  | addClient =>
    obtain ⟨guard, started⟩ := Option.ite_none_left_eq_some.mp stepped
    simp only [Bool.or_eq_true, not_or, Bool.not_eq_true, Option.isSome_eq_false_iff,
      Option.isNone_iff_eq_none] at guard
    have undestroyed : s.destroyed ≠ true := by
      intro destroyed
      have destroying := (phased.emptied destroyed).1
      simp [guard.1] at destroying
    split at started
    next =>
      cases started
      refine ⟨nofun, ?_, phased.idle, phased.ended, fun destroyed => absurd destroyed undestroyed,
        phased.distinct⟩
      intro step draining
      simp [guard.2] at draining
    next =>
      cases started
      exact ⟨phased.left, phased.draining, phased.idle, phased.ended, phased.emptied,
        phased.distinct⟩
  | removeClient =>
    obtain ⟨guard, started⟩ := Option.ite_none_left_eq_some.mp stepped
    simp only [Bool.or_eq_true, not_or, Bool.not_eq_true] at guard
    have lowered : State.Phased { s with numClients := s.numClients - 1 } :=
      ⟨phased.left, phased.draining, phased.idle, phased.ended, phased.emptied, phased.distinct⟩
    cases started
    split
    next => exact beginStop_phased lowered guard.1
    next => exact lowered
  | destroy =>
    obtain ⟨guard, equal⟩ := Option.ite_none_left_eq_some.mp stepped
    cases equal
    simp only [Bool.or_eq_true, not_or, Bool.not_eq_true, Bool.not_eq_eq_eq_not, bne_iff_ne, ne_eq,
      not_not] at guard
    obtain ⟨⟨⟨alive, _⟩, drains⟩, notifiers⟩ := guard
    have drains : s.drains = [] := by simpa using drains
    have begun := beginStop_phased phased alive
    refine ⟨begun.left, begun.draining, fun _ => ⟨drains, notifiers⟩, nofun, ?_,
      begun.distinct⟩
    intro destroyed
    have destroying := (phased.emptied destroyed).1
    simp [alive] at destroying
  | stepStop succeeds => exact stepStop_phased phased stepped
  | stepWorker succeeds => exact stepWorker_phased phased stepped
  | wakeSpuriously =>
    obtain ⟨waits, equal⟩ := Option.ite_none_right_eq_some.mp stepped
    cases equal
    have notified := notifyOne_phased phased
    unfold State.notifyOne at notified
    rw [if_pos waits] at notified
    exact notified

/-! ### All elements -/

theorem step_accounted (accounted : s.Accounted) (phased : s.Phased)
    (stepped : s.step action = some s') : s'.Accounted := by
  cases action with
  | deferDeletion deletion => exact deferDeletion_accounted accounted deletion stepped
  | notify =>
    obtain ⟨_, equal⟩ := Option.ite_none_left_eq_some.mp stepped
    cases equal
    exact accounted.of_eq (notifyOne_deletions s) (notifyOne_deferred s) fun _ _ => notifyOne_weigh s
  | beginDrain blocking hostptrsOnly =>
    obtain ⟨_, equal⟩ := Option.ite_none_left_eq_some.mp stepped
    cases equal
    refine accounted.of_eq rfl rfl ?_
    intro weighs start
    simp [State.weigh, weighNext, start]
  | stepDrain i succeeds => exact stepDrain_accounted accounted stepped
  | addClient =>
    obtain ⟨_, started⟩ := Option.ite_none_left_eq_some.mp stepped
    split at started
    next absent =>
      cases started
      refine accounted.of_eq rfl rfl ?_
      intro weighs _
      simp [State.weigh, absent, Worker.weigh]
    next =>
      cases started
      exact accounted.of_eq rfl rfl fun _ _ => rfl
  | removeClient =>
    obtain ⟨guard, started⟩ := Option.ite_none_left_eq_some.mp stepped
    simp only [Bool.or_eq_true, not_or, Bool.not_eq_true, Option.isSome_eq_false_iff,
      Option.isNone_iff_eq_none] at guard
    cases started
    split
    next =>
      refine accounted.of_eq rfl rfl ?_
      intro weighs start
      exact beginStop_weigh guard.2 start
    next => exact accounted.of_eq rfl rfl fun _ _ => rfl
  | destroy =>
    obtain ⟨guard, equal⟩ := Option.ite_none_left_eq_some.mp stepped
    cases equal
    simp only [Bool.or_eq_true, not_or, Bool.not_eq_true, Option.isSome_eq_false_iff,
      Option.isNone_iff_eq_none] at guard
    refine accounted.of_eq rfl rfl ?_
    intro weighs start
    exact beginStop_weigh guard.1.1.2 start
  | stepStop succeeds => exact stepStop_accounted accounted phased.left stepped
  | stepWorker succeeds => exact stepWorker_accounted accounted stepped
  | wakeSpuriously =>
    obtain ⟨waits, equal⟩ := Option.ite_none_right_eq_some.mp stepped
    cases equal
    refine accounted.of_eq rfl rfl ?_
    intro weighs _
    simp [State.weigh, waits, Worker.weigh]

end ComputeRuntime.DeferredDeleter
