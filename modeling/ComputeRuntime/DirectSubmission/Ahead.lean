import ComputeRuntime.DirectSubmission.Progress

/-! The GPU never runs ahead: whatever it is at was written before the CPU let it go on. -/
namespace ComputeRuntime.DirectSubmission

variable {settings : DirectSubmissionSettings}

/-- A tile is only at commands that are completely written. It passes the semaphore of an
operation only after a later one has let it go on, and then nothing holds it there. -/
structure NeverAhead (system : System settings) : Prop where
  written : ∀ t position, (system.tiles t).position = some position →
    CompletelyWritten system.visible position
  awaited : ∀ t position operation written value next,
    (system.tiles t).position = some position →
    WrittenBy system.visible position operation written →
    written.command.waitsFor = some value →
    (system.tiles t).step system.visible = some next →
    ∃ unblock ∈ unblocks system.visible, operation < unblock.1
  passable : ∀ wait ∈ waits system.visible, ∀ unblock ∈ unblocks system.visible,
    wait.1 < unblock.1 → wait.2 ≤ queueWorkCount system.visible

/-- A barrier holds the GPU from the position on, and it is completely written. -/
def Behind (log : List Entry) (position : Nat) : Prop :=
  ∃ barrier written, position ≤ barrier ∧ CompletelyWritten log barrier ∧
    (writes log)[barrier]? = some written ∧ written.command.Closed (queueWorkCount log)

section Behind

variable {log : List Entry} {position : Nat} {written : Written}

theorem Behind.completelyWritten (behind : Behind log position) : CompletelyWritten log position := by
  obtain ⟨barrier, _, before, ⟨early, entry, inside, release, bound⟩, -, -⟩ := behind
  exact ⟨early, entry, inside, release, Nat.lt_of_le_of_lt before bound⟩

/-- A command that does not hold the GPU is not the barrier. -/
theorem Behind.next (behind : Behind log position) (here : (writes log)[position]? = some written)
    (passes : ¬ written.command.Closed (queueWorkCount log)) : Behind log (position + 1) := by
  obtain ⟨barrier, other, before, complete, there, closed⟩ := behind
  refine ⟨barrier, other, Nat.lt_of_le_of_ne before ?_, complete, there, closed⟩
  rintro rfl
  obtain rfl := Option.some.inj (here.symm.trans there)
  exact passes closed

theorem Gated.behind {barrier : Nat} {entry : Entry}
    (gated : Gated log (queueWorkCount (log ++ [entry])) barrier)
    (release : writtenOf entry = none) (before : position ≤ barrier) :
    Behind (log ++ [entry]) position := by
  obtain ⟨⟨written, here, closed⟩, -⟩ := gated
  have inside : barrier < (writes log).length := (List.getElem?_eq_some_iff.mp here).1
  refine ⟨barrier, written, before, ⟨log, entry, List.prefix_rfl, release, inside⟩, ?_, closed⟩
  rw [writes_append, List.getElem?_append_left inside]
  exact here

/-- What the CPU does next lets the GPU go on to the last barrier at most. -/
theorem Behind.perform {entry : Entry} (behind : Behind log position)
    (released : ReleasedAt log entry.action) : Behind (log ++ [entry]) position := by
  obtain ⟨barrier, written, before, complete, here, closed⟩ := behind
  have inside : barrier < (writes log).length := (List.getElem?_eq_some_iff.mp here).1
  have still : (writes (log ++ [entry]))[barrier]? = some written := by
    rw [writes_append, List.getElem?_append_left inside]
    exact here
  have stays := complete.mono (List.prefix_append log [entry])
  rcases entry with ⟨operation, w | value | start⟩
  · exact ⟨barrier, written, before, stays, still, by simpa using closed⟩
  · obtain ⟨last, gated⟩ := released
    -- the old barrier is not behind the last one
    have order : barrier ≤ last :=
      Nat.le_of_not_lt fun later => closed.not_plain (gated.last barrier written later here)
    exact Gated.behind (by simpa using gated) rfl (before.trans order)
  · exact ⟨barrier, written, before, stays, still, by simpa using closed⟩

end Behind

/-- A tile is held, and so is every batch it has yet to begin. -/
structure Held (log : List Entry) (tile : Tile) : Prop where
  position : ∀ position, tile.position = some position → Behind log position
  batches : ∀ batch position, tile.batches ≤ batch →
    (submitted log)[batch]? = some position → Behind log position

section Held

variable {log : List Entry} {tile next : Tile}

theorem Held.perform {entry : Entry} (held : Held log tile)
    (released : ReleasedAt log entry.action) : Held (log ++ [entry]) tile := by
  constructor
  · exact fun position here => (held.position position here).perform released
  · intro batch position later there
    rw [submitted_append] at there
    rcases Nat.lt_or_ge batch (submitted log).length with old | new
    · rw [List.getElem?_append_left old] at there
      exact (held.batches batch position later there).perform released
    · rw [List.getElem?_append_right new] at there
      rcases entry with ⟨operation, w | value | start⟩
      · simp at there
      · simp at there
      · obtain ⟨barrier, before, gated⟩ := released
        obtain rfl : start = position := by
          have member := List.mem_of_getElem? there
          exact (List.mem_singleton.mp member).symm
        exact Gated.behind (by simpa using gated) rfl before

theorem Held.begin (held : Held log tile) {start : Nat}
    (pending : (submitted log)[tile.batches]? = some start) :
    Held log { tile with batches := tile.batches + 1, position := some start } := by
  constructor
  · rintro position ⟨⟩
    exact held.batches tile.batches start (Nat.le_refl _) pending
  · exact fun batch position later => held.batches batch position (Nat.le_of_succ_le later)

/-- A tile goes on to the next command, or it has come to the end. -/
theorem Held.step (held : Held log tile) (steps : tile.step log = some next) : Held log next := by
  rcases Tile.step_cases steps with
    ⟨-, start, pending, rfl⟩ | ⟨position, written, here, there, executes⟩
  · exact held.begin pending
  obtain ⟨batches, moves⟩ := Tile.execute_cases executes
  constructor
  · intro p goal
    rcases moves with ⟨-, ended⟩ | ⟨passes, goesOn⟩
    · cases ended.symm.trans goal
    · obtain rfl := Option.some.inj (goesOn.symm.trans goal)
      exact (held.position position here).next there (Command.not_closed passes.1 passes.2)
  · exact fun batch p later => held.batches batch p (batches ▸ later)

end Held

/-- The count of the work is not at its end when a dispatch is made. -/
def CountsOn (system : System settings) : Event settings → Prop
  | .finish _ => system.hw.currentQueueWorkCount + 1 < 2 ^ 32
  | _ => True

/-- What every step keeps. -/
structure Kept (system : System settings) : Prop where
  ready : system.hw.Ready
  fresh : ∀ dispatching, system.dispatching = some dispatching →
    system.hw.Fresh ∧ dispatching.needStart = !system.hw.ringStart
  performed : system.performed ≤ system.hw.log.length
  held : ∀ t, Held system.visible (system.tiles t)

theorem System.Settled.take {system : System settings} (settled : system.Settled)
    {log : List Entry} (grows : system.hw.log <+: log) :
    log.take system.performed = system.visible := by
  obtain ⟨rest, rfl⟩ := grows
  have all : system.performed = system.hw.log.length := settled
  simp [System.visible, all]

/-- The CPU decides what to do next, and has done none of it. -/
theorem Kept.decide {system : System settings} (kept : Kept system) (settled : system.Settled)
    {hw : DirectSubmissionHw} (grows : system.hw.log <+: hw.log) (ready : hw.Ready)
    (dispatching : Option (Dispatching settings))
    (fresh : ∀ d, dispatching = some d → hw.Fresh ∧ d.needStart = !hw.ringStart) :
    Kept { system with hw, dispatching } where
  ready := ready
  fresh := fresh
  performed := kept.performed.trans grows.length_le
  held := by
    intro t
    simp only [System.visible, settled.take grows]
    exact kept.held t

theorem Kept.perform {system : System settings} (kept : Kept system)
    (more : system.performed < system.hw.log.length) :
    Kept { system with performed := system.performed + 1 } where
  ready := kept.ready
  fresh := kept.fresh
  performed := more
  held := by
    intro t
    have step : system.hw.log.take (system.performed + 1) =
        system.visible ++ [system.hw.log[system.performed]] :=
      (List.take_append_getElem more).symm
    have released := kept.ready.paced.released _ _ (step ▸ List.take_prefix _ _)
    simp only [System.visible, step]
    exact (kept.held t).perform released

theorem Kept.gpu {system : System settings} (kept : Kept system) {t : Nat} {next : Tile}
    (steps : (system.tiles t).step system.visible = some next) :
    Kept { system with tiles := Function.update system.tiles t next } where
  ready := kept.ready
  fresh := kept.fresh
  performed := kept.performed
  held := by
    intro other
    dsimp only [System.visible]
    by_cases same : other = t
    · subst same
      rw [Function.update_self]
      exact (kept.held other).step steps
    · rw [Function.update_of_ne same]
      exact kept.held other

open DirectSubmissionHw in
theorem kept_invariant (ordered : settings.relaxedOrderingEnabled = false) (activeTiles : Nat) :
    Transition.Invariant ((system settings activeTiles).restrict CountsOn) Kept where
  initial := by
    rintro _ ⟨systemMemoryFenceAddressSet, submitOnInit, submits⟩
    constructor
    · exact initializeRing_ready ordered systemMemoryFenceAddressSet submitOnInit submits
    · simp
    · exact Nat.zero_le _
    · intro tile
      constructor
      · intro position started
        cases started
      · intro _ _ _ pending
        simp [System.visible, submitted] at pending
  preserved := by
    rintro system event after _ kept ⟨counts, step⟩
    have ready := kept.ready.nextOperation
    have fresh := kept.ready.fresh_nextOperation
    cases step with
    | stop settled idle =>
      have quiet := stopRingBuffer_quiet system.hw.nextOperation ordered
      rw [idle]
      exact kept.decide settled quiet.grows (quiet.ready ready fresh) _ (by simp)
    | @dispatch batchBuffer restartNeeded hw settled idle begun =>
      have quiet := handleRingRestartForUllsLightResidency_quiet system.hw.nextOperation ordered
        restartNeeded
      rw [← begun] at quiet
      apply kept.decide settled quiet.grows (quiet.ready ready fresh)
      rintro _ ⟨⟩
      exact ⟨quiet.fresh fresh, rfl⟩
    | @finish dispatching inputs settled begun completed =>
      obtain ⟨freshHere, start⟩ := kept.fresh dispatching begun
      rw [start]
      apply kept.decide settled
      · exact finishDispatch_grows ordered _ _ _
      · exact finishDispatch_ready ordered _ _ counts kept.ready freshHere
      · simp
    | perform more => exact kept.perform more
    | gpu steps => exact kept.gpu steps

/-- What the GPU sees of the log keeps to the order of the operations. -/
theorem Kept.neverAhead {system : System settings} (kept : Kept system) : NeverAhead system where
  written := fun t position here => ((kept.held t).position position here).completelyWritten
  awaited := by
    intro t position operation written value next here there waits steps
    have opened := Tile.step_opens steps here there.getElem? waits
    have waiting := there.mem_waits waits
    rcases queueWorkCount_stored system.visible with zero | ⟨last, stored⟩
    · have positive := kept.ready.paced.positive _ (waits_mono waiting)
      exact absurd (opened.trans_eq zero) (Nat.not_le.mpr positive)
    · refine ⟨_, stored, Nat.lt_of_not_le fun early => ?_⟩
      have apart := kept.ready.paced.apart _ (waits_mono waiting) _ (unblocks_mono stored)
      exact absurd opened (Nat.not_le.mpr (apart.1 early))
  passable := by
    intro wait waiting unblock unblocking later
    have sorted : system.visible.Pairwise fun earlier later =>
        earlier.operation ≤ later.operation :=
      kept.ready.paced.sorted.sublist (List.take_sublist _ _)
    obtain ⟨last, member, order, stored⟩ := exists_unblock sorted unblocking
    rw [← stored]
    exact (kept.ready.paced.apart wait (waits_mono waiting) last (unblocks_mono member)).2
      (Nat.lt_of_lt_of_le later order)

/-- In every run in which the count of the work has not come to its end at a dispatch, the GPU
never runs ahead. -/
theorem never_ahead (ordered : settings.relaxedOrderingEnabled = false) (activeTiles : Nat)
    (state : System settings)
    (reachable : Transition.Reachable ((system settings activeTiles).restrict CountsOn) state) :
    NeverAhead state :=
  ((kept_invariant ordered activeTiles).holds reachable).neverAhead

/-- The defaults on Linux, with commands of the sizes they have without partitions. -/
def linuxSettings : DirectSubmissionSettings where
  sizes := {
    preemption := 0
    partitionRegisterConfigurationSection := 0
    systemMemoryFenceAddress := 0
    disablePrefetcher := 0
    prefetchMitigation := 512
    miSemaphoreWait := 16
    singleAdditionalSynchronization := 16
    startCommandBuffer := 12
    stopCommandBuffer := 4
    monitorFence := 24
    cacheFlush := 24
    tlbFlush := 24
    miLoadRegisterImm := 12
    miPredicate := 4
    miStoreDataImm := 20
    taskStoreSection := 120
    conditionalDataRegBatchBufferStart := 24
    stop_le := by decide
    fence_le := by decide }
  maxAvailableSpace := 262144
  maxRingBufferCount := none
  partitionedMode := false
  globalFenceAllocation := false
  miMemFenceRequired := false
  relaxedOrderingEnabled := false
  disableMonitorFence := true
  disableCacheFlush := true
  isDisablePrefetcherRequired := false
  inputMonitorFenceDispatchRequirement := true
  monitorFencesOnStop := 1
  dispatchMonitorFenceRequired := fun _ => false

def copiedBatchBuffer : BatchBuffer linuxSettings.sizes where
  startOffset := 0
  endCmdPtr := 52
  used := 64
  requiresFlatRing := true
  hasRelaxedOrderingDependencies := false
  hasStallingCmds := false
  dispatchMonitorFence := false
  pagingFence := none
  numCsrClients := 1
  start_le := by decide
  end_le := by decide

theorem countsOn_lenient : Lenient (@CountsOn settings) := by
  intro state event other
  cases event with
  | finish inputs => exact absurd rfl (other inputs)
  | _ => trivial

/-- After three dispatches the GPU waits at the semaphore of the third. -/
theorem never_ahead_threeDispatches : ∃ state : System linuxSettings,
    state.performed = state.hw.log.length ∧ queueWorkCount state.hw.log = 3 ∧
    (∃ position written, (state.tiles 0).position = some position ∧
      WrittenBy state.hw.log position state.hw.operation written ∧
      written.command = .semaphoreWait 4) ∧ NeverAhead state := by
  have allows (k : Nat) (few : k < 3) (state : System linuxSettings)
      (counts : state.hw.currentQueueWorkCount = (1 + k) % 2 ^ 32) (inputs : DispatchInputs) :
      CountsOn state (.finish inputs) := by
    simp only [CountsOn]
    omega
  obtain ⟨second, waiting⟩ : ∃ state, Waiting 1 CountsOn state ((1 + 2) % 2 ^ 32) :=
    waiting_all countsOn_lenient rfl copiedBatchBuffer 2 fun k few => allows k (by omega)
  obtain ⟨third, waits, stored⟩ :=
    waiting.next countsOn_lenient rfl copiedBatchBuffer (allows 2 (by decide))
  obtain ⟨position, written, here, there, semaphore, -⟩ := waits.semaphore
  exact ⟨third, waits.settled, stored, ⟨position, written, here, there, semaphore⟩,
    never_ahead rfl 1 third waits.reachable⟩

/-- A semaphore that waits for 0 holds nothing. -/
theorem Waiting.not_neverAhead {activeTiles : Nat}
    {allowed : System settings → Event settings → Prop} {state : System settings}
    (waiting : Waiting activeTiles allowed state 0) : ¬ NeverAhead state := by
  intro neverAhead
  obtain ⟨position, written, here, there, semaphore, plain⟩ := waiting.semaphore
  have visible : state.visible = state.hw.log := by
    rw [System.visible, show state.performed = _ from waiting.settled]
    exact List.take_length
  have waits : written.command.waitsFor = some 0 := congrArg Command.waitsFor semaphore
  have passes : ¬ written.command.Closed (queueWorkCount state.hw.log) := by
    rw [semaphore]
    exact Command.not_closed nofun fun value same => (Option.some.inj same) ▸ Nat.zero_le _
  obtain ⟨next, steps, -⟩ := Tile.step_goes here there.getElem? passes
  obtain ⟨unblock, member, later⟩ := neverAhead.awaited 0 position _ written 0 next here
    (visible.symm ▸ there) waits (visible.symm ▸ steps)
  rw [visible] at member
  -- no operation is later than the last one
  obtain ⟨entry, inside, same⟩ := List.mem_filterMap.mp member
  have bound := waiting.operations entry inside
  rcases entry with ⟨operation, _ | value | _⟩
  · cases same
  · obtain rfl := Option.some.inj same
    exact absurd later (Nat.not_lt.mpr bound)
  · cases same

/-- After 2^32 - 1 dispatches the count is 0, and the GPU goes on behind the last of them at once. -/
theorem runs_ahead : ¬ ∀ state : System linuxSettings,
    Transition.Reachable (system linuxSettings 1) state → NeverAhead state := by
  intro always
  obtain ⟨state, waiting⟩ : ∃ state : System linuxSettings,
      Waiting 1 (fun _ _ => True) state ((1 + (2 ^ 32 - 1)) % 2 ^ 32) :=
    waiting_all (fun _ _ _ => trivial) rfl copiedBatchBuffer _ fun _ _ _ _ _ => trivial
  exact Waiting.not_neverAhead waiting (always state waiting.reachable.of_restrict)

end ComputeRuntime.DirectSubmission
