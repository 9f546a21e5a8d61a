import ComputeRuntime.InOrder.Recording

/-! An appended operation: its dependencies stand behind the signals they are for, and its own
signal behind all others. -/
namespace ComputeRuntime.InOrder

variable {device : Device} {known known' : Nat → Nat → Prop} {id : Nat}
  {commandList commandList' : CommandList} {items : List Item} {amounts : Amounts}

/-- What holds of a list between the calls: the values of its stream are raised by `amounts`. -/
structure CommandList.Sound (device : Device) (known : Nat → Nat → Prop) (id : Nat)
    (commandList : CommandList) (items : List Item) (amounts : Amounts) : Prop where
  records : commandList.Records device items amounts
  placed : Placed known id items
  below : ∀ operation ∈ signalOps items, operation < commandList.operations
  counter : commandList.info.counterValue = commandList.operations
  regular : commandList.info.regularCmdList = true
  fits : commandList.operations < 2 ^ device.bits
  last : commandList.latestOperationHasOptimizedCbEvent = false → commandList.operations ≠ 0 →
    (signalOps items).getLast? = some (commandList.operations - 1)
  optimized : commandList.latestOperationHasOptimizedCbEvent = true →
    device.heaplessModeEnabled = false ∧ commandList.copyOnly = false
  own : amounts.own =
    commandList.operations * (commandList.info.regularCmdListSubmissionCounter - 1)
  executed : commandList.info.regularCmdListSubmissionCounter ≠ 0 →
    commandList.closedCmdList = true ∧
      commandList.operations * commandList.info.regularCmdListSubmissionCounter < 2 ^ device.bits
  fresh : commandList.info.regularCmdListSubmissionCounter = 0 → ∀ other, amounts.external other = 0

theorem CommandList.Sound.mono (sound : commandList.Sound device known id items amounts)
    (more : ∀ list operation, known list operation → known' list operation) :
    commandList.Sound device known' id items amounts :=
  { sound with placed := sound.placed.mono more }

theorem sound_init (copyOnly : Bool) :
    CommandList.Sound device known id { copyOnly := copyOnly } [] .zero where
  records := ⟨rfl, rfl⟩
  placed := placed_nil
  below := by simp [signalOps]
  counter := rfl
  regular := rfl
  fits := Nat.two_pow_pos _
  last _ some := absurd rfl some
  optimized := nofun
  own := by simp [Amounts.zero]
  executed some := absurd rfl some
  fresh _ _ := rfl

theorem CommandList.Sound.never (sound : commandList.Sound device known id items amounts)
    (unclosed : commandList.closedCmdList = false) :
    commandList.info.regularCmdListSubmissionCounter = 0 := by
  by_contra some
  rw [(sound.executed some).1] at unclosed
  cases unclosed

/-- Nothing was raised yet. -/
theorem CommandList.Sound.recording (sound : commandList.Sound device known id items amounts)
    (unclosed : commandList.closedCmdList = false) :
    commandList.Recording device known id items := by
  have never := sound.never unclosed
  have zero : amounts = .zero := by
    obtain ⟨own, external⟩ := amounts
    have same : own = 0 := by simpa [never] using sound.own
    have others : external = fun _ => 0 := funext (sound.fresh never)
    rw [same, others]
    rfl
  exact ⟨zero ▸ sound.records, sound.placed⟩

/-- The dependency on the operation before is recorded behind its signal. -/
theorem CommandList.Sound.implicit (sound : commandList.Sound device known id items amounts)
    (unclosed : commandList.closedCmdList = false)
    (handled : commandList.handleInOrderImplicitDependencies device id = some commandList') :
    ∃ items', commandList'.Recording device known id items' ∧ signalOps items' = signalOps items ∧
      commandList.Recorded commandList' := by
  have recording := sound.recording unclosed
  unfold CommandList.handleInOrderImplicitDependencies at handled
  split at handled
  next some =>
    have positive : commandList.operations ≠ 0 := by
      rw [← sound.counter]
      exact Nat.pos_iff_ne_zero.mp (of_decide_eq_true some)
    apply recording.appendWait handled
    intro waits partition items' same
    have signalledLast : commandList.latestOperationHasOptimizedCbEvent = false := by
      by_contra optimizes
      have optimizes : commandList.latestOperationHasOptimizedCbEvent = true := by
        simpa using optimizes
      obtain ⟨heap, engine⟩ := sound.optimized optimizes
      simp [CommandList.resolved, heap, engine, optimizes] at waits
    refine ⟨?_, rfl, ?_⟩
    · rw [sound.counter]
      exact (Nat.sub_add_cancel (Nat.pos_of_ne_zero positive)).symm
    · rw [same]
      exact sound.last signalledLast positive
  next =>
    cases handled
    exact ⟨items, recording, rfl, _, _, rfl⟩

/-- The condition on an appended operation: the counter has room, and an optimized event is only
used where the next operation waits for it by a pipe control. -/
structure CommandList.Appendable (device : Device) (commandList : CommandList)
    (operation : Operation) : Prop where
  room : commandList.info.counterValue + 1 <
    if device.isQwordInOrderCounter then 2 ^ 64 else 2 ^ 32 - 1
  resolved : operation.signalling = .optimizedCbEvent →
    device.heaplessModeEnabled = false ∧ commandList.copyOnly = false

/-- The dependencies of an operation leave its signals as they are. -/
theorem CommandList.Sound.addEvents (sound : commandList.Sound device known id items amounts)
    (unclosed : commandList.closedCmdList = false) {events : List Event}
    (valid : ∀ event ∈ events, event.inOrderExecSignalValue = event.operation + 1 ∧
      (device.heaplessModeEnabled = true ∨ event.hasInOrderTimestampNode = false →
        known event.commandList event.operation))
    (added : commandList.addEventsToCmdList device id events = some commandList') :
    ∃ items' latest, commandList'.Recording device known id items' ∧
      signalOps items' = signalOps items ∧
      { commandList with latestOperationHasOptimizedCbEvent := latest }.Recorded commandList' ∧
      (latest = true → commandList.latestOperationHasOptimizedCbEvent = true) := by
  unfold CommandList.addEventsToCmdList at added
  split at added
  next =>
    obtain ⟨items', recording, same, recorded⟩ :=
      (sound.recording unclosed).appendWaitOnEvents added valid
    exact ⟨items', _, recording, same, recorded, fun was => was⟩
  next =>
    split at added
    next handled found =>
      obtain ⟨items', recording, same, recorded⟩ := sound.implicit unclosed found
      have reset : { handled with latestOperationHasOptimizedCbEvent := false }.Recording device
          known id items' := ⟨⟨recording.records.commands, recording.records.patches⟩,
            recording.placed⟩
      obtain ⟨items'', recording', same', recorded'⟩ := reset.appendWaitOnEvents added valid
      refine ⟨items'', false, recording', same'.trans same, ?_, nofun⟩
      obtain ⟨commands, cmds, rfl⟩ := recorded
      exact CommandList.Recorded.trans ⟨commands, cmds, rfl⟩ recorded'
    next => cases added

theorem CommandList.Sound.addRequest (sound : commandList.Sound device known id items amounts)
    (unclosed : commandList.closedCmdList = false) {events : List Event}
    (valid : ∀ event ∈ events, event.inOrderExecSignalValue = event.operation + 1 ∧
      (device.heaplessModeEnabled = true ∨ event.hasInOrderTimestampNode = false →
        known event.commandList event.operation))
    (added : commandList.appendWaitOnEventsRequest device id events = some commandList') :
    ∃ items', commandList'.Recording device known id items' ∧
      signalOps items' = signalOps items ∧ commandList.Recorded commandList' := by
  obtain ⟨handled, found, added⟩ := Option.bind_eq_some_iff.mp added
  obtain ⟨items', recording, same, recorded⟩ := sound.implicit unclosed found
  obtain ⟨items'', recording', same', recorded'⟩ := recording.appendWaitOnEvents added valid
  exact ⟨items'', recording', same'.trans same, recorded.trans recorded'⟩

theorem CommandList.Sound.addDependencies
    (sound : commandList.Sound device known id items amounts)
    (unclosed : commandList.closedCmdList = false) {apiRequest : Bool} {events : List Event}
    (valid : ∀ event ∈ events, event.inOrderExecSignalValue = event.operation + 1 ∧
      (device.heaplessModeEnabled = true ∨ event.hasInOrderTimestampNode = false →
        known event.commandList event.operation))
    (added : commandList.addDependencies device id apiRequest events = some commandList') :
    ∃ items' latest, commandList'.Recording device known id items' ∧
      signalOps items' = signalOps items ∧
      { commandList with latestOperationHasOptimizedCbEvent := latest }.Recorded commandList' ∧
      (latest = true → commandList.latestOperationHasOptimizedCbEvent = true) := by
  unfold CommandList.addDependencies at added
  split at added
  next =>
    obtain ⟨items', recording, same, recorded⟩ := sound.addRequest unclosed valid added
    exact ⟨items', _, recording, same, recorded, fun was => was⟩
  next => exact sound.addEvents unclosed valid added

/-- Without an overflow only the signal is recorded. -/
theorem CommandList.Appendable.handleInOrderCounterOverflow {operation : Operation}
    (appendable : commandList.Appendable device operation)
    (same : commandList'.info = commandList.info) :
    commandList'.handleInOrderCounterOverflow device id = some commandList' := by
  unfold CommandList.handleInOrderCounterOverflow
  have room := appendable.room
  split
  next overflow =>
    rw [same, Bool.and_eq_true, Bool.not_eq_true', decide_eq_true_eq] at overflow
    rw [overflow.1, if_neg Bool.false_ne_true, overflow.2] at room
    exact absurd room (Nat.lt_irrefl _)
  next => rfl

theorem CommandList.Appendable.fits {operation : Operation}
    (appendable : commandList.Appendable device operation) :
    commandList.info.counterValue + 1 < 2 ^ device.bits := by
  have room := appendable.room
  unfold Device.bits
  cases qword : device.isQwordInOrderCounter with
  | true =>
    rw [qword, if_pos rfl] at room
    rwa [if_pos rfl]
  | false =>
    rw [qword, if_neg Bool.false_ne_true] at room
    rw [if_neg Bool.false_ne_true]
    exact Nat.lt_of_lt_of_le room (Nat.sub_le _ _)

/-- An operation is signalled behind its dependencies, unless its event is optimized. -/
theorem CommandList.Recording.signal {latest : Bool} {waited : CommandList}
    (recording : waited.Recording device known id items)
    (recorded :
      { commandList with latestOperationHasOptimizedCbEvent := latest }.Recorded waited)
    (counter : commandList.info.counterValue = commandList.operations)
    (below : ∀ operation ∈ signalOps items, operation < commandList.operations)
    (signalling : Signalling) :
    ∃ items', (waited.signal signalling).Recording device known id items' ∧
      signalOps items' = signalOps items ++
        (if signalling = Signalling.optimizedCbEvent then [] else [commandList.operations]) ∧
      { commandList with
        latestOperationHasOptimizedCbEvent :=
          latest || signalling = Signalling.optimizedCbEvent }.Recorded
        (waited.signal signalling) := by
  obtain ⟨commands, cmds, rfl⟩ := recorded
  have added := fun type patchable =>
    recording.addSignal type (congrArg (· + 1) counter) patchable below
  have signalled : ∀ type, signalOps (items ++ [Item.signal commandList.operations
      commandList.info.allocationOffset (commandList.info.counterValue + 1) type]) =
      signalOps items ++ [commandList.operations] := fun type => signalOps_append _ _
  cases signalling with
  | storeDataImm => exact ⟨_, added .sdi (.inl rfl), signalled _, _, _, by simp; rfl⟩
  | walker => exact ⟨_, added .walker (.inr (.inl rfl)), signalled _, _, _, by simp; rfl⟩
  | pipeControl => exact ⟨_, added .pipeControl (.inr (.inr rfl)), signalled _, _, _, by simp; rfl⟩
  | optimizedCbEvent =>
    refine ⟨items, ?_, by simp, _, _, by simp; rfl⟩
    exact ⟨⟨recording.records.commands, recording.records.patches⟩, recording.placed⟩

theorem CommandList.Sound.appendOperation
    (sound : commandList.Sound device known id items amounts)
    (unclosed : commandList.closedCmdList = false) {operation : Operation}
    (appendable : commandList.Appendable device operation) {events : List Event}
    (valid : ∀ event ∈ events, event.inOrderExecSignalValue = event.operation + 1 ∧
      (device.heaplessModeEnabled = true ∨ event.hasInOrderTimestampNode = false →
        known event.commandList event.operation))
    (appended : commandList.appendOperation device id operation events = some commandList') :
    ∃ items', commandList'.Sound device known id items' .zero ∧
      commandList'.operations = commandList.operations + 1 ∧
      commandList'.info.regularCmdListSubmissionCounter = 0 ∧
      signalOps items' = signalOps items ++
        (if operation.signalling = .optimizedCbEvent then [] else [commandList.operations]) := by
  unfold CommandList.appendOperation at appended
  obtain ⟨waited, first, rest⟩ := Option.bind_eq_some_iff.mp appended
  obtain ⟨signalled, second, rest⟩ := Option.bind_eq_some_iff.mp rest
  cases rest
  obtain ⟨items', latest, recording, same, recorded, was⟩ :=
    sound.addDependencies unclosed valid first
  obtain ⟨items'', recording', more, recorded'⟩ :=
    recording.signal recorded sound.counter (same ▸ sound.below) operation.signalling
  have info : (waited.signal operation.signalling).info = commandList.info := by
    obtain ⟨_, _, equal⟩ := recorded'
    rw [equal]
  rw [appendable.handleInOrderCounterOverflow info] at second
  cases second
  obtain ⟨commands, cmds, equal⟩ := recorded'
  rw [same] at more
  have never := sound.never unclosed
  refine ⟨items'', ?_, by rw [equal], by rw [equal]; exact never, more⟩
  constructor
  · exact ⟨recording'.records.commands, recording'.records.patches⟩
  · exact recording'.placed
  · intro earlier member
    rw [more, List.mem_append] at member
    rw [equal]
    rcases member with old | new
    · exact Nat.lt_succ_of_lt (sound.below earlier old)
    · split at new
      next => cases new
      next =>
        rw [List.mem_singleton.mp new]
        exact Nat.lt_succ_self _
  · rw [equal]
    exact congrArg (· + 1) sound.counter
  · rw [equal]
    exact sound.regular
  · rw [equal, ← sound.counter]
    exact appendable.fits
  · intro unoptimized _
    rw [equal] at unoptimized ⊢
    have signals : operation.signalling ≠ .optimizedCbEvent := by
      simpa using (Bool.or_eq_false_iff.mp unoptimized).2
    rw [more, if_neg signals]
    exact List.getLast?_concat
  · intro optimizes
    rw [equal] at optimizes ⊢
    rcases Bool.or_eq_true_iff.mp optimizes with before | now
    · exact sound.optimized (was before)
    · exact appendable.resolved (of_decide_eq_true now)
  · rw [equal]
    simp [Amounts.zero, never]
  · intro some
    rw [equal] at some
    exact absurd never some
  · exact fun _ _ => rfl

end ComputeRuntime.InOrder
