import ComputeRuntime.InOrder.Appending

/-! What the lists record and what was signalled, together: appended operations keep it, and an
execution keeps the order. -/
namespace ComputeRuntime.InOrder

variable {device : Device} {known : Nat → Nat → Prop} {id : Nat} {items : List Item}
  {amounts : Amounts}

/-! ### The accesses of one list -/

theorem Placed.base (placed : Placed known id items) {operation offset base : Nat}
    {type : PatchCmdType} (member : Item.signal operation offset base type ∈ items) :
    base = operation + 1 := by
  obtain ⟨front, back, split⟩ := List.append_of_mem member
  exact (placed front _ back split).1

theorem mem_signalOps {operation : Nat} :
    operation ∈ signalOps items ↔ ∃ offset base type, .signal operation offset base type ∈ items := by
  unfold signalOps
  rw [List.mem_filterMap]
  constructor
  · rintro ⟨item, member, signals⟩
    cases item with
    | signal operation' offset base type =>
      cases signals
      exact ⟨offset, base, type, member⟩
    | _ => cases signals
  · rintro ⟨offset, base, type, member⟩
    exact ⟨_, member, rfl⟩

/-- Each operation that signals does so with its number, raised by the amount of its list. -/
theorem signals_access (items : List Item) (amounts : Amounts) (bases : ∀ operation offset base type,
      .signal operation offset base type ∈ items → base = operation + 1) :
    signals (items.filterMap (Item.access amounts)) =
      (signalOps items).map fun operation => operation + 1 + amounts.own := by
  induction items with
  | nil => rfl
  | cons item items ih =>
    have rest := ih fun operation offset base type member =>
      bases operation offset base type (List.mem_cons_of_mem _ member)
    cases item with
    | signal operation offset base type =>
      obtain rfl := bases operation offset base type List.mem_cons_self
      simpa [signals, signalOps, Item.access, Item.signalled, Item.value] using rest
    | wait => exact rest
    | barrier => exact rest

/-- The signals of an operation. -/
theorem signal_mem_access (placed : Placed known id items) {operation value : Nat}
    (signals : operation ∈ signalOps items) :
    .signal operation value ∈ items.filterMap (Item.access amounts) ↔
      value = operation + 1 + amounts.own := by
  rw [List.mem_filterMap]
  constructor
  · rintro ⟨item, member, found⟩
    cases item with
    | signal operation' offset base type =>
      cases found
      rw [Item.value, placed.base member]
    | _ => cases found
  · rintro rfl
    obtain ⟨offset, base, type, member⟩ := mem_signalOps.mp signals
    refine ⟨_, member, ?_⟩
    rw [Item.access, Item.value, placed.base member]

/-- What stands before an access stands before its item. -/
theorem access_split {front back : List Access} {access : Access}
    (split : items.filterMap (Item.access amounts) = front ++ access :: back) :
    ∃ before item after, items = before ++ item :: after ∧
      before.filterMap (Item.access amounts) = front ∧ item.access amounts = some access := by
  obtain ⟨before, rest, rfl, first, second⟩ := List.filterMap_eq_append_iff.mp split
  obtain ⟨skipped, item, after, rfl, nothing, found, _⟩ := List.filterMap_eq_cons_iff.mp second
  refine ⟨before ++ skipped, item, after, by simp, ?_, found⟩
  rw [List.filterMap_append, first, List.filterMap_eq_nil_iff.mpr nothing, List.append_nil]

/-! ### All lists -/

/-- What the recorded values of all lists are raised by, and what was signalled so far. -/
structure State.Consistent (device : Device) (s : State) (items : Nat → List Item)
    (amounts : Nat → Amounts) : Prop where
  sound : ∀ id, (s.lists id).Sound device
    (fun other operation => operation ∈ signalOps (items other)) id (items id) (amounts id)
  small : ∀ id, ∀ item ∈ items id, item.value (amounts id) < 2 ^ device.bits
  idle : ∀ id other, (s.lists other).info.regularCmdListSubmissionCounter ≤ 1 →
    (amounts id).external other = 0
  signalled : ∀ id, ∀ value ∈ s.signalled id,
    value ≤ (s.lists id).operations * (s.lists id).info.regularCmdListSubmissionCounter
  events : ∀ index event, s.events index = some event →
    event.inOrderExecSignalValue = event.operation + 1 ∧
      (device.heaplessModeEnabled = true ∨ event.hasInOrderTimestampNode = false →
        event.operation ∈ signalOps (items event.commandList))

theorem consistent_init (copyOnly : Nat → Bool) :
    State.Consistent device { lists := fun id => { copyOnly := copyOnly id } } (fun _ => [])
      fun _ => .zero where
  sound id := sound_init (copyOnly id)
  small := by simp
  idle _ _ _ := rfl
  signalled := by simp
  events _ _ none := by cases none

/-! ### Steps -/

variable {s s' : State} {items : Nat → List Item} {amounts : Nat → Amounts}

theorem bits_le : device.bits ≤ 64 := by
  unfold Device.bits
  split <;> decide

/-- The amount of a list that was submitted `submissions` times. -/
theorem getAppendCounterValue_eq {info : InOrderExecInfo} (regular : info.regularCmdList = true)
    (small : info.counterValue * info.regularCmdListSubmissionCounter < 2 ^ 64) :
    getAppendCounterValue info =
      info.counterValue * (info.regularCmdListSubmissionCounter - 1) := by
  unfold getAppendCounterValue
  by_cases again : 1 < info.regularCmdListSubmissionCounter
  · have less : info.counterValue * (info.regularCmdListSubmissionCounter - 1) < 2 ^ 64 :=
      Nat.lt_of_le_of_lt (Nat.mul_le_mul_left _ (Nat.sub_le _ _)) small
    simp only [regular, again, decide_true, Bool.and_self, if_true, Nat.mod_eq_of_lt less]
  · have none : info.regularCmdListSubmissionCounter - 1 = 0 := by omega
    simp [again, none]

theorem CommandList.Sound.append {known : Nat → Nat → Prop} {commandList : CommandList}
    {id : Nat} {items : List Item} {amounts : Amounts}
    (sound : commandList.Sound device known id items amounts) :
    getAppendCounterValue commandList.info =
      commandList.operations * (commandList.info.regularCmdListSubmissionCounter - 1) := by
  rw [← sound.counter]
  apply getAppendCounterValue_eq sound.regular
  by_cases never : commandList.info.regularCmdListSubmissionCounter = 0
  · rw [never, Nat.mul_zero]
    exact Nat.two_pow_pos 64
  · rw [sound.counter]
    exact Nat.lt_of_lt_of_le (sound.executed never).2 (Nat.pow_le_pow_right (by decide) bits_le)

/-- The accesses of a list whose values fit. -/
theorem CommandList.Sound.accesses {known : Nat → Nat → Prop} {commandList : CommandList}
    {id : Nat} {items : List Item} {amounts : Amounts}
    (sound : commandList.Sound device known id items amounts)
    (small : ∀ item ∈ items, item.value amounts < 2 ^ device.bits) :
    commandList.accesses device = items.filterMap (Item.access amounts) := by
  unfold CommandList.accesses
  rw [sound.records.commands]
  exact accesses_render items small (0, 0)

theorem CommandList.Sound.signals {known : Nat → Nat → Prop} {commandList : CommandList}
    {id : Nat} {items : List Item} {amounts : Amounts}
    (sound : commandList.Sound device known id items amounts)
    (small : ∀ item ∈ items, item.value amounts < 2 ^ device.bits) :
    InOrder.signals (commandList.accesses device) =
      (signalOps items).map fun operation => operation + 1 + amounts.own := by
  rw [sound.accesses small]
  exact signals_access items amounts fun _ _ _ _ member => sound.placed.base member

/-- Behind a successful call of `append` one list has a new operation. -/
theorem append_cases {id : Nat} {operation : Operation}
    (appended : s.append device id operation = some s') :
    ∃ waitEvents commandList, operation.waitEvents.mapM s.events = some waitEvents ∧
      (s.lists id).closedCmdList = false ∧
      (s.lists id).appendOperation device id operation waitEvents = some commandList ∧
      s'.lists = Function.update s.lists id commandList ∧ s'.signalled = s.signalled ∧
      ∀ index event, s'.events index = some event → s.events index = some event ∨
        event = {
          commandList := id
          operation := (s.lists id).operations
          inOrderExecSignalValue := commandList.info.counterValue
          inOrderAllocationOffset := commandList.info.allocationOffset
          hasInOrderTimestampNode :=
            operation.inOrderTimestampNode || operation.signalling = .optimizedCbEvent } := by
  unfold State.append at appended
  obtain ⟨waitEvents, waits, rest⟩ := Option.bind_eq_some_iff.mp appended
  split at rest
  next => cases rest
  next unclosed =>
    obtain ⟨commandList, added, rest⟩ := Option.bind_eq_some_iff.mp rest
    cases rest
    refine ⟨waitEvents, commandList, waits, Bool.eq_false_iff.mpr unclosed, added, rfl, rfl, ?_⟩
    intro index event found
    cases target : operation.signalEvent with
    | none =>
      simp only [target] at found
      exact .inl found
    | some signalled =>
      simp only [target] at found
      by_cases same : index = signalled
      · subst same
        rw [Function.update_self] at found
        cases found
        exact .inr rfl
      · rw [Function.update_of_ne same] at found
        exact .inl found

theorem mem_of_mapM {α β : Type*} {f : α → Option β} {as : List α} {bs : List β}
    (mapped : as.mapM f = some bs) : ∀ b ∈ bs, ∃ a, f a = some b := by
  induction as generalizing bs with
  | nil =>
    cases mapped
    simp
  | cons a as ih =>
    rw [List.mapM_cons] at mapped
    obtain ⟨b, first, rest⟩ := Option.bind_eq_some_iff.mp mapped
    obtain ⟨bs, others, rest⟩ := Option.bind_eq_some_iff.mp rest
    cases rest
    intro b' member
    rcases List.mem_cons.mp member with rfl | later
    · exact ⟨a, first⟩
    · exact ih others b' later

/-- Bounds on the values that are signalled bound all values. -/
theorem Placed.small {known : Nat → Nat → Prop} {id bound : Nat} {items : List Item}
    {amounts : Amounts} (placed : Placed known id items) (positive : 0 < bound)
    (signals : ∀ operation ∈ signalOps items, operation + 1 + amounts.own < bound)
    (others : ∀ other operation, other ≠ id → known other operation →
      operation + 1 + amounts.external other < bound) :
    ∀ item ∈ items, item.value amounts < bound := by
  intro item member
  obtain ⟨front, back, split⟩ := List.append_of_mem member
  have place := placed front item back split
  cases item with
  | barrier => exact positive
  | signal operation offset base type =>
    rw [Item.value, place.1]
    exact signals operation (mem_signalOps.mpr ⟨offset, base, type, member⟩)
  | wait dependency offset partition base =>
    rw [Item.value, place.1]
    have place := place.2
    cases implicit : dependency.implicit with
    | true =>
      rw [implicit, if_pos rfl] at place
      rw [if_pos rfl]
      apply signals
      rw [split, signalOps_append]
      exact List.mem_append_left _ (List.mem_of_getLast? place.2)
    | false =>
      rw [implicit, if_neg Bool.false_ne_true] at place
      rw [if_neg Bool.false_ne_true]
      exact others _ _ place.1 place.2

theorem State.Consistent.append (consistent : s.Consistent device items amounts) {id : Nat}
    {operation : Operation} (appendable : (s.lists id).Appendable device operation)
    (appended : s.append device id operation = some s') :
    ∃ items' amounts', s'.Consistent device items' amounts' := by
  obtain ⟨waitEvents, commandList, waits, unclosed, added, lists, signalled, events⟩ :=
    append_cases appended
  have valid : ∀ event ∈ waitEvents, event.inOrderExecSignalValue = event.operation + 1 ∧
      (device.heaplessModeEnabled = true ∨ event.hasInOrderTimestampNode = false →
        event.operation ∈ signalOps (items event.commandList)) := by
    intro event member
    obtain ⟨index, found⟩ := mem_of_mapM waits event member
    exact consistent.events index event found
  obtain ⟨recorded, sound, operations, never, more⟩ :=
    (consistent.sound id).appendOperation unclosed appendable valid added
  have grows : ∀ other operation, operation ∈ signalOps (items other) →
      operation ∈ signalOps (Function.update items id recorded other) := by
    intro other operation known
    by_cases same : other = id
    · subst same
      rw [Function.update_self, more]
      exact List.mem_append_left _ known
    · rwa [Function.update_of_ne same]
  have sounds : ∀ id', (s'.lists id').Sound device
      (fun other operation => operation ∈ signalOps (Function.update items id recorded other)) id'
      (Function.update items id recorded id') (Function.update amounts id .zero id') := by
    intro id'
    rw [lists]
    by_cases same : id' = id
    · subst same
      simp only [Function.update_self]
      exact sound.mono grows
    · simp only [Function.update_of_ne same]
      exact (consistent.sound id').mono grows
  refine ⟨Function.update items id recorded, Function.update amounts id .zero, sounds, ?_, ?_, ?_,
    ?_⟩
  · intro id'
    by_cases same : id' = id
    · subst same
      have placed := (sounds id').placed
      simp only [Function.update_self] at placed ⊢
      apply placed.small (Nat.two_pow_pos _)
      · intro operation member
        exact Nat.lt_of_le_of_lt (sound.below operation member) sound.fits
      · intro other operation different known
        rw [Function.update_of_ne different] at known
        have signals := consistent.sound other
        exact Nat.lt_of_le_of_lt (signals.below operation known) signals.fits
    · rw [Function.update_of_ne same, Function.update_of_ne same]
      exact consistent.small id'
  · intro id' other once
    by_cases same : id' = id
    · subst same
      rw [Function.update_self]
      rfl
    · rw [Function.update_of_ne same]
      apply consistent.idle id' other
      by_cases recording : other = id
      · subst recording
        rw [(consistent.sound other).never unclosed]
        exact Nat.zero_le 1
      · rwa [lists, Function.update_of_ne recording] at once
  · intro id' value member
    rw [signalled] at member
    have before := consistent.signalled id' value member
    rw [lists]
    by_cases same : id' = id
    · subst same
      rw [(consistent.sound id').never unclosed] at before
      rw [Function.update_self, never]
      exact before
    · rwa [Function.update_of_ne same]
  · intro index event found
    rcases events index event found with old | rfl
    · obtain ⟨value, known⟩ := consistent.events index event old
      exact ⟨value, fun counts => grows _ _ (known counts)⟩
    · refine ⟨sound.counter.trans operations, fun counts => ?_⟩
      have signals : operation.signalling ≠ .optimizedCbEvent := by
        intro optimizes
        have heap := (appendable.resolved optimizes).1
        simp [heap, optimizes] at counts
      rw [Function.update_self, more, if_neg signals]
      exact List.mem_append_right _ (List.mem_singleton_self _)

/-- An execution that the counters have room for. -/
def State.Executable (device : Device) (s : State) (id : Nat) : Prop :=
  (s.lists id).info.counterValue * ((s.lists id).info.regularCmdListSubmissionCounter + 1) <
    2 ^ device.bits

/-- In an execution signals grow, an implicit wait is for the signal before it, and an external
wait for the latest signal of its operation. -/
structure State.Ordered (device : Device) (s s' : State) (id : Nat) : Prop where
  grows : (signals ((s'.lists id).accesses device)).Pairwise (· < ·)
  later : ∀ earlier ∈ s.signalled id, ∀ value ∈ signals ((s'.lists id).accesses device),
    earlier < value
  implicit : ∀ front dependency value back,
    (s'.lists id).accesses device = front ++ .wait dependency value :: back →
      dependency.implicit = true → (signals front).getLast? = some value
  external : ∀ dependency value,
    .wait dependency value ∈ (s'.lists id).accesses device → dependency.implicit = false →
      ∀ signal, .signal dependency.operation signal ∈
        (s'.lists dependency.commandList).accesses device ↔ signal = value

/-- The infos that the patches of an execution read. -/
def State.submitted (s : State) (id : Nat) : Nat → InOrderExecInfo :=
  Function.update (fun id => (s.lists id).info) id { (s.lists id).info with
    regularCmdListSubmissionCounter := (s.lists id).info.regularCmdListSubmissionCounter + 1 }

section Executing

variable (consistent : s.Consistent device items amounts) {id : Nat}
include consistent

/-- The amount of the list itself behind its submission. -/
theorem State.Consistent.own (executable : s.Executable device id) :
    getAppendCounterValue (s.submitted id id) =
      (s.lists id).operations * (s.lists id).info.regularCmdListSubmissionCounter := by
  have sound := consistent.sound id
  unfold State.Executable at executable
  rw [State.submitted, Function.update_self, ← sound.counter]
  exact getAppendCounterValue_eq sound.regular
    (Nat.lt_of_lt_of_le executable (Nat.pow_le_pow_right (by decide) bits_le))

/-- The amounts of the lists that are waited for. -/
theorem State.Consistent.external {other : Nat} (different : other ≠ id)
    (some : (s.lists other).operations ≠ 0) :
    ((amounts id).patched (s.submitted id) (s.submitted id id)).external other =
      (s.lists other).operations *
        ((s.lists other).info.regularCmdListSubmissionCounter - 1) := by
  have append := (consistent.sound other).append
  simp only [Amounts.patched, State.submitted, Function.update_of_ne different]
  rw [append]
  split
  next none =>
    rw [none]
    apply consistent.idle id other
    rcases Nat.mul_eq_zero.mp none with no | once
    · exact absurd no some
    · exact Nat.le_of_sub_eq_zero once
  next => rfl

theorem State.Consistent.executes (executable : s.Executable device id) :
    ∀ item ∈ items id,
      item.value ((amounts id).patched (s.submitted id) (s.submitted id id)) <
        2 ^ device.bits := by
  have sound := consistent.sound id
  have enough := executable
  unfold State.Executable at enough
  rw [sound.counter, Nat.mul_succ] at enough
  apply sound.placed.small (Nat.two_pow_pos _)
  · intro operation member
    have below := sound.below operation member
    have own : ((amounts id).patched (s.submitted id) (s.submitted id id)).own = _ :=
      consistent.own executable
    rw [own]
    omega
  · intro other operation different known
    have below := (consistent.sound other).below operation known
    have fits := (consistent.sound other).fits
    rw [consistent.external different (Nat.ne_of_gt (Nat.zero_lt_of_lt below))]
    rcases Nat.eq_zero_or_pos (s.lists other).info.regularCmdListSubmissionCounter with never | once
    · rw [never, Nat.zero_sub, Nat.mul_zero]
      omega
    · have room := ((consistent.sound other).executed (Nat.ne_of_gt once)).2
      obtain ⟨submissions, more⟩ := Nat.exists_eq_add_of_lt once
      rw [more, Nat.zero_add, Nat.mul_succ] at room
      rw [more, Nat.zero_add, Nat.add_sub_cancel]
      omega

/-- The stream of an executed list. -/
theorem State.Consistent.patched (executable : s.Executable device id) :
    patchInOrderCmds (s.submitted id) (s.submitted id id) (s.lists id).inOrderPatchCmds
        (s.lists id).commands =
      renderAll device ((amounts id).patched (s.submitted id) (s.submitted id id)) (items id) := by
  have sound := consistent.sound id
  rw [sound.records.commands, sound.records.patches]
  have patched := patch_items device (s.submitted id) (s.submitted id id) (amounts id) (items id)
    ?_ ?_ ?_ []
  · simpa using patched
  · intro item member
    exact Nat.lt_of_lt_of_le (consistent.executes executable item member)
      (Nat.pow_le_pow_right (by decide) bits_le)
  · intro once
    rw [State.submitted, Function.update_self] at once
    have never : (s.lists id).info.regularCmdListSubmissionCounter = 0 := by
      simpa using once
    rw [sound.own, never]
    exact Nat.mul_zero _
  · exact fun item member => sound.placed.patchable member

/-- The list behind its submission. -/
theorem State.Consistent.sound_submitted (executable : s.Executable device id)
    (closed : (s.lists id).closedCmdList = true) :
    ((s.execute device id).lists id).Sound device
      (fun other operation => operation ∈ signalOps (items other)) id (items id)
      ((amounts id).patched (s.submitted id) (s.submitted id id)) := by
  have sound := consistent.sound id
  have patched := consistent.patched executable
  have own := consistent.own executable
  simp only [State.execute, Function.update_self]
  simp only [State.submitted, Function.update_self] at patched own ⊢
  constructor
  · exact ⟨patched, sound.records.patches⟩
  · exact sound.placed
  · exact sound.below
  · exact sound.counter
  · exact sound.regular
  · exact sound.fits
  · exact sound.last
  · exact sound.optimized
  · exact own
  · intro _
    unfold State.Executable at executable
    rw [sound.counter] at executable
    exact ⟨closed, executable⟩
  · exact fun none => absurd none (Nat.succ_ne_zero _)

theorem State.Consistent.execute (executable : s.Executable device id)
    (closed : (s.lists id).closedCmdList = true) :
    (s.execute device id).Consistent device items (Function.update amounts id
      ((amounts id).patched (s.submitted id) (s.submitted id id))) := by
  have submitted := consistent.sound_submitted executable closed
  have others : ∀ other, other ≠ id → (s.execute device id).lists other = s.lists other := by
    intro other different
    exact Function.update_of_ne different _ _
  have count : ((s.execute device id).lists id).info.regularCmdListSubmissionCounter =
      (s.lists id).info.regularCmdListSubmissionCounter + 1 := by
    simp only [State.execute, Function.update_self]
  have operations : ((s.execute device id).lists id).operations = (s.lists id).operations := by
    simp only [State.execute, Function.update_self]
  have sounds : ∀ id', ((s.execute device id).lists id').Sound device
      (fun other operation => operation ∈ signalOps (items other)) id' (items id')
      (Function.update amounts id
        ((amounts id).patched (s.submitted id) (s.submitted id id)) id') := by
    intro id'
    by_cases same : id' = id
    · subst same
      rwa [Function.update_self]
    · rw [Function.update_of_ne same, others id' same]
      exact consistent.sound id'
  constructor
  · exact sounds
  · intro id'
    by_cases same : id' = id
    · subst same
      rw [Function.update_self]
      exact consistent.executes executable
    · rw [Function.update_of_ne same]
      exact consistent.small id'
  · intro id' other once
    have before : (s.lists other).info.regularCmdListSubmissionCounter ≤ 1 := by
      by_cases same : other = id
      · subst same
        rw [count] at once
        exact Nat.le_of_succ_le once
      · rwa [others other same] at once
    have idle := consistent.idle id' other before
    by_cases same : id' = id
    · subst same
      have none : getAppendCounterValue (s.submitted id' other) = 0 := by
        apply getAppendCounterValue_eq_zero
        by_cases itself : other = id'
        · subst itself
          rw [count] at once
          simpa [State.submitted] using once
        · simpa [State.submitted, itself] using before
      rw [Function.update_self]
      simp only [Amounts.patched, none, if_true]
      exact idle
    · rw [Function.update_of_ne same]
      exact idle
  · intro id' value member
    by_cases same : id' = id
    · subst same
      have values := submitted.signals (consistent.executes executable)
      have own := submitted.own
      have below := submitted.below
      rw [operations] at own below
      rw [count, Nat.add_sub_cancel] at own
      rw [count, operations, Nat.mul_succ]
      have split : value ∈ s.signalled id' ++
          signals (((s.execute device id').lists id').accesses device) := by
        simpa [State.execute] using member
      rcases List.mem_append.mp split with before | now
      · exact Nat.le_trans (consistent.signalled id' value before) (Nat.le_add_right _ _)
      · rw [values] at now
        obtain ⟨operation, signals, rfl⟩ := List.mem_map.mp now
        rw [own, Nat.add_comm]
        exact Nat.add_le_add_left (below operation signals) _
    · have before : value ∈ s.signalled id' := by
        simpa [State.execute, same] using member
      rw [others id' same]
      exact consistent.signalled id' value before
  · exact consistent.events

theorem State.Consistent.ordered (executable : s.Executable device id)
    (closed : (s.lists id).closedCmdList = true) :
    s.Ordered device (s.execute device id) id := by
  have after := consistent.execute executable closed
  have sound := consistent.sound_submitted executable closed
  have accesses := sound.accesses (consistent.executes executable)
  have values := sound.signals (consistent.executes executable)
  have own : ((amounts id).patched (s.submitted id) (s.submitted id id)).own = _ :=
    consistent.own executable
  constructor
  · rw [values, List.pairwise_map]
    apply sound.placed.pairwise.imp
    intro operation operation' less
    omega
  · intro earlier member value now
    rw [values] at now
    obtain ⟨operation, _, rfl⟩ := List.mem_map.mp now
    have bound := consistent.signalled id earlier member
    rw [own]
    omega
  · intro front dependency value back split implicit
    rw [accesses] at split
    obtain ⟨before, item, rest, same, rfl, found⟩ := access_split split
    have place := sound.placed before item rest same
    cases item with
    | wait dependency' offset partition base =>
      cases found
      obtain ⟨rfl, place⟩ := place
      rw [implicit, if_pos rfl] at place
      have bases := signals_access before
        ((amounts id).patched (s.submitted id) (s.submitted id id))
        fun _ _ _ _ member => sound.placed.base (same ▸ List.mem_append_left _ member)
      rw [bases, List.getLast?_map, place.2, Item.value, implicit, if_pos rfl]
      rfl
    | _ => cases found
  · intro dependency value member implicit signal
    rw [accesses] at member
    obtain ⟨item, inside, found⟩ := List.mem_filterMap.mp member
    obtain ⟨before, rest, same⟩ := List.append_of_mem inside
    have place := sound.placed before item rest same
    cases item with
    | wait dependency' offset partition base =>
      cases found
      obtain ⟨rfl, place⟩ := place
      rw [implicit, if_neg Bool.false_ne_true] at place
      obtain ⟨different, known⟩ := place
      have other := after.sound dependency.commandList
      have small := after.small dependency.commandList
      have below := (consistent.sound _).below _ known
      rw [other.accesses small, signal_mem_access other.placed known,
        Function.update_of_ne different, Item.value, implicit, if_neg Bool.false_ne_true,
        consistent.external different (Nat.ne_of_gt (Nat.zero_lt_of_lt below)),
        (consistent.sound _).own]
    | _ => cases found

end Executing

end ComputeRuntime.InOrder
