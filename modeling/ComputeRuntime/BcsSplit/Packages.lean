import ComputeRuntime.BcsSplit.Model

/-! Packages of split events: each belongs to one split at a time, whose parts it counts, and is
taken for another one only when all of them are done. -/
namespace ComputeRuntime.BcsSplit

variable (bcsSplit : BcsSplit)

/-! ### Positions of sub-copy events -/

/-- The sub-copy events of a package. -/
def slots : Nat := if bcsSplit.aggregatedEventsMode then 1 else bcsSplit.cmdQs.length

/-- The event of a part, within its package. -/
def slot (part : Nat) : Nat := if bcsSplit.aggregatedEventsMode then 0 else part

def eventIndex (package part : Nat) : Nat := package * bcsSplit.slots + bcsSplit.slot part

/-- Positions in different packages, or in different slots of one, are different. -/
theorem position_eq {stride package slot package' slot' : Nat} (inside : slot < stride)
    (inside' : slot' < stride) (same : package * stride + slot = package' * stride + slot') :
    package = package' ∧ slot = slot' := by
  have quotient : ∀ p s, s < stride → (p * stride + s) / stride = p := by
    intro p s below
    rw [Nat.mul_comm, Nat.mul_add_div (by omega), Nat.div_eq_of_lt below, Nat.add_zero]
  have packages : package = package' := by
    rw [← quotient package slot inside, same, quotient package' slot' inside']
  subst packages
  exact ⟨rfl, Nat.add_left_cancel same⟩

theorem position_lt {stride package slot count : Nat} (inside : slot < stride)
    (known : package < count) : package * stride + slot < count * stride := by
  have next : (package + 1) * stride ≤ count * stride := Nat.mul_le_mul_right _ known
  rw [Nat.add_mul, Nat.one_mul] at next
  omega

/-- Writing one value at consecutive positions. -/
theorem getElem?_foldl_set {α : Type} (value : α) (first count position : Nat) (values : List α) :
    ((List.range count).foldl (fun values j => values.set (first + j) value) values)[position]? =
      if first ≤ position ∧ position < first + count ∧ position < values.length then some value
      else values[position]? := by
  have length : ∀ count, ((List.range count).foldl
      (fun values j => values.set (first + j) value) values).length = values.length := by
    intro count
    induction count with
    | zero => rfl
    | succ count ih => rw [List.range_succ, List.foldl_append, List.foldl_cons, List.foldl_nil,
        List.length_set, ih]
  induction count with
  | zero =>
    rw [if_neg (by omega)]
    rfl
  | succ count ih =>
    rw [List.range_succ, List.foldl_append, List.foldl_cons, List.foldl_nil, List.getElem?_set,
      length, ih]
    by_cases here : first + count = position
    · subst here
      simp only [if_true]
      split <;> split <;> simp_all
    · rw [if_neg here]
      have same : (first ≤ position ∧ position < first + count ∧ position < values.length) ↔
          (first ≤ position ∧ position < first + (count + 1) ∧ position < values.length) := by
        omega
      simp only [same]

/-! ### The invariant -/

/-- What callers and the setup promise: the queues of a direction are some of all. -/
structure Valid : Prop where
  h2d : bcsSplit.h2dCmdQs.Sublist bcsSplit.cmdQs
  d2h : bcsSplit.d2hCmdQs.Sublist bcsSplit.cmdQs

/-- The queues of a call. -/
def queues (call : Call) : List Nat := bcsSplit.getCmdQsForSplit call.direction

/-- A call that uses all queues and comes from a list in order where events are aggregated. -/
structure Matched (call : Call) : Prop where
  nonempty : bcsSplit.queues call ≠ []
  aggregated : bcsSplit.aggregatedEventsMode = true →
    call.isInOrderExecutionEnabled = true ∧
      (bcsSplit.queues call).length = bcsSplit.cmdQs.length

instance (call : Call) : Decidable (bcsSplit.Matched call) :=
  decidable_of_iff (bcsSplit.queues call ≠ [] ∧ (bcsSplit.aggregatedEventsMode = true →
      call.isInOrderExecutionEnabled = true ∧
        (bcsSplit.queues call).length = bcsSplit.cmdQs.length))
    ⟨fun both => ⟨both.1, both.2⟩, fun matched => ⟨matched.nonempty, matched.aggregated⟩⟩

/-- The parts that are done. -/
def Split.copiedCount (split : Split) : Nat := split.chunks.countP Chunk.copied

/-- The value of a sub-copy event of a split that is not done. -/
def expected (split : Split) (slot : Nat) : Nat :=
  if bcsSplit.aggregatedEventsMode then split.copiedCount
  else if (split.chunks[slot]?.map Chunk.copied) = some true then 1 else 0

/-- What a call has made of itself so far. -/
structure Split.Formed (split : Split) : Prop where
  matched : bcsSplit.Matched split.call
  rounds : split.i ≤ (bcsSplit.queues split.call).length
  engines : split.engineCount = (bcsSplit.queues split.call).length - split.i
  left : split.totalSize ≤ split.call.size
  finished : split.i = (bcsSplit.queues split.call).length → split.totalSize = 0
  cmdQs : split.chunks.map Chunk.cmdQ = (bcsSplit.queues split.call).take split.i
  consecutive : Layout.Consecutive (fun localSize => localSize)
    (split.chunks.map fun chunk => (chunk.offset, chunk.localSize)) 0
    (split.call.size - split.totalSize)
  events : split.chunks.map Chunk.copyEventIndex =
    (List.range split.i).map (bcsSplit.eventIndex split.markerEventIndex)
  handles : split.eventHandles = (List.range
    (if bcsSplit.aggregatedEventsMode then min split.i 1 else split.i)).map
      (bcsSplit.eventIndex split.markerEventIndex)
  appended : split.appended = true → split.i = (bcsSplit.queues split.call).length
  signalled : split.signalled = true →
    split.appended = true ∧ ∀ chunk ∈ split.chunks, chunk.copied = true

/-- A split that is not done has its package for itself. -/
structure State.Busy (s : State) (index : Nat) (split : Split) : Prop where
  marker : ∃ marker, s.marker[split.markerEventIndex]? = some marker ∧
    if bcsSplit.aggregatedEventsMode then
      marker.inOrderSplit = (if split.appended then some index else none) ∧
        marker.reportEmptyCbEventAsReady = false
    else marker.signalled = false
  subcopy : ∀ slot < bcsSplit.slots,
    s.subcopy[split.markerEventIndex * bcsSplit.slots + slot]? =
      some (bcsSplit.expected split slot)

structure State.Consistent (s : State) : Prop where
  valid : s.valid = true
  subcopyLength : s.subcopy.length = s.marker.length * bcsSplit.slots
  barrierLength : bcsSplit.aggregatedEventsMode = false → s.barrier.length = s.marker.length
  formed : ∀ (index : Nat) (split : Split), s.splits[index]? = some split →
    split.Formed bcsSplit ∧ split.markerEventIndex < s.marker.length
  exclusive : ∀ (index : Nat) (split : Split) (index' : Nat) (split' : Split),
    s.splits[index]? = some split → s.splits[index']? = some split' →
    split.markerEventIndex = split'.markerEventIndex → index < index' → split.signalled = true
  busy : ∀ (index : Nat) (split : Split), s.splits[index]? = some split → split.signalled = false →
    s.Busy bcsSplit index split

/-! ### Obtaining a package -/

/-- A package that is fresh, taken from splits that are done. -/
structure Obtained (s s' : State) (package : Nat) : Prop where
  splits : s'.splits = s.splits
  valid : s'.valid = s.valid
  known : package < s'.marker.length
  grown : s.marker.length ≤ s'.marker.length
  subcopyLength : s'.subcopy.length = s'.marker.length * bcsSplit.slots
  barrierLength : bcsSplit.aggregatedEventsMode = false → s'.barrier.length = s'.marker.length
  others : ∀ package' < s.marker.length, package' ≠ package →
    s'.marker[package']? = s.marker[package']? ∧ ∀ slot < bcsSplit.slots,
      s'.subcopy[package' * bcsSplit.slots + slot]? = s.subcopy[package' * bcsSplit.slots + slot]?
  fresh : ∃ marker, s'.marker[package]? = some marker ∧
    if bcsSplit.aggregatedEventsMode then
      marker.inOrderSplit = none ∧ marker.reportEmptyCbEventAsReady = false
    else marker.signalled = false
  zero : ∀ slot < bcsSplit.slots, s'.subcopy[package * bcsSplit.slots + slot]? = some 0
  done : ∀ split ∈ s.splits, split.markerEventIndex = package → split.signalled = true

variable {bcsSplit} {s s' : State}

/-- The marker of a split that is not done is not ready. -/
theorem State.Busy.not_ready {index : Nat} {split : Split} (busy : s.Busy bcsSplit index split)
    (current : s.splits[index]? = some split) (open' : split.signalled = false)
    {marker : Marker} (mine : s.marker[split.markerEventIndex]? = some marker) :
    s.queryStatus bcsSplit marker = false := by
  obtain ⟨marker', known, state⟩ := busy.marker
  rw [mine] at known
  cases known
  unfold State.queryStatus
  split at state
  next aggregated =>
    rw [if_pos aggregated, state.1]
    split
    next none => exact state.2
    next other some =>
      split at some
      · cases some
        simp [current, open']
      · cases some
  next regular => rw [if_neg regular, state]

/-- A package whose marker is ready has no split that is not done. -/
theorem State.Consistent.done (consistent : s.Consistent bcsSplit) {package : Nat}
    (ready : ∃ marker, s.marker[package]? = some marker ∧ s.queryStatus bcsSplit marker = true) :
    ∀ split ∈ s.splits, split.markerEventIndex = package → split.signalled = true := by
  intro split member mine
  obtain ⟨index, current⟩ := List.mem_iff_getElem?.mp member
  obtain ⟨marker, known, ready⟩ := ready
  subst mine
  by_contra unfinished
  rw [Bool.not_eq_true] at unfinished
  have busy := consistent.busy index split current unfinished
  rw [busy.not_ready current unfinished known] at ready
  cases ready

theorem findIdx?_ready {package : Nat}
    (found : s.marker.findIdx? (s.queryStatus bcsSplit) = some package) :
    ∃ marker, s.marker[package]? = some marker ∧ s.queryStatus bcsSplit marker = true := by
  obtain ⟨inside, ready, _⟩ := List.findIdx?_eq_some_iff_getElem.mp found
  exact ⟨s.marker[package], List.getElem?_eq_getElem inside, ready⟩

/-- A package that exists is reset. -/
theorem obtained_reset (consistent : s.Consistent bcsSplit) {package : Nat}
    (ready : ∃ marker, s.marker[package]? = some marker ∧ s.queryStatus bcsSplit marker = true)
    {marker : Marker} {barrier subcopy : List Nat}
    (barrierLength : barrier.length = s.barrier.length)
    (fresh : if bcsSplit.aggregatedEventsMode then
        marker.inOrderSplit = none ∧ marker.reportEmptyCbEventAsReady = false
      else marker.signalled = false)
    (subcopyLength : subcopy.length = s.subcopy.length)
    (values : ∀ package' < s.marker.length, ∀ slot < bcsSplit.slots,
      subcopy[package' * bcsSplit.slots + slot]? =
        if package' = package then some 0
        else s.subcopy[package' * bcsSplit.slots + slot]?) :
    Obtained bcsSplit s { s with
      marker := s.marker.set package marker
      barrier := barrier
      subcopy := subcopy } package := by
  have known : package < s.marker.length := by
    obtain ⟨_, inside, _⟩ := ready
    exact (List.getElem?_eq_some_iff.mp inside).1
  constructor
  · rfl
  · rfl
  · simpa using known
  · simp
  · simpa [subcopyLength] using consistent.subcopyLength
  · intro regular
    simpa [barrierLength] using consistent.barrierLength regular
  · intro package' inside other
    constructor
    · rw [List.getElem?_set_ne (Ne.symm other)]
    · intro slot below
      rw [values package' inside slot below, if_neg other]
  · exact ⟨marker, by simp [known], fresh⟩
  · intro slot below
    rw [values package known slot below, if_pos rfl]
  · exact consistent.done ready

theorem obtained_resetEventPackage (regular : bcsSplit.aggregatedEventsMode = false)
    (consistent : s.Consistent bcsSplit) {package : Nat}
    (ready : ∃ marker, s.marker[package]? = some marker ∧
      s.queryStatus bcsSplit marker = true) :
    Obtained bcsSplit s (s.resetEventPackage bcsSplit package) package := by
  have stride : bcsSplit.slots = bcsSplit.cmdQs.length := by simp [slots, regular]
  have length := consistent.subcopyLength
  have known : package < s.marker.length := by
    obtain ⟨_, inside, _⟩ := ready
    exact (List.getElem?_eq_some_iff.mp inside).1
  have sameLength : ∀ count, ((List.range count).foldl (fun subcopy j =>
      subcopy.set (package * bcsSplit.cmdQs.length + j) 0) s.subcopy).length =
        s.subcopy.length := by
    intro count
    induction count with
    | zero => rfl
    | succ count ih =>
      rw [List.range_succ, List.foldl_append, List.foldl_cons, List.foldl_nil, List.length_set, ih]
  apply obtained_reset consistent ready
  · simp
  · simp [regular]
  · exact sameLength _
  · intro package' inside slot below
    rw [stride] at below length ⊢
    rw [getElem?_foldl_set]
    have bound := position_lt below inside
    by_cases mine : package' = package
    · subst mine
      rw [if_pos rfl, if_pos (by omega)]
    · rw [if_neg mine, if_neg]
      rintro ⟨low, high, _⟩
      have here : package' * bcsSplit.cmdQs.length + slot = package * bcsSplit.cmdQs.length +
          (package' * bcsSplit.cmdQs.length + slot - package * bcsSplit.cmdQs.length) := by
        omega
      exact mine (position_eq below (by omega) here).1

theorem obtained_resetAggregatedEventState (aggregated : bcsSplit.aggregatedEventsMode = true)
    (consistent : s.Consistent bcsSplit) {package : Nat}
    (ready : ∃ marker, s.marker[package]? = some marker ∧
      s.queryStatus bcsSplit marker = true) :
    Obtained bcsSplit s (s.resetAggregatedEventState package false) package := by
  have stride : bcsSplit.slots = 1 := by simp [slots, aggregated]
  have length := consistent.subcopyLength
  apply obtained_reset consistent ready
  · rfl
  · simp [aggregated]
  · simp
  · intro package' inside slot below
    rw [stride] at below length ⊢
    obtain rfl : slot = 0 := by omega
    rw [Nat.mul_one, Nat.add_zero, List.getElem?_set]
    by_cases mine : package' = package
    · subst mine
      rw [if_pos rfl, if_pos rfl, if_pos (by omega)]
    · rw [if_neg mine, if_neg (Ne.symm mine)]

/-- A package behind those that exist. -/
theorem obtained_new (consistent : s.Consistent bcsSplit) {marker : Marker} {markers : List Marker}
    {barrier zeros : List Nat}
    (fresh : if bcsSplit.aggregatedEventsMode then
        marker.inOrderSplit = none ∧ marker.reportEmptyCbEventAsReady = false
      else marker.signalled = false)
    (barrierLength : bcsSplit.aggregatedEventsMode = false →
      barrier.length = s.marker.length + (markers.length + 1))
    (zeroLength : zeros.length = (markers.length + 1) * bcsSplit.slots)
    (zero : ∀ value ∈ zeros, value = 0) :
    Obtained bcsSplit s { s with
      marker := s.marker ++ marker :: markers
      barrier := barrier
      subcopy := s.subcopy ++ zeros } s.marker.length := by
  have length := consistent.subcopyLength
  constructor
  · rfl
  · rfl
  · simp
  · simp
  · simp [length, zeroLength, Nat.add_mul]
  · intro regular
    simpa using barrierLength regular
  · intro package' inside _
    constructor
    · exact List.getElem?_append_left inside
    · intro slot below
      have bound := position_lt below inside
      exact List.getElem?_append_left (by omega)
  · exact ⟨marker, by simp, fresh⟩
  · intro slot below
    have some : slot < zeros.length := by
      rw [zeroLength, Nat.add_mul, Nat.one_mul]
      omega
    rw [← length, List.getElem?_append_right (Nat.le_add_right _ _), Nat.add_sub_cancel_left,
      List.getElem?_eq_getElem some, zero _ (List.getElem_mem some)]
  · intro split member mine
    obtain ⟨index, current⟩ := List.mem_iff_getElem?.mp member
    have known := (consistent.formed index split current).2
    omega

/-- One aggregated event and its marker, behind the others. -/
theorem resetAggregatedEventState_append (aligned : s.subcopy.length = s.marker.length)
    (markerCompleted : Bool) :
    State.resetAggregatedEventState
        { s with subcopy := s.subcopy ++ [0], marker := s.marker ++ [{}] }
        s.subcopy.length markerCompleted =
      { s with
        subcopy := s.subcopy ++ [0]
        marker := s.marker ++ [{ reportEmptyCbEventAsReady := markerCompleted }] } := by
  simp [State.resetAggregatedEventState, aligned]

theorem createAggregatedEvent_eq (aligned : s.subcopy.length = s.marker.length) :
    s.createAggregatedEvent = (s.marker.length, { s with
      marker := s.marker ++ { reportEmptyCbEventAsReady := false } :: List.replicate 7 {}
      subcopy := s.subcopy ++ List.replicate 8 0 }) := by
  have rounds : ∀ count, (List.range count).foldl (fun s i => State.resetAggregatedEventState
      { s with subcopy := s.subcopy ++ [0], marker := s.marker ++ [{}] }
      s.subcopy.length (i ≠ 0)) s = { s with
        subcopy := s.subcopy ++ List.replicate count 0
        marker := s.marker ++ (List.range count).map fun i =>
          ({ reportEmptyCbEventAsReady := i ≠ 0 } : Marker) } := by
    intro count
    induction count with
    | zero => simp
    | succ count ih =>
      rw [List.range_succ, List.foldl_append, ih, List.foldl_cons, List.foldl_nil,
        resetAggregatedEventState_append]
      · simp [List.replicate_succ']
      · simp [aligned]
  unfold State.createAggregatedEvent
  simp only [rounds, aligned]
  rfl

theorem createFromPool_eq :
    s.createFromPool bcsSplit = (s.marker.length, { s with
      marker := s.marker ++ [{}]
      barrier := s.barrier ++ [0]
      subcopy := s.subcopy ++ List.replicate bcsSplit.cmdQs.length 0 }) := by
  have rounds : ∀ count ≤ bcsSplit.cmdQs.length, (List.range count).foldl (fun s i =>
      if i = bcsSplit.cmdQs.length + 2 - 1 then { s with marker := s.marker ++ [{}] }
      else if i = bcsSplit.cmdQs.length + 2 - 2 then { s with barrier := s.barrier ++ [0] }
      else { s with subcopy := s.subcopy ++ [0] }) s =
        { s with subcopy := s.subcopy ++ List.replicate count 0 } := by
    intro count
    induction count with
    | zero => simp
    | succ count ih =>
      intro below
      rw [List.range_succ, List.foldl_append, ih (by omega), List.foldl_cons, List.foldl_nil,
        if_neg (by omega), if_neg (by omega)]
      simp [List.replicate_succ']
  unfold State.createFromPool
  simp only [List.range_succ, List.foldl_append, rounds _ (Nat.le_refl _), List.foldl_cons,
    List.foldl_nil]
  simp

theorem obtainForSplit_obtained (consistent : s.Consistent bcsSplit) {poolAvailable : Bool}
    {package : Nat} (obtained : s.obtainForSplit bcsSplit poolAvailable = some (package, s')) :
    Obtained bcsSplit s s' package := by
  have length := consistent.subcopyLength
  unfold State.obtainForSplit at obtained
  split at obtained
  next aggregated =>
    have stride : bcsSplit.slots = 1 := by simp [slots, aggregated]
    rw [stride, Nat.mul_one] at length
    rw [Option.some.injEq, State.obtainAggregatedEventsForSplit] at obtained
    split at obtained
    next index found =>
      cases obtained
      exact obtained_resetAggregatedEventState aggregated consistent (findIdx?_ready found)
    next =>
      rw [createAggregatedEvent_eq length] at obtained
      cases obtained
      apply obtained_new consistent
      · simp [aggregated]
      · simp [aggregated]
      · simp [stride]
      · exact fun value member => List.eq_of_mem_replicate member
  next regular =>
    rw [Bool.not_eq_true] at regular
    split at obtained
    next index found =>
      cases obtained
      exact obtained_resetEventPackage regular consistent (findIdx?_ready found)
    next =>
      split at obtained
      · rw [createFromPool_eq] at obtained
        cases obtained
        apply obtained_new consistent
        · simp [regular]
        · intro _
          simp [consistent.barrierLength regular]
        · simp [slots, regular]
        · exact fun value member => List.eq_of_mem_replicate member
      · cases obtained

end ComputeRuntime.BcsSplit
