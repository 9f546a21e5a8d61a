import ComputeRuntime.BcsSplit.Packages

/-! Runs of split copies: the parts cover the copy, and the signal behind a split waits for exactly
its own parts. -/
namespace ComputeRuntime.BcsSplit

open Transition

variable {bcsSplit : BcsSplit} {s s' : State}

theorem Split.formed_begin {call : Call} (matched : bcsSplit.Matched call) (package : Nat) :
    Split.Formed bcsSplit
      { call := call
        markerEventIndex := package
        totalSize := call.size
        engineCount := (bcsSplit.getCmdQsForSplit call.direction).length } := by
  have some : 0 < (bcsSplit.queues call).length := List.length_pos_iff.mpr matched.nonempty
  constructor
  · exact matched
  · exact Nat.zero_le _
  · rfl
  · exact Nat.le_refl _
  · intro all
    simp only at all
    omega
  · rfl
  · exact (Nat.sub_self _).symm
  · rfl
  · simp
  · nofun
  · nofun

/-- A package that was just obtained, for a new split. -/
theorem State.Consistent.begin (consistent : s.Consistent bcsSplit) {call : Call}
    (matched : bcsSplit.Matched call) {poolAvailable : Bool}
    (step : s.beginSplit bcsSplit call poolAvailable = some s') : s'.Consistent bcsSplit := by
  unfold State.beginSplit at step
  split at step
  next => cases step
  next package s₁ obtains =>
    have obtained := obtainForSplit_obtained consistent obtains
    cases step
    constructor
    · have barrier : call.barrierRequired = true → package < s₁.barrier.length := by
        intro required
        cases mode : bcsSplit.aggregatedEventsMode with
        | false =>
          rw [obtained.barrierLength mode]
          exact obtained.known
        | true => simp [Call.barrierRequired, (matched.aggregated mode).1] at required
      simp only [obtained.valid, consistent.valid, Bool.true_and, Bool.or_eq_true,
        Bool.not_eq_true', decide_eq_true_eq]
      cases required : call.barrierRequired with
      | false => exact .inl rfl
      | true => exact .inr (barrier required)
    · exact obtained.subcopyLength
    · exact obtained.barrierLength
    all_goals simp only [obtained.splits]
    · intro index split current
      rw [List.getElem?_append] at current
      split at current
      next =>
        have formed := consistent.formed index split current
        exact ⟨formed.1, Nat.lt_of_lt_of_le formed.2 obtained.grown⟩
      next =>
        obtain rfl := List.mem_singleton.mp (List.mem_of_getElem? current)
        exact ⟨Split.formed_begin matched package, obtained.known⟩
    · intro index split index' split' current current' same before
      rw [List.getElem?_append] at current current'
      split at current
      next =>
        split at current'
        next => exact consistent.exclusive index split index' split' current current' same before
        next =>
          obtain rfl := List.mem_singleton.mp (List.mem_of_getElem? current')
          exact obtained.done split (List.mem_of_getElem? current) same
      next =>
        split at current'
        next => omega
        next =>
          have bound := (List.getElem?_eq_some_iff.mp current').1
          rw [List.length_singleton] at bound
          omega
    · intro index split current unfinished
      rw [List.getElem?_append] at current
      split at current
      next =>
        have busy := consistent.busy index split current unfinished
        have known := (consistent.formed index split current).2
        have other : split.markerEventIndex ≠ package := by
          intro mine
          have done := obtained.done split (List.mem_of_getElem? current) mine
          rw [unfinished] at done
          cases done
        obtain ⟨marker, values⟩ := obtained.others _ known other
        constructor
        · rw [marker]
          exact busy.marker
        · intro slot below
          rw [values slot below]
          exact busy.subcopy slot below
      next =>
        obtain rfl := List.mem_singleton.mp (List.mem_of_getElem? current)
        constructor
        · exact obtained.fresh
        · intro slot below
          rw [obtained.zero slot below]
          simp [expected, Split.copiedCount]

/-- A step of a split that is not done, which touches no package but its own. -/
theorem State.Consistent.update (consistent : s.Consistent bcsSplit) {index : Nat}
    {split split' : Split} (current : s.splits[index]? = some split)
    (unfinished : split.signalled = false)
    (same : split'.markerEventIndex = split.markerEventIndex) (formed : split'.Formed bcsSplit)
    {marker : List Marker} {subcopy : List Nat} {valid : Bool} (valid' : valid = true)
    (markerLength : marker.length = s.marker.length)
    (subcopyLength : subcopy.length = s.subcopy.length)
    (others : ∀ package < s.marker.length, package ≠ split.markerEventIndex →
      marker[package]? = s.marker[package]? ∧ ∀ slot < bcsSplit.slots,
        subcopy[package * bcsSplit.slots + slot]? = s.subcopy[package * bcsSplit.slots + slot]?)
    (busy : split'.signalled = false → State.Busy bcsSplit
      { s with splits := s.splits.set index split', marker := marker, subcopy := subcopy
               valid := valid } index split') :
    State.Consistent bcsSplit
      { s with splits := s.splits.set index split', marker := marker, subcopy := subcopy
               valid := valid } := by
  have inside := (List.getElem?_eq_some_iff.mp current).1
  -- What is at some index now was there before, or is the split that moved.
  have cases_set : ∀ {k : Nat} {now : Split}, (s.splits.set index split')[k]? = some now →
      (k = index ∧ now = split') ∨ (k ≠ index ∧ s.splits[k]? = some now) := by
    intro k now found
    by_cases here : k = index
    · subst here
      rw [List.getElem?_set_self inside] at found
      exact .inl ⟨rfl, (Option.some.inj found).symm⟩
    · rw [List.getElem?_set_ne (Ne.symm here)] at found
      exact .inr ⟨here, found⟩
  constructor
  · exact valid'
  · rw [subcopyLength, markerLength]
    exact consistent.subcopyLength
  · intro regular
    rw [markerLength]
    exact consistent.barrierLength regular
  · intro k now found
    rw [markerLength]
    rcases cases_set found with ⟨rfl, rfl⟩ | ⟨_, before⟩
    · rw [same]
      exact ⟨formed, (consistent.formed k split current).2⟩
    · exact consistent.formed k now before
  · intro k now k' now' found found' package order
    rcases cases_set found with ⟨rfl, rfl⟩ | ⟨_, before⟩
    · rcases cases_set found' with ⟨rfl, rfl⟩ | ⟨_, before'⟩
      · omega
      · have done := consistent.exclusive k split k' now' current before' (same ▸ package) order
        rw [unfinished] at done
        cases done
    · rcases cases_set found' with ⟨rfl, rfl⟩ | ⟨_, before'⟩
      · exact consistent.exclusive k now k' split before current (package.trans same) order
      · exact consistent.exclusive k now k' now' before before' package order
  · intro k now found open'
    rcases cases_set found with ⟨rfl, rfl⟩ | ⟨other, before⟩
    · exact busy open'
    · have known := (consistent.formed k now before).2
      have different : now.markerEventIndex ≠ split.markerEventIndex := by
        intro mine
        rcases Nat.lt_or_gt_of_ne other with less | greater
        · have done := consistent.exclusive k now index split before current mine less
          rw [open'] at done
          cases done
        · have done := consistent.exclusive index split k now current before mine.symm greater
          rw [unfinished] at done
          cases done
      obtain ⟨marker', values⟩ := others _ known different
      have old := consistent.busy k now before open'
      constructor
      · rw [marker']
        exact old.marker
      · intro slot below
        rw [values slot below]
        exact old.subcopy slot below

/-! ### The steps of a call -/

theorem queues_length_le (valid : bcsSplit.Valid) (call : Call) :
    (bcsSplit.queues call).length ≤ bcsSplit.cmdQs.length := by
  unfold queues getCmdQsForSplit
  split
  · exact valid.h2d.length_le
  · exact valid.d2h.length_le
  · exact Nat.le_refl _

theorem slot_lt (valid : bcsSplit.Valid) {call : Call} {part : Nat}
    (inside : part < (bcsSplit.queues call).length) : bcsSplit.slot part < bcsSplit.slots := by
  have most := queues_length_le valid call
  unfold slot slots
  split <;> omega

theorem eventIndex_eq (package part : Nat) :
    (if bcsSplit.aggregatedEventsMode then package
      else package * bcsSplit.cmdQs.length + part) = bcsSplit.eventIndex package part := by
  unfold eventIndex slots slot
  split <;> simp

/-- The next round of a call, which is given the next part. -/
def Split.next (bcsSplit : BcsSplit) (split : Split) (cmdQ : Nat) : Split :=
  { split with
    i := split.i + 1
    totalSize := split.totalSize - split.totalSize / split.engineCount
    engineCount := split.engineCount - 1
    chunks := split.chunks ++ [{
      cmdQ := cmdQ
      offset := split.call.size - split.totalSize
      localSize := split.totalSize / split.engineCount
      copyEventIndex := bcsSplit.eventIndex split.markerEventIndex split.i }]
    eventHandles :=
      if !bcsSplit.aggregatedEventsMode || split.i = 0 then
        split.eventHandles ++ [bcsSplit.eventIndex split.markerEventIndex split.i]
      else split.eventHandles }

/-- The events count what is done, to which a new part adds nothing. -/
theorem expected_next (split : Split) (cmdQ slot : Nat) :
    bcsSplit.expected (split.next bcsSplit cmdQ) slot = bcsSplit.expected split slot := by
  unfold expected Split.copiedCount Split.next
  simp only [List.countP_append, List.countP_singleton]
  split
  · simp
  · rw [List.getElem?_append]
    split
    · rfl
    next outside =>
      rw [List.getElem?_eq_none (Nat.le_of_not_lt outside)]
      cases slot - split.chunks.length <;> simp

theorem Split.Formed.next {split : Split} (formed : split.Formed bcsSplit) {cmdQ : Nat}
    (taken : (bcsSplit.queues split.call)[split.i]? = some cmdQ) :
    (Split.next bcsSplit split cmdQ).Formed bcsSplit := by
  obtain ⟨inside, queue⟩ := List.getElem?_eq_some_iff.mp taken
  have engines := formed.engines
  have left := formed.left
  have part : split.totalSize / split.engineCount ≤ split.totalSize := Nat.div_le_self _ _
  have running : split.appended = false := by
    by_contra appended
    rw [Bool.not_eq_false] at appended
    have all := formed.appended appended
    omega
  constructor
  · exact formed.matched
  · exact inside
  · simp only [Split.next]
    omega
  · exact Nat.le_trans (Nat.sub_le _ _) left
  · intro all
    simp only [Split.next] at all ⊢
    -- The last engine takes all that is left.
    obtain last : split.engineCount = 1 := by omega
    rw [last, Nat.div_one, Nat.sub_self]
  · simp only [Split.next, List.map_append, formed.cmdQs, List.map_cons, List.map_nil]
    rw [List.take_add_one, taken]
    rfl
  · have longer := Layout.consecutive_concat _ formed.consecutive
      (split.totalSize / split.engineCount)
    have ends : ∀ size total local' : Nat, local' ≤ total → total ≤ size →
        size - total + local' = size - (total - local') := by
      intro size total local' less most
      omega
    rw [ends _ _ _ part left] at longer
    simpa [Split.next] using longer
  · simp [Split.next, formed.events, List.range_succ]
  · simp only [Split.next, formed.handles]
    cases mode : bcsSplit.aggregatedEventsMode with
    | false => simp [List.range_succ]
    | true =>
      by_cases first : split.i = 0
      · simp [first]
      · have later : min split.i 1 = 1 := by omega
        simp [first, later]
  · intro appended
    simp only [Split.next] at appended
    rw [running] at appended
    cases appended
  · intro signalled
    simp only [Split.next] at signalled
    rw [(formed.signalled signalled).1] at running
    cases running

theorem State.Consistent.appendNext (valid : bcsSplit.Valid) (consistent : s.Consistent bcsSplit)
    {index : Nat} (step : s.appendNext bcsSplit index = some s') : s'.Consistent bcsSplit := by
  unfold State.appendNext at step
  split at step
  next => cases step
  next split current =>
    split at step
    next => cases step
    next cmdQ taken =>
      obtain ⟨formed, known⟩ := consistent.formed index split current
      have inside := (List.getElem?_eq_some_iff.mp taken).1
      have next := formed.next taken
      have same : (split.next bcsSplit cmdQ).markerEventIndex = split.markerEventIndex := rfl
      have running : split.signalled = false := by
        by_contra signalled
        rw [Bool.not_eq_false] at signalled
        have all := formed.appended (formed.signalled signalled).1
        unfold queues at all
        omega
      have accepted :
          (!bcsSplit.aggregatedEventsMode || split.call.isInOrderExecutionEnabled) = true := by
        cases mode : bcsSplit.aggregatedEventsMode with
        | false => rfl
        | true => simp [(formed.matched.aggregated mode).1]
      have inBarrier : split.call.barrierRequired = true →
          split.markerEventIndex < s.barrier.length := by
        intro required
        cases mode : bcsSplit.aggregatedEventsMode with
        | false =>
          rw [consistent.barrierLength mode]
          exact known
        | true => simp [Call.barrierRequired, (formed.matched.aggregated mode).1] at required
      have inSubcopy : bcsSplit.eventIndex split.markerEventIndex split.i < s.subcopy.length := by
        rw [consistent.subcopyLength]
        exact position_lt (slot_lt valid inside) known
      simp only [eventIndex_eq, accepted, if_true] at step
      cases step
      apply consistent.update current running same next
      · simp only [consistent.valid, Bool.true_and, Bool.and_eq_true, Bool.or_eq_true,
          Bool.not_eq_true', decide_eq_true_eq]
        constructor
        · cases required : split.call.barrierRequired with
          | false => exact .inl rfl
          | true => exact .inr (inBarrier required)
        · exact inSubcopy
      · rfl
      · rfl
      · exact fun _ _ _ => ⟨rfl, fun _ _ => rfl⟩
      · intro _
        have busy := consistent.busy index split current running
        constructor
        · exact busy.marker
        · intro slot below
          rw [expected_next]
          exact busy.subcopy slot below

theorem State.Consistent.appendRest (consistent : s.Consistent bcsSplit) {index : Nat}
    (step : s.appendRest bcsSplit index = some s') : s'.Consistent bcsSplit := by
  unfold State.appendRest at step
  split at step
  next => cases step
  next split current =>
    obtain ⟨⟨all, running⟩, rest⟩ := Option.ite_none_right_eq_some.mp step
    obtain ⟨formed, known⟩ := consistent.formed index split current
    have open' : split.signalled = false := by
      by_contra signalled
      rw [Bool.not_eq_false] at signalled
      rw [(formed.signalled signalled).1] at running
      cases running
    have inOrder :
        (!bcsSplit.aggregatedEventsMode || split.call.isInOrderExecutionEnabled) = true := by
      cases mode : bcsSplit.aggregatedEventsMode with
      | false => rfl
      | true => simp [(formed.matched.aggregated mode).1]
    cases rest
    have same : { split with appended := true }.markerEventIndex = split.markerEventIndex := rfl
    apply consistent.update current open' same
    · exact { formed with
        appended := fun _ => all
        signalled := fun signalled => ⟨rfl, (formed.signalled signalled).2⟩ }
    · simp [consistent.valid, known, inOrder]
    · split <;> simp
    · rfl
    · intro package inside other
      constructor
      · split
        · exact List.getElem?_modify_ne _ _ (Ne.symm other)
        · rfl
      · exact fun _ _ => rfl
    · intro _
      have busy := consistent.busy index split current open'
      constructor
      · obtain ⟨marker, found, state⟩ := busy.marker
        cases mode : bcsSplit.aggregatedEventsMode with
        | false =>
          rw [mode] at state
          exact ⟨marker, found, state⟩
        | true =>
          rw [mode] at state
          refine ⟨{ marker with inOrderSplit := some index }, ?_, rfl, state.2⟩
          simp [found]
      · exact busy.subcopy

/-! ### The steps of the engines -/

theorem Split.Formed.copyEventIndex {split : Split} (formed : split.Formed bcsSplit) {part : Nat}
    {chunk : Chunk} (given : split.chunks[part]? = some chunk) :
    chunk.copyEventIndex = bcsSplit.eventIndex split.markerEventIndex part ∧ part < split.i := by
  have event := congrArg (·[part]?) formed.events
  simp only [List.getElem?_map, given, Option.map_some] at event
  obtain ⟨part', found, same⟩ := Option.map_eq_some_iff.mp event.symm
  obtain ⟨inside, rfl⟩ := List.getElem?_eq_some_iff.mp found
  rw [List.length_range] at inside
  rw [List.getElem_range] at same
  exact ⟨same.symm, inside⟩

theorem Split.Formed.chunks_length {split : Split} (formed : split.Formed bcsSplit) :
    split.chunks.length = split.i := by
  have lengths := congrArg List.length formed.events
  simpa using lengths

/-- A part is done. -/
def Split.copy (split : Split) (part : Nat) (chunk : Chunk) : Split :=
  { split with chunks := split.chunks.set part { chunk with copied := true } }

theorem Split.Formed.copy {split : Split} (formed : split.Formed bcsSplit) {part : Nat}
    {chunk : Chunk} (given : split.chunks[part]? = some chunk) :
    (split.copy part chunk).Formed bcsSplit := by
  have kept : ∀ {β : Type} (f : Chunk → β), f { chunk with copied := true } = f chunk →
      (split.copy part chunk).chunks.map f = split.chunks.map f := by
    intro β f same
    simp only [Split.copy, List.map_set, same]
    apply List.ext_getElem?
    intro k
    rw [List.getElem?_set]
    split
    next here =>
      subst here
      split
      · simp [given]
      next outside =>
        rw [List.getElem?_eq_none (Nat.le_of_not_lt outside)]
    next => rfl
  exact { formed with
    cmdQs := (kept Chunk.cmdQ rfl).trans formed.cmdQs
    consecutive := by
      rw [kept (fun chunk => (chunk.offset, chunk.localSize)) rfl]
      exact formed.consecutive
    events := (kept Chunk.copyEventIndex rfl).trans formed.events
    signalled := by
      intro signalled
      obtain ⟨appended, all⟩ := formed.signalled signalled
      refine ⟨appended, ?_⟩
      intro chunk' member
      rcases List.mem_or_eq_of_mem_set member with old | rfl
      · exact all chunk' old
      · rfl }

/-- The event of the part counts it. -/
theorem expected_copy {split : Split} {part : Nat} {chunk : Chunk}
    (given : split.chunks[part]? = some chunk) (fresh : chunk.copied = false) {slot : Nat}
    (below : slot < bcsSplit.slots) :
    bcsSplit.expected (split.copy part chunk) slot =
      if slot = bcsSplit.slot part then
        if bcsSplit.aggregatedEventsMode then bcsSplit.expected split slot + 1 else 1
      else bcsSplit.expected split slot := by
  obtain ⟨inside, here⟩ := List.getElem?_eq_some_iff.mp given
  unfold slots at below
  unfold expected BcsSplit.slot Split.copiedCount Split.copy
  cases mode : bcsSplit.aggregatedEventsMode with
  | true =>
    rw [mode] at below
    have first : slot = 0 := by simpa using below
    simp [first, List.countP_set, inside, here, fresh]
  | false =>
    simp only [Bool.false_eq_true, if_false, List.getElem?_set]
    by_cases mine : slot = part
    · subst mine
      simp [inside]
    · simp [mine, Ne.symm mine]

theorem State.Consistent.copyChunk (valid : bcsSplit.Valid) (consistent : s.Consistent bcsSplit)
    {index part : Nat} (step : s.copyChunk bcsSplit index part = some s') :
    s'.Consistent bcsSplit := by
  unfold State.copyChunk at step
  split at step
  next => cases step
  next split current =>
    split at step
    next => cases step
    next chunk given =>
      obtain ⟨fresh, moved⟩ := Option.ite_none_left_eq_some.mp step
      rw [Bool.not_eq_true] at fresh
      cases moved
      obtain ⟨formed, known⟩ := consistent.formed index split current
      obtain ⟨event, started⟩ := formed.copyEventIndex given
      have inside : bcsSplit.slot part < bcsSplit.slots :=
        slot_lt valid (Nat.lt_of_lt_of_le started formed.rounds)
      have running : split.signalled = false := by
        by_contra signalled
        rw [Bool.not_eq_false] at signalled
        have done := (formed.signalled signalled).2 chunk (List.mem_of_getElem? given)
        rw [fresh] at done
        cases done
      have same : (split.copy part chunk).markerEventIndex = split.markerEventIndex := rfl
      apply consistent.update current running same (formed.copy given)
      · exact consistent.valid
      · rfl
      · simp
      · intro package _ other
        refine ⟨rfl, ?_⟩
        intro slot below
        rw [event]
        apply List.getElem?_modify_ne
        intro same
        exact other (position_eq inside below same).1.symm
      · intro _
        have busy := consistent.busy index split current running
        constructor
        · exact busy.marker
        · intro slot below
          have value := busy.subcopy slot below
          rw [expected_copy given fresh below, event]
          by_cases mine : slot = bcsSplit.slot part
          · rw [if_pos mine]
            subst mine
            simp only [Split.copy, eventIndex, List.getElem?_modify_eq, value]
            split <;> rfl
          · rw [if_neg mine, ← value]
            apply List.getElem?_modify_ne
            intro same
            exact mine (position_eq inside below same).2.symm

/-- The wait of a split that is not done holds when all its parts are. -/
theorem waitSatisfied_iff (valid : bcsSplit.Valid) (consistent : s.Consistent bcsSplit)
    {index : Nat} {split : Split} (current : s.splits[index]? = some split)
    (appended : split.appended = true) (running : split.signalled = false) :
    s.waitSatisfied bcsSplit split = true ↔ ∀ chunk ∈ split.chunks, chunk.copied = true := by
  obtain ⟨formed, _⟩ := consistent.formed index split current
  have all := formed.appended appended
  have count := formed.chunks_length
  have some : 0 < (bcsSplit.queues split.call).length :=
    List.length_pos_iff.mpr formed.matched.nonempty
  have busy := (consistent.busy index split current running).subcopy
  unfold State.waitSatisfied completionValue
  rw [formed.handles, List.all_eq_true]
  simp only [List.mem_map, List.mem_range, decide_eq_true_eq, forall_exists_index, and_imp,
    forall_apply_eq_imp_iff₂]
  cases mode : bcsSplit.aggregatedEventsMode with
  | true =>
    have value := busy 0 (by simp [slots, mode])
    have event : bcsSplit.eventIndex split.markerEventIndex 0 =
        split.markerEventIndex * bcsSplit.slots + 0 := by simp [eventIndex, slot, mode]
    have queues := (formed.matched.aggregated mode).2
    have first : min split.i 1 = 1 := by omega
    simp only [if_true, first, Nat.lt_one_iff, forall_eq, event, value, Option.getD_some]
    have counted : bcsSplit.expected split 0 = split.copiedCount := by simp [expected, mode]
    have most : split.copiedCount ≤ split.chunks.length := List.countP_le_length
    rw [counted, ← List.countP_eq_length]
    change _ ↔ split.copiedCount = _
    omega
  | false =>
    simp only [Bool.false_eq_true, if_false]
    constructor
    · intro waited chunk member
      obtain ⟨part, given⟩ := List.mem_iff_getElem?.mp member
      obtain ⟨_, started⟩ := formed.copyEventIndex given
      have inside := slot_lt valid (Nat.lt_of_lt_of_le started formed.rounds)
      have value := busy _ inside
      have reached := waited part started
      unfold eventIndex at reached
      rw [value, Option.getD_some] at reached
      cases done : chunk.copied with
      | true => rfl
      | false => simp [expected, slot, mode, given, done] at reached
    · intro copied part started
      have inside := slot_lt valid (Nat.lt_of_lt_of_le started formed.rounds)
      have value := busy _ inside
      obtain ⟨chunk, given⟩ : ∃ chunk, split.chunks[part]? = Option.some chunk :=
        ⟨split.chunks[part], List.getElem?_eq_getElem (by omega)⟩
      unfold eventIndex
      rw [value, Option.getD_some]
      simp [expected, slot, mode, given, copied chunk (List.mem_of_getElem? given)]

theorem State.Consistent.signal (valid : bcsSplit.Valid) (consistent : s.Consistent bcsSplit)
    {index : Nat} (step : s.signal bcsSplit index = some s') : s'.Consistent bcsSplit := by
  unfold State.signal at step
  split at step
  next => cases step
  next split current =>
    obtain ⟨⟨appended, running, waited⟩, rest⟩ := Option.ite_none_right_eq_some.mp step
    obtain ⟨formed, _⟩ := consistent.formed index split current
    have copied := (waitSatisfied_iff valid consistent current appended running).mp waited
    cases rest
    have same : { split with signalled := true }.markerEventIndex = split.markerEventIndex := rfl
    apply consistent.update current running same
    · exact { formed with signalled := fun _ => ⟨appended, copied⟩ }
    · exact consistent.valid
    · split <;> simp
    · rfl
    · intro package _ other
      constructor
      · split
        · rfl
        · exact List.getElem?_modify_ne _ _ (Ne.symm other)
      · exact fun _ _ => rfl
    · nofun

/-! ### Every run -/

/-- Calls that the events are made for. -/
def Allowed (bcsSplit : BcsSplit) (_ : State) : Action → Prop
  | .beginSplit call _ => bcsSplit.Matched call
  | _ => True

instance {s : State} : (action : Action) → Decidable (bcsSplit.Allowed s action)
  | .beginSplit call _ => inferInstanceAs (Decidable (bcsSplit.Matched call))
  | .appendNext _ | .appendRest _ | .copyChunk _ _ | .signal _ => .isTrue trivial

theorem consistent_invariant (valid : bcsSplit.Valid) :
    Invariant (bcsSplit.system.restrict bcsSplit.Allowed) (State.Consistent bcsSplit) := by
  constructor
  · rintro s rfl
    constructor
    · rfl
    · simp
    · simp
    · intro index split current
      cases current
    · intro index split index' split' current
      cases current
    · intro index split current
      cases current
  · rintro s action s' _ consistent ⟨allowed, step⟩
    cases action with
    | beginSplit call poolAvailable => exact consistent.begin allowed step
    | appendNext index => exact consistent.appendNext valid step
    | appendRest index => exact consistent.appendRest step
    | copyChunk index part => exact consistent.copyChunk valid step
    | signal index => exact consistent.signal valid step

/-- What split copies are for. -/
structure State.Sound (bcsSplit : BcsSplit) (s : State) : Prop where
  indices : s.valid = true
  chunks : ∀ split ∈ s.splits, split.appended = true →
    split.chunks.map Chunk.cmdQ = bcsSplit.queues split.call ∧
      Layout.Consecutive (fun localSize => localSize)
        (split.chunks.map fun chunk => (chunk.offset, chunk.localSize)) 0 split.call.size
  packages : ∀ (index : Nat) (split : Split) (index' : Nat) (split' : Split),
    s.splits[index]? = some split → s.splits[index']? = some split' →
    split.markerEventIndex = split'.markerEventIndex → index < index' →
    split.appended = true ∧ ∀ chunk ∈ split.chunks, chunk.copied = true
  waits : ∀ (index : Nat) (split : Split), s.splits[index]? = some split →
    split.appended = true → split.signalled = false →
    ((s.signal bcsSplit index).isSome = true ↔ ∀ chunk ∈ split.chunks, chunk.copied = true)
  signals : ∀ split ∈ s.splits, split.signalled = true →
    split.appended = true ∧ ∀ chunk ∈ split.chunks, chunk.copied = true

theorem State.Consistent.sound (valid : bcsSplit.Valid) (consistent : s.Consistent bcsSplit) :
    s.Sound bcsSplit := by
  have formed : ∀ split ∈ s.splits, split.Formed bcsSplit := by
    intro split member
    obtain ⟨index, current⟩ := List.mem_iff_getElem?.mp member
    exact (consistent.formed index split current).1
  constructor
  · exact consistent.valid
  · intro split member appended
    have formed := formed split member
    have all := formed.appended appended
    constructor
    · rw [formed.cmdQs, all, List.take_length]
    · have consecutive := formed.consecutive
      rw [formed.finished all] at consecutive
      exact consecutive
  · intro index split index' split' current current' same before
    have signalled := consistent.exclusive index split index' split' current current' same before
    exact (formed split (List.mem_of_getElem? current)).signalled signalled
  · intro index split current appended running
    rw [← waitSatisfied_iff valid consistent current appended running]
    simp [State.signal, current, appended, running]
  · intro split member signalled
    exact (formed split member).signalled signalled

/-- Two engines; the copies to the device are made by the first one only. -/
def pair (aggregatedEventsMode : Bool) : BcsSplit where
  cmdQs := [0, 1]
  h2dCmdQs := [0]
  d2hCmdQs := [0, 1]
  aggregatedEventsMode := aggregatedEventsMode

theorem pair_valid (aggregatedEventsMode : Bool) : (pair aggregatedEventsMode).Valid where
  h2d := (List.nil_sublist [1]).cons_cons 0
  d2h := List.Sublist.refl [0, 1]

/-- Two calls at once, and a third one after the first. -/
def overlapping : List Action :=
  let call := Call.mk .localToHost 9 false true
  [.beginSplit call true, .beginSplit call true, .appendNext 0, .appendNext 1, .appendNext 0,
    .appendRest 0, .copyChunk 0 1, .copyChunk 0 0, .signal 0, .beginSplit call true,
    .appendNext 2, .appendNext 1]

/-- A run that stops at a call that is not allowed. -/
def runAllowed (bcsSplit : BcsSplit) (actions : List Action) : Option State :=
  actions.foldlM
    (fun s action => if bcsSplit.Allowed s action then s.step bcsSplit action else none) {}

theorem reachable_of_runAllowed {actions : List Action}
    (run : bcsSplit.runAllowed actions = some s) :
    Reachable (bcsSplit.system.restrict bcsSplit.Allowed) s :=
  Reachable.foldlM (fun _ _ _ step => Option.ite_none_right_eq_some.mp step) (.start rfl) run

theorem reachable_of_run {actions : List Action}
    (run : actions.foldlM (State.step bcsSplit) {} = some s) : Reachable bcsSplit.system s :=
  Reachable.foldlM (fun _ _ _ step => step) (.start rfl) run

/-- A call whose direction has one engine, with all its parts copied. -/
def fewer : List Action :=
  [.beginSplit (.mk .hostToLocal 8 true true) true, .appendNext 0, .appendRest 0, .copyChunk 0 0]

/-- A call that is not in order. -/
def outOfOrder : List Action :=
  [.beginSplit (.mk .localToHost 8 false false) true, .appendNext 0, .appendNext 0, .appendRest 0]

end ComputeRuntime.BcsSplit
