import ComputeRuntime.DeferredFree.Steps

/-! Runs of frees: each allocation is freed or cached once, and the deferred ones when they are
idle. -/
namespace ComputeRuntime.DeferredFree

open Keyed Transition

variable {s s' : State} {call other : Call} {data : SvmAllocation} {i : Nat}

/-- One call at a time goes through the deferred frees, and memory is returned at addresses that
have no entry among them. -/
def Allowed (s : State) : Action → Prop
  | .allocate ptr _ => ptr ∉ s.svmDeferFreeAllocs
  | .freeSVMAllocDeferImpl => ∀ other ∈ s.calls, other.sweeping = false
  | .stepCall i _ => ∀ call ∈ s.calls[i]?, call.step = .checkPending →
      s.svmDeferFreeAllocs = [] ∨ ∀ other ∈ s.calls, other.sweeping = false
  | _ => True

/-! ### The order of the entries -/

theorem nextKey_spec {keys : List Nat} {last : Option Nat} {key : Nat}
    (next : nextKey keys last = some key) :
    key ∈ keys ∧ (∀ visited ∈ last, visited < key) ∧
      ∀ other ∈ keys, (∀ visited ∈ last, visited < other) → key ≤ other := by
  have member := List.min?_mem next
  obtain ⟨inside, later⟩ := List.mem_filter.mp member
  refine ⟨inside, ?_, ?_⟩
  · intro visited equal
    rw [equal] at later
    simpa using later
  · intro other member later
    have among : other ∈ keys.filter fun key => last.all (· < key) := by
      apply List.mem_filter.mpr
      refine ⟨member, ?_⟩
      cases last with
      | none => rfl
      | some visited => simpa using later visited rfl
    exact (List.min?_eq_some_iff.mp next).2 other among

/-! ### Steps -/

theorem stepCall_consistent (consistent : s.Consistent) (current : s.calls[i]? = some call)
    {caches : Bool} (allowed : Allowed s (.stepCall i caches)) :
    (s.stepCall i call caches).Consistent := by
  have inside := List.mem_of_getElem? current
  have ok := consistent.calls call inside
  obtain ⟨policy, target, step⟩ := call
  have leave : step.loop.getD [] = [] →
      (s.leaveDeferImpl i ⟨policy, target, step⟩).Consistent := by
    intro loop
    cases target with
    | none =>
      apply consistent.finish current rfl
      intro freedPtr looping ptr member
      simp_all
    | some data =>
      apply consistent.goTo current
      · exact ⟨data, rfl, rfl⟩
      · intro freedPtr looping ptr member
        simp_all
      · rintro ⟨⟩
  cases step with
  | checkPending =>
    simp only [State.stepCall]
    split
    next => exact leave rfl
    next waits =>
      apply consistent.goTo current
      · exact ⟨⟨List.nodup_nil, by simp, by simp⟩, by simp⟩
      · rintro _ ⟨⟩
      · intro _
        right
        rcases allowed _ current rfl with empty | none
        · simp [empty] at waits
        · exact none
  | next last freedPtr =>
    simp only [State.stepCall]
    split
    next =>
      apply consistent.goTo current
      · exact ok.1
      · rintro list equal ptr member
        cases equal
        exact .inr ⟨freedPtr, rfl, member⟩
      · exact fun _ => .inl rfl
    next ptr found =>
      obtain ⟨pending, later, _⟩ := nextKey_spec found
      have before : ∀ p ∈ freedPtr, p < ptr := by
        intro p member
        obtain ⟨visited, last, le⟩ := ok.2 p member
        exact Nat.lt_of_le_of_lt le (later visited last)
      -- What is pending and not freed by this loop is tracked.
      have tracked : ∃ data ∈ s.svmAllocs, data.ptr = ptr := by
        rcases consistent.tracked ptr pending with tracked | ⟨other, member, list, looping, has⟩
        · exact tracked
        · exfalso
          rcases Search.mem_eraseIdx_or current member with others | rfl
          · have outside := consistent.others current rfl others
            rw [Call.sweeping, looping] at outside
            cases outside
          · cases looping
            exact Nat.lt_irrefl ptr (before ptr has)
      obtain ⟨data, member, same⟩ := tracked
      apply consistent.goTo current
      · exact ⟨data, same, member, same ▸ pending, ok.1, same ▸ before⟩
      · rintro list equal p member
        cases equal
        exact .inr ⟨freedPtr, rfl, member⟩
      · exact fun _ => .inl rfl
  | getSVMAlloc ptr site =>
    cases site with
    | own =>
      obtain ⟨data, target, rfl⟩ := ok
      have found := consistent.find_eq (consistent.targets _ inside data target)
      simp only [State.stepCall, found]
      apply consistent.goTo current
      · exact target
      · rintro _ ⟨⟩
      · rintro ⟨⟩
    | deferImpl freedPtr =>
      obtain ⟨data, rfl, works⟩ := ok
      have found := consistent.find_eq works.1
      simp only [State.stepCall, found]
      apply consistent.goTo current
      · exact ⟨works, fun _ below => absurd below (Nat.not_lt_zero _)⟩
      · rintro list equal p member
        cases equal
        exact .inr ⟨freedPtr, rfl, member⟩
      · exact fun _ => .inl rfl
  | insertCache data =>
    simp only [State.stepCall]
    split
    next => exact consistent.insertCache current ok rfl
    next =>
      split
      next =>
        apply consistent.goTo current
        · exact ⟨ok, fun _ below => absurd below (Nat.not_lt_zero _)⟩
        · rintro _ ⟨⟩
        · rintro ⟨⟩
      next other =>
        apply consistent.goTo current
        · exact ⟨ok, fun defer => absurd defer other⟩
        · rintro _ ⟨⟩
        · rintro ⟨⟩
  | allocInUse data index site =>
    have loop : ∀ step : Step, step.loop = site.loop →
        ∀ freedPtr ∈ site.loop, ∀ ptr ∈ freedPtr, (∃ data ∈ s.svmAllocs, data.ptr = ptr) ∨
          ∃ freedPtr' ∈ step.loop, ptr ∈ freedPtr' :=
      fun step same freedPtr looping ptr member => .inr ⟨freedPtr, same ▸ looping, member⟩
    simp only [State.stepCall]
    split
    next =>
      split
      next =>
        exact consistent.goTo current ok.1 (loop _ rfl) fun sweeps => .inl sweeps
      next idle =>
        refine consistent.goTo current ⟨ok.1, ?_⟩ (loop _ rfl) fun sweeps => .inl sweeps
        intro k below
        rcases Nat.lt_succ_iff_lt_or_eq.mp below with earlier | rfl
        · exact ok.2 k earlier
        · exact idle
    next all =>
      refine consistent.goTo current ⟨ok.1, ?_⟩ (loop _ rfl) fun sweeps => .inl sweeps
      exact fun _ k below => ok.2 k (Nat.lt_of_lt_of_le below (Nat.le_of_not_lt all))
  | insertDeferred data site =>
    cases site with
    | own =>
      have absent := consistent.target_not_pending inside ok
      simp only [State.stepCall, State.returnTo, if_neg absent]
      exact consistent.insertDeferred current ok rfl
    | deferImpl freedPtr =>
      obtain ⟨tracked, pending, gone, before⟩ := ok
      simp only [State.stepCall, State.returnTo, if_pos pending]
      apply consistent.goTo current
      · exact ⟨pending, gone, before⟩
      · rintro list equal p member
        cases equal
        exact .inr ⟨_, rfl, List.mem_append_left _ member⟩
      · exact fun _ => .inl rfl
  | release data site =>
    simp only [State.stepCall]
    split
    next => exact consistent
    next =>
      cases site with
      | own => exact consistent.release current ok.1 rfl ok.2
      | deferImpl freedPtr => exact consistent.releaseDeferred current rfl ok.1 (ok.2 rfl)
  | check ptr freedPtr =>
    obtain ⟨pending, gone, before⟩ := ok
    simp only [State.stepCall]
    apply consistent.goTo current
    · cases found : s.find ptr with
      | some data =>
        simp only [Option.isNone_some, Bool.false_eq_true, if_false]
        exact ⟨gone, fun p member => ⟨ptr, rfl, Nat.le_of_lt (before p member)⟩⟩
      | none =>
        simp only [Option.isNone_none, if_true]
        refine ⟨⟨?_, ?_, ?_⟩, ?_⟩
        · apply List.nodup_append.mpr
          refine ⟨gone.nodup, List.nodup_singleton _, ?_⟩
          rintro p member last new rfl
          exact Nat.lt_irrefl p (List.mem_singleton.mp new ▸ before p member)
        · intro p member
          rcases List.mem_append.mp member with old | new
          · exact gone.pending p old
          · exact List.mem_singleton.mp new ▸ pending
        · intro p member data tracked
          rcases List.mem_append.mp member with old | new
          · exact gone.untracked p old data tracked
          · rw [List.mem_singleton.mp new]
            exact ne_of_find? found tracked
        · intro p member
          refine ⟨ptr, rfl, ?_⟩
          rcases List.mem_append.mp member with old | new
          · exact Nat.le_of_lt (before p old)
          · exact Nat.le_of_eq (List.mem_singleton.mp new)
    · rintro list equal p member
      cases equal
      cases found : s.find ptr with
      | none => exact .inr ⟨_, rfl, member⟩
      | some data =>
        rcases List.mem_append.mp member with old | new
        · exact .inr ⟨freedPtr, rfl, old⟩
        · obtain ⟨tracked, same⟩ := mem_of_find found
          exact .inl ⟨data, tracked, same.trans (List.mem_singleton.mp new).symm⟩
    · exact fun _ => .inl rfl
  | erase freedPtr =>
    cases freedPtr with
    | nil => exact leave rfl
    | cons ptr freedPtr => exact consistent.erase current rfl ok

/-- A call begins. -/
theorem State.Consistent.begin (consistent : s.Consistent) (new : Call) (passed : List Nat)
    (ok : new.Ok s) (target : ∀ data, new.target = some data → data ∈ s.svmAllocs)
    (alone : new.sweeping = true → ∀ other ∈ s.calls, other.sweeping = false)
    (once : (s.passed ++ passed).Nodup) (known : ∀ allocId ∈ passed, allocId < s.nextId)
    (places : ∀ allocId, (if new.holds allocId then 1 else 0) = passed.count allocId) :
    State.Consistent { s with calls := s.calls ++ [new], passed := s.passed ++ passed } := by
  constructor
  · exact consistent.ptrs
  · exact consistent.ids
  · exact consistent.numbered
  · intro allocId member
    rcases List.mem_append.mp member with old | fresh
    · exact consistent.known allocId old
    · exact known allocId fresh
  · exact consistent.used
  · exact once
  · exact consistent.pending
  · intro allocId
    have before := consistent.places allocId
    have more := places allocId
    have waits : State.waits { s with calls := s.calls ++ [new], passed := s.passed ++ passed }
      allocId = s.waits allocId := rfl
    unfold State.places at before ⊢
    rw [waits]
    simp only [List.countP_append, List.countP_singleton, List.count_append]
    omega
  · exact consistent.cache
  · intro call member data holds
    rcases List.mem_append.mp member with old | last
    · exact consistent.targets call old data holds
    · cases List.mem_singleton.mp last
      exact target data holds
  · intro call member
    rcases List.mem_append.mp member with old | last
    · exact (consistent.calls call old).congr rfl rfl rfl
    · cases List.mem_singleton.mp last
      exact ok.congr rfl rfl rfl
  · intro ptr pending
    rcases consistent.tracked ptr pending with tracked | ⟨call, member, looping⟩
    · exact .inl tracked
    · exact .inr ⟨call, List.mem_append_left _ member, looping⟩
  · simp only [List.countP_append, List.countP_singleton]
    cases sweeps : new.sweeping with
    | false => simpa using consistent.alone
    | true =>
      have none : s.calls.countP Call.sweeping = 0 := by
        apply List.countP_eq_zero.mpr
        intro other member
        simp [alone sweeps other member]
      simp [none]
  · exact consistent.idle
  · exact consistent.safe

/-- An allocation at an address without an entry. -/
theorem State.Consistent.allocate (consistent : s.Consistent) {ptr : Nat} (graphics : Nat)
    (free : s.find ptr = none) (fresh : ptr ∉ s.svmDeferFreeAllocs) :
    State.Consistent { s with
      svmAllocs := s.svmAllocs ++ [⟨s.nextId, ptr, graphics⟩], nextId := s.nextId + 1 } := by
  have keeps : Keeps s { s with
      svmAllocs := s.svmAllocs ++ [⟨s.nextId, ptr, graphics⟩], nextId := s.nextId + 1 } := {
    pending := fun _ member => member
    tracked := by
      intro data pending
      constructor
      · intro member
        rcases List.mem_append.mp member with old | new
        · exact old
        · cases List.mem_singleton.mp new
          exact absurd pending fresh
      · exact fun member => List.mem_append_left _ member
    inUse := fun _ member => .inl member }
  constructor
  · exact consistent.ptrs.concat fun data member => ne_of_find? free member
  · exact consistent.ids.concat fun data member => Nat.ne_of_lt (consistent.numbered data member)
  · intro data member
    rcases List.mem_append.mp member with old | new
    · exact Nat.lt_succ_of_lt (consistent.numbered data old)
    · cases List.mem_singleton.mp new
      exact Nat.lt_succ_self _
  · exact fun allocId member => Nat.lt_succ_of_lt (consistent.known allocId member)
  · intro use member
    obtain ⟨below, used⟩ := consistent.used use member
    refine ⟨Nat.lt_succ_of_lt below, ?_⟩
    intro data tracked same
    rcases List.mem_append.mp tracked with old | new
    · exact used data old same
    · cases List.mem_singleton.mp new
      exact absurd same.symm (Nat.ne_of_lt below)
  · exact consistent.once
  · exact consistent.pending
  · intro allocId
    have before := consistent.places allocId
    have waits : State.waits { s with
      svmAllocs := s.svmAllocs ++ [⟨s.nextId, ptr, graphics⟩], nextId := s.nextId + 1 } allocId =
        s.waits allocId := rfl
    have none : s.waits allocId ⟨s.nextId, ptr, graphics⟩ = false := by simp [State.waits, fresh]
    unfold State.places at before ⊢
    rw [waits]
    simp only [List.countP_append, List.countP_singleton, none, Bool.false_eq_true, if_false]
    exact before
  · exact consistent.cache
  · exact fun call member data target =>
      List.mem_append_left _ (consistent.targets call member data target)
  · exact fun call member => (consistent.calls call member).keeps consistent member keeps
  · intro ptr pending
    rcases consistent.tracked ptr pending with ⟨data, member, same⟩ | looping
    · exact .inl ⟨data, List.mem_append_left _ member, same⟩
    · exact .inr looping
  · exact consistent.alone
  · exact consistent.idle
  · exact consistent.safe

/-- An allocation that was cached is returned again as a new one. -/
theorem State.Consistent.reuse (consistent : s.Consistent) (tracked : data ∈ s.svmAllocs)
    (cached : data.allocId ∈ s.cache) :
    State.Consistent { s with
      svmAllocs := s.svmAllocs.eraseP (·.ptr = data.ptr) ++ [{ data with allocId := s.nextId }]
      nextId := s.nextId + 1
      cache := s.cache.erase data.allocId } := by
  -- It is in no other place.
  have once := consistent.places_le data.allocId
  have some := List.count_pos_iff.mpr (consistent.cache data.allocId cached)
  have absent : data.ptr ∉ s.svmDeferFreeAllocs := by
    intro pending
    have waits := State.Consistent.waits_pos tracked pending
    unfold State.places at once
    omega
  have unheld : ∀ call ∈ s.calls, call.target ≠ .some data := by
    intro call member target
    have held := State.Consistent.holds_pos member target
    unfold State.places at once
    omega
  have stays : ∀ data' ∈ s.svmAllocs.eraseP (·.ptr = data.ptr), data' ∈ s.svmAllocs :=
    fun _ member => List.mem_of_mem_eraseP member
  have keeps : Keeps s { s with
      svmAllocs := s.svmAllocs.eraseP (·.ptr = data.ptr) ++ [{ data with allocId := s.nextId }]
      nextId := s.nextId + 1
      cache := s.cache.erase data.allocId } := {
    pending := fun _ member => member
    tracked := by
      intro other pending
      have differs : other.ptr ≠ data.ptr := fun same => absent (same ▸ pending)
      constructor
      · intro member
        rcases List.mem_append.mp member with old | new
        · exact stays other old
        · cases List.mem_singleton.mp new
          exact absurd rfl differs
      · exact fun member =>
          List.mem_append_left _ ((mem_eraseP_ptr consistent).mpr ⟨member, differs⟩)
    inUse := fun _ member => .inl member }
  constructor
  · apply (consistent.ptrs.eraseP _).concat
    exact fun other member => ((mem_eraseP_ptr consistent).mp member).2
  · apply (consistent.ids.eraseP _).concat
    exact fun other member => Nat.ne_of_lt (consistent.numbered other (stays other member))
  · intro other member
    rcases List.mem_append.mp member with old | new
    · exact Nat.lt_succ_of_lt (consistent.numbered other (stays other old))
    · cases List.mem_singleton.mp new
      exact Nat.lt_succ_self _
  · exact fun allocId member => Nat.lt_succ_of_lt (consistent.known allocId member)
  · intro use member
    obtain ⟨below, used⟩ := consistent.used use member
    refine ⟨Nat.lt_succ_of_lt below, ?_⟩
    intro other inside same
    rcases List.mem_append.mp inside with old | new
    · exact used other (stays other old) same
    · cases List.mem_singleton.mp new
      exact absurd same.symm (Nat.ne_of_lt below)
  · exact consistent.once
  · exact consistent.pending
  · intro allocId
    have before := consistent.places allocId
    have waits := countP_waits_erase consistent tracked allocId
    have old : s.waits allocId data = false := by simp [State.waits, absent]
    have new : s.waits allocId { data with allocId := s.nextId } = false := by
      simp [State.waits, absent]
    have same : State.waits { s with
        svmAllocs := s.svmAllocs.eraseP (·.ptr = data.ptr) ++ [{ data with allocId := s.nextId }]
        nextId := s.nextId + 1
        cache := s.cache.erase data.allocId } allocId = s.waits allocId := rfl
    rw [old, if_neg Bool.false_ne_true] at waits
    unfold State.places at before ⊢
    rw [same]
    simp only [List.countP_append, List.countP_singleton, new, Bool.false_eq_true, if_false]
    omega
  · exact fun allocId member => consistent.cache allocId (List.mem_of_mem_erase member)
  · intro call member data' target
    have inside := consistent.targets call member data' target
    apply List.mem_append_left
    apply (mem_eraseP_ptr consistent).mpr
    refine ⟨inside, ?_⟩
    intro same
    exact unheld call member (consistent.ptrs.eq inside tracked same ▸ target)
  · exact fun call member => (consistent.calls call member).keeps consistent member keeps
  · intro ptr pending
    rcases consistent.tracked ptr pending with ⟨other, member, rfl⟩ | looping
    · have differs : other.ptr ≠ data.ptr := fun same => absent (same ▸ pending)
      exact .inl ⟨other, List.mem_append_left _
        ((mem_eraseP_ptr consistent).mpr ⟨member, differs⟩), rfl⟩
    · exact .inr looping
  · exact consistent.alone
  · exact consistent.idle
  · exact consistent.safe

/-- What is in use changes, except for allocations that were passed to a free. -/
theorem State.Consistent.inUse (consistent : s.Consistent) {inUse : List (Nat × Nat)}
    (fresh : ∀ use ∈ inUse, use ∈ s.inUse ∨ use.1 ∉ s.passed)
    (used : ∀ use ∈ inUse, use.1 < s.nextId ∧
      ∀ data ∈ s.svmAllocs, data.allocId = use.1 → use.2 < data.graphicsAllocations) :
    State.Consistent { s with inUse := inUse } := by
  have keeps : Keeps s { s with inUse := inUse } :=
    ⟨fun _ member => member, fun _ _ => Iff.rfl, fresh⟩
  exact {
    ptrs := consistent.ptrs
    ids := consistent.ids
    numbered := consistent.numbered
    known := consistent.known
    used := used
    once := consistent.once
    pending := consistent.pending
    places := consistent.places
    cache := consistent.cache
    targets := consistent.targets
    calls := fun call member => (consistent.calls call member).keeps consistent member keeps
    tracked := consistent.tracked
    alone := consistent.alone
    idle := consistent.idle
    safe := consistent.safe }

theorem step_consistent (consistent : s.Consistent) {action : Action} (allowed : Allowed s action)
    (stepped : s.step action = some s') : s'.Consistent := by
  cases action with
  | allocate ptr graphics =>
    obtain ⟨free, equal⟩ := Option.ite_none_right_eq_some.mp stepped
    cases equal
    exact consistent.allocate graphics free allowed
  | reuse ptr =>
    obtain ⟨data, found, guarded⟩ := Option.bind_eq_some_iff.mp stepped
    obtain ⟨guard, equal⟩ := Option.ite_none_right_eq_some.mp guarded
    obtain ⟨tracked, rfl⟩ := mem_of_find found
    cases equal
    exact consistent.reuse tracked guard.1
  | use ptr index =>
    obtain ⟨data, found, guarded⟩ := Option.bind_eq_some_iff.mp stepped
    obtain ⟨guard, equal⟩ := Option.ite_none_right_eq_some.mp guarded
    obtain ⟨tracked, rfl⟩ := mem_of_find found
    cases equal
    apply consistent.inUse
    · intro use member
      rcases List.mem_append.mp member with old | new
      · exact .inl old
      · exact .inr (List.mem_singleton.mp new ▸ guard.1)
    · intro use member
      rcases List.mem_append.mp member with old | new
      · exact consistent.used use old
      · cases List.mem_singleton.mp new
        refine ⟨consistent.numbered data tracked, ?_⟩
        intro other inside same
        rw [consistent.ids.eq inside tracked same]
        exact guard.2
  | complete allocId index =>
    cases stepped
    apply consistent.inUse
    · exact fun use member => .inl (List.mem_filter.mp member).1
    · exact fun use member => consistent.used use (List.mem_filter.mp member).1
  | free policy ptr =>
    obtain ⟨data, found, guarded⟩ := Option.bind_eq_some_iff.mp stepped
    obtain ⟨fresh, equal⟩ := Option.ite_none_right_eq_some.mp guarded
    obtain ⟨tracked, rfl⟩ := mem_of_find found
    cases equal
    apply consistent.begin ⟨policy, some data, .checkPending⟩ [data.allocId]
    · trivial
    · rintro other equal
      cases equal
      exact tracked
    · rintro ⟨⟩
    · apply List.nodup_append.mpr
      refine ⟨consistent.once, List.nodup_singleton _, ?_⟩
      rintro allocId member last new rfl
      exact fresh (List.mem_singleton.mp new ▸ member)
    · intro allocId member
      rw [List.mem_singleton.mp member]
      exact consistent.numbered data tracked
    · intro allocId
      simp [Call.holds, List.count_singleton]
  | freeSVMAllocDeferImpl =>
    cases stepped
    have begun := consistent.begin ⟨.defer, none, .next none []⟩ []
      ⟨⟨List.nodup_nil, by simp, by simp⟩, by simp⟩ (by simp) (fun _ => allowed)
      (by simpa using consistent.once) (by simp) fun _ => rfl
    simpa using begun
  | stepCall i caches =>
    obtain ⟨call, current, equal⟩ := Option.map_eq_some_iff.mp stepped
    cases equal
    exact stepCall_consistent consistent current allowed

end ComputeRuntime.DeferredFree
