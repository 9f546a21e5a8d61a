import ComputeRuntime.DeferredFree.Invariant

/-! The steps of a call keep every allocation in one place. -/
namespace ComputeRuntime.DeferredFree

open Keyed

variable {s s' : State} {call other : Call} {data : SvmAllocation} {i : Nat}

/-! ### A call goes on -/

theorem countP_goTo (current : s.calls[i]? = some call) (step : Step) (allocId : Nat) :
    (s.calls.set i { call with step := step }).countP (·.holds allocId) =
      s.calls.countP (·.holds allocId) := by
  have counted := Weight.countP_set (·.holds allocId) current { call with step := step }
  exact Nat.add_right_cancel counted

/-- Only one call is in the loop: it was there before, or nobody was. -/
theorem alone_goTo (alone : s.calls.countP Call.sweeping ≤ 1) (current : s.calls[i]? = some call)
    {step : Step} (stays : step.loop.isSome = true → call.sweeping = true ∨
      ∀ other ∈ s.calls, other.sweeping = false) :
    (s.calls.set i { call with step := step }).countP Call.sweeping ≤ 1 := by
  have counted := Weight.countP_set Call.sweeping current { call with step := step }
  cases sweeps : ({ call with step := step } : Call).sweeping with
  | false =>
    rw [sweeps, if_neg Bool.false_ne_true] at counted
    omega
  | true =>
    rw [sweeps, if_pos rfl] at counted
    rcases stays sweeps with was | none
    · rw [was, if_pos rfl] at counted
      omega
    · have zero : s.calls.countP Call.sweeping = 0 := by
        apply List.countP_eq_zero.mpr
        intro other member
        simp [none other member]
      omega

/-- What the loop of a call has freed stays accounted for. -/
theorem tracked_goTo (consistent : s.Consistent) (current : s.calls[i]? = some call) {step : Step}
    (loop : ∀ freedPtr ∈ call.step.loop, ∀ ptr ∈ freedPtr,
      (∃ data ∈ s.svmAllocs, data.ptr = ptr) ∨ ∃ freedPtr' ∈ step.loop, ptr ∈ freedPtr')
    {ptr : Nat} (pending : ptr ∈ s.svmDeferFreeAllocs) :
    (∃ data ∈ s.svmAllocs, data.ptr = ptr) ∨
      ∃ call' ∈ s.calls.set i { call with step := step }, ∃ freedPtr ∈ call'.step.loop,
        ptr ∈ freedPtr := by
  rcases consistent.tracked ptr pending with tracked | ⟨other, member, freedPtr, looping, inside⟩
  · exact .inl tracked
  · rcases Search.mem_set_or current { call with step := step } member with stays | rfl
    · exact .inr ⟨other, stays, freedPtr, looping, inside⟩
    · rcases loop freedPtr looping ptr inside with tracked | ⟨freedPtr', looping', inside'⟩
      · exact .inl tracked
      · exact .inr ⟨_, Search.mem_set_self current _, freedPtr', looping', inside'⟩

theorem State.Consistent.goTo (consistent : s.Consistent) (current : s.calls[i]? = some call)
    {step : Step} (ok : Call.Ok s { call with step := step })
    (loop : ∀ freedPtr ∈ call.step.loop, ∀ ptr ∈ freedPtr,
      (∃ data ∈ s.svmAllocs, data.ptr = ptr) ∨ ∃ freedPtr' ∈ step.loop, ptr ∈ freedPtr')
    (alone : step.loop.isSome = true → call.sweeping = true ∨
      ∀ other ∈ s.calls, other.sweeping = false) : (s.goTo i call step).Consistent := by
  have inside := List.mem_of_getElem? current
  constructor
  · exact consistent.ptrs
  · exact consistent.ids
  · exact consistent.numbered
  · exact consistent.known
  · exact consistent.used
  · exact consistent.once
  · exact consistent.pending
  · intro allocId
    refine Eq.trans ?_ (consistent.places allocId)
    simp only [State.places, State.goTo, countP_goTo current]
    rfl
  · exact consistent.cache
  · intro other member data target
    rcases List.mem_or_eq_of_mem_set member with old | rfl
    · exact consistent.targets other old data target
    · exact consistent.targets call inside data target
  · intro other member
    rcases List.mem_or_eq_of_mem_set member with old | rfl
    · exact (consistent.calls other old).congr rfl rfl rfl
    · exact ok.congr rfl rfl rfl
  · exact fun ptr pending => tracked_goTo consistent current loop pending
  · exact alone_goTo consistent.alone current alone
  · exact consistent.idle
  · exact consistent.safe

/-! ### A call ends -/

/-- A call that frees nothing of its own is over. -/
theorem State.Consistent.finish (consistent : s.Consistent) (current : s.calls[i]? = some call)
    (target : call.target = none)
    (loop : ∀ freedPtr ∈ call.step.loop, ∀ ptr ∈ freedPtr, ∃ data ∈ s.svmAllocs, data.ptr = ptr) :
    (s.finish i).Consistent := by
  constructor
  · exact consistent.ptrs
  · exact consistent.ids
  · exact consistent.numbered
  · exact consistent.known
  · exact consistent.used
  · exact consistent.once
  · exact consistent.pending
  · intro allocId
    have counted := Weight.countP_eraseIdx (·.holds allocId) current
    simp only [Call.holds, target, Option.any_none, Bool.false_eq_true, if_false] at counted
    refine Eq.trans ?_ (consistent.places allocId)
    simp only [State.places, State.finish, Call.holds]
    rw [← counted]
    rfl
  · exact consistent.cache
  · exact fun other member => consistent.targets other (List.mem_of_mem_eraseIdx member)
  · exact fun other member =>
      (consistent.calls other (List.mem_of_mem_eraseIdx member)).congr rfl rfl rfl
  · intro ptr pending
    rcases consistent.tracked ptr pending with tracked | ⟨other, member, freedPtr, looping, inside⟩
    · exact .inl tracked
    · rcases Search.mem_eraseIdx_or current member with stays | rfl
      · exact .inr ⟨other, stays, freedPtr, looping, inside⟩
      · exact .inl (loop freedPtr looping ptr inside)
  · have counted := Weight.countP_eraseIdx Call.sweeping current
    have alone := consistent.alone
    simp only [State.finish]
    omega
  · exact consistent.idle
  · exact consistent.safe

/-- Nobody else holds what a call holds. -/
theorem State.Consistent.target_ne (consistent : s.Consistent) (current : s.calls[i]? = some call)
    (target : call.target = some data) (member : other ∈ s.calls.eraseIdx i)
    {data' : SvmAllocation} (target' : other.target = some data') :
    data'.allocId ≠ data.allocId := by
  intro same
  have counted := Weight.countP_eraseIdx (·.holds data.allocId) current
  have held : call.holds data.allocId = true := by simp [Call.holds, target]
  have also : 0 < (s.calls.eraseIdx i).countP (·.holds data.allocId) :=
    List.countP_pos_iff.mpr ⟨other, member, by simp [Call.holds, target', same]⟩
  have le := consistent.places_le data.allocId
  rw [held, if_pos rfl] at counted
  unfold State.places at le
  omega

/-- A call that ends passes its allocation on. -/
theorem countP_finish (current : s.calls[i]? = some call) (target : call.target = some data)
    (allocId : Nat) :
    (s.calls.eraseIdx i).countP (·.holds allocId) + (if data.allocId = allocId then 1 else 0) =
      s.calls.countP (·.holds allocId) := by
  have counted := Weight.countP_eraseIdx (·.holds allocId) current
  simpa [Call.holds, target] using counted

theorem tracked_finish (consistent : s.Consistent) (current : s.calls[i]? = some call)
    (outside : call.step.loop = none) {ptr : Nat} (pending : ptr ∈ s.svmDeferFreeAllocs) :
    (∃ data ∈ s.svmAllocs, data.ptr = ptr) ∨
      ∃ call' ∈ s.calls.eraseIdx i, ∃ freedPtr ∈ call'.step.loop, ptr ∈ freedPtr := by
  rcases consistent.tracked ptr pending with tracked | ⟨other, member, freedPtr, looping, inside⟩
  · exact .inl tracked
  · rcases Search.mem_eraseIdx_or current member with stays | rfl
    · exact .inr ⟨other, stays, freedPtr, looping, inside⟩
    · simp [outside] at looping

theorem alone_finish (consistent : s.Consistent) (current : s.calls[i]? = some call) :
    (s.calls.eraseIdx i).countP Call.sweeping ≤ 1 := by
  have counted := Weight.countP_eraseIdx Call.sweeping current
  have alone := consistent.alone
  omega

/-- A cache takes the allocation of a call. -/
theorem State.Consistent.insertCache (consistent : s.Consistent)
    (current : s.calls[i]? = some call) (target : call.target = some data)
    (outside : call.step.loop = none) :
    State.Consistent { s.finish i with
      cache := s.cache ++ [data.allocId], cached := s.cached ++ [data.allocId] } := by
  constructor
  · exact consistent.ptrs
  · exact consistent.ids
  · exact consistent.numbered
  · exact consistent.known
  · exact consistent.used
  · exact consistent.once
  · exact consistent.pending
  · intro allocId
    have places := consistent.places allocId
    have counted := countP_finish current target allocId
    have last : [data.allocId].count allocId = if data.allocId = allocId then 1 else 0 := by
      simp [List.count_singleton]
    unfold State.places at places ⊢
    simp only [State.finish, List.count_append, last]
    have waits : s.svmAllocs.countP (State.waits { s.finish i with
      cache := s.cache ++ [data.allocId], cached := s.cached ++ [data.allocId] } allocId) =
        s.svmAllocs.countP (s.waits allocId) := rfl
    simp only [State.finish] at waits
    omega
  · intro allocId member
    rcases List.mem_append.mp member with old | new
    · exact List.mem_append_left _ (consistent.cache allocId old)
    · exact List.mem_append_right _ new
  · exact fun other member => consistent.targets other (List.mem_of_mem_eraseIdx member)
  · exact fun other member =>
      (consistent.calls other (List.mem_of_mem_eraseIdx member)).congr rfl rfl rfl
  · exact fun ptr pending => tracked_finish consistent current outside pending
  · exact alone_finish consistent current
  · exact consistent.idle
  · exact consistent.safe

/-- The allocation of a call waits among the deferred frees. -/
theorem State.Consistent.insertDeferred (consistent : s.Consistent)
    (current : s.calls[i]? = some call) (target : call.target = some data)
    (outside : call.step.loop = none) :
    State.Consistent { s.finish i with
      svmDeferFreeAllocs := s.svmDeferFreeAllocs ++ [data.ptr] } := by
  have inside := List.mem_of_getElem? current
  have tracked := consistent.targets call inside data target
  have absent := consistent.target_not_pending inside target
  have keeps : Keeps s { s.finish i with
      svmDeferFreeAllocs := s.svmDeferFreeAllocs ++ [data.ptr] } := {
    pending := fun ptr member => List.mem_append_left _ member
    tracked := fun _ _ => Iff.rfl
    inUse := fun _ member => .inl member }
  constructor
  · exact consistent.ptrs
  · exact consistent.ids
  · exact consistent.numbered
  · exact consistent.known
  · exact consistent.used
  · exact consistent.once
  · apply List.nodup_append.mpr
    refine ⟨consistent.pending, List.nodup_singleton _, ?_⟩
    rintro ptr member last new rfl
    exact absent (List.mem_singleton.mp new ▸ member)
  · intro allocId
    have places := consistent.places allocId
    have counted := countP_finish current target allocId
    have own := consistent.ptrs.countP_key tracked fun d => decide (d.allocId = allocId)
    have waits : s.svmAllocs.countP (State.waits { s.finish i with
        svmDeferFreeAllocs := s.svmDeferFreeAllocs ++ [data.ptr] } allocId) =
        s.svmAllocs.countP (s.waits allocId) +
          s.svmAllocs.countP (fun d => decide (d.allocId = allocId) && decide (d.ptr = data.ptr)) := by
      rw [← Weight.countP_or]
      · congr 1
        funext d
        simp [State.waits, List.mem_append, and_or_left]
      · intro d member waits
        simp only [State.waits, decide_eq_true_eq] at waits
        have other : d.ptr ≠ data.ptr := by
          intro same
          exact absent (same ▸ waits.2)
        simp [other]
    unfold State.places at places ⊢
    simp only [decide_eq_true_eq] at own
    simp only [State.finish] at waits ⊢
    omega
  · exact consistent.cache
  · exact fun other member => consistent.targets other (List.mem_of_mem_eraseIdx member)
  · intro other member
    have old := List.mem_of_mem_eraseIdx member
    exact (consistent.calls other old).keeps consistent old keeps
  · intro ptr pending
    rcases List.mem_append.mp pending with old | new
    · exact tracked_finish consistent current outside old
    · exact .inl ⟨data, tracked, (List.mem_singleton.mp new).symm⟩
  · exact alone_finish consistent current
  · exact consistent.idle
  · exact consistent.safe

/-! ### An allocation is freed -/

theorem isInUse_of_idle (consistent : s.Consistent) (tracked : data ∈ s.svmAllocs)
    (idle : Idle s data data.graphicsAllocations) : s.isInUse data = false := by
  apply List.any_eq_false.mpr
  rintro ⟨allocId, index⟩ member same
  have below := (consistent.used _ member).2 data tracked (of_decide_eq_true same).symm
  exact idle index below (of_decide_eq_true same ▸ member)

/-- What is not the freed allocation stays tracked. -/
theorem mem_eraseP_ptr (consistent : s.Consistent) {data' : SvmAllocation} :
    data' ∈ s.svmAllocs.eraseP (·.ptr = data.ptr) ↔ data' ∈ s.svmAllocs ∧ data'.ptr ≠ data.ptr :=
  consistent.ptrs.mem_eraseP

theorem countP_waits_erase (consistent : s.Consistent) (tracked : data ∈ s.svmAllocs)
    (allocId : Nat) :
    (s.svmAllocs.eraseP (·.ptr = data.ptr)).countP (s.waits allocId) +
        (if s.waits allocId data then 1 else 0) = s.svmAllocs.countP (s.waits allocId) :=
  countP_eraseP (consistent.find_eq tracked) _

/-- The allocation of a call is freed. -/
theorem State.Consistent.release (consistent : s.Consistent) (current : s.calls[i]? = some call)
    (target : call.target = some data) (outside : call.step.loop = none) {policy : FreePolicyType}
    (idle : policy = .defer → Idle s data data.graphicsAllocations) :
    State.Consistent { s.finish i with
      svmAllocs := s.svmAllocs.eraseP (·.ptr = data.ptr)
      freed := s.freed ++ [⟨data.allocId, policy, s.isInUse data⟩] } := by
  have inside := List.mem_of_getElem? current
  have tracked := consistent.targets call inside data target
  have absent := consistent.target_not_pending inside target
  have keeps : Keeps s { s.finish i with
      svmAllocs := s.svmAllocs.eraseP (·.ptr = data.ptr)
      freed := s.freed ++ [⟨data.allocId, policy, s.isInUse data⟩] } := {
    pending := fun ptr member => member
    tracked := by
      intro other pending
      refine (mem_eraseP_ptr consistent).trans (and_iff_left ?_)
      intro same
      exact absent (same ▸ pending)
    inUse := fun _ member => .inl member }
  have stays : ∀ data' ∈ s.svmAllocs.eraseP (·.ptr = data.ptr), data' ∈ s.svmAllocs :=
    fun _ member => List.mem_of_mem_eraseP member
  constructor
  · exact consistent.ptrs.eraseP _
  · exact consistent.ids.eraseP _
  · exact fun data' member => consistent.numbered data' (stays data' member)
  · exact consistent.known
  · intro use member
    obtain ⟨below, used⟩ := consistent.used use member
    exact ⟨below, fun data' member => used data' (stays data' member)⟩
  · exact consistent.once
  · exact consistent.pending
  · intro allocId
    have places := consistent.places allocId
    have counted := countP_finish current target allocId
    have waits := countP_waits_erase consistent tracked allocId
    have none : s.waits allocId data = false := by simp [State.waits, absent]
    rw [none, if_neg Bool.false_ne_true] at waits
    have same : State.waits { s.finish i with
        svmAllocs := s.svmAllocs.eraseP (·.ptr = data.ptr)
        freed := s.freed ++ [⟨data.allocId, policy, s.isInUse data⟩] } allocId =
        s.waits allocId := rfl
    unfold State.places at places ⊢
    rw [same]
    simp only [State.finish, List.countP_append, List.countP_singleton, decide_eq_true_eq]
    omega
  · exact consistent.cache
  · intro other member data' target'
    apply (mem_eraseP_ptr consistent).mpr
    have old := consistent.targets other (List.mem_of_mem_eraseIdx member) data' target'
    refine ⟨old, ?_⟩
    intro same
    have equal := consistent.ptrs.eq old tracked same
    exact consistent.target_ne current target member target' (by rw [equal])
  · intro other member
    have old := List.mem_of_mem_eraseIdx member
    exact (consistent.calls other old).keeps consistent old keeps
  · intro ptr pending
    rcases tracked_finish consistent current outside pending with ⟨other, member, rfl⟩ | looping
    · left
      refine ⟨other, (mem_eraseP_ptr consistent).mpr ⟨member, ?_⟩, rfl⟩
      intro same
      exact absent (same ▸ pending)
    · exact .inr looping
  · exact alone_finish consistent current
  · intro f member defer
    rcases List.mem_append.mp member with old | new
    · exact consistent.idle f old defer
    · cases List.mem_singleton.mp new
      exact isInUse_of_idle consistent tracked (idle defer)
  · exact consistent.safe

/-- While a call is in the loop no other is. -/
theorem State.Consistent.others (consistent : s.Consistent) (current : s.calls[i]? = some call)
    (sweeps : call.sweeping = true) (member : other ∈ s.calls.eraseIdx i) :
    other.sweeping = false := by
  have counted := Weight.countP_eraseIdx Call.sweeping current
  have alone := consistent.alone
  rw [sweeps, if_pos rfl] at counted
  have none : (s.calls.eraseIdx i).countP Call.sweeping = 0 := by omega
  simpa using List.countP_eq_zero.mp none other member

/-- The loop frees an allocation. -/
theorem State.Consistent.releaseDeferred (consistent : s.Consistent)
    (current : s.calls[i]? = some call) {freedPtr : List Nat} (loop : call.step.loop = some freedPtr)
    (works : At s call data (.deferImpl freedPtr))
    (idle : Idle s data data.graphicsAllocations) :
    State.Consistent { s.goTo i call (.check data.ptr freedPtr) with
      svmAllocs := s.svmAllocs.eraseP (·.ptr = data.ptr)
      freed := s.freed ++ [⟨data.allocId, .defer, s.isInUse data⟩] } := by
  have inside := List.mem_of_getElem? current
  obtain ⟨tracked, pending, gone, before⟩ := works
  have sweeps : call.sweeping = true := by simp [Call.sweeping, loop]
  have stays : ∀ data' ∈ s.svmAllocs.eraseP (·.ptr = data.ptr), data' ∈ s.svmAllocs :=
    fun _ member => List.mem_of_mem_eraseP member
  -- Nothing that a call holds is deferred.
  have targets : ∀ other ∈ s.calls, ∀ data', other.target = some data' →
      data' ∈ s.svmAllocs.eraseP (·.ptr = data.ptr) := by
    intro other member data' target
    apply (mem_eraseP_ptr consistent).mpr
    refine ⟨consistent.targets other member data' target, ?_⟩
    intro same
    exact consistent.target_not_pending member target (same ▸ pending)
  constructor
  · exact consistent.ptrs.eraseP _
  · exact consistent.ids.eraseP _
  · exact fun data' member => consistent.numbered data' (stays data' member)
  · exact consistent.known
  · intro use member
    obtain ⟨below, used⟩ := consistent.used use member
    exact ⟨below, fun data' member => used data' (stays data' member)⟩
  · exact consistent.once
  · exact consistent.pending
  · intro allocId
    have places := consistent.places allocId
    have waits := countP_waits_erase consistent tracked allocId
    have own : s.waits allocId data = decide (data.allocId = allocId) := by
      simp [State.waits, pending]
    rw [own] at waits
    have same : State.waits { s.goTo i call (.check data.ptr freedPtr) with
        svmAllocs := s.svmAllocs.eraseP (·.ptr = data.ptr)
        freed := s.freed ++ [⟨data.allocId, .defer, s.isInUse data⟩] } allocId =
        s.waits allocId := rfl
    unfold State.places at places ⊢
    rw [same]
    simp only [State.goTo, List.countP_append, List.countP_singleton, countP_goTo current]
    omega
  · exact consistent.cache
  · intro other member data' target
    rcases List.mem_or_eq_of_mem_set member with old | rfl
    · exact targets other old data' target
    · exact targets call inside data' target
  · intro other member
    rcases Search.mem_set_cases member with rfl | others
    · refine ⟨pending, ⟨gone.nodup, gone.pending, ?_⟩, before⟩
      exact fun ptr member data' still => gone.untracked ptr member data' (stays data' still)
    · have old := List.mem_of_mem_eraseIdx others
      exact (consistent.calls other old).own consistent old
        (consistent.others current sweeps others) fun use member => .inl member
  · intro ptr waits
    have new := Search.mem_set_self current { call with step := .check data.ptr freedPtr }
    rcases consistent.tracked ptr waits with ⟨other, member, rfl⟩ | ⟨other, member, list, looping, has⟩
    · by_cases same : other.ptr = data.ptr
      · right
        refine ⟨_, new, freedPtr ++ [data.ptr], rfl, ?_⟩
        rw [same]
        exact List.mem_append_right _ (List.mem_singleton_self _)
      · exact .inl ⟨other, (mem_eraseP_ptr consistent).mpr ⟨member, same⟩, rfl⟩
    · right
      rcases Search.mem_set_or current { call with step := .check data.ptr freedPtr } member with
        still | rfl
      · exact ⟨other, still, list, looping, has⟩
      · cases loop.symm.trans looping
        exact ⟨_, new, freedPtr ++ [data.ptr], rfl, List.mem_append_left _ has⟩
  · exact alone_goTo consistent.alone current fun _ => .inl sweeps
  · intro f member defer
    rcases List.mem_append.mp member with old | new
    · exact consistent.idle f old defer
    · cases List.mem_singleton.mp new
      exact isInUse_of_idle consistent tracked idle
  · exact consistent.safe

/-- The loop erases the entry of an allocation that it has freed. -/
theorem State.Consistent.erase (consistent : s.Consistent) (current : s.calls[i]? = some call)
    {ptr : Nat} {freedPtr : List Nat} (step : call.step = .erase (ptr :: freedPtr))
    (gone : Gone s (ptr :: freedPtr)) :
    State.Consistent { s.goTo i call (.erase freedPtr) with
      svmDeferFreeAllocs := s.svmDeferFreeAllocs.erase ptr } := by
  have inside := List.mem_of_getElem? current
  have sweeps : call.sweeping = true := by simp [Call.sweeping, step, Step.loop]
  obtain ⟨fresh, nodup⟩ := List.nodup_cons.mp gone.nodup
  constructor
  · exact consistent.ptrs
  · exact consistent.ids
  · exact consistent.numbered
  · exact consistent.known
  · exact consistent.used
  · exact consistent.once
  · exact consistent.pending.erase ptr
  · intro allocId
    have places := consistent.places allocId
    have same : s.svmAllocs.countP (State.waits { s.goTo i call (.erase freedPtr) with
        svmDeferFreeAllocs := s.svmDeferFreeAllocs.erase ptr } allocId) =
        s.svmAllocs.countP (s.waits allocId) := by
      apply List.countP_congr
      intro data member
      have other := gone.untracked ptr List.mem_cons_self data member
      simp [State.waits, List.mem_erase_of_ne other]
    unfold State.places at places ⊢
    simp only [State.goTo, countP_goTo current] at same ⊢
    omega
  · exact consistent.cache
  · intro other member data' target
    rcases List.mem_or_eq_of_mem_set member with old | rfl
    · exact consistent.targets other old data' target
    · exact consistent.targets call inside data' target
  · intro other member
    rcases Search.mem_set_cases member with rfl | others
    · refine ⟨nodup, ?_, ?_⟩
      · intro p waits
        have differs : p ≠ ptr := fun same => fresh (same ▸ waits)
        exact (List.mem_erase_of_ne differs).mpr (gone.pending p (List.mem_cons_of_mem _ waits))
      · exact fun p waits => gone.untracked p (List.mem_cons_of_mem _ waits)
    · have old := List.mem_of_mem_eraseIdx others
      exact (consistent.calls other old).own consistent old
        (consistent.others current sweeps others) fun use member => .inl member
  · intro p waits
    have differs : p ≠ ptr := by
      rintro rfl
      exact consistent.pending.not_mem_erase waits
    have new := Search.mem_set_self current { call with step := .erase freedPtr }
    rcases consistent.tracked p (List.mem_of_mem_erase waits) with
      tracked | ⟨other, member, list, looping, has⟩
    · exact .inl tracked
    · right
      rcases Search.mem_set_or current { call with step := .erase freedPtr } member with still | rfl
      · exact ⟨other, still, list, looping, has⟩
      · simp only [step, Step.loop, Option.mem_def, Option.some.injEq] at looping
        rw [← looping] at has
        exact ⟨_, new, freedPtr, rfl, (List.mem_cons.mp has).resolve_left differs⟩
  · exact alone_goTo consistent.alone current fun _ => .inl sweeps
  · exact consistent.idle
  · exact consistent.safe

end ComputeRuntime.DeferredFree
