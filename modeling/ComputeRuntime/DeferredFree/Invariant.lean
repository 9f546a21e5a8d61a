import ComputeRuntime.DeferredFree.Model
import ComputeRuntime.Library.Keyed
import ComputeRuntime.Library.Search
import ComputeRuntime.Library.Weight
import Mathlib.Data.List.Nodup

/-! What holds between the tracked allocations, the deferred frees and the calls under way, as long
as only one call at a time is in the loop over the deferred frees. -/
namespace ComputeRuntime.DeferredFree

open Keyed

variable {s s' : State} {call other : Call} {data : SvmAllocation} {i : Nat}

/-! ### The loop over the deferred frees -/

def Site.loop : Site → Option (List Nat)
  | .own => none
  | .deferImpl freedPtr => some freedPtr

/-- What the loop has freed and not yet erased, for a call in the loop. -/
def Step.loop : Step → Option (List Nat)
  | .checkPending | .insertCache _ => none
  | .next _ freedPtr | .erase freedPtr => some freedPtr
  | .getSVMAlloc _ site | .allocInUse _ _ site | .insertDeferred _ site | .release _ site => site.loop
  | .check ptr freedPtr => some (freedPtr ++ [ptr])

def Call.sweeping (call : Call) : Bool := call.step.loop.isSome

/-- The pointers were freed by the loop and are not erased yet. -/
structure Gone (s : State) (freedPtr : List Nat) : Prop where
  nodup : freedPtr.Nodup
  pending : ∀ ptr ∈ freedPtr, ptr ∈ s.svmDeferFreeAllocs
  untracked : ∀ ptr ∈ freedPtr, ∀ data ∈ s.svmAllocs, data.ptr ≠ ptr

/-- The data that a call works on belongs to it. -/
def At (s : State) (call : Call) (data : SvmAllocation) : Site → Prop
  | .own => call.target = some data
  | .deferImpl freedPtr => data ∈ s.svmAllocs ∧ data.ptr ∈ s.svmDeferFreeAllocs ∧ Gone s freedPtr ∧
      ∀ ptr ∈ freedPtr, ptr < data.ptr

/-- The first graphics allocations are not in use. -/
def Idle (s : State) (data : SvmAllocation) (count : Nat) : Prop :=
  ∀ index < count, (data.allocId, index) ∉ s.inUse

def Call.Ok (s : State) (call : Call) : Prop :=
  match call.step with
  | .checkPending => True
  | .next last freedPtr => Gone s freedPtr ∧ ∀ ptr ∈ freedPtr, ∃ visited ∈ last, ptr ≤ visited
  | .erase freedPtr => Gone s freedPtr
  | .getSVMAlloc ptr .own => ∃ data, call.target = some data ∧ data.ptr = ptr
  | .getSVMAlloc ptr (.deferImpl freedPtr) => ∃ data, data.ptr = ptr ∧ At s call data (.deferImpl freedPtr)
  | .insertCache data => call.target = some data
  | .allocInUse data index site => At s call data site ∧ Idle s data index
  | .insertDeferred data site => At s call data site
  | .release data site => At s call data site ∧
      (State.policyAt call site = .defer → Idle s data data.graphicsAllocations)
  | .check ptr freedPtr => ptr ∈ s.svmDeferFreeAllocs ∧ Gone s freedPtr ∧ ∀ p ∈ freedPtr, p < ptr

/-! ### All allocations -/

def Call.holds (call : Call) (allocId : Nat) : Bool :=
  call.target.any (·.allocId = allocId)

def State.waits (s : State) (allocId : Nat) (data : SvmAllocation) : Bool :=
  data.allocId = allocId ∧ data.ptr ∈ s.svmDeferFreeAllocs

/-- How often an allocation is held by a call, waits among the deferred frees, was freed or was put
in a reuse cache. -/
def State.places (s : State) (allocId : Nat) : Nat :=
  s.calls.countP (·.holds allocId) + s.svmAllocs.countP (s.waits allocId) +
    s.freed.countP (·.allocId = allocId) + s.cached.count allocId

structure State.Consistent (s : State) : Prop where
  ptrs : Distinct (·.ptr) s.svmAllocs
  ids : Distinct (·.allocId) s.svmAllocs
  numbered : ∀ data ∈ s.svmAllocs, data.allocId < s.nextId
  known : ∀ allocId ∈ s.passed, allocId < s.nextId
  used : ∀ use ∈ s.inUse, use.1 < s.nextId ∧
    ∀ data ∈ s.svmAllocs, data.allocId = use.1 → use.2 < data.graphicsAllocations
  once : s.passed.Nodup
  pending : s.svmDeferFreeAllocs.Nodup
  places : ∀ allocId, s.places allocId = s.passed.count allocId
  cache : ∀ allocId ∈ s.cache, allocId ∈ s.cached
  targets : ∀ call ∈ s.calls, ∀ data, call.target = some data → data ∈ s.svmAllocs
  calls : ∀ call ∈ s.calls, call.Ok s
  tracked : ∀ ptr ∈ s.svmDeferFreeAllocs, (∃ data ∈ s.svmAllocs, data.ptr = ptr) ∨
    ∃ call ∈ s.calls, ∃ freedPtr ∈ call.step.loop, ptr ∈ freedPtr
  alone : s.calls.countP Call.sweeping ≤ 1
  idle : ∀ f ∈ s.freed, f.policy = .defer → f.inUse = false
  safe : s.nullFree = false

theorem consistent_init : State.Consistent {} where
  ptrs := .nil
  ids := .nil
  numbered := nofun
  known := nofun
  used := nofun
  once := .nil
  pending := .nil
  places _ := rfl
  cache := nofun
  targets := nofun
  calls := nofun
  tracked := nofun
  alone := Nat.zero_le 1
  idle := nofun
  safe := rfl

namespace State.Consistent

theorem places_le (consistent : s.Consistent) (allocId : Nat) : s.places allocId ≤ 1 := by
  rw [consistent.places]
  exact List.nodup_iff_count_le_one.mp consistent.once allocId

theorem mem_passed (consistent : s.Consistent) {allocId : Nat} (some : 0 < s.places allocId) :
    allocId ∈ s.passed := by
  rw [consistent.places] at some
  exact List.count_pos_iff.mp some

theorem waits_pos (member : data ∈ s.svmAllocs) (pending : data.ptr ∈ s.svmDeferFreeAllocs) :
    0 < s.svmAllocs.countP (s.waits data.allocId) :=
  List.countP_pos_iff.mpr ⟨data, member, by simp [State.waits, pending]⟩

theorem holds_pos (member : call ∈ s.calls) (target : call.target = some data) :
    0 < s.calls.countP (·.holds data.allocId) :=
  List.countP_pos_iff.mpr ⟨call, member, by simp [Call.holds, target]⟩

/-- What a call holds is not deferred. -/
theorem target_not_pending (consistent : s.Consistent) (member : call ∈ s.calls)
    (target : call.target = some data) : data.ptr ∉ s.svmDeferFreeAllocs := by
  intro pending
  have held := holds_pos member target
  have waits := waits_pos (consistent.targets call member data target) pending
  have le := consistent.places_le data.allocId
  unfold State.places at le
  omega

/-- The data that a call works on was passed to a free. -/
theorem at_passed (consistent : s.Consistent) (member : call ∈ s.calls) {site : Site}
    (works : At s call data site) : data.allocId ∈ s.passed := by
  apply consistent.mem_passed
  unfold State.places
  cases site with
  | own =>
    have held := holds_pos member works
    omega
  | deferImpl freedPtr =>
    have waits := waits_pos works.1 works.2.1
    omega

theorem find_eq (consistent : s.Consistent) (member : data ∈ s.svmAllocs) :
    s.find data.ptr = some data :=
  consistent.ptrs.find? member

end State.Consistent

theorem mem_of_find (found : s.find i = some data) : data ∈ s.svmAllocs ∧ data.ptr = i :=
  mem_of_find? found

/-! ### Other calls -/

/-- A change that leaves the calls in the loop alone. -/
structure Keeps (s s' : State) : Prop where
  pending : ∀ ptr ∈ s.svmDeferFreeAllocs, ptr ∈ s'.svmDeferFreeAllocs
  tracked : ∀ data, data.ptr ∈ s.svmDeferFreeAllocs →
    (data ∈ s'.svmAllocs ↔ data ∈ s.svmAllocs)
  inUse : ∀ use ∈ s'.inUse, use ∈ s.inUse ∨ use.1 ∉ s.passed

theorem Gone.keeps {freedPtr : List Nat} (gone : Gone s freedPtr) (keeps : Keeps s s') :
    Gone s' freedPtr where
  nodup := gone.nodup
  pending ptr member := keeps.pending ptr (gone.pending ptr member)
  untracked := by
    rintro ptr member data inside rfl
    have before := (keeps.tracked data (gone.pending _ member)).mp inside
    exact gone.untracked _ member data before rfl

theorem At.keeps {site : Site} (works : At s call data site) (keeps : Keeps s s') :
    At s' call data site := by
  cases site with
  | own => exact works
  | deferImpl freedPtr =>
    obtain ⟨tracked, pending, gone, before⟩ := works
    exact ⟨(keeps.tracked data pending).mpr tracked, keeps.pending _ pending, gone.keeps keeps,
      before⟩

theorem Idle.keeps {count : Nat} (idle : Idle s data count) (passed : data.allocId ∈ s.passed)
    (inUse : ∀ use ∈ s'.inUse, use ∈ s.inUse ∨ use.1 ∉ s.passed) : Idle s' data count := by
  intro index below use
  rcases inUse _ use with old | fresh
  · exact idle index below old
  · exact fresh passed

theorem Call.Ok.keeps (ok : call.Ok s) (consistent : s.Consistent) (member : call ∈ s.calls)
    (keeps : Keeps s s') : call.Ok s' := by
  unfold Call.Ok at ok ⊢
  split at ok
  next => trivial
  next => exact ⟨ok.1.keeps keeps, ok.2⟩
  next => exact Gone.keeps ok keeps
  next => exact ok
  next =>
    obtain ⟨data, same, works⟩ := ok
    exact ⟨data, same, works.keeps keeps⟩
  next => exact ok
  next =>
    exact ⟨ok.1.keeps keeps, ok.2.keeps (consistent.at_passed member ok.1) keeps.inUse⟩
  next => exact At.keeps ok keeps
  next =>
    refine ⟨ok.1.keeps keeps, ?_⟩
    exact fun policy => (ok.2 policy).keeps (consistent.at_passed member ok.1) keeps.inUse
  next => exact ⟨keeps.pending _ ok.1, ok.2.1.keeps keeps, ok.2.2⟩

/-- Calls do not matter to one another. -/
theorem Call.Ok.congr (ok : call.Ok s) (svmAllocs : s'.svmAllocs = s.svmAllocs)
    (pending : s'.svmDeferFreeAllocs = s.svmDeferFreeAllocs) (inUse : s'.inUse = s.inUse) :
    call.Ok s' := by
  have gone : ∀ freedPtr, Gone s freedPtr → Gone s' freedPtr := by
    intro freedPtr gone
    exact ⟨gone.nodup, pending ▸ gone.pending, svmAllocs ▸ gone.untracked⟩
  have works : ∀ data site, At s call data site → At s' call data site := by
    intro data site works
    cases site with
    | own => exact works
    | deferImpl freedPtr =>
      obtain ⟨tracked, waits, untracked, before⟩ := works
      exact ⟨svmAllocs ▸ tracked, pending ▸ waits, gone freedPtr untracked, before⟩
  have idle : ∀ data count, Idle s data count → Idle s' data count := by
    intro data count idle
    unfold Idle
    rw [inUse]
    exact idle
  unfold Call.Ok at ok ⊢
  split at ok
  next => trivial
  next => exact ⟨gone _ ok.1, ok.2⟩
  next => exact gone _ ok
  next => exact ok
  next =>
    obtain ⟨data, same, ok⟩ := ok
    exact ⟨data, same, works data _ ok⟩
  next => exact ok
  next => exact ⟨works _ _ ok.1, idle _ _ ok.2⟩
  next => exact works _ _ ok
  next => exact ⟨works _ _ ok.1, fun policy => idle _ _ (ok.2 policy)⟩
  next => exact ⟨pending ▸ ok.1, gone _ ok.2.1, ok.2.2⟩

/-- Outside the loop only what is in use matters. -/
theorem Call.Ok.own (ok : call.Ok s) (consistent : s.Consistent) (member : call ∈ s.calls)
    (outside : call.sweeping = false)
    (inUse : ∀ use ∈ s'.inUse, use ∈ s.inUse ∨ use.1 ∉ s.passed) : call.Ok s' := by
  unfold Call.sweeping at outside
  unfold Call.Ok at ok ⊢
  split at ok
  next => trivial
  next step => simp [step, Step.loop] at outside
  next step => simp [step, Step.loop] at outside
  next => exact ok
  next step => simp [step, Step.loop, Site.loop] at outside
  next => exact ok
  next step =>
    cases site : ‹Site› with
    | own =>
      subst site
      exact ⟨ok.1, ok.2.keeps (consistent.at_passed member ok.1) inUse⟩
    | deferImpl freedPtr => simp [step, site, Step.loop, Site.loop] at outside
  next step =>
    cases site : ‹Site› with
    | own =>
      subst site
      exact ok
    | deferImpl freedPtr => simp [step, site, Step.loop, Site.loop] at outside
  next step =>
    cases site : ‹Site› with
    | own =>
      subst site
      exact ⟨ok.1, fun policy => (ok.2 policy).keeps (consistent.at_passed member ok.1) inUse⟩
    | deferImpl freedPtr => simp [step, site, Step.loop, Site.loop] at outside
  next step => simp [step, Step.loop] at outside

end ComputeRuntime.DeferredFree
