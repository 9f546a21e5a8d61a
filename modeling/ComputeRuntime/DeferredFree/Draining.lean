import ComputeRuntime.DeferredFree.Runs
import Mathlib.Logic.Relation

/-! A pass over the deferred frees on its own frees all of them when they are idle; and what holds
in every run. -/
namespace ComputeRuntime.DeferredFree

open Keyed Transition

variable {s : State} {data : SvmAllocation}

/-! ### A pass over the deferred frees -/

/-- The first call takes a step. -/
def Alone (s s' : State) : Prop := s.step (.stepCall 0 false) = some s'

abbrev Passes := Relation.ReflTransGen Alone

/-- A pass over the deferred frees and nothing else. -/
def State.pass (s : State) (step : Step) : State :=
  { s with calls := [⟨.defer, none, step⟩] }

theorem alone_of_eq {step : Step} {s' : State}
    (equal : (s.pass step).stepCall 0 ⟨.defer, none, step⟩ false = s') : Alone (s.pass step) s' :=
  congrArg some equal

/-- The state with an allocation freed by the pass. -/
def State.freedBy (s : State) (data : SvmAllocation) : State :=
  { s with
    svmAllocs := s.svmAllocs.eraseP (·.ptr = data.ptr)
    freed := s.freed ++ [⟨data.allocId, .defer, s.isInUse data⟩] }

/-- The tests of an idle allocation lead to its release. -/
theorem passes_allocInUse (idle : s.inUse = []) (data : SvmAllocation) (freedPtr : List Nat)
    (rest index : Nat) (left : index + rest = data.graphicsAllocations) :
    Passes (s.pass (.allocInUse data index (.deferImpl freedPtr)))
      ((s.freedBy data).pass (.check data.ptr freedPtr)) := by
  induction rest generalizing index with
  | zero =>
    have all : ¬ index < data.graphicsAllocations := by omega
    have tested : Alone (s.pass (.allocInUse data index (.deferImpl freedPtr)))
        (s.pass (.release data (.deferImpl freedPtr))) := by
      apply alone_of_eq
      simp only [State.stepCall, if_neg all]
      rfl
    have released : Alone (s.pass (.release data (.deferImpl freedPtr)))
        ((s.freedBy data).pass (.check data.ptr freedPtr)) := alone_of_eq rfl
    exact (Relation.ReflTransGen.single tested).tail released
  | succ rest ih =>
    have more : index < data.graphicsAllocations := by omega
    have tested : Alone (s.pass (.allocInUse data index (.deferImpl freedPtr)))
        (s.pass (.allocInUse data (index + 1) (.deferImpl freedPtr))) := by
      apply alone_of_eq
      simp only [State.stepCall, if_pos more, State.pass, idle, List.not_mem_nil, if_false]
      rfl
    exact (ih (index + 1) (by omega)).head tested

/-- The pass frees the next entry and remembers it. -/
theorem passes_key (idle : s.inUse = []) (distinct : Distinct (·.ptr) s.svmAllocs)
    (tracked : data ∈ s.svmAllocs) {last : Option Nat} (freedPtr : List Nat)
    (next : nextKey s.svmDeferFreeAllocs last = some data.ptr) :
    Passes (s.pass (.next last freedPtr))
      ((s.freedBy data).pass (.next (some data.ptr) (freedPtr ++ [data.ptr]))) := by
  have found : (s.pass (.getSVMAlloc data.ptr (.deferImpl freedPtr))).find data.ptr = some data :=
    distinct.find? tracked
  have gone : ((s.freedBy data).pass (.check data.ptr freedPtr)).find data.ptr = none := by
    apply List.find?_eq_none.mpr
    intro other member
    simpa using (distinct.mem_eraseP.mp member).2
  have advanced : Alone (s.pass (.next last freedPtr))
      (s.pass (.getSVMAlloc data.ptr (.deferImpl freedPtr))) := by
    apply alone_of_eq
    simp only [State.stepCall, State.pass, next]
    rfl
  have looked : Alone (s.pass (.getSVMAlloc data.ptr (.deferImpl freedPtr)))
      (s.pass (.allocInUse data 0 (.deferImpl freedPtr))) := by
    apply alone_of_eq
    simp only [State.stepCall, found]
    rfl
  have tested := passes_allocInUse idle data freedPtr data.graphicsAllocations 0 (Nat.zero_add _)
  have checked : Alone ((s.freedBy data).pass (.check data.ptr freedPtr))
      ((s.freedBy data).pass (.next (some data.ptr) (freedPtr ++ [data.ptr]))) := by
    apply alone_of_eq
    simp only [State.stepCall, gone, Option.isNone_none, if_true]
    rfl
  exact ((tested.head looked).head advanced).tail checked

/-- The entries after the last one that was visited. -/
def later (s : State) (last : Option Nat) : List Nat :=
  s.svmDeferFreeAllocs.filter fun key => last.all (· < key)

/-- The pass goes through all entries. -/
theorem passes_all (last : Option Nat) (freedPtr : List Nat) (count : Nat) (idle : s.inUse = [])
    (distinct : Distinct (·.ptr) s.svmAllocs) (bound : (later s last).length ≤ count)
    (visited : ∀ ptr ∈ s.svmDeferFreeAllocs, ptr ∉ later s last → ptr ∈ freedPtr)
    (tracked : ∀ ptr ∈ later s last, ∃ data ∈ s.svmAllocs, data.ptr = ptr) :
    ∃ freedPtr' svmAllocs freed, (∀ ptr ∈ s.svmDeferFreeAllocs, ptr ∈ freedPtr') ∧
      Passes (s.pass (.next last freedPtr))
        (State.pass { s with svmAllocs := svmAllocs, freed := freed } (.erase freedPtr')) := by
  induction count generalizing s last freedPtr with
  | zero =>
    have none := List.length_eq_zero_iff.mp (Nat.le_zero.mp bound)
    refine ⟨freedPtr, s.svmAllocs, s.freed, ?_, ?_⟩
    · intro ptr member
      exact visited ptr member (by simp [none])
    · have nothing : nextKey s.svmDeferFreeAllocs last = .none := by
        unfold nextKey
        unfold later at none
        rw [none]
        rfl
      apply Relation.ReflTransGen.single
      apply alone_of_eq
      simp only [State.stepCall, State.pass, nothing]
      rfl
  | succ count ih =>
    cases next : nextKey s.svmDeferFreeAllocs last with
    | none =>
      refine ⟨freedPtr, s.svmAllocs, s.freed, ?_, ?_⟩
      · intro ptr member
        apply visited ptr member
        unfold later
        rw [List.min?_eq_none_iff.mp next]
        exact List.not_mem_nil
      · apply Relation.ReflTransGen.single
        apply alone_of_eq
        simp only [State.stepCall, State.pass, next]
        rfl
    | some ptr =>
      obtain ⟨pending, after, least⟩ := nextKey_spec next
      have ahead : ptr ∈ later s last := List.min?_mem next
      obtain ⟨data, inside, rfl⟩ := tracked ptr ahead
      have step := passes_key idle distinct inside freedPtr next
      -- The entries ahead of this one were ahead before.
      have subset : ∀ p, p ∈ later (s.freedBy data) (some data.ptr) →
          p ∈ later s last ∧ data.ptr < p := by
        intro p member
        obtain ⟨waits, above⟩ := List.mem_filter.mp member
        have above : data.ptr < p := by simpa using above
        refine ⟨List.mem_filter.mpr ⟨waits, ?_⟩, above⟩
        cases last with
        | none => rfl
        | some v => simpa using Nat.lt_trans (after v rfl) above
      have fewer : (later (s.freedBy data) (some data.ptr)).length < (later s last).length := by
        have same : later (s.freedBy data) (some data.ptr) =
            (later s last).filter fun p => data.ptr < p := by
          unfold later
          rw [List.filter_filter]
          apply List.filter_congr
          intro p waits
          by_cases above : data.ptr < p
          · have inner := (subset p (List.mem_filter.mpr ⟨waits, by simpa using above⟩)).1
            simp [above, (List.mem_filter.mp inner).2]
          · simp [above]
        rw [same]
        exact List.length_filter_lt_length_iff_exists.mpr ⟨data.ptr, ahead, by simp⟩
      obtain ⟨freedPtr', svmAllocs, freed, all, rest⟩ := ih (s := s.freedBy data) (some data.ptr)
        (freedPtr ++ [data.ptr]) idle (distinct.eraseP _) (by omega) (by
          intro p waits behind
          have above : ¬ data.ptr < p := by
            intro above
            exact behind (List.mem_filter.mpr ⟨waits, by simpa using above⟩)
          by_cases ahead : p ∈ later s last
          · have le := least p waits (by
              intro v equal
              have passed := (List.mem_filter.mp ahead).2
              rw [equal] at passed
              simpa using passed)
            have same : p = data.ptr := by omega
            exact List.mem_append_right _ (List.mem_singleton.mpr same)
          · exact List.mem_append_left _ (visited p waits ahead)) (by
          intro p member
          obtain ⟨before, above⟩ := subset p member
          obtain ⟨other, has, rfl⟩ := tracked p before
          refine ⟨other, distinct.mem_eraseP.mpr ⟨has, ?_⟩, rfl⟩
          exact Nat.ne_of_gt above)
      exact ⟨freedPtr', svmAllocs, freed, all, step.trans rest⟩

/-- The entries that were freed are erased, and the call is over. -/
theorem passes_erase (freedPtr : List Nat) (nodup : s.svmDeferFreeAllocs.Nodup)
    (all : ∀ ptr ∈ s.svmDeferFreeAllocs, ptr ∈ freedPtr) :
    Passes (s.pass (.erase freedPtr)) { s with calls := [], svmDeferFreeAllocs := [] } := by
  induction freedPtr generalizing s with
  | nil =>
    have empty : s.svmDeferFreeAllocs = [] := by
      apply List.eq_nil_iff_forall_not_mem.mpr
      exact fun ptr member => List.not_mem_nil (all ptr member)
    apply Relation.ReflTransGen.single
    apply alone_of_eq
    change ({ s with calls := [] } : State) = _
    rw [← empty]
  | cons ptr freedPtr ih =>
    have erased : Alone (s.pass (.erase (ptr :: freedPtr)))
        (State.pass { s with svmDeferFreeAllocs := s.svmDeferFreeAllocs.erase ptr }
          (.erase freedPtr)) := alone_of_eq rfl
    refine (ih (s := { s with svmDeferFreeAllocs := s.svmDeferFreeAllocs.erase ptr })
      (nodup.erase ptr) ?_).head erased
    intro p member
    have old := all p (List.mem_of_mem_erase member)
    apply (List.mem_cons.mp old).resolve_left
    rintro rfl
    exact nodup.not_mem_erase member

/-! ### Runs -/

/-- What was passed to a free is freed or cached at most once, is never freed by a deferred free
while it is in use, and is not lost. -/
structure State.Sound (s : State) : Prop where
  once : (s.freed.map (·.allocId) ++ s.cached).Nodup
  asked : ∀ allocId ∈ s.freed.map (·.allocId) ++ s.cached, allocId ∈ s.passed
  idle : ∀ f ∈ s.freed, f.policy = .defer → f.inUse = false
  kept : ∀ allocId ∈ s.passed, allocId ∈ s.freed.map (·.allocId) ++ s.cached ∨
    (∃ call ∈ s.calls, call.holds allocId = true) ∨
    ∃ data ∈ s.svmAllocs, data.allocId = allocId ∧ data.ptr ∈ s.svmDeferFreeAllocs
  safe : s.nullFree = false

theorem count_done (s : State) (allocId : Nat) :
    (s.freed.map (·.allocId) ++ s.cached).count allocId =
      s.freed.countP (·.allocId = allocId) + s.cached.count allocId := by
  rw [List.count_append, List.count_eq_countP, List.countP_map]
  congr 1

theorem State.Consistent.sound (consistent : s.Consistent) : s.Sound := by
  constructor
  · apply List.nodup_iff_count_le_one.mpr
    intro allocId
    have le := consistent.places_le allocId
    rw [count_done]
    unfold State.places at le
    omega
  · intro allocId member
    have some := List.count_pos_iff.mpr member
    apply consistent.mem_passed
    rw [count_done] at some
    unfold State.places
    omega
  · exact consistent.idle
  · intro allocId member
    have some := List.count_pos_iff.mpr member
    rw [← consistent.places] at some
    by_cases done : allocId ∈ s.freed.map (·.allocId) ++ s.cached
    · exact .inl done
    · right
      have none := List.count_eq_zero.mpr done
      rw [count_done] at none
      unfold State.places at some
      by_cases held : 0 < s.calls.countP (·.holds allocId)
      · exact .inl (List.countP_pos_iff.mp held)
      · right
        have waits : 0 < s.svmAllocs.countP (s.waits allocId) := by omega
        obtain ⟨data, tracked, waits⟩ := List.countP_pos_iff.mp waits
        exact ⟨data, tracked, of_decide_eq_true waits⟩
  · exact consistent.safe

/-- One more pass over the deferred frees leaves none of them when all allocations are idle. -/
theorem State.Consistent.drained (consistent : s.Consistent) (quiet : s.calls = [])
    (idle : s.inUse = []) :
    ∃ begun s', s.step .freeSVMAllocDeferImpl = some begun ∧ Passes begun s' ∧ s'.calls = [] ∧
      s'.svmDeferFreeAllocs = [] := by
  have everything : later s none = s.svmDeferFreeAllocs := List.filter_eq_self.mpr fun _ _ => rfl
  obtain ⟨freedPtr, svmAllocs, freed, all, run⟩ := passes_all none [] s.svmDeferFreeAllocs.length
    idle consistent.ptrs (by rw [everything]) (by
      intro ptr member behind
      rw [everything] at behind
      exact absurd member behind) (by
      intro ptr member
      rw [everything] at member
      rcases consistent.tracked ptr member with tracked | ⟨call, inside, _⟩
      · exact tracked
      · simp [quiet] at inside)
  have erased := passes_erase (s := { s with svmAllocs := svmAllocs, freed := freed }) freedPtr
    consistent.pending all
  refine ⟨s.pass (.next none []), _, ?_, run.trans erased, rfl, rfl⟩
  simp only [State.step, quiet, State.pass, List.nil_append]

theorem reachable_frees_consistent (reachable : Reachable (system.restrict Allowed) s) :
    s.Consistent := by
  induction reachable with
  | start initial =>
    cases initial
    exact consistent_init
  | next _ stepped ih => exact step_consistent ih stepped.1 stepped.2

/-- Deferred frees free exactly what was asked, in the runs in which one call at a time goes
through them and no address with an entry is returned again. -/
theorem reachable_frees_sound (reachable : Reachable (system.restrict Allowed) s) :
    s.Sound ∧ (s.calls = [] → s.inUse = [] → ∃ begun s', s.step .freeSVMAllocDeferImpl = some begun ∧
      Passes begun s' ∧ s'.calls = [] ∧ s'.svmDeferFreeAllocs = []) := by
  have consistent := reachable_frees_consistent reachable
  constructor
  · exact consistent.sound
  · exact consistent.drained

instance (s : State) (action : Action) : Decidable (Allowed s action) :=
  match action with
  | .allocate ptr _ => inferInstanceAs (Decidable (ptr ∉ s.svmDeferFreeAllocs))
  | .freeSVMAllocDeferImpl =>
    inferInstanceAs (Decidable (∀ other ∈ s.calls, other.sweeping = false))
  | .stepCall i _ => inferInstanceAs (Decidable (∀ call ∈ s.calls[i]?, call.step = .checkPending →
      s.svmDeferFreeAllocs = [] ∨ ∀ other ∈ s.calls, other.sweeping = false))
  | .reuse _ | .use _ _ | .complete _ _ | .free _ _ => .isTrue trivial

def run (actions : List Action) : Option State :=
  actions.foldlM State.step {}

/-- A run all of whose steps are allowed. -/
def runAllowed (actions : List Action) : Option State :=
  actions.foldlM (fun s action => if Allowed s action then s.step action else none) {}

theorem reachable_runAllowed {actions : List Action} {s : State}
    (ran : runAllowed actions = some s) : Reachable (system.restrict Allowed) s := by
  apply Reachable.foldlM _ (.start rfl) ran
  intro s action s' stepped
  exact Option.ite_none_right_eq_some.mp stepped

/-- An allocation in use is freed with the policy to defer, and no cache takes it. -/
def deferringRun : List Action :=
  [.allocate 4096 1, .use 4096 0, .free .defer 4096] ++ List.replicate 5 (.stepCall 0 false) ++
    [.complete 0 0]

theorem reachable_frees_sound_deferred :
    ∃ s, runAllowed deferringRun = some s ∧ s.svmDeferFreeAllocs = [4096] ∧ s.Sound ∧
      ∃ begun s', s.step .freeSVMAllocDeferImpl = some begun ∧ Passes begun s' ∧ s'.calls = [] ∧
        s'.svmDeferFreeAllocs = [] := by
  have ran : (runAllowed deferringRun).any (fun s => s.svmDeferFreeAllocs = [4096] ∧
      s.calls = [] ∧ s.inUse = []) = true := by
    decide +kernel
  obtain ⟨s, ran, state⟩ := (Option.any_eq_true _ _).mp ran
  obtain ⟨pending, quiet, idle⟩ := of_decide_eq_true state
  have sound := reachable_frees_sound (reachable_runAllowed ran)
  exact ⟨s, ran, pending, sound.1, sound.2 quiet idle⟩

/-- Two calls go through the deferred frees at once, and both find the allocation idle or gone. -/
def overlappingRun : List Action :=
  deferringRun ++ [.freeSVMAllocDeferImpl, .freeSVMAllocDeferImpl, .stepCall 1 false] ++
    List.replicate 5 (.stepCall 0 false) ++ [.stepCall 1 false]

/-- A cache takes an allocation that is in use. -/
def cachingRun : List Action :=
  [.allocate 4096 1, .use 4096 0, .free .defer 4096, .stepCall 0 false, .stepCall 0 false,
    .stepCall 0 true]

/-- Calls at once free without data, and a deferred free puts an allocation in use into a cache. -/
theorem frees_unsound_stated :
    (∃ s, Reachable system s ∧ s.nullFree = true) ∧
      ∃ s, Reachable system s ∧ s.cached = [0] ∧ s.isInUse ⟨0, 4096, 1⟩ = true := by
  have reachable : ∀ {actions : List Action} {s : State}, run actions = some s →
      Reachable system s :=
    fun ran => Reachable.foldlM (fun _ _ _ stepped => stepped) (.start rfl) ran
  constructor
  · have ran : (run overlappingRun).any (fun s => s.nullFree) = true := by
      decide +kernel
    obtain ⟨s, ran, state⟩ := (Option.any_eq_true _ _).mp ran
    exact ⟨s, reachable ran, state⟩
  · have ran : (run cachingRun).any (fun s => s.cached = [0] ∧
        s.isInUse ⟨0, 4096, 1⟩ = true) = true := by
      decide +kernel
    obtain ⟨s, ran, state⟩ := (Option.any_eq_true _ _).mp ran
    exact ⟨s, reachable ran, of_decide_eq_true state⟩

end ComputeRuntime.DeferredFree
