import ComputeRuntime.DrmResidency.Calls
import Mathlib.Data.List.ReduceOption

/-! Residency over whole runs: what is claimed to be bound is bound, and calls that succeed bind
and unbind what they were asked to. -/
namespace ComputeRuntime.DrmResidency

open Transition

variable {device : Device} {s s' : State}

/-- Neither `bindInfo` nor the flags of the fragments claim a binding that does not exist. -/
structure State.Sound (device : Device) (s : State) : Prop where
  bindInfo : ∀ osContext tile bo, s.isBound device osContext tile bo = true →
    s.vms (device.vmOf osContext tile) bo = true
  fragments : s.FlagsSound device

/-- A fragment that is flagged as resident in a context whose VM this is. -/
def State.FragmentFlagged (device : Device) (s : State) (v : Vm) (bo : Nat) : Prop :=
  (∃ a, bo ∈ (device.allocations a).fragments) ∧ ∃ engine ∈ device.engines,
    s.resident bo engine.contextId = true ∧ ∃ tile ∈ engine.deviceBitfield,
      v = device.vmOf engine tile

/-- Making resident finds no allocation half bound and no fragments in a context of several tiles,
no allocation that is made of fragments is evicted, and what is evicted is shared with none that
counts on it. -/
def Allowed (device : Device) (s : State) : Action → Prop
  | .makeResidentWithinOsContext osContext gfxAllocations evictable results =>
    Bindable device (s.withResults results) osContext gfxAllocations evictable
  | .evictWithinOsContext osContext a _ => (device.allocations a).fragments = [] ∧
    ∀ tile ∈ osContext.deviceBitfield, ∀ bo ∈ (device.allocations a).selectedBOs tile,
      ¬s.FragmentFlagged device (device.vmOf osContext tile) bo
  | .evictUnusedAllocations _ _ => s.WholeCandidates device ∧ s.SparesNeeded device
  | .setLockedMemory _ _ | .makeNonResident _ _ | .updateResidencyTaskCount _ _ _
  | .updateTaskCount _ _ _ | .complete _ _ | .register _ _ => True

theorem updateResidencyTaskCount_sound {a contextId taskCount : Nat} (synced : s.Synced device)
    (flags : s.FlagsSound device) :
    (s.updateResidencyTaskCount a contextId taskCount).Synced device ∧
      (s.updateResidencyTaskCount a contextId taskCount).FlagsSound device := by
  have moves : Moves device (fun _ _ => False) (fun _ _ => False) s
      (s.updateResidencyTaskCount a contextId taskCount) := updateResidencyTaskCount_moves
  have fields := updateResidencyTaskCount_fields s a contextId taskCount
  refine ⟨moves.synced synced, ?_⟩
  unfold State.FlagsSound
  rw [fields.1, fields.2.1]
  exact flags

theorem makeNonResident_sound {osContext : OsContext} {a : Nat} (synced : s.Synced device)
    (flags : s.FlagsSound device) :
    (s.makeNonResident device osContext a).Synced device ∧
      (s.makeNonResident device osContext a).FlagsSound device := by
  -- flags are only taken back
  obtain ⟨cleared, ran, moves, fewer⟩ : ∃ cleared : State,
      (if s.residencyTaskCount a osContext.contextId ≠ objectNotResident then
        { s with resident := fun f c =>
            if f ∈ (device.allocations a).fragments ∧ c = osContext.contextId then false
            else s.resident f c }
      else s) = cleared ∧ (cleared.vms = s.vms ∧ cleared.bindInfo = s.bindInfo) ∧
        ∀ bo c, cleared.resident bo c = true → s.resident bo c = true := by
    refine ⟨_, rfl, ?_, ?_⟩
    · split
      · exact ⟨rfl, rfl⟩
      · exact ⟨rfl, rfl⟩
    · split
      · intro bo c flagged
        simp only [Bool.if_false_left, Bool.and_eq_true] at flagged
        exact flagged.2
      · exact fun _ _ => id
  have clearedSynced : cleared.Synced device := by
    intro osContext tile bo
    unfold State.isBound
    rw [moves.1, moves.2]
    exact synced osContext tile bo
  have clearedFlags : cleared.FlagsSound device := by
    intro b bo fragment engine member flagged tile inside
    rw [moves.1]
    exact flags b bo fragment engine member (fewer bo _ flagged) tile inside
  unfold State.makeNonResident
  rw [ran]
  by_cases always : cleared.isAlwaysResident a osContext.contextId
  · simp only [if_pos always]
    exact ⟨clearedSynced, clearedFlags⟩
  · simp only [if_neg always]
    exact updateResidencyTaskCount_sound clearedSynced clearedFlags

theorem step_sound {action : Action} (synced : s.Synced device) (flags : s.FlagsSound device)
    (allowed : Allowed device s action) (stepped : s.step device action = some s') :
    s'.Synced device ∧ s'.FlagsSound device := by
  cases action with
  | makeResidentWithinOsContext osContext gfxAllocations evictable results =>
    obtain ⟨member, ran⟩ := Option.ite_none_right_eq_some.mp stepped
    cases ran
    have settled := (makeResidentWithinOsContext_bound member allowed synced flags).1
    exact ⟨settled.synced, settled.flags⟩
  | evictWithinOsContext osContext a results =>
    obtain ⟨member, ran⟩ := Option.ite_none_right_eq_some.mp stepped
    cases ran
    obtain ⟨moves, resident, lost⟩ :=
      evictWithinOsContext_moves (s.withResults results) osContext allowed.1
    refine ⟨moves.synced synced, ?_⟩
    intro b bo fragment engine engines flagged tile inside
    rw [resident] at flagged
    have bound := flags b bo fragment engine engines flagged tile inside
    rcases lost (device.vmOf engine tile) bo with kept | unbound | ⟨t, tInside, same, selected⟩
    · exact kept
    · exact absurd bound (by
        rw [Bool.not_eq_true]
        exact unbound)
    · -- flagged fragments belong to no allocation that is evicted
      exact absurd ⟨⟨b, fragment⟩, engine, engines, flagged, tile, inside, same.symm⟩
        (allowed.2 t tInside bo selected)
  | evictUnusedAllocations hangs results =>
    cases stepped
    have whole : (s.withResults results).WholeCandidates device := allowed.1
    have evicting := evictUnusedAllocations_evicting hangs whole
    refine ⟨evicting.moves.synced synced, ?_⟩
    intro b bo fragment engine engines flagged tile inside
    rw [evicting.resident] at flagged
    rcases evicting.moves.lost _ _ (flags b bo fragment engine engines flagged tile inside) with
      kept | lost
    · exact kept
    · exact absurd lost (not_evictable_fragment whole fragment _)
  | makeNonResident osContext a =>
    cases stepped
    exact makeNonResident_sound synced flags
  | updateResidencyTaskCount a contextId taskCount =>
    cases stepped
    exact updateResidencyTaskCount_sound synced flags
  | setLockedMemory a locked | updateTaskCount a contextId taskCount | complete contextId tag
  | register sysMemAllocs localMemAllocs =>
    cases stepped
    exact ⟨synced, flags⟩

theorem reachable_synced (reachable : Reachable ((system device).restrict (Allowed device)) s) :
    s.Synced device ∧ s.FlagsSound device := by
  induction reachable with
  | start initial =>
    cases initial
    exact ⟨fun _ _ _ => rfl, fun _ _ _ _ _ flagged => absurd flagged Bool.false_ne_true⟩
  | next _ stepped ih => exact step_sound ih.1 ih.2 stepped.1 stepped.2

/-- In runs that find no allocation half bound and evict no fragments, residency matches the
bindings. -/
theorem reachable_residency_sound
    (reachable : Reachable ((system device).restrict (Allowed device)) s) :
    s.Sound device ∧
      (∀ osContext ∈ device.engines, ∀ gfxAllocations evictable results,
        Allowed device s (.makeResidentWithinOsContext osContext gfxAllocations evictable results) →
        ((s.withResults results).makeResidentWithinOsContext device osContext gfxAllocations
          evictable).2 = .success →
        ∀ tile ∈ osContext.deviceBitfield, ∀ a ∈ gfxAllocations,
          ((s.withResults results).makeResidentWithinOsContext device osContext gfxAllocations
            evictable).1.Bound device osContext tile a) ∧
      (∀ osContext ∈ device.engines, ∀ a results,
        Allowed device s (.evictWithinOsContext osContext a results) →
        ((s.withResults results).evictWithinOsContext device osContext a).2 = .success →
        ∀ tile ∈ osContext.deviceBitfield, ∀ bo ∈ (device.allocations a).selectedBOs tile,
          ((s.withResults results).evictWithinOsContext device osContext a).1.vms
              (device.vmOf osContext tile) bo = false ∧
            ((s.withResults results).evictWithinOsContext device osContext a).1.isBound device
              osContext tile bo = false) ∧
      (∀ osContext ∈ device.engines, ∀ gfxAllocations evictable results,
        Allowed device s (.makeResidentWithinOsContext osContext gfxAllocations evictable results) →
        ∀ engine ∈ device.engines, ∀ tile ∈ engine.deviceBitfield, ∀ a, s.Needs engine a →
          ∀ bo ∈ (device.allocations a).selectedBOs tile,
            s.vms (device.vmOf engine tile) bo = true →
            ((s.withResults results).makeResidentWithinOsContext device osContext gfxAllocations
              evictable).1.vms (device.vmOf engine tile) bo = true) ∧
      ∀ hangs results, Allowed device s (.evictUnusedAllocations hangs results) →
        ∀ engine ∈ device.engines, ∀ tile ∈ engine.deviceBitfield, ∀ a, s.Needs engine a →
          ∀ bo ∈ (device.allocations a).selectedBOs tile,
            s.vms (device.vmOf engine tile) bo = true →
            ((s.withResults results).evictUnusedAllocations device hangs).1.vms
              (device.vmOf engine tile) bo = true := by
  obtain ⟨synced, flags⟩ := reachable_synced reachable
  refine ⟨⟨?_, flags⟩, ?_, ?_, ?_, ?_⟩
  · intro osContext tile bo claimed
    rw [← synced]
    exact claimed
  · intro osContext member gfxAllocations evictable results allowed succeeded
    exact (makeResidentWithinOsContext_bound member allowed synced flags).2 succeeded
  · intro osContext member a results allowed succeeded tile inside bo selected
    have synced : (s.withResults results).Synced device := synced
    have unbound := evictWithinOsContext_done osContext allowed.1 synced succeeded tile inside bo
      selected
    have after := (evictWithinOsContext_moves (s.withResults results) osContext allowed.1).1.synced
      synced
    exact ⟨unbound, (after osContext tile bo).trans unbound⟩
  · intro osContext called gfxAllocations evictable results allowed engine member tile inside a
      needs bo selected bound
    have settled := (makeResidentWithinOsContext_bound called allowed synced flags).1
    rcases settled.lost _ _ bound with kept | ⟨failure, lost⟩
    · exact kept
    · have needed := (allowed.spared failure).2.1
      exact absurd lost (not_evictable_needed needed member inside needs selected)
  · intro hangs results allowed engine member tile inside a needs bo selected bound
    have whole : (s.withResults results).WholeCandidates device := allowed.1
    exact evictUnusedAllocations_needed whole allowed.2 member inside needs selected bound

/-! ### A device with two tiles -/

def rootContext : OsContext := ⟨0, [0, 1]⟩
def tileContext : OsContext := ⟨1, [0]⟩

/-- A host pointer of one fragment, an allocation with a buffer object in each of two banks, and the
buffer that the fragment is part of. -/
def threeAllocations : Nat → DrmAllocation
  | 0 => { fragments := [7] }
  | 1 => { bufferObjects := [some 1, some 2], numBanks := 2 }
  | 2 => { bufferObjects := [some 7] }
  | _ => {}

def twoTiles : Device where
  perContextVmsUsed := false
  rootDeviceIndex := 0
  subDevicesCount := 2
  engines := [rootContext, tileContext]
  allocations := threeAllocations
  contextIds := by decide

/-- Nothing is bound at the start, so that the allocation with banks may be made resident. -/
theorem bindable_banks : Bindable twoTiles {} rootContext [1] false where
  tested := fun tile _ a _ tested => by
    obtain ⟨_, _, bound⟩ := isTestedBound_iff.mp tested
    exact absurd bound Bool.false_ne_true
  apart := by
    intro tile _ a aMember b bMember bo _ _ other selected
    rw [List.mem_singleton.mp aMember] at selected
    rw [List.mem_singleton.mp bMember]
    exact selected
  fragments := fun a member some => by
    rw [List.mem_singleton.mp member] at some
    exact absurd rfl some
  spared := fun failure => absurd failure List.not_mem_nil

theorem reachable_residency_sound_banks :
    ∃ s, Reachable ((system twoTiles).restrict (Allowed twoTiles)) s ∧ s.Sound twoTiles ∧
      s.Bound twoTiles rootContext 0 1 ∧ s.Bound twoTiles rootContext 1 1 ∧
        (s.evictWithinOsContext twoTiles rootContext 1).1.vms (.shared 1) 2 = false := by
  have start : Reachable ((system twoTiles).restrict (Allowed twoTiles)) {} := .start rfl
  have first := (reachable_residency_sound start).2.1 rootContext List.mem_cons_self [1] false []
    bindable_banks rfl
  have next := start.next (show ((system twoTiles).restrict (Allowed twoTiles)).step {}
    (.makeResidentWithinOsContext rootContext [1] false []) _ from ⟨bindable_banks, rfl⟩)
  have sound := reachable_residency_sound next
  refine ⟨_, next, sound.1, first 0 (by decide) 1 (by decide), first 1 (by decide) 1 (by decide),
    ?_⟩
  refine (sound.2.2.1 rootContext List.mem_cons_self 1 [] ⟨rfl, ?_⟩ rfl 1 (by decide) 2
    (by decide)).1
  rintro _ _ _ _ ⟨_, _, _, flagged, _⟩
  exact absurd flagged Bool.false_ne_true

/-- Fragments are bound in one tile only and never unbound, a flag is set for a fragment that is not
bound, a failed call leaves an allocation half bound that the next call takes for bound, and the
eviction of an unused buffer unbinds the fragment of a locked host pointer. -/
theorem residency_unsound_stated :
    (∃ s, Reachable (system twoTiles) s ∧
      (s.makeResidentWithinOsContext twoTiles rootContext [0] false).2 = .success ∧
        (s.makeResidentWithinOsContext twoTiles rootContext [0] false).1.vms (.shared 1) 7 =
          false) ∧
      (∃ s, Reachable (system twoTiles) s ∧
        (s.evictWithinOsContext twoTiles tileContext 0).2 = .success ∧
          (s.evictWithinOsContext twoTiles tileContext 0).1.vms (.shared 0) 7 = true) ∧
      (∃ s, Reachable (system twoTiles) s ∧ s.resident 7 1 = true ∧
        s.vms (.shared 0) 7 = false) ∧
      (∃ s, Reachable (system twoTiles) s ∧
        (s.makeResidentWithinOsContext twoTiles tileContext [1] false).2 = .success ∧
          (s.makeResidentWithinOsContext twoTiles tileContext [1] false).1.vms (.shared 0) 2 =
            false) ∧
      ∃ s, Reachable (system twoTiles) s ∧ s.Needs tileContext 0 ∧
        s.vms (.shared 0) 7 = true ∧
          (s.evictUnusedAllocations twoTiles fun _ _ _ => false).1.vms (.shared 0) 7 = false := by
  have start : Reachable (system twoTiles) {} := .start rfl
  have step : ∀ {s s' : State} (action : Action), Reachable (system twoTiles) s →
      s.step twoTiles action = some s' → Reachable (system twoTiles) s' :=
    fun _ before stepped => .next before stepped
  refine ⟨⟨{}, start, rfl, rfl⟩, ?_, ?_, ?_, ?_⟩
  · have bound := step (.makeResidentWithinOsContext tileContext [0] false []) start rfl
    exact ⟨_, bound, rfl, rfl⟩
  · have evicted := step (.evictWithinOsContext tileContext 0 []) start rfl
    exact ⟨_, evicted, rfl, rfl⟩
  · have half := step
      (.makeResidentWithinOsContext tileContext [1] false [true, false, false]) start rfl
    exact ⟨_, half, rfl, rfl⟩
  · have bound := step (.makeResidentWithinOsContext tileContext [0] true []) start rfl
    have listed := step (.register [] [2]) bound rfl
    have locked := step (.setLockedMemory 0 true) listed rfl
    exact ⟨_, locked, .inr (.inl rfl), rfl, rfl⟩

end ComputeRuntime.DrmResidency
