import ComputeRuntime.DrmResidency.Evictions

/-! Evicting unused allocations takes no binding that a context of the tile needs, and a binding
that fails and is tried again after such an eviction. -/
namespace ComputeRuntime.DrmResidency

variable {device : Device} {s s' s'' : State}

/-- An allocation that evicting unused allocations unbinds from a tile. -/
def State.Candidate (device : Device) (s : State) (tile a : Nat) : Prop :=
  (a ∈ s.sysMemAllocs ∨ a ∈ s.localMemAllocs) ∧
    (device.allocations a).rootDeviceIndex = device.rootDeviceIndex ∧
      ∀ engine ∈ device.engines, tile ∈ engine.deviceBitfield → ¬s.Needs engine a

instance (tile a : Nat) : Decidable (s.Candidate device tile a) :=
  inferInstanceAs (Decidable (_ ∧ _))

/-- The bindings that evicting unused allocations may take away. -/
def State.Evictable (device : Device) (s : State) (v : Vm) (bo : Nat) : Prop :=
  ∃ tile a, s.Candidate device tile a ∧ ∃ engine ∈ device.engines,
    tile ∈ engine.deviceBitfield ∧ device.BindingOf engine tile a v bo

/-- No allocation made of fragments is unused, and no unused one has a buffer object of one. -/
def State.WholeCandidates (device : Device) (s : State) : Prop :=
  ∀ tile a, s.Candidate device tile a → ∀ bo ∈ (device.allocations a).selectedBOs tile,
    ∀ b, bo ∈ (device.allocations b).selectedBOs tile → (device.allocations b).fragments = []

/-- The buffer objects of unused allocations belong to no allocation that a context of the tile
needs. -/
def State.SparesNeeded (device : Device) (s : State) : Prop :=
  ∀ tile a, s.Candidate device tile a → ∀ bo ∈ (device.allocations a).selectedBOs tile,
    ∀ b, bo ∈ (device.allocations b).selectedBOs tile →
      ∀ engine ∈ device.engines, tile ∈ engine.deviceBitfield → ¬s.Needs engine b

/-- The buffer objects of unused allocations belong to no other allocation of the list. -/
def State.SparesOthers (device : Device) (s : State) (gfxAllocations : List Nat) : Prop :=
  ∀ tile a, s.Candidate device tile a → ∀ bo ∈ (device.allocations a).selectedBOs tile,
    ∀ b ∈ gfxAllocations, bo ∈ (device.allocations b).selectedBOs tile → b = a

theorem State.Candidate.of_keeps (keeps : Keeps s s') {tile a : Nat}
    (candidate : s'.Candidate device tile a) : s.Candidate device tile a := by
  obtain ⟨registered, root, free⟩ := candidate
  refine ⟨?_, root, fun engine member inside needs => free engine member inside
    (keeps.needs engine a needs)⟩
  rw [← keeps.sysMemAllocs, ← keeps.localMemAllocs]
  exact registered

theorem State.Evictable.of_keeps (keeps : Keeps s s') {v : Vm} {bo : Nat}
    (lost : s'.Evictable device v bo) : s.Evictable device v bo := by
  obtain ⟨tile, a, candidate, rest⟩ := lost
  exact ⟨tile, a, candidate.of_keeps keeps, rest⟩

theorem State.WholeCandidates.of_keeps (keeps : Keeps s s') (whole : s.WholeCandidates device) :
    s'.WholeCandidates device :=
  fun tile a candidate => whole tile a (candidate.of_keeps keeps)

theorem State.SparesOthers.of_keeps (keeps : Keeps s s') {gfxAllocations : List Nat}
    (others : s.SparesOthers device gfxAllocations) : s'.SparesOthers device gfxAllocations :=
  fun tile a candidate => others tile a (candidate.of_keeps keeps)

theorem fragments_selected {a bo : Nat} (fragment : bo ∈ (device.allocations a).fragments)
    (tile : Nat) : bo ∈ (device.allocations a).selectedBOs tile := by
  rw [DrmAllocation.selectedBOs, if_neg (List.ne_nil_of_mem fragment)]
  exact fragment

theorem State.WholeCandidates.whole (whole : s.WholeCandidates device) {tile a : Nat}
    (candidate : s.Candidate device tile a) : (device.allocations a).fragments = [] := by
  by_contra some
  obtain ⟨bo, fragment⟩ := List.exists_mem_of_ne_nil _ some
  have selected := fragments_selected fragment tile
  exact some (whole tile a candidate bo selected a selected)

/-- Nothing of a listed allocation that is in use may be taken away. -/
theorem not_evictable {gfxAllocations : List Nat} (others : s.SparesOthers device gfxAllocations)
    {osContext : OsContext} {tile a : Nat} (member : a ∈ gfxAllocations)
    (inside : ¬s.Candidate device tile a) {bo : Nat}
    (selected : bo ∈ (device.allocations a).selectedBOs tile) :
    ¬s.Evictable device (device.vmOf osContext tile) bo := by
  rintro ⟨other, b, candidate, engine, _, _, same, lost⟩
  obtain ⟨_, rfl⟩ := (device.vmOf_eq_iff osContext engine tile other).mp same
  obtain rfl := others tile b candidate bo lost a member selected
  exact inside candidate

/-- Nothing of an allocation that a context of the tile needs may be taken away there. -/
theorem not_evictable_needed (needed : s.SparesNeeded device) {engine : OsContext}
    (member : engine ∈ device.engines) {tile a bo : Nat} (inside : tile ∈ engine.deviceBitfield)
    (needs : s.Needs engine a) (selected : bo ∈ (device.allocations a).selectedBOs tile) :
    ¬s.Evictable device (device.vmOf engine tile) bo := by
  rintro ⟨other, b, candidate, evicted, _, _, same, lost⟩
  obtain ⟨_, rfl⟩ := (device.vmOf_eq_iff engine evicted tile other).mp same
  exact needed tile b candidate bo lost a selected engine member inside needs

/-- Fragments are never taken away when no allocation made of them is unused. -/
theorem not_evictable_fragment (whole : s.WholeCandidates device) {a : Nat} {bo : Nat}
    (fragment : bo ∈ (device.allocations a).fragments) (v : Vm) :
    ¬s.Evictable device v bo := by
  rintro ⟨tile, b, candidate, _, _, _, _, lost⟩
  have selected := fragments_selected fragment tile
  exact List.ne_nil_of_mem fragment (whole tile b candidate bo lost a selected)

/-! ### The candidates -/

variable {hangs : Nat → Nat → Nat → Bool}

theorem evictable_free {tile a : Nat} {engines : List OsContext}
    (evict : s.evictable hangs tile a engines = some true) :
    ∀ engine ∈ engines, tile ∈ engine.deviceBitfield → ¬s.Needs engine a := by
  induction engines with
  | nil => exact fun _ member => absurd member List.not_mem_nil
  | cons engine engines ih =>
    rw [State.evictable] at evict
    intro other member inside
    by_cases outside : tile ∉ engine.deviceBitfield
    · rw [if_pos outside] at evict
      rcases List.mem_cons.mp member with rfl | member
      · exact absurd inside outside
      · exact ih evict other member inside
    · rw [if_neg outside] at evict
      split at evict
      · simp at evict
      rename_i always
      split at evict
      · simp at evict
      rename_i locked
      split at evict
      · simp at evict
      split at evict
      · simp at evict
      rename_i used
      rcases List.mem_cons.mp member with rfl | member
      · rintro (needs | needs | needs)
        · exact always needs
        · exact locked needs
        · exact used needs
      · exact ih evict other member inside

theorem evictCandidates_free {tile : Nat} {allocations candidates : List Nat}
    (found : s.evictCandidates device hangs tile allocations = some candidates) :
    ∀ a ∈ candidates, a ∈ allocations ∧
      (device.allocations a).rootDeviceIndex = device.rootDeviceIndex ∧
        ∀ engine ∈ device.engines, tile ∈ engine.deviceBitfield → ¬s.Needs engine a := by
  induction allocations generalizing candidates with
  | nil =>
    cases found
    exact fun _ member => absurd member List.not_mem_nil
  | cons b rest ih =>
    rw [State.evictCandidates] at found
    intro a member
    by_cases elsewhere : (device.allocations b).rootDeviceIndex ≠ device.rootDeviceIndex
    · rw [if_pos elsewhere] at found
      obtain ⟨inside, free⟩ := ih found a member
      exact ⟨.tail _ inside, free⟩
    · rw [if_neg elsewhere] at found
      cases evict : s.evictable hangs tile b device.engines with
      | none => simp [evict] at found
      | some unused =>
        simp only [evict, Option.map_eq_some_iff] at found
        obtain ⟨others, found, rfl⟩ := found
        cases unused with
        | false =>
          obtain ⟨inside, free⟩ := ih found a member
          exact ⟨.tail _ inside, free⟩
        | true =>
          rcases List.mem_cons.mp member with rfl | member
          · exact ⟨List.mem_cons_self, not_not.mp elsewhere, evictable_free evict⟩
          · obtain ⟨inside, free⟩ := ih found a member
            exact ⟨.tail _ inside, free⟩

/-! ### The evictions -/

theorem evictFromTile_evicting (whole : s.WholeCandidates device) {tile a : Nat}
    (candidate : s.Candidate device tile a) (before : Evicting device (s.Evictable device) s s') :
    Evicting device (s.Evictable device) s' (s'.evictFromTile device tile a) := by
  have noFragments := whole.whole candidate
  unfold State.evictFromTile
  apply Evicting.foldl _ .refl
  intro t ran engine member
  by_cases inside : tile ∈ engine.deviceBitfield
  · rw [if_pos inside]
    apply (evictImpl_evicting [tile] noFragments ?_).weaken
    · rintro v bo ⟨only, single, lost⟩
      cases List.mem_singleton.mp single
      exact ⟨tile, a, candidate, engine, member, inside, lost⟩
    · rw [(before.trans (ran.weaken fun _ _ => id)).needs]
      exact candidate.2.2 engine member inside
  · rw [if_neg inside]
    exact .refl

theorem evictTiles_evicting (hangs : Nat → Nat → Nat → Bool) (tiles : List Nat)
    {allocations : List Nat}
    (registered : ∀ a ∈ allocations, a ∈ s.sysMemAllocs ∨ a ∈ s.localMemAllocs)
    (whole : s.WholeCandidates device) (before : Evicting device (s.Evictable device) s s') :
    Evicting device (s.Evictable device) s (s'.evictTiles device hangs allocations tiles).1 := by
  induction tiles generalizing s' with
  | nil => exact before
  | cons tile tiles ih =>
    rw [State.evictTiles]
    cases found : s'.evictCandidates device hangs tile allocations with
    | none => exact before
    | some candidates =>
      apply ih
      -- needs do not change on the way, so that these are candidates from the start
      have all : ∀ a ∈ candidates, s.Candidate device tile a := by
        intro a member
        obtain ⟨inside, root, free⟩ := evictCandidates_free found a member
        refine ⟨registered a inside, root, fun engine engines tileInside needs => ?_⟩
        exact free engine engines tileInside ((before.needs engine a).mpr needs)
      apply Evicting.foldl _ before
      intro t ran a member
      exact evictFromTile_evicting whole (all a member) ran

theorem evictUnusedAllocationsImpl_evicting (hangs : Nat → Nat → Nat → Bool)
    {allocations : List Nat}
    (registered : ∀ a ∈ allocations, a ∈ s.sysMemAllocs ∨ a ∈ s.localMemAllocs)
    (whole : s.WholeCandidates device) (before : Evicting device (s.Evictable device) s s') :
    Evicting device (s.Evictable device) s
      (s'.evictUnusedAllocationsImpl device hangs allocations).1 :=
  evictTiles_evicting hangs (List.range device.subDevicesCount) registered whole before

theorem evictUnusedAllocations_evicting (hangs : Nat → Nat → Nat → Bool)
    (whole : s.WholeCandidates device) :
    Evicting device (s.Evictable device) s (s.evictUnusedAllocations device hangs).1 := by
  have first := evictUnusedAllocationsImpl_evicting hangs
    (fun a (member : a ∈ s.sysMemAllocs) => .inl member) whole .refl
  have second := evictUnusedAllocationsImpl_evicting hangs
    (fun a (member : a ∈ s.localMemAllocs) => .inr member) whole first
  rw [← first.localMemAllocs] at second
  unfold State.evictUnusedAllocations
  -- the status is all that a hang changes
  rw [apply_ite Prod.fst, ite_self]
  exact second

/-- Evicting unused allocations unbinds nothing of an allocation that a context of the tile
needs. -/
theorem evictUnusedAllocations_needed (whole : s.WholeCandidates device)
    (needed : s.SparesNeeded device) {engine : OsContext} (member : engine ∈ device.engines)
    {tile a bo : Nat} (inside : tile ∈ engine.deviceBitfield)
    (needs : s.Needs engine a) (selected : bo ∈ (device.allocations a).selectedBOs tile)
    (bound : s.vms (device.vmOf engine tile) bo = true) :
    (s.evictUnusedAllocations device hangs).1.vms (device.vmOf engine tile) bo = true := by
  rcases (evictUnusedAllocations_evicting hangs whole).moves.lost _ _ bound with kept | lost
  · exact kept
  · exact absurd lost (not_evictable_needed needed member inside needs selected)

/-! ### `BufferObject::bind` -/

/-- What a binding may take away: it evicts only after a call of the kernel failed. -/
def State.MayLose (device : Device) (s : State) (v : Vm) (bo : Nat) : Prop :=
  false ∈ s.results ∧ s.Evictable device v bo

theorem State.MayLose.of_moves {may new : Vm → Nat → Prop} (moves : Moves device may new s s')
    (keeps : Keeps s s') {v : Vm} {bo : Nat} (lost : s'.MayLose device v bo) :
    s.MayLose device v bo :=
  ⟨moves.results _ lost.1, lost.2.of_keeps keeps⟩

/-- Evictions that a failed call of the kernel starts leave allocations made of fragments alone. -/
def State.Guarded (device : Device) (s : State) : Prop :=
  false ∈ s.results → s.WholeCandidates device

theorem State.Guarded.of_moves {may new : Vm → Nat → Prop} (moves : Moves device may new s s')
    (keeps : Keeps s s') (guarded : s.Guarded device) : s'.Guarded device :=
  fun failure => (guarded (moves.results _ failure)).of_keeps keeps

/-- A binding that succeeds, and what an eviction before it may take. -/
structure Binding (device : Device) (osContext : OsContext) (tile bo : Nat) (s s' : State) :
    Prop where
  moves : Moves device (s.MayLose device)
    (fun v b => v = device.vmOf osContext tile ∧ b = bo) s s'
  keeps : Keeps s s'
  resident : s'.resident = s.resident

theorem setBindInfo_keeps {osContext : OsContext} {tile bo : Nat} {bound : Bool} :
    Keeps s (s.setBindInfo device osContext tile bo bound) :=
  ⟨fun _ _ => id, rfl, rfl⟩

/-- The second call of the kernel, or the first that succeeds. -/
theorem bindCall {osContext : OsContext} {tile bo : Nat} {bound : Bool}
    (before : Evicting device (s.MayLose device) s s')
    (ran : s'.changeBufferObjectBinding device osContext tile bo true = (s'', bound)) :
    (bound = false → Binding device osContext tile bo s s'') ∧
      (bound = true → Binding device osContext tile bo s
        (s''.setBindInfo device osContext tile bo true)) := by
  have keeps := changeBufferObjectBinding_keeps device s' osContext tile bo true
  rw [ran] at keeps
  have start : Moves device (s.MayLose device)
      (fun v b => v = device.vmOf osContext tile ∧ b = bo) s s' :=
    before.moves.weaken (fun _ _ => id) fun _ _ => False.elim
  constructor
  · rintro rfl
    exact ⟨start.trans (failed_moves ran), before.keeps.trans keeps.1,
      keeps.2.trans before.resident⟩
  · rintro rfl
    refine ⟨start.trans ?_, (before.keeps.trans keeps.1).trans setBindInfo_keeps,
      keeps.2.trans before.resident⟩
    apply (succeeded_moves ran).1.weaken
    · exact fun _ _ lost => absurd lost.1 (by decide)
    · exact fun _ _ gained => gained.2

theorem bind_binding (guarded : s.Guarded device) (osContext : OsContext) (tile bo : Nat) :
    Binding device osContext tile bo s (s.bind device osContext tile bo).1 ∧
      (s.Synced device → (s.bind device osContext tile bo).2 = true →
        (s.bind device osContext tile bo).1.vms (device.vmOf osContext tile) bo = true) := by
  unfold State.bind
  by_cases bound : s.isBound device osContext tile bo
  · rw [if_pos bound]
    refine ⟨⟨.refl, .refl, rfl⟩, fun synced _ => ?_⟩
    rw [synced] at bound
    exact bound
  rw [if_neg bound]
  unfold State.bindBufferObject
  rcases first : s.changeBufferObjectBinding device osContext tile bo true with ⟨after, _ | _⟩
  · obtain ⟨failure, rfl⟩ := changeBufferObjectBinding_failed first
    -- the results are one shorter, and unused allocations are evicted
    have failed : Evicting device (s.MayLose device) s { s with results := s.results.tail } :=
      ⟨failed_moves first, fun _ _ => .rfl, rfl, rfl, rfl⟩
    have evicted := evictUnusedAllocations_evicting (fun _ _ _ => false)
      ((guarded failure).of_keeps failed.keeps)
    have before := failed.trans (evicted.weaken fun v b lost =>
      (⟨failure, lost.of_keeps failed.keeps⟩ : s.MayLose device v b))
    rcases second : (State.evictUnusedAllocations device { s with results := s.results.tail }
      fun _ _ _ => false).1.changeBufferObjectBinding device osContext tile bo true with
      ⟨after, _ | _⟩
    · simp only [second]
      exact ⟨(bindCall before second).1 rfl, fun _ done => absurd done (by decide)⟩
    · simp only [second]
      exact ⟨(bindCall before second).2 rfl, fun _ _ => (succeeded_moves second).2⟩
  · exact ⟨(bindCall .refl first).2 rfl, fun _ _ => (succeeded_moves first).2⟩

end ComputeRuntime.DrmResidency
