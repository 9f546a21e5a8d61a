import ComputeRuntime.DrmResidency.Unused

/-! Making resident: an allocation is bound as a whole, and stays so while the call goes on. -/
namespace ComputeRuntime.DrmResidency

variable {device : Device} {s s' s'' : State} {osContext : OsContext} {tile a : Nat}

/-- A fragment that is flagged as resident in a context is bound in all tiles of the context. -/
def State.FlagsSound (device : Device) (s : State) : Prop :=
  ∀ a, ∀ bo ∈ (device.allocations a).fragments, ∀ engine ∈ device.engines,
    s.resident bo engine.contextId = true → ∀ tile ∈ engine.deviceBitfield,
      s.vms (device.vmOf engine tile) bo = true

/-- Every buffer object that is selected for the tile is bound in its VM. -/
def State.Bound (device : Device) (s : State) (osContext : OsContext) (tile a : Nat) : Prop :=
  ∀ bo ∈ (device.allocations a).selectedBOs tile, s.vms (device.vmOf osContext tile) bo = true

theorem not_mayLose_fragment (guarded : s.Guarded device) {bo : Nat}
    (fragment : bo ∈ (device.allocations a).fragments) (v : Vm) : ¬s.MayLose device v bo :=
  fun lost => not_evictable_fragment (guarded lost.1) fragment v lost.2

theorem State.FlagsSound.of_moves {new : Vm → Nat → Prop} (guarded : s.Guarded device)
    (moves : Moves device (s.MayLose device) new s s') (resident : s'.resident = s.resident)
    (sound : s.FlagsSound device) : s'.FlagsSound device := by
  intro a bo fragment engine member flagged tile inside
  rw [resident] at flagged
  rcases moves.lost _ _ (sound a bo fragment engine member flagged tile inside) with bound | lost
  · exact bound
  · exact absurd lost (not_mayLose_fragment guarded fragment _)

/-- A step that binds buffer objects of one allocation in one tile. -/
structure Making (device : Device) (osContext : OsContext) (tile a : Nat) (s s' : State) :
    Prop where
  moves : Moves device (s.MayLose device) (device.BindingOf osContext tile a) s s'
  keeps : Keeps s s'
  flags : s.FlagsSound device → s'.FlagsSound device

theorem Making.refl : Making device osContext tile a s s where
  moves := .refl
  keeps := .refl
  flags := id

theorem Making.trans (first : Making device osContext tile a s s')
    (second : Making device osContext tile a s' s'') : Making device osContext tile a s s'' where
  moves := first.moves.trans
    (second.moves.weaken (fun _ _ lost => lost.of_moves first.moves first.keeps) fun _ _ => id)
  keeps := first.keeps.trans second.keeps
  flags := second.flags ∘ first.flags

/-! ### One buffer object -/

theorem bind_making (osContext : OsContext) (guarded : s.Guarded device) {bo : Nat}
    (selected : bo ∈ (device.allocations a).selectedBOs tile) :
    Making device osContext tile a s (s.bind device osContext tile bo).1 := by
  have binding := (bind_binding guarded osContext tile bo).1
  refine ⟨?_, binding.keeps, .of_moves guarded binding.moves binding.resident⟩
  apply binding.moves.weaken (fun _ _ => id)
  rintro v b ⟨rfl, rfl⟩
  exact ⟨rfl, selected⟩

/-- In a context of one tile the new flag of a fragment is right. -/
theorem fragment_making (guarded : s.Guarded device) (member : osContext ∈ device.engines)
    (single : ∀ other ∈ osContext.deviceBitfield, other = tile) {bo : Nat}
    (fragment : bo ∈ (device.allocations a).fragments) (synced : s.Synced device) :
    Making device osContext tile a s
      (State.fragmentResident (fun s => s.bind device osContext tile) osContext.contextId s
        bo).1 := by
  have selected := fragments_selected fragment tile
  have making := bind_making osContext guarded selected
  have done := (bind_binding guarded osContext tile bo).2 synced
  unfold State.fragmentResident
  by_cases flagged : s.resident bo osContext.contextId
  · rw [if_pos flagged]
    exact .refl
  rw [if_neg flagged]
  beta_reduce
  rcases ran : s.bind device osContext tile bo with ⟨after, _ | _⟩
  · rw [ran] at making
    exact making
  · rw [ran] at making done
    refine ⟨making.moves.trans (.of_eq rfl rfl rfl), making.keeps.trans ⟨fun _ _ => id, rfl, rfl⟩,
      ?_⟩
    intro sound b other otherFragment engine engines flagged t inside
    by_cases fresh : other = bo ∧ engine.contextId = osContext.contextId
    · obtain ⟨rfl, same⟩ := fresh
      obtain rfl := device.contextIds engine engines osContext member same
      rw [single t inside]
      exact done rfl
    · simp only [if_neg fresh] at flagged
      exact making.flags sound b other otherFragment engine engines flagged t inside

/-- A fragment that is flagged already is bound already. -/
theorem fragment_done (guarded : s.Guarded device) (member : osContext ∈ device.engines)
    (inside : tile ∈ osContext.deviceBitfield) {bo : Nat}
    (fragment : bo ∈ (device.allocations a).fragments) (synced : s.Synced device)
    (sound : s.FlagsSound device)
    (succeeded : (State.fragmentResident (fun s => s.bind device osContext tile)
      osContext.contextId s bo).2 = true) :
    (State.fragmentResident (fun s => s.bind device osContext tile) osContext.contextId s
      bo).1.vms (device.vmOf osContext tile) bo = true := by
  have done := (bind_binding guarded osContext tile bo).2 synced
  unfold State.fragmentResident at succeeded ⊢
  by_cases flagged : s.resident bo osContext.contextId
  · rw [if_pos flagged]
    exact sound a bo fragment osContext member flagged tile inside
  rw [if_neg flagged] at succeeded ⊢
  beta_reduce at succeeded ⊢
  rcases ran : s.bind device osContext tile bo with ⟨after, _ | _⟩
  · simp [ran] at succeeded
  · rw [ran] at done
    exact done rfl

/-! ### One allocation -/

/-- What the calls for one allocation keep, from the state `start` they began in. -/
structure Steady (device : Device) (start s : State) : Prop where
  guarded : s.Guarded device
  synced : s.Synced device
  flags : s.FlagsSound device
  mayLose : ∀ v bo, s.MayLose device v bo → start.MayLose device v bo

theorem Steady.making {start : State} (steady : Steady device start s)
    (making : Making device osContext tile a s s') : Steady device start s' where
  guarded := steady.guarded.of_moves making.moves making.keeps
  synced := making.moves.synced steady.synced
  flags := making.flags steady.flags
  mayLose v bo lost := steady.mayLose v bo (lost.of_moves making.moves making.keeps)

/-- The loops of `makeBOsResident` in one: over `bindBOs`, or over the fragments. -/
theorem forEach_making {op : State → Nat → State × Bool} {bos : List Nat}
    (each : ∀ s, s.Guarded device → s.Synced device → ∀ bo ∈ bos,
      Making device osContext tile a s (op s bo).1)
    (guarded : s.Guarded device) (synced : s.Synced device) :
    Making device osContext tile a s (s.forEach op bos).1 := by
  refine forEach_related (fun s s' => s.Guarded device → s.Synced device →
    Making device osContext tile a s s') ?_ ?_ ?_ s guarded synced
  · exact fun s _ _ => .refl
  · intro s s' s'' first second guarded synced
    have first := first guarded synced
    exact first.trans (second (guarded.of_moves first.moves first.keeps)
      (first.moves.synced synced))
  · exact fun s bo member guarded synced => each s guarded synced bo member

theorem forEach_bound (a : Nat) {op : State → Nat → State × Bool} {bos : List Nat}
    (each : ∀ s, s.Guarded device → s.Synced device → ∀ bo ∈ bos,
      Making device osContext tile a s (op s bo).1)
    (done : ∀ s', Steady device s s' → ∀ bo ∈ bos, (op s' bo).2 = true →
      (op s' bo).1.vms (device.vmOf osContext tile) bo = true)
    (spared : ∀ bo ∈ bos, ¬s.MayLose device (device.vmOf osContext tile) bo ∨
      ∀ other ∈ bos, bo = other)
    (steady : Steady device s s) (succeeded : (s.forEach op bos).2 = true) :
    ∀ bo ∈ bos, (s.forEach op bos).1.vms (device.vmOf osContext tile) bo = true := by
  intro bo member
  apply (forEach_done (Steady device s)
    (fun bo s => bo ∈ bos → s.vms (device.vmOf osContext tile) bo = true) _ _ steady
    succeeded).2.1 bo member member
  · intro s' steady bo member succeeded
    have making := each s' steady.guarded steady.synced bo member
    exact ⟨steady.making making, fun _ => done s' steady bo member succeeded⟩
  · intro s' steady bo member succeeded other before otherMember
    have making := each s' steady.guarded steady.synced bo member
    rcases making.moves.lost _ _ (before otherMember) with bound | lost
    · exact bound
    · -- only a buffer object that is alone may be lost, and that one was just bound
      rcases spared other otherMember with spared | only
      · exact absurd (steady.mayLose _ _ lost) spared
      · rw [only bo member]
        exact done s' steady bo member succeeded

/-- Fragments are made resident in contexts of one tile only. -/
def Device.OneTile (device : Device) (osContext : OsContext) (tile a : Nat) : Prop :=
  (device.allocations a).fragments ≠ [] → ∀ other ∈ osContext.deviceBitfield, other = tile

theorem makeBOsResident_making (oneTile : device.OneTile osContext tile a)
    (member : osContext ∈ device.engines) (guarded : s.Guarded device)
    (synced : s.Synced device) :
    Making device osContext tile a s
      (s.makeBOsResident (fun s => s.bind device osContext tile) osContext tile
        (device.allocations a)).1 := by
  unfold State.makeBOsResident
  by_cases whole : (device.allocations a).fragments = []
  · rw [if_pos whole]
    apply forEach_making _ guarded synced
    intro s guarded _ bo selected
    rw [← selectedBOs_whole whole] at selected
    exact bind_making osContext guarded selected
  · rw [if_neg whole]
    apply forEach_making _ guarded synced
    intro s guarded synced bo fragment
    exact fragment_making guarded member (oneTile whole) fragment synced

theorem makeBOsResident_bound (oneTile : device.OneTile osContext tile a)
    (member : osContext ∈ device.engines) (inside : tile ∈ osContext.deviceBitfield)
    (steady : Steady device s s)
    (spared : ∀ bo ∈ (device.allocations a).selectedBOs tile,
      ¬s.MayLose device (device.vmOf osContext tile) bo ∨
        ∀ other ∈ (device.allocations a).selectedBOs tile, bo = other)
    (succeeded : (s.makeBOsResident (fun s => s.bind device osContext tile) osContext tile
      (device.allocations a)).2 = true) :
    (s.makeBOsResident (fun s => s.bind device osContext tile) osContext tile
      (device.allocations a)).1.Bound device osContext tile a := by
  unfold State.makeBOsResident at succeeded ⊢
  unfold State.Bound
  by_cases whole : (device.allocations a).fragments = []
  · rw [if_pos whole] at succeeded ⊢
    rw [selectedBOs_whole whole] at spared ⊢
    refine forEach_bound a ?_ ?_ spared steady succeeded
    · intro s guarded _ bo selected
      rw [← selectedBOs_whole whole] at selected
      exact bind_making osContext guarded selected
    · intro s' steady bo _ succeeded
      exact (bind_binding steady.guarded osContext tile bo).2 steady.synced succeeded
  · have fragments : (device.allocations a).selectedBOs tile = (device.allocations a).fragments :=
      by rw [DrmAllocation.selectedBOs, if_neg whole]
    rw [if_neg whole] at succeeded ⊢
    rw [fragments] at spared ⊢
    refine forEach_bound a ?_ ?_ spared steady succeeded
    · intro s guarded synced bo fragment
      exact fragment_making guarded member (oneTile whole) fragment synced
    · intro s' steady bo fragment succeeded
      exact fragment_done steady.guarded member inside fragment steady.synced steady.flags succeeded

end ComputeRuntime.DrmResidency
