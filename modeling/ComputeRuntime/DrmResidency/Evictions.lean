import ComputeRuntime.DrmResidency.Bindings

/-! Unbinding: an eviction unbinds the whole allocation from its tiles, and evicting what is not
in use takes nothing from an allocation that a context of the tile needs. -/
namespace ComputeRuntime.DrmResidency

variable {device : Device} {s s' s'' : State} {may may' : Vm → Nat → Prop}

/-- A step only takes bindings of `may` away. -/
structure Evicting (device : Device) (may : Vm → Nat → Prop) (s s' : State) : Prop where
  moves : Moves device may (fun _ _ => False) s s'
  needs : ∀ engine a, s'.Needs engine a ↔ s.Needs engine a
  sysMemAllocs : s'.sysMemAllocs = s.sysMemAllocs
  localMemAllocs : s'.localMemAllocs = s.localMemAllocs
  resident : s'.resident = s.resident

theorem Evicting.refl : Evicting device may s s where
  moves := .refl
  needs := fun _ _ => .rfl
  sysMemAllocs := rfl
  localMemAllocs := rfl
  resident := rfl

theorem Evicting.trans (first : Evicting device may s s') (second : Evicting device may s' s'') :
    Evicting device may s s'' where
  moves := first.moves.trans second.moves
  needs engine a := (second.needs engine a).trans (first.needs engine a)
  sysMemAllocs := second.sysMemAllocs.trans first.sysMemAllocs
  localMemAllocs := second.localMemAllocs.trans first.localMemAllocs
  resident := second.resident.trans first.resident

theorem Evicting.weaken (evicting : Evicting device may s s')
    (lost : ∀ v bo, may v bo → may' v bo) : Evicting device may' s s' :=
  { evicting with moves := evicting.moves.weaken lost fun _ _ => id }

theorem Evicting.keeps (evicting : Evicting device may s s') : Keeps s s' where
  needs engine a := (evicting.needs engine a).mpr
  sysMemAllocs := evicting.sysMemAllocs
  localMemAllocs := evicting.localMemAllocs

theorem Evicting.foldl {ι : Type} {f : State → ι → State} {l : List ι}
    (each : ∀ s', Evicting device may s s' → ∀ x ∈ l, Evicting device may s' (f s' x))
    (before : Evicting device may s s') : Evicting device may s (l.foldl f s') := by
  induction l generalizing s' with
  | nil => exact before
  | cons x l ih =>
    apply ih
    · exact fun t ran y member => each t ran y (.tail _ member)
    · exact before.trans (each s' before x List.mem_cons_self)

/-! ### `BufferObject::unbind` -/

theorem unbind_evicting (osContext : OsContext) (tile bo : Nat) :
    Evicting device (fun v b => v = device.vmOf osContext tile ∧ b = bo) s
      (s.unbind device osContext tile bo).1 := by
  unfold State.unbind
  by_cases bound : s.isBound device osContext tile bo
  · rw [if_pos bound]
    have keeps := changeBufferObjectBinding_keeps device s osContext tile bo false
    rcases ran : s.changeBufferObjectBinding device osContext tile bo false with ⟨after, _ | _⟩
    · obtain ⟨_, rfl⟩ := changeBufferObjectBinding_failed ran
      exact ⟨failed_moves ran, fun _ _ => .rfl, rfl, rfl, rfl⟩
    · refine ⟨?_, ?_, ?_, ?_, ?_⟩
      · apply (succeeded_moves ran).1.weaken
        · exact fun _ _ lost => lost.2
        · exact fun _ _ gained => absurd gained.1 (by decide)
      all_goals rw [changeBufferObjectBinding_succeeded ran]
      · exact fun _ _ => .rfl
      all_goals rfl
  · rw [if_neg bound]
    exact .refl

theorem unbind_done {osContext : OsContext} {tile bo : Nat} (synced : s.Synced device)
    (succeeded : (s.unbind device osContext tile bo).2 = true) :
    (s.unbind device osContext tile bo).1.vms (device.vmOf osContext tile) bo = false := by
  unfold State.unbind at succeeded ⊢
  by_cases bound : s.isBound device osContext tile bo
  · rw [if_pos bound] at succeeded ⊢
    rcases ran : s.changeBufferObjectBinding device osContext tile bo false with ⟨after, _ | _⟩
    · simp [ran] at succeeded
    · exact (succeeded_moves ran).2
  · rw [if_neg bound]
    rw [synced] at bound
    exact Bool.eq_false_iff.mpr bound

/-! ### Evicting one allocation -/

/-- The bindings of an allocation in one tile of a context. -/
def Device.BindingOf (device : Device) (osContext : OsContext) (tile a : Nat) (v : Vm)
    (bo : Nat) : Prop :=
  v = device.vmOf osContext tile ∧ bo ∈ (device.allocations a).selectedBOs tile

theorem selectedBOs_whole {allocation : DrmAllocation} (whole : allocation.fragments = [])
    (tile : Nat) : allocation.selectedBOs tile = allocation.bindBOs tile := by
  rw [DrmAllocation.selectedBOs, if_pos whole]

theorem unbindTile_evicting (s : State) (osContext : OsContext) (tile : Nat) {a : Nat}
    (whole : (device.allocations a).fragments = []) :
    Evicting device (device.BindingOf osContext tile a) s
      (s.makeBOsResident (fun s => s.unbind device osContext tile) osContext tile
        (device.allocations a)).1 := by
  rw [State.makeBOsResident, if_pos whole]
  apply forEach_related (Evicting device (device.BindingOf osContext tile a))
    (fun _ => Evicting.refl) (fun _ _ _ => Evicting.trans)
  intro s bo selected
  apply (unbind_evicting osContext tile bo).weaken
  rintro v b ⟨rfl, rfl⟩
  exact ⟨rfl, by rw [selectedBOs_whole whole]; exact selected⟩

theorem unbindTile_done (osContext : OsContext) (tile : Nat) {a : Nat}
    (whole : (device.allocations a).fragments = []) (synced : s.Synced device)
    (succeeded : (s.makeBOsResident (fun s => s.unbind device osContext tile) osContext tile
      (device.allocations a)).2 = true) :
    ∀ bo ∈ (device.allocations a).selectedBOs tile,
      (s.makeBOsResident (fun s => s.unbind device osContext tile) osContext tile
        (device.allocations a)).1.vms (device.vmOf osContext tile) bo = false := by
  rw [State.makeBOsResident, if_pos whole] at succeeded ⊢
  rw [selectedBOs_whole whole]
  -- later calls bind nothing, so that what is unbound stays so
  apply (forEach_done (State.Synced device)
    (fun bo s => s.vms (device.vmOf osContext tile) bo = false) _ _ synced succeeded).2.1
  · intro s synced bo _ succeeded
    exact ⟨(unbind_evicting osContext tile bo).moves.synced synced, unbind_done synced succeeded⟩
  · intro s _ bo _ _ other unbound
    apply Bool.eq_false_iff.mpr
    intro bound
    rcases (unbind_evicting osContext tile bo).moves.gained _ _ bound with bound | gained
    · exact absurd unbound (by simp [bound])
    · exact gained

theorem unbindTiles_evicting (s : State) (osContext : OsContext) {a : Nat} (tiles : List Nat)
    (whole : (device.allocations a).fragments = []) :
    Evicting device (fun v bo => ∃ tile ∈ tiles, device.BindingOf osContext tile a v bo) s
      (s.unbindTiles device osContext a tiles).1 := by
  induction tiles generalizing s with
  | nil => exact .refl
  | cons tile tiles ih =>
    have first := unbindTile_evicting s osContext tile whole
    rw [State.unbindTiles]
    rcases ran : s.makeBOsResident (fun s => s.unbind device osContext tile) osContext tile
      (device.allocations a) with ⟨after, _ | _⟩
    · rw [ran] at first
      exact first.weaken fun v bo lost => ⟨tile, List.mem_cons_self, lost⟩
    · rw [ran] at first
      apply Evicting.trans (first.weaken fun v bo lost => ⟨tile, List.mem_cons_self, lost⟩)
      exact (ih after).weaken fun v bo ⟨other, member, lost⟩ => ⟨other, .tail _ member, lost⟩

theorem unbindTiles_done (osContext : OsContext) {a : Nat} (tiles : List Nat)
    (whole : (device.allocations a).fragments = []) (synced : s.Synced device)
    (succeeded : (s.unbindTiles device osContext a tiles).2 = true) :
    ∀ tile ∈ tiles, ∀ bo ∈ (device.allocations a).selectedBOs tile,
      (s.unbindTiles device osContext a tiles).1.vms (device.vmOf osContext tile) bo = false := by
  induction tiles generalizing s with
  | nil => exact fun _ member => absurd member List.not_mem_nil
  | cons tile tiles ih =>
    have first := unbindTile_evicting s osContext tile whole
    have done := unbindTile_done osContext tile whole synced
    rw [State.unbindTiles] at succeeded ⊢
    rcases ran : s.makeBOsResident (fun s => s.unbind device osContext tile) osContext tile
      (device.allocations a) with ⟨after, _ | _⟩
    · simp [ran] at succeeded
    · simp only [ran] at succeeded first done ⊢
      have rest := unbindTiles_evicting after osContext tiles whole
      intro other member bo selected
      rcases List.mem_cons.mp member with rfl | member
      · apply Bool.eq_false_iff.mpr
        intro bound
        rcases rest.moves.gained _ _ bound with bound | gained
        · exact absurd (done trivial bo selected) (by simp [bound])
        · exact gained
      · exact ih (first.moves.synced synced) succeeded other member bo selected

/-- Losing a residency that is not the lasting one changes no need. -/
theorem updateResidencyTaskCount_needs {a contextId : Nat}
    (temporary : s.isAlwaysResident a contextId = false) (engine : OsContext) (b : Nat) :
    (s.updateResidencyTaskCount a contextId objectNotResident).Needs engine b ↔
      s.Needs engine b := by
  have differ : objectNotResident ≠ objectAlwaysResident := by decide
  unfold State.updateResidencyTaskCount
  rw [if_pos (.inr rfl)]
  unfold State.Needs State.isAlwaysResident
  by_cases same : b = a ∧ engine.contextId = contextId
  · obtain ⟨rfl, rfl⟩ := same
    unfold State.isAlwaysResident at temporary
    simp only [decide_eq_false_iff_not] at temporary
    simp [differ, temporary, State.isUsedByOsContext]
  · simp [same, State.isUsedByOsContext]

theorem updateResidencyTaskCount_moves {new : Vm → Nat → Prop} {a contextId taskCount : Nat} :
    Moves device may new s (s.updateResidencyTaskCount a contextId taskCount) := by
  unfold State.updateResidencyTaskCount
  split
  · exact .of_eq rfl rfl rfl
  · exact .refl

theorem updateResidencyTaskCount_fields (s : State) (a contextId taskCount : Nat) :
    (s.updateResidencyTaskCount a contextId taskCount).vms = s.vms ∧
      (s.updateResidencyTaskCount a contextId taskCount).resident = s.resident ∧
      (s.updateResidencyTaskCount a contextId taskCount).sysMemAllocs = s.sysMemAllocs ∧
      (s.updateResidencyTaskCount a contextId taskCount).localMemAllocs = s.localMemAllocs := by
  unfold State.updateResidencyTaskCount
  split
  · exact ⟨rfl, rfl, rfl, rfl⟩
  · exact ⟨rfl, rfl, rfl, rfl⟩

theorem evictImpl_moves (s : State) (osContext : OsContext) {a : Nat} (tiles : List Nat)
    (whole : (device.allocations a).fragments = []) :
    Moves device (fun v bo => ∃ tile ∈ tiles, device.BindingOf osContext tile a v bo)
        (fun _ _ => False) s (s.evictImpl device osContext a tiles).1 ∧
      (s.evictImpl device osContext a tiles).1.resident = s.resident := by
  have evicting := unbindTiles_evicting s osContext tiles whole
  unfold State.evictImpl
  rcases ran : s.unbindTiles device osContext a tiles with ⟨after, _ | _⟩
  · rw [ran] at evicting
    exact ⟨evicting.moves, evicting.resident⟩
  · rw [ran] at evicting
    constructor
    · exact evicting.moves.trans updateResidencyTaskCount_moves
    · exact (updateResidencyTaskCount_fields after a _ _).2.1.trans evicting.resident

theorem evictImpl_evicting {osContext : OsContext} {a : Nat} (tiles : List Nat)
    (whole : (device.allocations a).fragments = []) (free : ¬s.Needs osContext a) :
    Evicting device (fun v bo => ∃ tile ∈ tiles, device.BindingOf osContext tile a v bo) s
      (s.evictImpl device osContext a tiles).1 := by
  have evicting := unbindTiles_evicting s osContext tiles whole
  unfold State.evictImpl
  rcases ran : s.unbindTiles device osContext a tiles with ⟨after, _ | _⟩
  · rw [ran] at evicting
    exact evicting
  · rw [ran] at evicting
    have temporary : after.isAlwaysResident a osContext.contextId = false := by
      apply Bool.eq_false_iff.mpr
      intro always
      exact free ((evicting.needs osContext a).mp (.inl always))
    have fields := updateResidencyTaskCount_fields after a osContext.contextId objectNotResident
    apply evicting.trans
    exact ⟨updateResidencyTaskCount_moves, updateResidencyTaskCount_needs temporary,
      fields.2.2.1, fields.2.2.2, fields.2.1⟩

/-- An eviction that succeeds leaves no binding of the allocation in the context's tiles. -/
theorem evictWithinOsContext_done (osContext : OsContext) {a : Nat}
    (whole : (device.allocations a).fragments = []) (synced : s.Synced device)
    (succeeded : (s.evictWithinOsContext device osContext a).2 = .success) :
    ∀ tile ∈ osContext.deviceBitfield, ∀ bo ∈ (device.allocations a).selectedBOs tile,
      (s.evictWithinOsContext device osContext a).1.vms (device.vmOf osContext tile) bo = false := by
  have done := unbindTiles_done osContext osContext.deviceBitfield whole synced
  unfold State.evictWithinOsContext State.evictImpl at succeeded ⊢
  rcases ran : s.unbindTiles device osContext a osContext.deviceBitfield with ⟨after, _ | _⟩
  · simp [ran] at succeeded
  · simp only [ran] at done ⊢
    rw [(updateResidencyTaskCount_fields after a _ _).1]
    exact done trivial

theorem evictWithinOsContext_moves (s : State) (osContext : OsContext) {a : Nat}
    (whole : (device.allocations a).fragments = []) :
    Moves device (fun _ _ => True) (fun _ _ => False) s
        (s.evictWithinOsContext device osContext a).1 ∧
      (s.evictWithinOsContext device osContext a).1.resident = s.resident ∧
      ∀ v bo, (s.evictWithinOsContext device osContext a).1.vms v bo = true ∨
        s.vms v bo = false ∨ ∃ tile ∈ osContext.deviceBitfield,
          device.BindingOf osContext tile a v bo := by
  have moves := evictImpl_moves s osContext osContext.deviceBitfield whole
  unfold State.evictWithinOsContext
  rcases ran : s.evictImpl device osContext a osContext.deviceBitfield with ⟨after, _ | _⟩
  all_goals
    simp only [ran] at moves ⊢
    refine ⟨moves.1.weaken (fun _ _ _ => trivial) (fun _ _ => id), moves.2, ?_⟩
    intro v bo
    cases bound : s.vms v bo with
    | false => exact .inr (.inl rfl)
    | true => exact (moves.1.lost v bo bound).imp_right .inr

end ComputeRuntime.DrmResidency
