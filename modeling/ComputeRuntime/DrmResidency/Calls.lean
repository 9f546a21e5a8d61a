import ComputeRuntime.DrmResidency.Residency

/-! A whole call of `makeResidentWithinOsContext`: its visits of one allocation on one tile after
the other, and what it needs to leave every one of them bound. -/
namespace ComputeRuntime.DrmResidency

variable {device : Device} {s s' start : State} {osContext : OsContext} {evictable : Bool}
  {gfxAllocations : List Nat} {tile a : Nat}

/-- The visits of a call, in the order of its loops. -/
def visits (osContext : OsContext) (gfxAllocations : List Nat) : List (Nat × Nat) :=
  osContext.deviceBitfield.flatMap fun drmIterator => gfxAllocations.map fun a => (drmIterator, a)

theorem mem_visits :
    (tile, a) ∈ visits osContext gfxAllocations ↔
      tile ∈ osContext.deviceBitfield ∧ a ∈ gfxAllocations := by
  simp [visits]

/-- An eviction in the call does not hurt the allocation: some context of each tile needs it, or
it has one buffer object a tile and nothing is evicted once it is bound. -/
def Spared (device : Device) (s : State) (osContext : OsContext) (gfxAllocations : List Nat)
    (evictable : Bool) (a : Nat) : Prop :=
  (∀ tile ∈ osContext.deviceBitfield, ¬s.Candidate device tile a) ∨
    (∀ tile ∈ osContext.deviceBitfield, ∀ bo ∈ (device.allocations a).selectedBOs tile,
      (device.allocations a).testedBO tile = some bo) ∧
        (evictable = false ∨ (visits osContext gfxAllocations).length ≤ 1)

/-- The buffer object that is looked at is a fragment, and bound. -/
def State.FragmentBound (device : Device) (s : State) (osContext : OsContext) (tile a : Nat) :
    Prop :=
  ∃ bo ∈ (device.allocations a).fragments, (device.allocations a).testedBO tile = some bo ∧
    s.isBound device osContext tile bo = true

/-- What a call needs to bind all it is asked to. -/
structure Bindable (device : Device) (s : State) (osContext : OsContext)
    (gfxAllocations : List Nat) (evictable : Bool) : Prop where
  /-- The buffer object that is looked at speaks for the others. -/
  tested : ∀ tile ∈ osContext.deviceBitfield, ∀ a ∈ gfxAllocations,
    s.isTestedBound device osContext tile a = true →
      ∀ bo ∈ (device.allocations a).selectedBOs tile, s.isBound device osContext tile bo = true
  apart : ∀ tile ∈ osContext.deviceBitfield, ∀ a ∈ gfxAllocations, ∀ b ∈ gfxAllocations,
    ∀ bo ∈ (device.allocations b).selectedBOs tile, (device.allocations a).testedBO tile = some bo →
      ∀ other ∈ (device.allocations a).selectedBOs tile,
        other ∈ (device.allocations b).selectedBOs tile
  fragments : ∀ a ∈ gfxAllocations, (device.allocations a).fragments ≠ [] →
    osContext.deviceBitfield.length ≤ 1 ∨
      ∀ tile ∈ osContext.deviceBitfield, s.FragmentBound device osContext tile a
  spared : false ∈ s.results → s.WholeCandidates device ∧ s.SparesNeeded device ∧
    s.SparesOthers device gfxAllocations ∧
      ∀ a ∈ gfxAllocations, Spared device s osContext gfxAllocations evictable a

/-- What holds in a call that began in `start` and after it, failed or not. -/
structure Settled (device : Device) (start s : State) : Prop where
  synced : s.Synced device
  flags : s.FlagsSound device
  lost : ∀ v bo, start.vms v bo = true → s.vms v bo = true ∨ start.MayLose device v bo

/-- How far a call is that began in `start`: which visits it has behind it and before it. -/
structure Visiting (device : Device) (start : State) (osContext : OsContext)
    (gfxAllocations : List Nat) (past rest : List (Nat × Nat)) (s : State) : Prop
    extends Settled device start s where
  split : past ++ rest = visits osContext gfxAllocations
  keeps : Keeps start s
  results : ∀ result ∈ s.results, result ∈ start.results
  past : ∀ tile a, (tile, a) ∈ past → s.Bound device osContext tile a ∧
    (rest ≠ [] → false ∈ s.results → ∀ t ∈ osContext.deviceBitfield, ¬s.Candidate device t a)
  tested : ∀ tile a, (tile, a) ∈ rest → s.isTestedBound device osContext tile a = true →
    s.Bound device osContext tile a
  fragments : ∀ tile a, (tile, a) ∈ rest →
    device.OneTile osContext tile a ∨ s.FragmentBound device osContext tile a

theorem isTestedBound_iff : s.isTestedBound device osContext tile a = true ↔
    ∃ bo, (device.allocations a).testedBO tile = some bo ∧
      s.isBound device osContext tile bo = true :=
  Option.any_eq_true _ _

theorem State.FragmentBound.tested (bound : s.FragmentBound device osContext tile a) :
    s.isTestedBound device osContext tile a = true := by
  obtain ⟨bo, _, looked, bound⟩ := bound
  exact isTestedBound_iff.mpr ⟨bo, looked, bound⟩

theorem Visiting.guarded {past rest : List (Nat × Nat)}
    (bindable : Bindable device start osContext gfxAllocations evictable)
    (visiting : Visiting device start osContext gfxAllocations past rest s) :
    s.Guarded device :=
  fun failure => (bindable.spared (visiting.results _ failure)).1.of_keeps visiting.keeps

theorem Visiting.mayLose {past rest : List (Nat × Nat)}
    (visiting : Visiting device start osContext gfxAllocations past rest s) {v : Vm} {bo : Nat}
    (lost : s.MayLose device v bo) : start.MayLose device v bo :=
  ⟨visiting.results _ lost.1, lost.2.of_keeps visiting.keeps⟩

theorem Settled.making {start : State} (settled : Settled device start s)
    (mayLose : ∀ v bo, s.MayLose device v bo → start.MayLose device v bo)
    (making : Making device osContext tile a s s') : Settled device start s' where
  synced := making.moves.synced settled.synced
  flags := making.flags settled.flags
  lost v bo bound := by
    rcases settled.lost v bo bound with bound | lost
    · exact (making.moves.lost v bo bound).imp_right (mayLose v bo)
    · exact .inr lost

/-- The call at its first visit. -/
theorem visiting_start (bindable : Bindable device start osContext gfxAllocations evictable)
    (synced : start.Synced device) (flags : start.FlagsSound device) :
    Visiting device start osContext gfxAllocations [] (visits osContext gfxAllocations) start where
  split := rfl
  synced := synced
  flags := flags
  lost := fun _ _ => .inl
  keeps := .refl
  results := fun _ => id
  past := fun _ _ member => absurd member List.not_mem_nil
  tested := by
    intro tile a visit tested bo selected
    obtain ⟨inside, member⟩ := mem_visits.mp visit
    rw [← synced]
    exact bindable.tested tile inside a member tested bo selected
  fragments := by
    intro tile a visit
    obtain ⟨inside, member⟩ := mem_visits.mp visit
    by_cases whole : (device.allocations a).fragments = []
    · exact .inl fun nonempty => absurd whole nonempty
    · rcases bindable.fragments a member whole with single | tested
      · refine .inl fun _ other otherInside => ?_
        exact List.mem_singleton.mp (by
          obtain ⟨only, same⟩ := List.length_eq_one_iff.mp
            (Nat.le_antisymm single (List.length_pos_of_mem inside))
          rw [same] at inside otherInside
          rw [List.mem_singleton.mp inside]
          exact otherInside)
      · exact .inr (tested tile inside)

/-- What the loop of one visit does to the buffer objects. -/
theorem visit_making {past rest : List (Nat × Nat)} (member : osContext ∈ device.engines)
    (bindable : Bindable device start osContext gfxAllocations evictable)
    (visiting : Visiting device start osContext gfxAllocations past ((tile, a) :: rest) s)
    (untested : s.isTestedBound device osContext tile a = false) :
    Making device osContext tile a s
        (s.makeBOsResident (fun s => s.bind device osContext tile) osContext tile
          (device.allocations a)).1 ∧
      ((s.makeBOsResident (fun s => s.bind device osContext tile) osContext tile
          (device.allocations a)).2 = true →
        (s.makeBOsResident (fun s => s.bind device osContext tile) osContext tile
          (device.allocations a)).1.Bound device osContext tile a) := by
  have guarded := visiting.guarded bindable
  have oneTile : device.OneTile osContext tile a := by
    rcases visiting.fragments tile a List.mem_cons_self with oneTile | tested
    · exact oneTile
    · exact absurd tested.tested (by simp [untested])
  obtain ⟨inside, asked⟩ : tile ∈ osContext.deviceBitfield ∧ a ∈ gfxAllocations := by
    rw [← mem_visits, ← visiting.split]
    simp
  constructor
  · exact makeBOsResident_making oneTile member guarded visiting.synced
  · intro succeeded
    apply makeBOsResident_bound oneTile member inside
      ⟨guarded, visiting.synced, visiting.flags, fun _ _ => id⟩ _ succeeded
    intro bo selected
    by_cases failure : false ∈ s.results
    · obtain ⟨_, _, others, spared⟩ := bindable.spared (visiting.results _ failure)
      rcases spared a asked with needed | only
      · left
        intro lost
        apply not_evictable (others.of_keeps visiting.keeps) asked _ selected lost.2
        exact fun candidate => needed tile inside (candidate.of_keeps visiting.keeps)
      · right
        intro other otherSelected
        have same := only.1 tile inside bo selected
        rw [only.1 tile inside other otherSelected, Option.some.injEq] at same
        exact same.symm
    · exact .inl fun lost => failure lost.1

theorem updateResidencyTaskCount_always (s : State) (a contextId : Nat) :
    (s.updateResidencyTaskCount a contextId objectAlwaysResident).isAlwaysResident a contextId =
      true := by
  unfold State.updateResidencyTaskCount State.isAlwaysResident
  split
  · simp
  · rename_i lasting
    have already := not_not.mp (not_or.mp lasting).1
    simp [already]

theorem updateResidencyTaskCount_always_keeps (s : State) (a contextId : Nat) :
    Keeps s (s.updateResidencyTaskCount a contextId objectAlwaysResident) := by
  have fields := updateResidencyTaskCount_fields s a contextId objectAlwaysResident
  refine ⟨?_, fields.2.2.1, fields.2.2.2⟩
  intro engine b needs
  unfold State.updateResidencyTaskCount
  split
  · rcases needs with always | needs
    · left
      simp only [State.isAlwaysResident, decide_eq_true_eq] at always ⊢
      split
      · rfl
      · exact always
    · exact .inr needs
  · exact needs

/-- A visit in the state after its loop, before the next one. -/
theorem Visiting.next {past rest : List (Nat × Nat)}
    (bindable : Bindable device start osContext gfxAllocations evictable)
    (visiting : Visiting device start osContext gfxAllocations past ((tile, a) :: rest) s)
    (making : Making device osContext tile a s s') (bound : s'.Bound device osContext tile a)
    (needed : evictable = false → ∀ t ∈ osContext.deviceBitfield, ¬s'.Candidate device t a) :
    Visiting device start osContext gfxAllocations (past ++ [(tile, a)]) rest s' := by
  have guarded := visiting.guarded bindable
  have settled := visiting.toSettled.making (fun _ _ => visiting.mayLose) making
  have synced := settled.synced
  have others : false ∈ s.results → s.SparesOthers device gfxAllocations := fun failure =>
    (bindable.spared (visiting.results _ failure)).2.2.1.of_keeps visiting.keeps
  have asked : ∀ t b, (t, b) ∈ (tile, a) :: rest →
      t ∈ osContext.deviceBitfield ∧ b ∈ gfxAllocations := by
    intro t b visit
    rw [← mem_visits, ← visiting.split]
    exact List.mem_append_right _ visit
  obtain ⟨inside, member⟩ := asked tile a List.mem_cons_self
  refine ⟨settled, ?_, visiting.keeps.trans making.keeps, ?_, ?_, ?_, ?_⟩
  · rw [← visiting.split]
    simp
  · exact fun result found => visiting.results result (making.moves.results result found)
  · intro t b visit
    rcases List.mem_append.mp visit with visit | visit
    · obtain ⟨before, free⟩ := visiting.past t b visit
      have free := free (List.cons_ne_nil _ _)
      constructor
      · intro bo selected
        rcases making.moves.lost _ _ (before bo selected) with kept | lost
        · exact kept
        · obtain ⟨tInside, bMember⟩ : t ∈ osContext.deviceBitfield ∧ b ∈ gfxAllocations := by
            rw [← mem_visits, ← visiting.split]
            exact List.mem_append_left _ visit
          exact absurd lost.2
            (not_evictable (others lost.1) bMember (free lost.1 t tInside) selected)
      · intro _ failure other otherInside candidate
        exact free (making.moves.results _ failure) other otherInside
          (candidate.of_keeps making.keeps)
    · cases List.mem_singleton.mp visit
      refine ⟨bound, fun more failure other otherInside candidate => ?_⟩
      -- the allocation is needed from the start, or from now on, or nothing follows
      have before := making.moves.results _ failure
      rcases (bindable.spared (visiting.results _ before)).2.2.2 a member with spared | only
      · exact spared other otherInside
          ((candidate.of_keeps making.keeps).of_keeps visiting.keeps)
      · rcases only.2 with lasting | single
        · exact needed lasting other otherInside candidate
        · rw [← visiting.split] at single
          simp only [List.length_append, List.length_cons] at single
          exact more (List.length_eq_zero_iff.mp (by omega))
  · intro t b visit tested
    obtain ⟨tInside, bMember⟩ := asked t b (.tail _ visit)
    obtain ⟨x, looked, xBound⟩ := isTestedBound_iff.mp tested
    rw [synced] at xBound
    rcases making.moves.gained _ _ xBound with old | ⟨same, selected⟩
    · have before : s.Bound device osContext t b := by
        apply visiting.tested t b (.tail _ visit)
        rw [isTestedBound_iff]
        exact ⟨x, looked, by rw [visiting.synced]; exact old⟩
      intro bo selected
      rcases making.moves.lost _ _ (before bo selected) with kept | lost
      · exact kept
      · rcases (bindable.spared (visiting.results _ lost.1)).2.2.2 b bMember with spared | only
        · refine absurd lost.2 (not_evictable (others lost.1) bMember ?_ selected)
          exact fun candidate => spared t tInside (candidate.of_keeps visiting.keeps)
        · have same := only.1 t tInside bo selected
          rw [looked, Option.some.injEq] at same
          rw [← same]
          exact xBound
    · -- what was looked at is bound only now: the allocations share it, and with it all the rest
      obtain ⟨_, rfl⟩ := (device.vmOf_eq_iff osContext osContext t tile).mp same
      intro bo boSelected
      exact bound bo (bindable.apart t tInside b bMember a member x selected looked bo boSelected)
  · intro t b visit
    rcases visiting.fragments t b (.tail _ visit) with oneTile | tested
    · exact .inl oneTile
    · right
      obtain ⟨x, fragment, looked, xBound⟩ := tested
      rw [visiting.synced] at xBound
      refine ⟨x, fragment, looked, ?_⟩
      rw [synced]
      rcases making.moves.lost _ _ xBound with kept | lost
      · exact kept
      · exact absurd lost (not_mayLose_fragment guarded fragment _)

/-- One visit, failed or not. -/
theorem makeResidentOnTile_visiting {past rest : List (Nat × Nat)}
    (member : osContext ∈ device.engines)
    (bindable : Bindable device start osContext gfxAllocations evictable)
    (visiting : Visiting device start osContext gfxAllocations past ((tile, a) :: rest) s)
    {done : Bool} (visited : s.makeResidentOnTile device osContext evictable tile a = (s', done)) :
    Settled device start s' ∧
      (done = true →
        Visiting device start osContext gfxAllocations (past ++ [(tile, a)]) rest s') := by
  -- the loop over the buffer objects, or nothing when the one looked at is bound
  obtain ⟨after, made, ran, making, bound⟩ : ∃ after made,
      (if s.isTestedBound device osContext tile a then (s, true)
        else s.makeBOsResident (fun s => s.bind device osContext tile) osContext tile
          (device.allocations a)) = (after, made) ∧
      Making device osContext tile a s after ∧
        (made = true → after.Bound device osContext tile a) := by
    by_cases tested : s.isTestedBound device osContext tile a
    · refine ⟨s, true, if_pos tested, .refl, fun _ => ?_⟩
      exact visiting.tested tile a List.mem_cons_self tested
    · obtain ⟨making, bound⟩ := visit_making member bindable visiting
        (Bool.eq_false_iff.mpr tested)
      exact ⟨_, _, if_neg tested, making, bound⟩
  unfold State.makeResidentOnTile at visited
  rw [ran] at visited
  cases made with
  | false =>
    obtain ⟨rfl, rfl⟩ := Prod.mk.inj visited
    exact ⟨visiting.toSettled.making (fun _ _ => visiting.mayLose) making, nofun⟩
  | true =>
    obtain ⟨rfl, rfl⟩ := Prod.mk.inj visited
    have bound := bound rfl
    cases evictable with
    | true =>
      have next := visiting.next bindable making bound nofun
      exact ⟨next.toSettled, fun _ => next⟩
    | false =>
      have fields := updateResidencyTaskCount_fields after a osContext.contextId
        objectAlwaysResident
      have lasting : Making device osContext tile a s
          (after.updateResidencyTaskCount a osContext.contextId objectAlwaysResident) := by
        apply making.trans
        refine ⟨updateResidencyTaskCount_moves, updateResidencyTaskCount_always_keeps _ _ _, ?_⟩
        intro sound
        unfold State.FlagsSound
        rw [fields.1, fields.2.1]
        exact sound
      have next := visiting.next bindable lasting
        (by
          unfold State.Bound
          rw [fields.1]
          exact bound)
        fun _ t inside candidate => candidate.2.2 osContext member inside
          (.inl (updateResidencyTaskCount_always after a osContext.contextId))
      exact ⟨next.toSettled, fun _ => next⟩

theorem makeResidentLoop_visiting {past rest : List (Nat × Nat)}
    (member : osContext ∈ device.engines)
    (bindable : Bindable device start osContext gfxAllocations evictable)
    (visiting : Visiting device start osContext gfxAllocations past rest s) :
    Settled device start (s.makeResidentLoop device osContext evictable rest).1 ∧
      ((s.makeResidentLoop device osContext evictable rest).2 = .success →
        ∀ tile a, (tile, a) ∈ visits osContext gfxAllocations →
          (s.makeResidentLoop device osContext evictable rest).1.Bound device osContext tile a) := by
  induction rest generalizing s past with
  | nil =>
    refine ⟨visiting.toSettled, fun _ tile a visit => ?_⟩
    rw [← visiting.split, List.append_nil] at visit
    exact (visiting.past tile a visit).1
  | cons visit rest ih =>
    obtain ⟨tile, a⟩ := visit
    rw [State.makeResidentLoop]
    rcases visited : s.makeResidentOnTile device osContext evictable tile a with ⟨after, _ | _⟩
    · exact ⟨(makeResidentOnTile_visiting member bindable visiting visited).1, nofun⟩
    · exact ih ((makeResidentOnTile_visiting member bindable visiting visited).2 rfl)

/-- A call that succeeds leaves all that it selects bound, and no call takes what it may not. -/
theorem makeResidentWithinOsContext_bound (member : osContext ∈ device.engines)
    (bindable : Bindable device s osContext gfxAllocations evictable)
    (synced : s.Synced device) (flags : s.FlagsSound device) :
    Settled device s
        (s.makeResidentWithinOsContext device osContext gfxAllocations evictable).1 ∧
      ((s.makeResidentWithinOsContext device osContext gfxAllocations evictable).2 = .success →
        ∀ tile ∈ osContext.deviceBitfield, ∀ a ∈ gfxAllocations,
          (s.makeResidentWithinOsContext device osContext gfxAllocations evictable).1.Bound device
            osContext tile a) := by
  have visited := makeResidentLoop_visiting member bindable
    (visiting_start bindable synced flags)
  refine ⟨visited.1, fun succeeded tile inside a asked => ?_⟩
  exact visited.2 succeeded tile a (mem_visits.mpr ⟨inside, asked⟩)

end ComputeRuntime.DrmResidency
