import ComputeRuntime.HostPtr.RefCounts
import ComputeRuntime.Library.Transition

/-! Reference counts of host pointer fragments over whole runs: any calls that prepare and release
storages, in any order and on any root devices. -/
namespace ComputeRuntime.HostPtr

open HostPtrManager Transition

/-- The uses of all live storages. -/
def usesOfAll (live : List PreparedStorage) : List Use :=
  live.flatMap fun prepared =>
    usesOf prepared.rootDeviceIndex prepared.storage.fragmentStorageData

def World.uses (w : World) : List Use := usesOfAll w.live

/-- The stored fragments. -/
abbrev World.fragments (w : World) : List Element := w.manager.partialAllocations.entries

theorem usesOfAll_erase {live : List PreparedStorage} {prepared : PreparedStorage}
    (member : prepared ∈ live) :
    (usesOfAll live).Perm (usesOf prepared.rootDeviceIndex prepared.storage.fragmentStorageData ++
      usesOfAll (live.erase prepared)) :=
  (List.perm_cons_erase member).flatMap_right _

section Runs

variable {w w' : World}

theorem release_spec (sound : Sound w.manager w.uses) {prepared : PreparedStorage}
    (ran : w.release prepared = some w') :
    w'.live = w.live.erase prepared ∧ Sound w'.manager w'.uses ∧ Narrows w'.manager w.manager := by
  unfold World.release at ran
  split at ran
  next member =>
    obtain ⟨m', data', released, sound', narrows, -⟩ :=
      releaseHandleStorage_spec (sound.perm (usesOfAll_erase member))
    obtain ⟨⟨m'', data''⟩, released', rest⟩ := Option.bind_eq_some_iff.mp ran
    cases rest
    rw [released] at released'
    cases released'
    exact ⟨rfl, sound', narrows⟩
  next => cases ran

theorem releaseAll_spec (sound : Sound w.manager w.uses) {released : List PreparedStorage}
    (ran : w.releaseAll released = some w') :
    w'.live = w.live.diff released ∧ Sound w'.manager w'.uses ∧
      Narrows w'.manager w.manager := by
  induction released generalizing w with
  | nil =>
    cases ran
    exact ⟨rfl, sound, .refl _⟩
  | cons prepared rest ih =>
    obtain ⟨w₁, first, second⟩ := Option.bind_eq_some_iff.mp ran
    obtain ⟨live, sound₁, narrows⟩ := release_spec sound first
    obtain ⟨live', sound', narrows'⟩ := ih sound₁ second
    rw [List.diff_cons, ← live]
    exact ⟨live', sound', narrows'.trans narrows⟩

theorem releaseAll_append (w : World) (first second : List PreparedStorage) :
    w.releaseAll (first ++ second) = (w.releaseAll first).bind fun w => w.releaseAll second := by
  induction first generalizing w with
  | nil => rfl
  | cons prepared rest ih =>
    rw [List.cons_append, World.releaseAll, World.releaseAll]
    cases w.release prepared with
    | none => rfl
    | some w => exact ih w

/-- The check changes the world by the releases of its clean-ups only. -/
def Cleaned (c c' : Cleaning) : Prop :=
  ∃ done, c.cleanings = done ++ c'.cleanings ∧ c.world.releaseAll done.flatten = some c'.world

theorem Cleaned.refl (c : Cleaning) : Cleaned c c := ⟨[], rfl, rfl⟩

theorem Cleaned.trans {c c' c'' : Cleaning} (first : Cleaned c c') (second : Cleaned c' c'') :
    Cleaned c c'' := by
  obtain ⟨done, split, ran⟩ := first
  obtain ⟨done', split', ran'⟩ := second
  refine ⟨done ++ done', by rw [split, split', List.append_assoc], ?_⟩
  rw [List.flatten_append, releaseAll_append, ran]
  exact ran'

theorem cleanTemporaryAllocationList_spec {c c' : Cleaning}
    (ran : c.cleanTemporaryAllocationListOnAllEngines = some c') : Cleaned c c' := by
  unfold Cleaning.cleanTemporaryAllocationListOnAllEngines at ran
  split at ran
  next => cases ran
  next released rest script =>
    obtain ⟨w, released', done⟩ := Option.bind_eq_some_iff.mp ran
    cases done
    exact ⟨[released], script, by simpa using released'⟩

theorem checkFragment_spec {c c' : Cleaning} {rootDeviceIndex : Nat}
    {fragment : PartialAllocation} {status : RequirementsStatus}
    (ran : c.checkFragment rootDeviceIndex fragment = some (c', status)) : Cleaned c c' := by
  unfold Cleaning.checkFragment at ran
  simp only at ran
  split at ran
  next =>
    obtain ⟨c₁, first, ran⟩ := Option.bind_eq_some_iff.mp ran
    have done := cleanTemporaryAllocationList_spec first
    split at ran
    next =>
      obtain ⟨c₂, second, ran⟩ := Option.bind_eq_some_iff.mp ran
      have done' := cleanTemporaryAllocationList_spec second
      split at ran <;> cases ran <;> exact done.trans done'
    next =>
      cases ran
      exact done
  next =>
    cases ran
    exact .refl c

theorem checkAllocationsForOverlapping_spec {c c' : Cleaning} {rootDeviceIndex : Nat}
    {fragments : List PartialAllocation} {status : RequirementsStatus}
    (ran : c.checkAllocationsForOverlapping rootDeviceIndex fragments = some (c', status)) :
    Cleaned c c' := by
  induction fragments generalizing c with
  | nil =>
    cases ran
    exact .refl _
  | cons fragment fragments ih =>
    obtain ⟨⟨c₁, status₁⟩, first, ran⟩ := Option.bind_eq_some_iff.mp ran
    have done := checkFragment_spec first
    cases status₁ with
    | fatal =>
      cases ran
      exact done
    | success => exact done.trans (ih ran)

end Runs

/-- The uses of the storages that the clean-ups of a call leave alive. -/
def World.keptUses (w : World) (p : Preparation) : List Use :=
  usesOfAll (w.live.diff p.cleanings.flatten)

/-- A stored fragment that stays in use during the call. -/
def World.StaysInUse (w : World) (p : Preparation) (f : Element) : Prop :=
  f ∈ w.fragments ∧ ∃ u ∈ w.keptUses p, u.Inside f

/-- The range of a call is memory of the process, no fragment that the call needs overlaps a stored
one in part, and a call that fails needs no stored fragment. -/
def Allowed (w : World) : Op → Prop
  | .prepare p =>
    p.InProcess ∧ (∀ f, w.StaysInUse p f → ∀ u ∈ p.uses, u.Apart f ∨ u.Inside f) ∧
      (p.populated = none → ∀ f, w.StaysInUse p f → ∀ u ∈ p.uses, ¬ u.Inside f)
  | .release _ => True

theorem uses_spec {p : Preparation} (inProcess : p.InProcess) :
    (∀ u ∈ p.uses, 0 < u.fragmentSize ∧ u.cpuPtr + u.fragmentSize < 2 ^ 64) ∧
      p.uses.Pairwise fun u v => v.Clear u := by
  obtain ⟨ranges, apart⟩ := requirements_spec inProcess
  constructor
  · intro u member
    obtain ⟨f, inside, rfl⟩ := List.mem_map.mp member
    exact ranges f inside
  · exact List.pairwise_map.mpr (apart.imp .inr)

section Prepare

variable {w w' : World} {p : Preparation}

/-- After the clean-ups, what is stored are the fragments that stay in use. -/
theorem staysInUse_of_cleaned (sound : Sound w.manager w.uses) {w₁ : World}
    (cleaned : w.releaseAll p.cleanings.flatten = some w₁) {f : Element}
    (member : f ∈ w₁.fragments) : ∃ g, w.StaysInUse p g ∧ SameSpan f g := by
  obtain ⟨live, sound₁, narrows⟩ := releaseAll_spec sound cleaned
  obtain ⟨g, inside, same⟩ := narrows f member
  refine ⟨g, ⟨inside, ?_⟩, same⟩
  have count := sound₁.counted f member
  have used := sound₁.used f member
  obtain ⟨u, use, within⟩ := List.countP_pos_iff.mp (show 0 < users w₁.uses f by omega)
  rw [World.keptUses, ← live]
  exact ⟨u, use, (same.inside u).mp (by simpa using within)⟩

/-- The call cleans up, takes references to stored fragments and, unless the OS handles cannot be
created, stores the other fragments. -/
theorem prepare_cases {storage : OsHandleStorage}
    (ran : w.prepareOsStorageForAllocation p = some (w', storage)) :
    ∃ w₁ m data, w.releaseAll p.cleanings.flatten = some w₁ ∧
      populateAlreadyAllocatedFragments p.rootDeviceIndex w₁.manager
        p.requirements.allocationFragments = some (m, data) ∧
      ((storage.fragmentCount = 0 ∧ w' = { w₁ with manager := m } ∧
          (p.requirements.allocationFragments = [] ∨ p.populated = none)) ∨
        ∃ newHandle, p.populated = some newHandle ∧ 0 < storage.fragmentCount ∧
          w' = { w₁ with
            manager := (populateOsHandles p.rootDeviceIndex newHandle m data).1 } ∧
          storage.fragmentStorageData =
            (populateOsHandles p.rootDeviceIndex newHandle m data).2) := by
  unfold World.prepareOsStorageForAllocation at ran
  obtain ⟨⟨c, status⟩, checked, ran⟩ := Option.bind_eq_some_iff.mp ran
  obtain ⟨done, split, cleaned⟩ := checkAllocationsForOverlapping_spec checked
  split at ran
  next => cases ran
  next w₁ same =>
    cases same
    rw [List.append_nil] at split
    obtain ⟨⟨m, data⟩, populated, ran⟩ := Option.bind_eq_some_iff.mp ran
    refine ⟨w₁, m, data, by rw [← cleaned]; exact congrArg _ (congrArg _ split), populated, ?_⟩
    simp only at ran
    split at ran
    next some =>
      split at ran
      next failed =>
        cases ran
        exact .inl ⟨rfl, rfl, .inr failed⟩
      next newHandle done =>
        cases ran
        exact .inr ⟨newHandle, done, some, rfl, rfl⟩
    next none =>
      cases ran
      have empty : p.requirements.allocationFragments = [] :=
        List.length_eq_zero_iff.mp (by simpa using none)
      exact .inl ⟨by simp [empty], rfl, .inl empty⟩
  next => cases ran

/-- A call that goes on as allowed keeps the counts, and one that fails has changed nothing but
what its clean-ups released. -/
theorem prepare_spec (sound : Sound w.manager w.uses) (allowed : Allowed w (.prepare p))
    (ran : w.run (.prepare p) = some w') :
    Sound w'.manager w'.uses ∧
      (p.populated = none → w.releaseAll p.cleanings.flatten = some w') := by
  obtain ⟨⟨w₂, storage⟩, prepared, ran⟩ := Option.bind_eq_some_iff.mp ran
  obtain ⟨w₁, m, data, cleaned, first, outcome⟩ := prepare_cases prepared
  obtain ⟨live, sound₁, narrows⟩ := releaseAll_spec sound cleaned
  obtain ⟨ranges, clear⟩ := uses_spec allowed.1
  obtain ⟨whole, narrows', counts, none, some⟩ :=
    populateAlreadyAllocatedFragments_spec sound₁ (requirements_spec allowed.1).1 first
  have use : ∀ d ∈ data, useOf p.rootDeviceIndex d ∈ p.uses := by
    intro d member
    have inside : useOf p.rootDeviceIndex d ∈ usesOf p.rootDeviceIndex data :=
      List.mem_map_of_mem member
    rwa [whole] at inside
  rcases outcome with ⟨zero, rfl, failed⟩ | ⟨newHandle, populated, positive, rfl, stored⟩
  · -- nothing is kept, so that no reference may have been taken
    have unused : reused data = [] := by
      apply List.eq_nil_iff_forall_not_mem.mpr
      intro d member
      have member' := List.mem_of_mem_filter member
      rcases failed with empty | failed
      · have none := use d member'
        simp [Preparation.uses, empty] at none
      · obtain ⟨f, here, inside⟩ := some d member
        obtain ⟨g, stays, same⟩ := staysInUse_of_cleaned sound cleaned here
        exact allowed.2.2 failed g stays _ (use d member') ((same.inside _).mp inside)
    simp only [zero, lt_self_iff_false, if_false] at ran
    cases ran
    rw [none unused]
    exact ⟨sound₁, fun _ => cleaned⟩
  · simp only [if_pos positive] at ran
    cases ran
    have separated : ∀ d ∈ data, Separated m (useOf p.rootDeviceIndex d) := by
      intro d member f here
      obtain ⟨f', here', same'⟩ := narrows' f here
      obtain ⟨g, stays, same⟩ := staysInUse_of_cleaned sound cleaned here'
      have span := same'.trans same
      rw [span.apart, span.inside]
      exact allowed.2.1 g stays _ (use d member)
    have clear' : (usesOf p.rootDeviceIndex data).Pairwise fun u v => v.Clear u := whole ▸ clear
    obtain ⟨whole', counts'⟩ := populateOsHandles_spec counts newHandle
      (fun d member => ranges _ (use d member)) separated clear'
    refine ⟨counts'.perm ?_, fun failed => by rw [populated] at failed; cases failed⟩
    simp only [World.uses, usesOfAll, List.flatMap_cons, stored, whole']
    rw [← List.append_assoc]
    apply List.Perm.append_right
    rw [usesOf, usesOf, usesOf, ← List.map_append]
    apply List.Perm.map
    exact List.perm_append_comm.trans (reused_append_unstored data)

end Prepare

/-- The calls of the driver, started without any storage. -/
def system : System World Op where
  init := fun w => w = {}
  step := fun w op w' => w.run op = some w'

/-- The fragments of a root device are not empty and do not overlap, and each one's count is the
number of the entries of live storages that lie in it. -/
structure World.Correct (w : World) : Prop where
  nonempty : ∀ f ∈ w.fragments, 0 < f.2.fragmentSize
  disjoint : ∀ f ∈ w.fragments, ∀ g ∈ w.fragments, f ≠ g →
    f.1.rootDeviceIndex = g.1.rootDeviceIndex →
      f.2.fragmentCpuPointer + f.2.fragmentSize ≤ g.2.fragmentCpuPointer ∨
        g.2.fragmentCpuPointer + g.2.fragmentSize ≤ f.2.fragmentCpuPointer
  counted : ∀ f ∈ w.fragments, f.2.refCount = users w.uses f

/-- The storage can be released, and of its entries those free their fragment that are the last
to leave it. -/
def World.FreesLast (w : World) (prepared : PreparedStorage) : Prop :=
  ∃ m' data', releaseHandleStorage prepared.rootDeviceIndex w.manager
      prepared.storage.fragmentStorageData = some (m', data') ∧
    HostPtr.FreesLast w.manager prepared.rootDeviceIndex prepared.storage.fragmentStorageData data'
      (usesOfAll (w.live.erase prepared))

/-- A call whose OS handles cannot be created changes nothing but what its clean-ups release. -/
def World.FailsCleanly (w : World) (p : Preparation) : Prop :=
  p.populated = none → ∀ w', w.run (.prepare p) = some w' →
    w.releaseAll p.cleanings.flatten = some w'

theorem reachable_sound {w : World} (reachable : Reachable (system.restrict Allowed) w) :
    Sound w.manager w.uses := by
  induction reachable with
  | start initial =>
    subst initial
    exact sound_empty
  | @next w w' op before step ih =>
    cases op with
    | prepare p => exact (prepare_spec ih step.1 step.2).1
    | release prepared => exact (release_spec ih step.2).2.1

/-- In every run of allowed calls the reference counts are right in every state, a release frees
the fragments it leaves last, and an allowed call that fails changes no count. -/
theorem refCounts_correct {w : World} (reachable : Reachable (system.restrict Allowed) w) :
    w.Correct ∧ (∀ prepared ∈ w.live, w.FreesLast prepared) ∧
      ∀ p, Allowed w (.prepare p) → w.FailsCleanly p := by
  have sound := reachable_sound reachable
  refine ⟨⟨sound.nonempty, sound.disjoint, sound.counted⟩, ?_, ?_⟩
  · intro prepared member
    obtain ⟨m', data', released, -, -, frees⟩ :=
      releaseHandleStorage_spec (sound.perm (usesOfAll_erase member))
    exact ⟨m', data', released, frees⟩
  · intro p allowed failed w' ran
    exact (prepare_spec sound allowed ran).2 failed

/-- A range on a root device; the new OS handles are counted from the given number on. -/
def stored (rootDeviceIndex ptr size handles : Nat) : Preparation where
  ptr := ptr
  size := size
  rootDeviceIndex := rootDeviceIndex
  populated := some fun i => (handles + i, handles + i)

/-- A range on the first root device whose OS handles cannot be created. -/
def unpopulated (ptr size : Nat) : Preparation where
  ptr := ptr
  size := size
  rootDeviceIndex := 0
  populated := none

/-- The trailing page of the second range is new and cannot be pinned, after a reference to the
stored first page was taken. -/
def leakedReference : List Op :=
  [.prepare (stored 0 0x1000 0x1000 1), .prepare (unpopulated 0x1000 0x1001)]

/-- A page stored on root device 1 lies in a range prepared there later; in front of that range
the container only has a fragment of root device 0. -/
def overlookedOverlap : List Op :=
  [.prepare (stored 0 0x1000 0x1000 1), .prepare (stored 1 0x5000 0x1000 2),
   .prepare (stored 1 0x4000 0x2000 3)]

theorem refCounts_incorrect :
    (∃ w, Reachable system w ∧ leakedReference.foldlM World.run {} = some w ∧
      ∃ f ∈ w.fragments, f.2.refCount ≠ users w.uses f) ∧
    ∃ w, Reachable system w ∧ overlookedOverlap.foldlM World.run {} = some w ∧
      ∃ f ∈ w.fragments, ∃ g ∈ w.fragments, f ≠ g ∧
        f.1.rootDeviceIndex = g.1.rootDeviceIndex ∧
        f.2.fragmentCpuPointer < g.2.fragmentCpuPointer + g.2.fragmentSize ∧
        g.2.fragmentCpuPointer < f.2.fragmentCpuPointer + f.2.fragmentSize := by
  constructor
  · have wrong : ((leakedReference.foldlM World.run {}).any fun w => w.fragments.any fun f =>
        decide (f.2.refCount ≠ users w.uses f)) = true := by decide +kernel
    obtain ⟨w, ran, wrong⟩ := (Option.any_eq_true _ _).mp wrong
    refine ⟨w, Reachable.foldlM (fun _ _ _ step => step) (.start rfl) ran, ran, ?_⟩
    simpa only [List.any_eq_true, decide_eq_true_eq] using wrong
  · have wrong : ((overlookedOverlap.foldlM World.run {}).any fun w => w.fragments.any fun f =>
        w.fragments.any fun g => decide (f ≠ g ∧ f.1.rootDeviceIndex = g.1.rootDeviceIndex ∧
          f.2.fragmentCpuPointer < g.2.fragmentCpuPointer + g.2.fragmentSize ∧
          g.2.fragmentCpuPointer < f.2.fragmentCpuPointer + f.2.fragmentSize)) = true := by
      decide +kernel
    obtain ⟨w, ran, wrong⟩ := (Option.any_eq_true _ _).mp wrong
    refine ⟨w, Reachable.foldlM (fun _ _ _ step => step) (.start rfl) ran, ran, ?_⟩
    simpa only [List.any_eq_true, decide_eq_true_eq] using wrong

/-- It suffices to look at all stored fragments. -/
theorem allowed_of_fragments {w : World} {p : Preparation} (inProcess : p.InProcess)
    (separated : ∀ f ∈ w.fragments, ∀ u ∈ p.uses, u.Apart f ∨ u.Inside f ∧ p.populated.isSome)
    (filled : ∀ f ∈ w.fragments, ∀ u ∈ p.uses, p.populated.isNone → ¬ u.Inside f) :
    Allowed w (.prepare p) := by
  refine ⟨inProcess, fun f stays u use => (separated f stays.1 u use).imp id And.left, ?_⟩
  exact fun failed f stays u use => filled f stays.1 u use (by rw [failed]; rfl)

/-- The second call finds its page stored, and the third one, elsewhere, fails. -/
theorem refCounts_correct_onePage :
    ∃ w, w.fragments.map (fun f => f.2.refCount) = [2] ∧ w.Correct ∧
      (∀ prepared ∈ w.live, w.FreesLast prepared) ∧
      ∀ p, Allowed w (.prepare p) → w.FailsCleanly p := by
  let again := stored 0 0x1000 0x1000 2
  let elsewhere := unpopulated 0x5000 0x1000
  have runs : ((({} : World).run (.prepare (stored 0 0x1000 0x1000 1))).any fun w₁ =>
      decide (∀ f ∈ w₁.fragments, ∀ u ∈ again.uses, u.Inside f) &&
      (w₁.run (.prepare again)).any fun w₂ =>
        decide (∀ f ∈ w₂.fragments, ∀ u ∈ elsewhere.uses, u.Apart f ∧ ¬ u.Inside f) &&
        (w₂.run (.prepare elsewhere)).any fun w₃ =>
          decide (w₃.fragments.map (fun f => f.2.refCount) = [2])) = true := by decide +kernel
  simp only [Option.any_eq_true, Bool.and_eq_true, decide_eq_true_eq] at runs
  obtain ⟨w₁, first, inside, w₂, second, apart, w₃, third, two⟩ := runs
  refine ⟨w₃, two, refCounts_correct (.next (a := .prepare elsewhere) (.next (a := .prepare again)
    (.next (a := .prepare (stored 0 0x1000 0x1000 1)) (.start rfl) ⟨?_, first⟩) ⟨?_, second⟩)
    ⟨?_, third⟩)⟩
  · refine allowed_of_fragments (by decide) ?_ ?_
    · rintro f ⟨⟩
    · rintro f ⟨⟩
  · refine allowed_of_fragments (by decide) (fun f member u use => ?_) fun f member u use none => ?_
    · exact .inr ⟨inside f member u use, rfl⟩
    · cases none
  · refine allowed_of_fragments (by decide) (fun f member u use => ?_) fun f member u use none => ?_
    · exact .inl (apart f member u use).1
    · exact (apart f member u use).2

end ComputeRuntime.HostPtr
