import ComputeRuntime.BoHandles.Steps
import ComputeRuntime.Library.Search

/-! Exports, releases and deletions keep the ownership of handles, as long as the last owner is
released after all others are destroyed. -/
namespace ComputeRuntime.BoHandles

open Keyed

variable {s s' : State} {bo other new : BufferObject} {i : Nat}

/-! ### Buffer objects change -/

theorem mem_set_cases {bos : List BufferObject} {a : BufferObject} (member : a ∈ bos.set i new) :
    a = new ∨ ∃ j, j ≠ i ∧ bos[j]? = some a := by
  obtain ⟨j, at_j⟩ := List.mem_iff_getElem?.mp member
  by_cases same : j = i
  · subst same
    rw [List.getElem?_set_self' ] at at_j
    obtain ⟨_, _, rfl⟩ := Option.map_eq_some_iff.mp at_j
    exact .inl rfl
  · rw [List.getElem?_set_ne (Ne.symm same)] at at_j
    exact .inr ⟨j, same, at_j⟩

/-- A buffer object changes its phase and what it holds. -/
structure Changes (bo new : BufferObject) : Prop where
  object : new.object = bo.object
  session : new.session = bo.session
  phase : new.phase ≠ .destroyed → bo.phase ≠ .destroyed
  handle : ∀ handle, new.boHandle = some handle → bo.boHandle = some handle

theorem State.Held.change (held : s.Held) (current : s.bos[i]? = some bo) (changes : Changes bo new)
    (live : new.phase = .live → ∃ handle, new.boHandle = some handle)
    (stays : ∀ a ∈ s.bos.set i new, a.phase ≠ .destroyed → ∀ handle, a.boHandle = some handle →
      ⟨handle, a.object, a.session⟩ ∈ s.handles → ⟨handle, a.object, a.session⟩ ∈ s'.handles)
    (ended : ∀ o ∈ s.handles, o ∈ s'.handles ∨ ∃ c ∈ s'.closes, c.session = o.session)
    (closes : ∀ c ∈ s.closes, c ∈ s'.closes)
    (used : ∀ o ∈ s'.handles, ∃ a ∈ s.bos.set i new, a.phase = .live ∧ a.session = o.session)
    (nextSession : s'.nextSession = s.nextSession) (bos : s'.bos = s.bos.set i new) : s'.Held := by
  have inside := List.mem_of_getElem? current
  have endedBefore : ∀ a ∈ s.bos, (∃ o ∈ s'.handles, o.session = a.session) ∨
      ∃ c ∈ s'.closes, c.session = a.session := by
    intro a member
    rcases held.ended a member with ⟨o, isOpen, session⟩ | ⟨c, closed, session⟩
    · rcases ended o isOpen with still | ⟨c, now, same⟩
      · exact .inl ⟨o, still, session⟩
      · exact .inr ⟨c, now, same.trans session⟩
    · exact .inr ⟨c, closes c closed, session⟩
  constructor <;> simp only [nextSession, bos]
  · intro a member
    rcases List.mem_or_eq_of_mem_set member with old | rfl
    · exact held.numbered a old
    · rw [changes.session]
      exact held.numbered bo inside
  · intro a member
    rcases List.mem_or_eq_of_mem_set member with old | rfl
    · exact endedBefore a old
    · rw [changes.session]
      exact endedBefore bo inside
  · intro a member phase handle holds
    apply stays a member phase handle holds
    rcases List.mem_or_eq_of_mem_set member with old | rfl
    · exact held.held a old phase handle holds
    · rw [changes.object, changes.session]
      exact held.held bo inside (changes.phase phase) handle (changes.handle handle holds)
  · intro a member phase
    rcases List.mem_or_eq_of_mem_set member with old | rfl
    · exact held.live a old phase
    · exact live phase
  · exact used

theorem State.Registered.change (registered : s.Registered) (current : s.bos[i]? = some bo)
    (changes : Changes bo new) (sameBlock : new.controlBlock = bo.controlBlock)
    (sameFlag : new.boHandleShared = bo.boHandleShared)
    (keys : Distinct (·.handle) s'.sharedBoHandles)
    (entries : ∀ entry ∈ s'.sharedBoHandles, ∃ a ∈ s.bos.set i new, a.phase = .live ∧
      a.boHandle = some entry.handle ∧ a.controlBlock = some entry.controlBlock)
    (stays : ∀ a ∈ s.bos.set i new, a.phase ≠ .destroyed → ∀ handle k, a.boHandle = some handle →
      a.controlBlock = some k → ⟨handle, k⟩ ∈ s.sharedBoHandles → ⟨handle, k⟩ ∈ s'.sharedBoHandles)
    (unexported : s'.unexported = s.unexported)
    (length : s'.controlBlocks.length = s.controlBlocks.length)
    (bos : s'.bos = s.bos.set i new)
    (blocks : ∀ (k : Nat) (block : ControlBlock), s'.controlBlocks[k]? = some block →
      block = s'.expectedBlock k) : s'.Registered := by
  have inside := List.mem_of_getElem? current
  constructor <;> try simp only [unexported, bos]
  · exact keys
  · exact entries
  · intro a member phase handle k holds block
    apply stays a member phase handle k holds block
    rcases List.mem_or_eq_of_mem_set member with old | rfl
    · exact registered.registered a old phase handle k holds block
    · exact registered.registered bo inside (changes.phase phase) handle k
        (changes.handle handle holds) (sameBlock ▸ block)
  · intro a member phase holds block
    rcases List.mem_or_eq_of_mem_set member with old | rfl
    · exact registered.alone a old phase holds block
    · rw [changes.object]
      obtain ⟨handle, has⟩ := Option.ne_none_iff_exists'.mp holds
      exact registered.alone bo inside (changes.phase phase)
        (by simp [changes.handle handle has]) (sameBlock ▸ block)
  · intro a member
    rcases List.mem_or_eq_of_mem_set member with old | rfl
    · exact registered.flagged a old
    · rw [sameFlag, sameBlock]
      exact registered.flagged bo inside
  · -- Sessions and blocks stay where they are.
    have origin : ∀ (j : Nat) (a : BufferObject), (s.bos.set i new)[j]? = some a →
        ∃ b, s.bos[j]? = some b ∧ a.session = b.session ∧ a.controlBlock = b.controlBlock := by
      intro j a found
      by_cases same : i = j
      · subst same
        rw [List.getElem?_set_self'] at found
        obtain ⟨_, _, rfl⟩ := Option.map_eq_some_iff.mp found
        exact ⟨bo, current, changes.session, sameBlock⟩
      · rw [List.getElem?_set_ne same] at found
        exact ⟨a, found, rfl, rfl⟩
    intro j k a b foundA foundB apart session
    obtain ⟨a', at_j, sessionA, blockA⟩ := origin j a foundA
    obtain ⟨b', at_k, sessionB, blockB⟩ := origin k b foundB
    rw [blockA, blockB]
    exact registered.shared j k a' b' at_j at_k apart
      (sessionA.symm.trans (session.trans sessionB))
  · have origin : ∀ a ∈ s.bos.set i new,
        ∃ b ∈ s.bos, a.session = b.session ∧ a.controlBlock = b.controlBlock := by
      intro a member
      rcases List.mem_or_eq_of_mem_set member with old | rfl
      · exact ⟨a, old, rfl, rfl⟩
      · exact ⟨bo, inside, changes.session, sameBlock⟩
    intro a memberA b memberB k blockA blockB
    obtain ⟨a', insideA, sessionA, sameA⟩ := origin a memberA
    obtain ⟨b', insideB, sessionB, sameB⟩ := origin b memberB
    rw [sessionA, sessionB]
    exact registered.sessions a' insideA b' insideB k (sameA ▸ blockA) (sameB ▸ blockB)
  · intro a member k block
    rw [length]
    rcases List.mem_or_eq_of_mem_set member with old | rfl
    · exact registered.allocated a old k block
    · exact registered.allocated bo inside k (sameBlock ▸ block)
  · exact blocks

/-! ### Owners -/

/-- Without one of its owners a block has one less. -/
theorem owners_without (current : s.bos[i]? = some bo) {k : Nat} (owns : bo.owns k = true) :
    (s.bos.set i { bo with phase := .destroyed }).countP (·.owns k) + 1 = s.owners k := by
  have counted := Weight.countP_set (·.owns k) current { bo with phase := .destroyed }
  have gone : ({ bo with phase := .destroyed } : BufferObject).owns k = false := by
    simp [BufferObject.owns]
  rwa [owns, gone] at counted

theorem exists_other_owner (current : s.bos[i]? = some bo) {k : Nat} (owns : bo.owns k = true)
    (several : s.owners k ≠ 1) : ∃ j a, j ≠ i ∧ s.bos[j]? = some a ∧ a.owns k = true := by
  have counted := owners_without current owns
  have some : 0 < (s.bos.set i { bo with phase := .destroyed }).countP (·.owns k) := by omega
  obtain ⟨a, member, has⟩ := List.countP_pos_iff.mp some
  rcases mem_set_cases member with rfl | ⟨j, apart, at_j⟩
  · simp [BufferObject.owns] at has
  · exact ⟨j, a, apart, at_j, has⟩

theorem not_owns_of_one (current : s.bos[i]? = some bo) {k : Nat} (owns : bo.owns k = true)
    (one : s.owners k = 1) {j : Nat} {a : BufferObject} (apart : j ≠ i) (at_j : s.bos[j]? = some a) :
    a.owns k = false := by
  have counted := owners_without current owns
  have none : (s.bos.set i { bo with phase := .destroyed }).countP (·.owns k) = 0 := by omega
  have member : a ∈ s.bos.set i { bo with phase := .destroyed } := by
    apply List.mem_iff_getElem?.mpr
    exact ⟨j, (List.getElem?_set_ne (Ne.symm apart)).trans at_j⟩
  simpa using List.countP_eq_zero.mp none a member

theorem State.Registered.block (registered : s.Registered) (member : bo ∈ s.bos) {k : Nat}
    (block : bo.controlBlock = some k) : s.controlBlocks[k]? = some (s.expectedBlock k) := by
  have below := registered.allocated bo member k block
  have found := List.getElem?_eq_getElem below
  rw [found, registered.blocks k _ found]

/-- The last owner of a handle may close it. -/
theorem State.Registered.canClose_iff (registered : s.Registered) (member : bo ∈ s.bos) {k : Nat}
    (block : bo.controlBlock = some k) : s.canCloseBoHandle bo = decide (s.owners k = 1) := by
  simp only [State.canCloseBoHandle, block, registered.block member block, Option.any_some,
    State.expectedBlock]
  apply decide_eq_decide.mpr
  omega

/-! ### Unreferencing -/

/-- The last owner is released after all others are destroyed. -/
def Allowed (s : State) : Action → Prop
  | .unreference i => ∀ bo ∈ s.bos[i]?,
      (∃ other ∈ s.bos.eraseIdx i, other.session = bo.session ∧ other.phase = .live) ∨
        ∀ other ∈ s.bos, other.session = bo.session → other.phase ≠ .unreferenced
  | _ => True

/-- The buffer object after its last reference is gone and its handle is closed. -/
def closedBo (bo : BufferObject) : BufferObject :=
  { bo with boHandle := none, phase := .unreferenced }

theorem closedBo_changes (live : bo.phase = .live) : Changes bo (closedBo bo) where
  object := rfl
  session := rfl
  phase _ := by simp [live]
  handle := nofun

/-- Nobody else holds the handle that is closed. -/
def State.Sole (s : State) (i handle : Nat) : Prop :=
  ∀ j a, j ≠ i → s.bos[j]? = some a → a.phase ≠ .destroyed → a.boHandle ≠ some handle

theorem State.Owned.close_held (owned : s.Owned) (current : s.bos[i]? = some bo)
    (live : bo.phase = .live) {handle : Nat} (holds : bo.boHandle = some handle)
    (sole : s.Sole i handle)
    (handles : s'.handles = s.handles.eraseP (·.handle = handle))
    (closes : s'.closes = s.closes ++ [⟨bo.session, some bo.session⟩])
    (nextSession : s'.nextSession = s.nextSession) (bos : s'.bos = s.bos.set i (closedBo bo)) :
    s'.Held := by
  have inside := List.mem_of_getElem? current
  have isOpen := owned.held.held bo inside (by simp [live]) handle holds
  refine owned.held.change current (closedBo_changes live) nofun ?_ ?_ ?_ ?_ nextSession bos
  · intro a member phase h has before
    rw [handles]
    apply owned.opened.handles.mem_eraseP.mpr
    refine ⟨before, ?_⟩
    rintro rfl
    rcases mem_set_cases member with rfl | ⟨j, apart, at_j⟩
    · cases has
    · exact sole j a apart at_j phase has
  · intro o before
    rw [handles, closes]
    by_cases same : o.handle = handle
    · right
      refine ⟨_, List.mem_append_right _ (List.mem_singleton_self _), ?_⟩
      rw [owned.opened.handles.eq before isOpen same]
    · exact .inl (owned.opened.handles.mem_eraseP.mpr ⟨before, same⟩)
  · rw [closes]
    exact fun c before => List.mem_append_left _ before
  · rw [handles]
    intro o stays
    obtain ⟨before, other⟩ := owned.opened.handles.mem_eraseP.mp stays
    obtain ⟨a, member, isLive, session⟩ := owned.held.used o before
    rcases Search.mem_set_or current (closedBo bo) member with still | rfl
    · exact ⟨a, still, isLive, session⟩
    · have same := (owned.handle_eq member isLive before session).1
      rw [holds] at same
      exact absurd (Option.some.inj same).symm other

/-- The opened handles after the handle of a buffer object is closed. -/
theorem State.Owned.close_opened (owned : s.Owned) (current : s.bos[i]? = some bo)
    (live : bo.phase = .live) {handle : Nat} (holds : bo.boHandle = some handle)
    (handles : s'.handles = s.handles.eraseP (·.handle = handle))
    (closes : s'.closes = s.closes ++ [⟨bo.session, some bo.session⟩])
    (nextSession : s'.nextSession = s.nextSession) : s'.Opened := by
  have inside := List.mem_of_getElem? current
  have isOpen := owned.held.held bo inside (by simp [live]) handle holds
  have found := owned.opened.handles.find? isOpen
  refine (owned.opened.gemClose isOpen).of_eq handles nextSession ?_
  rw [closes]
  simp only [State.gemClose]
  rw [found]
  rfl

/-- A buffer object that was never exported closes its handle. -/
theorem State.Owned.close_alone (owned : s.Owned) (current : s.bos[i]? = some bo)
    (live : bo.phase = .live) {handle : Nat} (holds : bo.boHandle = some handle)
    (alone : bo.controlBlock = none)
    (handles : s'.handles = s.handles.eraseP (·.handle = handle))
    (closes : s'.closes = s.closes ++ [⟨bo.session, some bo.session⟩])
    (nextSession : s'.nextSession = s.nextSession)
    (controlBlocks : s'.controlBlocks = s.controlBlocks)
    (shared : s'.sharedBoHandles = s.sharedBoHandles)
    (unexported : s'.unexported = s.unexported)
    (bos : s'.bos = s.bos.set i (closedBo bo)) : s'.Owned := by
  have inside := List.mem_of_getElem? current
  have registered := owned.registered
  constructor
  · exact owned.close_opened current live holds handles closes nextSession
  · refine owned.close_held current live holds ?_ handles closes nextSession bos
    intro j a apart at_j phase has
    have session := owned.session_eq (List.mem_of_getElem? at_j) inside phase (by simp [live]) has
      holds
    have block := registered.shared j i a bo at_j current apart session.1
    exact block.2 (block.1.trans alone)
  · refine registered.change current (closedBo_changes live) rfl rfl ?_ ?_ ?_ unexported ?_ bos ?_
    · rw [shared]
      exact registered.keys
    · rw [shared]
      intro entry member
      obtain ⟨a, has, isLive, handle, block⟩ := registered.entries entry member
      rcases Search.mem_set_or current (closedBo bo) has with still | rfl
      · exact ⟨a, still, isLive, handle, block⟩
      · simp [alone] at block
    · rw [shared]
      exact fun _ _ _ _ _ _ _ entry => entry
    · rw [controlBlocks]
    · intro k block found
      rw [controlBlocks] at found
      have counted := owners_set current bos k
      simp only [BufferObject.owns, closedBo, alone] at counted
      have same : s'.owners k = s.owners k := by simpa using counted
      rw [State.expectedBlock, same, State.weakOwners, shared]
      exact registered.blocks k block found

/-- The last owner of an exported object closes the handle and erases its weak entry. -/
theorem State.Owned.close_last (owned : s.Owned) (current : s.bos[i]? = some bo)
    (live : bo.phase = .live) {handle k : Nat} (holds : bo.boHandle = some handle)
    (block : bo.controlBlock = some k) (one : s.owners k = 1)
    (handles : s'.handles = s.handles.eraseP (·.handle = handle))
    (closes : s'.closes = s.closes ++ [⟨bo.session, some bo.session⟩])
    (nextSession : s'.nextSession = s.nextSession)
    (controlBlocks : s'.controlBlocks = s.controlBlocks.modify k .lowerWeakRefCount)
    (shared : s'.sharedBoHandles = s.sharedBoHandles.eraseP (·.handle = handle))
    (unexported : s'.unexported = s.unexported)
    (bos : s'.bos = s.bos.set i (closedBo bo)) : s'.Owned := by
  have inside := List.mem_of_getElem? current
  have registered := owned.registered
  have owns : bo.owns k = true := by simp [BufferObject.owns, block, live]
  have entry := registered.registered bo inside (by simp [live]) handle k holds block
  have found := registered.keys.find? entry
  have sole : s.Sole i handle := by
    intro j a apart at_j phase has
    have session := owned.session_eq (List.mem_of_getElem? at_j) inside phase (by simp [live]) has
      holds
    have same := (registered.shared j i a bo at_j current apart session.1).1.trans block
    have other := not_owns_of_one current owns one apart at_j
    simp [BufferObject.owns, same, phase] at other
  constructor
  · exact owned.close_opened current live holds handles closes nextSession
  · exact owned.close_held current live holds sole handles closes nextSession bos
  · refine registered.change current (closedBo_changes live) rfl rfl ?_ ?_ ?_ unexported ?_ bos ?_
    · rw [shared]
      exact registered.keys.eraseP _
    · rw [shared]
      intro entry' stays
      obtain ⟨member, other⟩ := registered.keys.mem_eraseP.mp stays
      obtain ⟨a, has, isLive, handle', block'⟩ := registered.entries entry' member
      rcases Search.mem_set_or current (closedBo bo) has with still | rfl
      · exact ⟨a, still, isLive, handle', block'⟩
      · rw [holds] at handle'
        exact absurd (Option.some.inj handle').symm other
    · rw [shared]
      intro a member phase handle' k' has _ before
      apply registered.keys.mem_eraseP.mpr
      refine ⟨before, ?_⟩
      rintro rfl
      rcases mem_set_cases member with rfl | ⟨j, apart, at_j⟩
      · cases has
      · exact sole j a apart at_j phase has
    · rw [controlBlocks, List.length_modify]
    · have owners : ∀ j, s'.owners j = s.owners j := by
        intro j
        have counted := owners_set current bos j
        simp only [BufferObject.owns, closedBo, live] at counted
        simpa using counted
      have weak : ∀ j, s'.weakOwners j + (if k = j then 1 else 0) = s.weakOwners j := by
        intro j
        unfold State.weakOwners
        rw [shared]
        simpa using countP_eraseP found fun entry => decide (entry.controlBlock = j)
      apply registered.blocks_modify controlBlocks
      · exact fun j _ => owners j
      · intro j other
        have erased := weak j
        rw [if_neg (Ne.symm other)] at erased
        exact erased
      · have erased := weak k
        rw [if_pos rfl] at erased
        rw [State.expectedBlock, State.expectedBlock, owners, one, ← erased]
        simp [ControlBlock.lowerWeakRefCount, ControlBlock.release]

/-- An owner that others remain of leaves the handle open. -/
theorem State.Owned.leave (owned : s.Owned) (current : s.bos[i]? = some bo)
    (live : bo.phase = .live) {k : Nat} (block : bo.controlBlock = some k)
    (several : s.owners k ≠ 1) (allowed : Allowed s (.unreference i))
    (left : s' = { s with bos := s.bos.set i { bo with phase := .unreferenced } }) : s'.Owned := by
  have inside := List.mem_of_getElem? current
  have registered := owned.registered
  have owns : bo.owns k = true := by simp [BufferObject.owns, block, live]
  obtain ⟨handle, holds⟩ := owned.held.live bo inside live
  have isOpen := owned.held.held bo inside (by simp [live]) handle holds
  have changes : Changes bo { bo with phase := .unreferenced } := {
    object := rfl
    session := rfl
    phase := fun _ => by simp [live]
    handle := fun _ has => has }
  -- Another owner takes over: it is live when no released one is left.
  obtain ⟨a, stays, isLive, session, sameBlock⟩ : ∃ a ∈ s.bos.set i { bo with phase := .unreferenced },
      a.phase = .live ∧ a.session = bo.session ∧ a.controlBlock = some k := by
    have others : ∃ j a, j ≠ i ∧ s.bos[j]? = some a ∧ a.phase = .live ∧ a.session = bo.session := by
      rcases allowed bo current with ⟨a, member, session, isLive⟩ | none
      · obtain ⟨j, apart, at_j⟩ := List.mem_eraseIdx_iff_getElem?.mp member
        exact ⟨j, a, apart, at_j, isLive, session⟩
      · obtain ⟨j, a, apart, at_j, has⟩ := exists_other_owner current owns several
        have member := List.mem_of_getElem? at_j
        obtain ⟨sameBlock, phase⟩ := of_decide_eq_true has
        have session := registered.sessions a member bo inside k sameBlock block
        refine ⟨j, a, apart, at_j, ?_, session⟩
        have unreferenced := none a member session
        cases isLive : a.phase with
        | live => rfl
        | unreferenced => exact absurd isLive unreferenced
        | destroyed => exact absurd isLive phase
    obtain ⟨j, a, apart, at_j, isLive, session⟩ := others
    refine ⟨a, ?_, isLive, session, ?_⟩
    · apply List.mem_iff_getElem?.mpr
      exact ⟨j, (List.getElem?_set_ne (Ne.symm apart)).trans at_j⟩
    · exact registered.same_block inside (List.mem_of_getElem? at_j) session block
  have sameHandle : a.boHandle = some handle := by
    rcases List.mem_or_eq_of_mem_set stays with old | rfl
    · exact (owned.handle_eq old isLive isOpen session).1
    · exact holds
  constructor
  · exact owned.opened.of_eq (by rw [left]) (by rw [left]) (by rw [left])
  · rw [left]
    refine owned.held.change current changes (by simp) ?_ ?_ ?_ ?_ rfl rfl
    · exact fun _ _ _ _ _ before => before
    · exact fun o before => .inl before
    · exact fun c before => before
    · intro o before
      obtain ⟨a', member, isLive', session'⟩ := owned.held.used o before
      rcases Search.mem_set_or current { bo with phase := .unreferenced } member with still | rfl
      · exact ⟨a', still, isLive', session'⟩
      · exact ⟨a, stays, isLive, session.trans session'⟩
  · rw [left]
    refine registered.change current changes rfl rfl registered.keys ?_ ?_ rfl rfl rfl ?_
    · intro entry member
      obtain ⟨a', has, isLive', handle', block'⟩ := registered.entries entry member
      rcases Search.mem_set_or current { bo with phase := .unreferenced } has with still | rfl
      · exact ⟨a', still, isLive', handle', block'⟩
      · rw [holds] at handle'
        rw [block] at block'
        exact ⟨a, stays, isLive, sameHandle.trans handle', sameBlock.trans block'⟩
    · exact fun _ _ _ _ _ _ _ entry => entry
    · intro j block' found
      have counted := Weight.countP_set (·.owns j) current { bo with phase := .unreferenced }
      have same : State.owners { s with bos := s.bos.set i { bo with phase := .unreferenced } } j =
          s.owners j := by simpa [State.owners, BufferObject.owns, live] using counted
      rw [State.expectedBlock, same]
      exact registered.blocks j block' found

/-- The wrapper of a buffer object is destroyed. -/
theorem State.Owned.destroy (owned : s.Owned) (current : s.bos[i]? = some bo)
    (phase : bo.phase = .unreferenced)
    (left : s' = { s.destroyWrapper bo with bos := s.bos.set i { bo with phase := .destroyed } }) :
    s'.Owned := by
  have inside := List.mem_of_getElem? current
  have registered := owned.registered
  have changes : Changes bo { bo with phase := .destroyed } := {
    object := rfl
    session := rfl
    phase := fun destroyed => absurd rfl destroyed
    handle := fun _ has => has }
  have fields : s' = { s with
      controlBlocks := s'.controlBlocks
      bos := s.bos.set i { bo with phase := .destroyed } } := by
    rw [left]
    unfold State.destroyWrapper
    cases bo.controlBlock <;> rfl
  have bos : s'.bos = s.bos.set i { bo with phase := .destroyed } := by rw [fields]
  have shared : s'.sharedBoHandles = s.sharedBoHandles := by rw [fields]
  have weak : ∀ j, s'.weakOwners j = s.weakOwners j := by
    intro j
    rw [State.weakOwners, shared]
    rfl
  constructor
  · exact owned.opened.of_eq (by rw [fields]) (by rw [fields]) (by rw [fields])
  · rw [fields]
    refine owned.held.change current changes (by simp) ?_ ?_ ?_ ?_ rfl rfl
    · exact fun _ _ _ _ _ before => before
    · exact fun o before => .inl before
    · exact fun c before => before
    · intro o before
      obtain ⟨a, member, isLive, session⟩ := owned.held.used o before
      rcases Search.mem_set_or current { bo with phase := .destroyed } member with still | rfl
      · exact ⟨a, still, isLive, session⟩
      · simp [phase] at isLive
  · refine registered.change current changes rfl rfl ?_ ?_ ?_ (by rw [fields]) ?_ bos ?_
    · rw [shared]
      exact registered.keys
    · rw [shared]
      intro entry member
      obtain ⟨a, has, isLive, handle, block⟩ := registered.entries entry member
      rcases Search.mem_set_or current { bo with phase := .destroyed } has with still | rfl
      · exact ⟨a, still, isLive, handle, block⟩
      · simp [phase] at isLive
    · rw [shared]
      exact fun _ _ _ _ _ _ _ entry => entry
    · rw [left]
      unfold State.destroyWrapper
      cases bo.controlBlock with
      | none => rfl
      | some k => exact List.length_modify _ _ _
    · cases block : bo.controlBlock with
      | none =>
        have same : ∀ j, s'.owners j = s.owners j := by
          intro j
          have counted := owners_set current bos j
          simpa [BufferObject.owns, block] using counted
        have blocks : s'.controlBlocks = s.controlBlocks := by
          rw [left]
          simp [State.destroyWrapper, block]
        intro j block' found
        rw [blocks] at found
        rw [State.expectedBlock, same, weak]
        exact registered.blocks j block' found
      | some k =>
        have blocks : s'.controlBlocks = s.controlBlocks.modify k .lowerRefCount := by
          rw [left]
          simp [State.destroyWrapper, block]
        have counted : ∀ j, s'.owners j + (if j = k then 1 else 0) = s.owners j := by
          intro j
          have counted := owners_set current bos j
          simpa [BufferObject.owns, block, phase, eq_comm] using counted
        apply registered.blocks_modify blocks
        · intro j other
          have same := counted j
          rwa [if_neg other, Nat.add_zero] at same
        · exact fun j _ => weak j
        · have less := counted k
          rw [if_pos rfl] at less
          rw [State.expectedBlock, State.expectedBlock, weak, ← less]
          simp [ControlBlock.lowerRefCount, ControlBlock.release]
          split <;> rfl

/-! ### Exports -/

/-- An export of a buffer object that is registered already. -/
theorem State.Owned.export_known (owned : s.Owned) (current : s.bos[i]? = some bo)
    (live : bo.phase = .live) {k : Nat} (block : bo.controlBlock = some k)
    (registered : s' = { s with unexported := s.unexported.filter (· ≠ bo.object) }) :
    s'.Owned := by
  have inside := List.mem_of_getElem? current
  have known := owned.registered
  rw [registered]
  refine ⟨owned.opened.of_eq rfl rfl rfl, ⟨owned.held.numbered, owned.held.ended, owned.held.held,
    owned.held.live, owned.held.used⟩, ⟨known.keys, known.entries, known.registered, ?_,
    known.flagged, known.shared, known.sessions, known.allocated, known.blocks⟩⟩
  intro a member phase has alone
  apply List.mem_filter.mpr
  refine ⟨known.alone a member phase has alone, ?_⟩
  apply decide_eq_true
  intro same
  obtain ⟨handle, holds⟩ := Option.ne_none_iff_exists'.mp has
  obtain ⟨handle', holds'⟩ := owned.held.live bo inside live
  have first := owned.held.held a member phase handle holds
  have second := owned.held.held bo inside (by simp [live]) handle' holds'
  have session := congrArg OpenHandle.session (owned.opened.objects.eq first second same)
  have shared := known.same_block inside member session block
  simp [alone] at shared

/-- The buffer object after its handle is registered. -/
def exportedBo (bo : BufferObject) (k : Nat) : BufferObject :=
  { bo with boHandleShared := true, controlBlock := some k }

/-- An export registers the handle of a local buffer object. -/
theorem State.Owned.export_new (owned : s.Owned) (current : s.bos[i]? = some bo)
    (live : bo.phase = .live) {handle : Nat} (holds : bo.boHandle = some handle)
    (alone : bo.controlBlock = none)
    (exported : s' = { s with
      controlBlocks := s.controlBlocks ++ [⟨1, 1, 0⟩]
      sharedBoHandles := s.sharedBoHandles ++ [⟨handle, s.controlBlocks.length⟩]
      bos := s.bos.set i (exportedBo bo s.controlBlocks.length)
      unexported := s.unexported.filter (· ≠ bo.object) }) : s'.Owned := by
  have inside := List.mem_of_getElem? current
  have registered := owned.registered
  have isOpen := owned.held.held bo inside (by simp [live]) handle holds
  have only : ∀ j a, j ≠ i → s.bos[j]? = some a → a.session ≠ bo.session := by
    intro j a apart at_j session
    have block := registered.shared j i a bo at_j current apart session
    exact block.2 (block.1.trans alone)
  have bos : s'.bos = s.bos.set i (exportedBo bo s.controlBlocks.length) := by rw [exported]
  have shared : s'.sharedBoHandles =
      s.sharedBoHandles ++ [⟨handle, s.controlBlocks.length⟩] := by rw [exported]
  have blocks : s'.controlBlocks = s.controlBlocks ++ [⟨1, 1, 0⟩] := by rw [exported]
  have length : s'.controlBlocks.length = s.controlBlocks.length + 1 := by
    rw [blocks, List.length_append, List.length_singleton]
  have new := Search.mem_set_self current (exportedBo bo s.controlBlocks.length)
  constructor
  · exact owned.opened.of_eq (by rw [exported]) (by rw [exported]) (by rw [exported])
  · rw [exported]
    have changes : Changes bo (exportedBo bo s.controlBlocks.length) :=
      ⟨rfl, rfl, id, fun _ has => has⟩
    refine owned.held.change current changes (fun _ => ⟨handle, holds⟩) ?_ ?_ ?_ ?_ rfl rfl
    · exact fun _ _ _ _ _ before => before
    · exact fun o before => .inl before
    · exact fun c before => before
    · intro o before
      obtain ⟨a, member, isLive, session⟩ := owned.held.used o before
      rcases Search.mem_set_or current (exportedBo bo s.controlBlocks.length) member with still | rfl
      · exact ⟨a, still, isLive, session⟩
      · exact ⟨_, new, isLive, session⟩
  · constructor
    · rw [shared]
      apply registered.keys.concat
      intro entry member same
      obtain ⟨a, has, isLive, handle', block⟩ := registered.entries entry member
      obtain ⟨j, at_j⟩ := List.mem_iff_getElem?.mp has
      have session := owned.session_eq has inside (by simp [isLive]) (by simp [live]) handle'
        (same ▸ holds)
      by_cases index : j = i
      · subst index
        cases current.symm.trans at_j
        simp [alone] at block
      · exact only j a index at_j session.1
    · rw [shared, bos]
      intro entry member
      rcases List.mem_append.mp member with old | last
      · obtain ⟨a, has, isLive, handle', block⟩ := registered.entries entry old
        rcases Search.mem_set_or current (exportedBo bo s.controlBlocks.length) has with still | rfl
        · exact ⟨a, still, isLive, handle', block⟩
        · simp [alone] at block
      · rw [List.mem_singleton.mp last]
        exact ⟨_, new, live, holds, rfl⟩
    · rw [shared, bos]
      intro a member phase handle' k has block
      rcases List.mem_or_eq_of_mem_set member with old | rfl
      · exact List.mem_append_left _ (registered.registered a old phase handle' k has block)
      · cases block
        cases holds.symm.trans has
        exact List.mem_append_right _ (List.mem_singleton_self _)
    · rw [bos, exported]
      intro a member phase has block
      rcases mem_set_cases member with rfl | ⟨j, apart, at_j⟩
      · cases block
      · have old := List.mem_of_getElem? at_j
        apply List.mem_filter.mpr
        refine ⟨registered.alone a old phase has block, ?_⟩
        apply decide_eq_true
        intro same
        obtain ⟨handle', holds'⟩ := Option.ne_none_iff_exists'.mp has
        have first := owned.held.held a old phase handle' holds'
        have session := congrArg OpenHandle.session (owned.opened.objects.eq first isOpen same)
        exact only j a apart at_j session
    · rw [bos]
      intro a member
      rcases List.mem_or_eq_of_mem_set member with old | rfl
      · exact registered.flagged a old
      · rfl
    · rw [bos]
      intro j k a b foundA foundB apart session
      by_cases left : i = j
      · subst left
        rw [List.getElem?_set_self'] at foundA
        obtain ⟨_, _, rfl⟩ := Option.map_eq_some_iff.mp foundA
        rw [List.getElem?_set_ne apart] at foundB
        exact absurd session.symm (only k b (Ne.symm apart) foundB)
      · rw [List.getElem?_set_ne left] at foundA
        by_cases right : i = k
        · subst right
          rw [List.getElem?_set_self'] at foundB
          obtain ⟨_, _, rfl⟩ := Option.map_eq_some_iff.mp foundB
          exact absurd session (only j a apart foundA)
        · rw [List.getElem?_set_ne right] at foundB
          exact registered.shared j k a b foundA foundB apart session
    · rw [bos]
      intro a memberA b memberB k blockA blockB
      rcases List.mem_or_eq_of_mem_set memberA with oldA | rfl
      · rcases List.mem_or_eq_of_mem_set memberB with oldB | rfl
        · exact registered.sessions a oldA b oldB k blockA blockB
        · cases blockB
          exact absurd (registered.allocated a oldA _ blockA) (Nat.lt_irrefl _)
      · rcases List.mem_or_eq_of_mem_set memberB with oldB | rfl
        · cases blockA
          exact absurd (registered.allocated b oldB _ blockB) (Nat.lt_irrefl _)
        · rfl
    · rw [bos, length]
      intro a member k block
      rcases List.mem_or_eq_of_mem_set member with old | rfl
      · exact Nat.lt_succ_of_lt (registered.allocated a old k block)
      · cases block
        exact Nat.lt_succ_self _
    · apply registered.blocks_new blocks shared
      intro k
      have counted := owners_set current bos k
      simpa [BufferObject.owns, alone, exportedBo, live, eq_comm] using counted

/-! ### Steps -/

theorem registerSharedBoHandle_known (s : State) {handle : Nat} (holds : bo.boHandle = some handle)
    {entry : SharedHandle} (found : s.findSharedBoHandle handle = some entry) :
    s.registerSharedBoHandle bo = (s, { bo with boHandleShared := true }) := by
  unfold State.registerSharedBoHandle
  simp only [holds, found]

theorem registerSharedBoHandle_new (s : State) {handle : Nat} (holds : bo.boHandle = some handle)
    (absent : s.findSharedBoHandle handle = none) (block : bo.controlBlock = none) :
    s.registerSharedBoHandle bo = ({ s with
      controlBlocks := s.controlBlocks ++ [⟨1, 1, 0⟩]
      sharedBoHandles := s.sharedBoHandles ++ [⟨handle, s.controlBlocks.length⟩] },
      exportedBo bo s.controlBlocks.length) := by
  unfold State.registerSharedBoHandle State.ensureControlBlock
  simp [holds, absent, block, modify_last, exportedBo]

theorem registerIpcExportedAllocation_owned (owned : s.Owned)
    (stepped : s.step (.registerIpcExportedAllocation i) = some s') : s'.Owned := by
  simp only [State.step] at stepped
  split at stepped
  next => cases stepped
  next bo current =>
    obtain ⟨live, equal⟩ := Option.ite_none_right_eq_some.mp stepped
    have inside := List.mem_of_getElem? current
    have registered := owned.registered
    have undestroyed : bo.phase ≠ .destroyed := by simp [live]
    obtain ⟨handle, holds⟩ := owned.held.live bo inside live
    cases block : bo.controlBlock with
    | some k =>
      have entry := registered.registered bo inside undestroyed handle k holds block
      have found := registered.keys.find? entry
      have flagged : bo.boHandleShared = true := by
        rw [registered.flagged bo inside, block]
        rfl
      have same : { bo with boHandleShared := true } = bo := by
        rw [← flagged]
      have stays : s.bos.set i bo = s.bos := by
        obtain ⟨below, rfl⟩ := List.getElem?_eq_some_iff.mp current
        exact List.set_getElem_self below
      rw [registerSharedBoHandle_known s holds found, same] at equal
      cases equal
      apply owned.export_known current live block
      simp only [stays]
    | none =>
      have absent : s.findSharedBoHandle handle = none := by
        apply List.find?_eq_none.mpr
        intro entry member same
        obtain ⟨a, has, isLive, handle', block'⟩ := registered.entries entry member
        have session := owned.session_eq has inside (by simp [isLive]) undestroyed handle'
          (of_decide_eq_true same ▸ holds)
        have shared := registered.same_block has inside session.1.symm block'
        simp [block] at shared
      rw [registerSharedBoHandle_new s holds absent block] at equal
      cases equal
      exact owned.export_new current live holds block rfl

/-- What `unreference` does when the handle is closed. -/
theorem unreference_alone (s : State) {handle : Nat} (holds : bo.boHandle = some handle)
    (closes : s.canCloseBoHandle bo = true) (shared : bo.boHandleShared = false) :
    s.unreference bo = (s.gemClose bo.session handle, { bo with boHandle := none }) := by
  unfold State.unreference State.close
  simp [holds, closes, shared]

theorem unreference_last (s : State) {handle k : Nat} (holds : bo.boHandle = some handle)
    (closes : s.canCloseBoHandle bo = true) (shared : bo.boHandleShared = true)
    (found : s.findSharedBoHandle handle = some ⟨handle, k⟩) :
    s.unreference bo = ({ s.gemClose bo.session handle with
      sharedBoHandles := s.sharedBoHandles.eraseP (·.handle = handle)
      controlBlocks := s.controlBlocks.modify k .lowerWeakRefCount },
      { bo with boHandle := none }) := by
  have still : (s.gemClose bo.session handle).findSharedBoHandle handle = some ⟨handle, k⟩ := found
  unfold State.unreference State.close
  simp only [holds, closes, if_true, shared]
  rw [if_pos ⟨trivial, nofun⟩, State.eraseSharedBoHandleWrapper, still]
  rfl

theorem unreference_leaves (s : State) {handle : Nat} (holds : bo.boHandle = some handle)
    (closes : s.canCloseBoHandle bo = false) : s.unreference bo = (s, bo) := by
  unfold State.unreference State.close
  simp [holds, closes]

theorem unreference_owned (owned : s.Owned) (allowed : Allowed s (.unreference i))
    (stepped : s.step (.unreference i) = some s') : s'.Owned := by
  simp only [State.step] at stepped
  split at stepped
  next => cases stepped
  next bo current =>
    obtain ⟨live, equal⟩ := Option.ite_none_right_eq_some.mp stepped
    have inside := List.mem_of_getElem? current
    have registered := owned.registered
    obtain ⟨handle, holds⟩ := owned.held.live bo inside live
    have isOpen := owned.held.held bo inside (by simp [live]) handle holds
    have kernel : (s.handles.find? (·.handle = handle)).map (·.session) = some bo.session := by
      rw [owned.opened.handles.find? isOpen]
      rfl
    have flagged := registered.flagged bo inside
    cases block : bo.controlBlock with
    | none =>
      have closes : s.canCloseBoHandle bo = true := by simp [State.canCloseBoHandle, block]
      rw [block] at flagged
      rw [unreference_alone s holds closes flagged] at equal
      cases equal
      apply owned.close_alone current live holds block
      · rfl
      · simp [State.gemClose, kernel]
      · rfl
      · rfl
      · rfl
      · rfl
      · rfl
    | some k =>
      have closes := registered.canClose_iff inside block
      by_cases one : s.owners k = 1
      · have entry := registered.registered bo inside (by simp [live]) handle k holds block
        have found := registered.keys.find? entry
        rw [decide_eq_true one] at closes
        rw [block] at flagged
        rw [unreference_last s holds closes flagged found] at equal
        cases equal
        apply owned.close_last current live holds block one
        · rfl
        · simp [State.gemClose, kernel]
        · rfl
        · rfl
        · rfl
        · rfl
        · rfl
      · rw [decide_eq_false one] at closes
        rw [unreference_leaves s holds closes] at equal
        cases equal
        exact owned.leave current live block one allowed rfl

theorem step_owned (owned : s.Owned) {action : Action} (allowed : Allowed s action)
    (stepped : s.step action = some s') : s'.Owned := by
  cases action with
  | create object handle => exact create_owned owned stepped
  | importObject object handle => exact importObject_owned owned stepped
  | registerIpcExportedAllocation i => exact registerIpcExportedAllocation_owned owned stepped
  | unreference i => exact unreference_owned owned allowed stepped
  | destroy i =>
    simp only [State.step] at stepped
    split at stepped
    next => cases stepped
    next bo current =>
      obtain ⟨phase, equal⟩ := Option.ite_none_right_eq_some.mp stepped
      cases equal
      exact owned.destroy current phase rfl

end ComputeRuntime.BoHandles
