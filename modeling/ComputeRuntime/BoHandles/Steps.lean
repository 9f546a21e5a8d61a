import ComputeRuntime.BoHandles.Ownership

/-! Every step keeps the ownership of handles, as long as the last owner is released after all
others are destroyed. -/
namespace ComputeRuntime.BoHandles

open Keyed

variable {s s' : State} {bo other : BufferObject} {i : Nat}

/-! ### Registration -/

/-- The live owners of an exported object have registered its handle. -/
theorem State.Owned.entry_of_open (owned : s.Owned) {o : OpenHandle} (isOpen : o ∈ s.handles)
    (exported : o.object ∉ s.unexported) :
    ∃ k, s.findSharedBoHandle o.handle = some ⟨o.handle, k⟩ := by
  obtain ⟨bo, member, live, session⟩ := owned.held.used o isOpen
  obtain ⟨holds, object⟩ := owned.handle_eq member live isOpen session
  have undestroyed : bo.phase ≠ .destroyed := by simp [live]
  cases block : bo.controlBlock with
  | none =>
    have alone := owned.registered.alone bo member undestroyed (by simp [holds]) block
    exact absurd (object ▸ alone) exported
  | some k =>
    have entry := owned.registered.registered bo member undestroyed o.handle k holds block
    exact ⟨k, owned.registered.keys.find? entry⟩

theorem State.Owned.mem_open (owned : s.Owned) {entry : SharedHandle}
    (member : entry ∈ s.sharedBoHandles) : ∃ o ∈ s.handles, o.handle = entry.handle := by
  obtain ⟨bo, inside, live, holds, _⟩ := owned.registered.entries entry member
  exact ⟨_, owned.held.held bo inside (by simp [live]) _ holds, rfl⟩

/-- A handle that is not open is not registered. -/
theorem State.Owned.find_none (owned : s.Owned) {handle : Nat}
    (fresh : ∀ o ∈ s.handles, o.handle ≠ handle) : s.findSharedBoHandle handle = none := by
  apply List.find?_eq_none.mpr
  intro entry member same
  obtain ⟨o, isOpen, found⟩ := owned.mem_open member
  exact fresh o isOpen (found.trans (of_decide_eq_true same))

theorem modify_last (blocks : List ControlBlock) (block : ControlBlock)
    (f : ControlBlock → ControlBlock) :
    (blocks ++ [block]).modify blocks.length f = blocks ++ [f block] := by
  induction blocks with
  | nil => rfl
  | cons head blocks ih =>
    simp only [List.cons_append, List.length_cons, List.modify_succ_cons]
    rw [ih]

/-- An import of a handle that is registered. -/
theorem importSharedHandle_known {object session handle k : Nat}
    (found : s.findSharedBoHandle handle = some ⟨handle, k⟩) :
    s.importSharedHandle object session handle = { s with
      controlBlocks := s.controlBlocks.modify k fun block =>
        { block with refCount := block.refCount + 1 }
      bos := s.bos ++ [{
        object := object, session := session, boHandle := some handle
        controlBlock := some k, boHandleShared := true }] } := by
  have stays : ∀ blocks, ({ s with controlBlocks := blocks } : State).findSharedBoHandle handle =
      some ⟨handle, k⟩ := fun _ => found
  simp [State.importSharedHandle, State.tryToGetBoHandleWrapperWithSharedOwnership, found,
    State.registerSharedBoHandle, stays]

/-- An import of a handle that is not registered. -/
theorem importSharedHandle_new {object session handle : Nat}
    (absent : s.findSharedBoHandle handle = none) :
    s.importSharedHandle object session handle = { s with
      controlBlocks := s.controlBlocks ++ [⟨1, 1, 0⟩]
      sharedBoHandles := s.sharedBoHandles ++ [⟨handle, s.controlBlocks.length⟩]
      bos := s.bos ++ [{
        object := object, session := session, boHandle := some handle
        controlBlock := some s.controlBlocks.length, boHandleShared := true }] } := by
  simp [State.importSharedHandle, State.tryToGetBoHandleWrapperWithSharedOwnership, absent,
    State.registerSharedBoHandle, State.ensureControlBlock, modify_last]

/-! ### Creation and import -/

theorem create_owned (owned : s.Owned) {object handle : Nat}
    (stepped : s.step (.create object handle) = some s') : s'.Owned := by
  obtain ⟨guard, equal⟩ := Option.ite_none_right_eq_some.mp stepped
  cases equal
  simp only [Bool.and_eq_true, List.all_eq_true, decide_eq_true_eq] at guard
  obtain ⟨free, new⟩ := guard
  have registered := owned.registered
  constructor
  · exact (owned.opened.openHandle (fun o member => (free o member).1)
      fun o member => (free o member).2).of_eq rfl rfl rfl
  · exact owned.held.openHandle rfl rfl rfl rfl rfl rfl rfl rfl
  · apply registered.concat { object := object, session := s.nextSession, boHandle := some handle }
    · constructor
      · rfl
      · rfl
      · exact fun entry member => .inl member
      · nofun
      · exact fun _ => List.mem_append_right _ (List.mem_singleton_self _)
      · intro bo member same
        exact absurd same (Nat.ne_of_lt (owned.held.numbered bo member))
      · nofun
      · nofun
    · exact registered.keys
    · exact fun entry member => member
    · exact fun object member => List.mem_append_left _ member
    · exact Nat.le_refl _
    · rfl
    · intro k block found
      have known := registered.blocks k block found
      simp only [State.expectedBlock]
      rw [owners_concat rfl k]
      exact known

/-- All buffer objects of a session share one control block. -/
theorem State.Registered.same_block (registered : s.Registered) (left : bo ∈ s.bos)
    (right : other ∈ s.bos) (session : other.session = bo.session) {k : Nat}
    (block : bo.controlBlock = some k) : other.controlBlock = some k := by
  obtain ⟨i, at_i⟩ := List.mem_iff_getElem?.mp left
  obtain ⟨j, at_j⟩ := List.mem_iff_getElem?.mp right
  by_cases same : j = i
  · subst same
    cases at_i.symm.trans at_j
    exact block
  · exact (registered.shared j i other bo at_j at_i same session).1.trans block

/-- The buffer object of an import. -/
def sharedOwner (object session handle k : Nat) : BufferObject where
  object := object
  session := session
  boHandle := some handle
  controlBlock := some k
  boHandleShared := true

theorem owns_sharedOwner (object session handle k j : Nat) :
    (sharedOwner object session handle k).owns j = decide (j = k) := by
  simp [BufferObject.owns, sharedOwner, eq_comm]

/-- An owner keeps its block from being freed. -/
theorem State.owners_pos (member : bo ∈ s.bos) {k : Nat} (block : bo.controlBlock = some k)
    (phase : bo.phase ≠ .destroyed) : 0 < s.owners k :=
  List.countP_pos_iff.mpr ⟨bo, member, by simp [BufferObject.owns, block, phase]⟩

/-- An import joins the owners of a registered handle. -/
theorem State.Owned.import_known (owned : s.Owned) {o : OpenHandle} {k : Nat}
    (isOpen : o ∈ s.handles) (entry : ⟨o.handle, k⟩ ∈ s.sharedBoHandles)
    (joined : s' = { s with
      controlBlocks := s.controlBlocks.modify k fun block =>
        { block with refCount := block.refCount + 1 }
      bos := s.bos ++ [sharedOwner o.object o.session o.handle k] }) : s'.Owned := by
  have registered := owned.registered
  obtain ⟨bo, member, live, holds, block⟩ := registered.entries _ entry
  have undestroyed : bo.phase ≠ .destroyed := by simp [live]
  have session : bo.session = o.session := by
    have held := owned.held.held bo member undestroyed o.handle holds
    rw [← owned.opened.handles.eq held isOpen rfl]
  have handles : s'.handles = s.handles := by rw [joined]
  have bos : s'.bos = s.bos ++ [sharedOwner o.object o.session o.handle k] := by rw [joined]
  have shared : s'.sharedBoHandles = s.sharedBoHandles := by rw [joined]
  have blocks : s'.controlBlocks = s.controlBlocks.modify k fun block =>
      { block with refCount := block.refCount + 1 } := by rw [joined]
  have length : s'.controlBlocks.length = s.controlBlocks.length := by
    rw [blocks, List.length_modify]
  have nextSession : s'.nextSession = s.nextSession := by rw [joined]
  have closes : s'.closes = s.closes := by rw [joined]
  have weak : ∀ j, s'.weakOwners j = s.weakOwners j := by
    intro j
    rw [State.weakOwners, shared]
    rfl
  constructor
  · exact owned.opened.of_eq handles nextSession closes
  · exact owned.held.share isOpen (owned.opened.numbered o isOpen) rfl rfl rfl handles nextSession
      closes bos
  · refine registered.concat (sharedOwner o.object o.session o.handle k) ?_ ?_ ?_ ?_ ?_ bos ?_
    · constructor
      · rfl
      · rfl
      · rw [shared]
        exact fun entry member => .inl member
      · rw [shared]
        intro handle j holds blocked
        cases holds
        cases blocked
        exact entry
      · nofun
      · intro other inside same
        exact ⟨registered.same_block member inside (same.trans session.symm) block, nofun⟩
      · intro other inside j block' blocked
        cases blocked
        exact (registered.sessions other inside bo member k block' block).trans session
      · intro j blocked
        cases blocked
        rw [length]
        exact registered.allocated bo member k block
    · rw [shared]
      exact registered.keys
    · rw [shared]
      exact fun entry member => member
    · rw [joined]
      exact fun object member => member
    · exact Nat.le_of_eq length.symm
    · apply registered.blocks_modify blocks
      · intro j other
        rw [owners_concat bos, owns_sharedOwner, decide_eq_false other]
        rfl
      · exact fun j _ => weak j
      · have positive := State.owners_pos member block undestroyed
        have more := owners_concat bos k
        rw [owns_sharedOwner, decide_eq_true rfl, if_pos rfl] at more
        rw [State.expectedBlock, State.expectedBlock, weak, more]
        simp [Nat.ne_of_gt positive]

/-- An import opens a handle and registers it. -/
theorem State.Owned.import_new (owned : s.Owned) {object handle : Nat}
    (freshHandle : ∀ o ∈ s.handles, o.handle ≠ handle)
    (freshObject : ∀ o ∈ s.handles, o.object ≠ object)
    (opened : s' = { s.openHandle object handle with
      controlBlocks := s.controlBlocks ++ [⟨1, 1, 0⟩]
      sharedBoHandles := s.sharedBoHandles ++ [⟨handle, s.controlBlocks.length⟩]
      bos := s.bos ++ [sharedOwner object s.nextSession handle s.controlBlocks.length] }) :
    s'.Owned := by
  have registered := owned.registered
  have bos : s'.bos =
      s.bos ++ [sharedOwner object s.nextSession handle s.controlBlocks.length] := by rw [opened]
  have shared : s'.sharedBoHandles =
      s.sharedBoHandles ++ [⟨handle, s.controlBlocks.length⟩] := by rw [opened]
  have blocks : s'.controlBlocks = s.controlBlocks ++ [⟨1, 1, 0⟩] := by rw [opened]
  have handles : s'.handles = s.handles ++ [⟨handle, object, s.nextSession⟩] := by
    rw [opened]
    rfl
  have nextSession : s'.nextSession = s.nextSession + 1 := by
    rw [opened]
    rfl
  have closes : s'.closes = s.closes := by
    rw [opened]
    rfl
  have length : s'.controlBlocks.length = s.controlBlocks.length + 1 := by
    rw [blocks, List.length_append, List.length_singleton]
  constructor
  · exact (owned.opened.openHandle freshHandle freshObject).of_eq handles nextSession closes
  · exact owned.held.openHandle rfl rfl rfl rfl handles nextSession closes bos
  · refine registered.concat
      (sharedOwner object s.nextSession handle s.controlBlocks.length) ?_ ?_ ?_ ?_ ?_ bos ?_
    · constructor
      · rfl
      · rfl
      · rw [shared]
        intro entry member
        rcases List.mem_append.mp member with old | new
        · exact .inl old
        · rw [List.mem_singleton.mp new]
          exact .inr ⟨rfl, rfl⟩
      · rw [shared]
        intro handle k holds block
        cases holds
        cases block
        exact List.mem_append_right _ (List.mem_singleton_self _)
      · nofun
      · intro bo member same
        exact absurd same (Nat.ne_of_lt (owned.held.numbered bo member))
      · intro bo member k block blocked
        cases blocked
        exact absurd (registered.allocated bo member _ block) (Nat.lt_irrefl _)
      · intro k block
        cases block
        rw [length]
        exact Nat.lt_succ_self _
    · rw [shared]
      apply registered.keys.concat
      intro entry member same
      obtain ⟨o, isOpen, found⟩ := owned.mem_open member
      exact freshHandle o isOpen (found.trans same)
    · rw [shared]
      exact fun entry member => List.mem_append_left _ member
    · rw [opened]
      exact fun object member => member
    · rw [length]
      exact Nat.le_succ _
    · apply registered.blocks_new blocks shared
      intro k
      rw [owners_concat bos, owns_sharedOwner]
      simp

theorem importObject_owned (owned : s.Owned) {object handle : Nat}
    (stepped : s.step (.importObject object handle) = some s') : s'.Owned := by
  obtain ⟨exported, imported⟩ := Option.ite_none_left_eq_some.mp stepped
  split at imported
  next o found =>
    cases imported
    obtain ⟨isOpen, rfl⟩ := mem_of_find? found
    obtain ⟨k, entry⟩ := owned.entry_of_open isOpen exported
    exact owned.import_known isOpen (mem_of_find? entry).1 (importSharedHandle_known entry)
  next none =>
    obtain ⟨free, equal⟩ := Option.ite_none_right_eq_some.mp imported
    cases equal
    simp only [List.all_eq_true, decide_eq_true_eq] at free
    have absent : (s.openHandle object handle).findSharedBoHandle handle = .none :=
      owned.find_none free
    exact owned.import_new free (fun o member => ne_of_find? none member)
      (importSharedHandle_new absent)

end ComputeRuntime.BoHandles
