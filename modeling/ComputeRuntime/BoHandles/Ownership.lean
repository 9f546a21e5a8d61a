import ComputeRuntime.BoHandles.Model
import ComputeRuntime.Library.Keyed
import ComputeRuntime.Library.Weight

/-! What holds between the handles that are open, the buffer objects that hold them, the control
blocks and the weak entries. -/
namespace ComputeRuntime.BoHandles

open Keyed

variable {s s' : State} {bo other : BufferObject} {i : Nat}

/-- The buffer object counts as an owner of the control block. -/
def BufferObject.owns (bo : BufferObject) (k : Nat) : Bool :=
  bo.controlBlock = some k ∧ bo.phase ≠ .destroyed

/-- The number of strong owners of a control block. -/
def State.owners (s : State) (k : Nat) : Nat :=
  s.bos.countP (·.owns k)

/-- The number of its weak entries. -/
def State.weakOwners (s : State) (k : Nat) : Nat :=
  s.sharedBoHandles.countP (·.controlBlock = k)

/-- A control block counts its owners and is freed with the last one. -/
def State.expectedBlock (s : State) (k : Nat) : ControlBlock where
  refCount := s.owners k
  weakRefCount := s.weakOwners k
  freed := if s.owners k = 0 ∧ s.weakOwners k = 0 then 1 else 0

/-- The sessions of the kernel. -/
structure State.Opened (s : State) : Prop where
  handles : Distinct (·.handle) s.handles
  objects : Distinct (·.object) s.handles
  sessions : Distinct (·.session) s.handles
  numbered : ∀ o ∈ s.handles, o.session < s.nextSession
  once : Distinct (·.session) s.closes
  closed : ∀ c ∈ s.closes, c.closed = some c.session ∧ c.session < s.nextSession ∧
    ∀ o ∈ s.handles, o.session ≠ c.session

/-- The buffer objects and what they hold. -/
structure State.Held (s : State) : Prop where
  numbered : ∀ bo ∈ s.bos, bo.session < s.nextSession
  ended : ∀ bo ∈ s.bos, (∃ o ∈ s.handles, o.session = bo.session) ∨
    ∃ c ∈ s.closes, c.session = bo.session
  held : ∀ bo ∈ s.bos, bo.phase ≠ .destroyed → ∀ handle, bo.boHandle = some handle →
    ⟨handle, bo.object, bo.session⟩ ∈ s.handles
  live : ∀ bo ∈ s.bos, bo.phase = .live → ∃ handle, bo.boHandle = some handle
  -- The condition on the order of releases is needed for this and for the entries.
  used : ∀ o ∈ s.handles, ∃ bo ∈ s.bos, bo.phase = .live ∧ bo.session = o.session

/-- Control blocks and weak entries. -/
structure State.Registered (s : State) : Prop where
  keys : Distinct (·.handle) s.sharedBoHandles
  entries : ∀ entry ∈ s.sharedBoHandles, ∃ bo ∈ s.bos, bo.phase = .live ∧
    bo.boHandle = some entry.handle ∧ bo.controlBlock = some entry.controlBlock
  registered : ∀ bo ∈ s.bos, bo.phase ≠ .destroyed → ∀ handle k, bo.boHandle = some handle →
    bo.controlBlock = some k → ⟨handle, k⟩ ∈ s.sharedBoHandles
  alone : ∀ bo ∈ s.bos, bo.phase ≠ .destroyed → bo.boHandle ≠ none → bo.controlBlock = none →
    bo.object ∈ s.unexported
  flagged : ∀ bo ∈ s.bos, bo.boHandleShared = bo.controlBlock.isSome
  shared : ∀ (i j : Nat) (a b : BufferObject), s.bos[i]? = some a → s.bos[j]? = some b → i ≠ j →
    a.session = b.session → a.controlBlock = b.controlBlock ∧ a.controlBlock ≠ none
  sessions : ∀ a ∈ s.bos, ∀ b ∈ s.bos, ∀ k, a.controlBlock = some k → b.controlBlock = some k →
    a.session = b.session
  allocated : ∀ bo ∈ s.bos, ∀ k, bo.controlBlock = some k → k < s.controlBlocks.length
  blocks : ∀ (k : Nat) (block : ControlBlock), s.controlBlocks[k]? = some block →
    block = s.expectedBlock k

structure State.Owned (s : State) : Prop where
  opened : s.Opened
  held : s.Held
  registered : s.Registered

theorem owned_init : State.Owned {} where
  opened := ⟨.nil, .nil, .nil, nofun, .nil, nofun⟩
  held := ⟨nofun, nofun, nofun, nofun, nofun⟩
  registered := ⟨.nil, nofun, nofun, nofun, nofun, nofun, nofun, nofun, nofun⟩

/-! ### What follows -/

namespace State.Owned

/-- Who holds one handle is in one session. -/
theorem session_eq (owned : s.Owned) (left : bo ∈ s.bos) (right : other ∈ s.bos)
    (leftPhase : bo.phase ≠ .destroyed) (rightPhase : other.phase ≠ .destroyed) {handle : Nat}
    (leftHandle : bo.boHandle = some handle) (rightHandle : other.boHandle = some handle) :
    bo.session = other.session ∧ bo.object = other.object := by
  have first := owned.held.held bo left leftPhase handle leftHandle
  have second := owned.held.held other right rightPhase handle rightHandle
  have same := owned.opened.handles.eq first second rfl
  simp only [OpenHandle.mk.injEq, true_and] at same
  exact ⟨same.2, same.1⟩

/-- A live owner of a session holds its handle. -/
theorem handle_eq (owned : s.Owned) (member : bo ∈ s.bos) (live : bo.phase = .live)
    {o : OpenHandle} (isOpen : o ∈ s.handles) (session : bo.session = o.session) :
    bo.boHandle = some o.handle ∧ bo.object = o.object := by
  obtain ⟨handle, holds⟩ := owned.held.live bo member live
  have inside := owned.held.held bo member (by simp [live]) handle holds
  have same := owned.opened.sessions.eq inside isOpen session
  rw [← same]
  exact ⟨holds, rfl⟩

end State.Owned

/-! ### The kernel -/

theorem State.Opened.of_eq (opened : s.Opened) (handles : s'.handles = s.handles)
    (nextSession : s'.nextSession = s.nextSession) (closes : s'.closes = s.closes) : s'.Opened := by
  constructor <;> simp only [handles, nextSession, closes]
  · exact opened.handles
  · exact opened.objects
  · exact opened.sessions
  · exact opened.numbered
  · exact opened.once
  · exact opened.closed

theorem State.Opened.openHandle (opened : s.Opened) {object handle : Nat}
    (freshHandle : ∀ o ∈ s.handles, o.handle ≠ handle)
    (freshObject : ∀ o ∈ s.handles, o.object ≠ object) : (s.openHandle object handle).Opened := by
  constructor
  · exact opened.handles.concat freshHandle
  · exact opened.objects.concat freshObject
  · exact opened.sessions.concat fun o member => Nat.ne_of_lt (opened.numbered o member)
  · intro o member
    rcases List.mem_append.mp member with old | new
    · exact Nat.lt_succ_of_lt (opened.numbered o old)
    · rw [List.mem_singleton.mp new]
      exact Nat.lt_succ_self _
  · exact opened.once
  · intro c member
    obtain ⟨closed, below, apart⟩ := opened.closed c member
    refine ⟨closed, Nat.lt_succ_of_lt below, ?_⟩
    intro o isOpen
    rcases List.mem_append.mp isOpen with old | new
    · exact apart o old
    · rw [List.mem_singleton.mp new]
      exact (Nat.ne_of_lt below).symm

/-- Closing a handle that is open ends its session. -/
theorem State.Opened.gemClose (opened : s.Opened) {o : OpenHandle} (isOpen : o ∈ s.handles) :
    (s.gemClose o.session o.handle).Opened := by
  have found := opened.handles.find? isOpen
  constructor
  · exact opened.handles.eraseP _
  · exact opened.objects.eraseP _
  · exact opened.sessions.eraseP _
  · exact fun other member => opened.numbered other (List.mem_of_mem_eraseP member)
  · apply opened.once.concat
    exact fun c member => ((opened.closed c member).2.2 o isOpen).symm
  · intro c member
    rcases List.mem_append.mp member with old | new
    · obtain ⟨closed, below, apart⟩ := opened.closed c old
      exact ⟨closed, below, fun other inside => apart other (List.mem_of_mem_eraseP inside)⟩
    · rw [List.mem_singleton.mp new, found]
      refine ⟨rfl, opened.numbered o isOpen, ?_⟩
      intro other inside same
      obtain ⟨member, other_ne⟩ := opened.handles.mem_eraseP.mp inside
      exact other_ne (by rw [opened.sessions.eq member isOpen same])

/-! ### Buffer objects come -/

theorem getElem?_concat_cases {bos : List BufferObject} {new a : BufferObject} {i : Nat}
    (found : (bos ++ [new])[i]? = some a) :
    bos[i]? = some a ∨ i = bos.length ∧ a = new := by
  rcases Nat.lt_or_ge i bos.length with below | above
  · rw [List.getElem?_append_left below] at found
    exact .inl found
  · rw [List.getElem?_append_right above] at found
    have first : i - bos.length = 0 := by
      by_contra later
      rw [List.getElem?_eq_none (by simp; omega)] at found
      cases found
    rw [first] at found
    cases found
    exact .inr ⟨by omega, rfl⟩

/-- A buffer object that opens a handle. -/
theorem State.Held.openHandle (held : s.Held) {object handle : Nat} {new : BufferObject}
    (session : new.session = s.nextSession) (sameObject : new.object = object)
    (holds : new.boHandle = some handle) (live : new.phase = .live)
    (handles : s'.handles = s.handles ++ [⟨handle, object, s.nextSession⟩])
    (nextSession : s'.nextSession = s.nextSession + 1) (closes : s'.closes = s.closes)
    (bos : s'.bos = s.bos ++ [new]) : s'.Held := by
  constructor <;> simp only [handles, nextSession, closes, bos]
  · intro bo member
    rcases List.mem_append.mp member with old | last
    · exact Nat.lt_succ_of_lt (held.numbered bo old)
    · rw [List.mem_singleton.mp last, session]
      exact Nat.lt_succ_self _
  · intro bo member
    rcases List.mem_append.mp member with old | last
    · rcases held.ended bo old with ⟨o, isOpen, same⟩ | closed
      · exact .inl ⟨o, List.mem_append_left _ isOpen, same⟩
      · exact .inr closed
    · rw [List.mem_singleton.mp last, session]
      exact .inl ⟨_, List.mem_append_right _ (List.mem_singleton_self _), rfl⟩
  · intro bo member phase h has
    rcases List.mem_append.mp member with old | last
    · exact List.mem_append_left _ (held.held bo old phase h has)
    · rw [List.mem_singleton.mp last] at has ⊢
      rw [holds] at has
      cases has
      rw [session, sameObject]
      exact List.mem_append_right _ (List.mem_singleton_self _)
  · intro bo member phase
    rcases List.mem_append.mp member with old | last
    · exact held.live bo old phase
    · exact ⟨handle, List.mem_singleton.mp last ▸ holds⟩
  · intro o isOpen
    rcases List.mem_append.mp isOpen with old | last
    · obtain ⟨bo, member, used⟩ := held.used o old
      exact ⟨bo, List.mem_append_left _ member, used⟩
    · rw [List.mem_singleton.mp last]
      exact ⟨new, List.mem_append_right _ (List.mem_singleton_self _), live, session⟩

/-- A buffer object that shares an open handle. -/
theorem State.Held.share (held : s.Held) {o : OpenHandle} {new : BufferObject}
    (isOpen : o ∈ s.handles) (numbered : o.session < s.nextSession)
    (session : new.session = o.session) (object : new.object = o.object)
    (holds : new.boHandle = some o.handle)
    (handles : s'.handles = s.handles) (nextSession : s'.nextSession = s.nextSession)
    (closes : s'.closes = s.closes) (bos : s'.bos = s.bos ++ [new]) : s'.Held := by
  constructor <;> simp only [handles, nextSession, closes, bos]
  · intro bo member
    rcases List.mem_append.mp member with old | last
    · exact held.numbered bo old
    · rw [List.mem_singleton.mp last, session]
      exact numbered
  · intro bo member
    rcases List.mem_append.mp member with old | last
    · exact held.ended bo old
    · rw [List.mem_singleton.mp last, session]
      exact .inl ⟨o, isOpen, rfl⟩
  · intro bo member phase h has
    rcases List.mem_append.mp member with old | last
    · exact held.held bo old phase h has
    · rw [List.mem_singleton.mp last] at has ⊢
      rw [holds] at has
      cases has
      rw [session, object]
      exact isOpen
  · intro bo member phase
    rcases List.mem_append.mp member with old | last
    · exact held.live bo old phase
    · exact ⟨o.handle, List.mem_singleton.mp last ▸ holds⟩
  · intro o isOpen
    obtain ⟨bo, member, used⟩ := held.used o isOpen
    exact ⟨bo, List.mem_append_left _ member, used⟩

/-- What a new buffer object has to bring along. -/
structure Joins (s s' : State) (new : BufferObject) : Prop where
  live : new.phase = .live
  flagged : new.boHandleShared = new.controlBlock.isSome
  entries : ∀ entry ∈ s'.sharedBoHandles, entry ∈ s.sharedBoHandles ∨
    new.boHandle = some entry.handle ∧ new.controlBlock = some entry.controlBlock
  registered : ∀ handle k, new.boHandle = some handle → new.controlBlock = some k →
    ⟨handle, k⟩ ∈ s'.sharedBoHandles
  alone : new.controlBlock = none → new.object ∈ s'.unexported
  shared : ∀ bo ∈ s.bos, bo.session = new.session →
    bo.controlBlock = new.controlBlock ∧ new.controlBlock ≠ none
  sessions : ∀ bo ∈ s.bos, ∀ k, bo.controlBlock = some k → new.controlBlock = some k →
    bo.session = new.session
  allocated : ∀ k, new.controlBlock = some k → k < s'.controlBlocks.length

theorem State.Registered.concat (registered : s.Registered) (new : BufferObject)
    (joins : Joins s s' new) (keys : Distinct (·.handle) s'.sharedBoHandles)
    (stays : ∀ entry ∈ s.sharedBoHandles, entry ∈ s'.sharedBoHandles)
    (unexported : ∀ object ∈ s.unexported, object ∈ s'.unexported)
    (longer : s.controlBlocks.length ≤ s'.controlBlocks.length)
    (bos : s'.bos = s.bos ++ [new])
    (blocks : ∀ (k : Nat) (block : ControlBlock), s'.controlBlocks[k]? = some block →
      block = s'.expectedBlock k) : s'.Registered := by
  have last : new ∈ s.bos ++ [new] := List.mem_append_right _ (List.mem_singleton_self _)
  constructor
  · exact keys
  · intro entry member
    rw [bos]
    rcases joins.entries entry member with old | holds
    · obtain ⟨bo, inside, holds⟩ := registered.entries entry old
      exact ⟨bo, List.mem_append_left _ inside, holds⟩
    · exact ⟨new, last, joins.live, holds⟩
  · rw [bos]
    intro bo member phase handle k holds block
    rcases List.mem_append.mp member with old | final
    · exact stays _ (registered.registered bo old phase handle k holds block)
    · cases List.mem_singleton.mp final
      exact joins.registered handle k holds block
  · rw [bos]
    intro bo member phase holds block
    rcases List.mem_append.mp member with old | final
    · exact unexported _ (registered.alone bo old phase holds block)
    · cases List.mem_singleton.mp final
      exact joins.alone block
  · rw [bos]
    intro bo member
    rcases List.mem_append.mp member with old | final
    · exact registered.flagged bo old
    · cases List.mem_singleton.mp final
      exact joins.flagged
  · rw [bos]
    intro i j a b foundA foundB apart session
    rcases getElem?_concat_cases foundA with oldA | ⟨lastA, rfl⟩
    · rcases getElem?_concat_cases foundB with oldB | ⟨lastB, rfl⟩
      · exact registered.shared i j a b oldA oldB apart session
      · obtain ⟨same, some⟩ := joins.shared a (List.mem_of_getElem? oldA) session
        exact ⟨same, same ▸ some⟩
    · rcases getElem?_concat_cases foundB with oldB | ⟨lastB, rfl⟩
      · obtain ⟨same, some⟩ := joins.shared b (List.mem_of_getElem? oldB) session.symm
        exact ⟨same.symm, some⟩
      · exact absurd (lastA.trans lastB.symm) apart
  · rw [bos]
    intro a memberA b memberB k blockA blockB
    rcases List.mem_append.mp memberA with oldA | lastA
    · rcases List.mem_append.mp memberB with oldB | lastB
      · exact registered.sessions a oldA b oldB k blockA blockB
      · cases List.mem_singleton.mp lastB
        exact joins.sessions a oldA k blockA blockB
    · cases List.mem_singleton.mp lastA
      rcases List.mem_append.mp memberB with oldB | lastB
      · exact (joins.sessions b oldB k blockB blockA).symm
      · cases List.mem_singleton.mp lastB
        rfl
  · rw [bos]
    intro bo member k block
    rcases List.mem_append.mp member with old | final
    · exact Nat.lt_of_lt_of_le (registered.allocated bo old k block) longer
    · cases List.mem_singleton.mp final
      exact joins.allocated k block
  · exact blocks

/-! ### Control blocks -/

theorem owners_concat {new : BufferObject} (bos : s'.bos = s.bos ++ [new]) (k : Nat) :
    s'.owners k = s.owners k + if new.owns k then 1 else 0 := by
  unfold State.owners
  rw [bos, List.countP_append, List.countP_singleton]

theorem owners_set {new : BufferObject} (current : s.bos[i]? = some bo)
    (bos : s'.bos = s.bos.set i new) (k : Nat) :
    s'.owners k + (if bo.owns k then 1 else 0) = s.owners k + if new.owns k then 1 else 0 := by
  unfold State.owners
  rw [bos]
  exact Weight.countP_set (·.owns k) current new

/-- A block that does not exist has no owners. -/
theorem State.Registered.fresh (registered : s.Registered) :
    s.owners s.controlBlocks.length = 0 ∧ s.weakOwners s.controlBlocks.length = 0 := by
  have none : ∀ bo ∈ s.bos, bo.controlBlock ≠ some s.controlBlocks.length := by
    intro bo member block
    have below := registered.allocated bo member _ block
    omega
  constructor
  · apply List.countP_eq_zero.mpr
    intro bo member
    simp [BufferObject.owns, none bo member]
  · apply List.countP_eq_zero.mpr
    intro entry member
    obtain ⟨bo, inside, _, _, block⟩ := registered.entries entry member
    have other := none bo inside
    rw [block] at other
    simpa using other

/-- A new block has its first owner and a weak entry. -/
theorem State.Registered.blocks_new (registered : s.Registered) {handle : Nat}
    (controlBlocks : s'.controlBlocks = s.controlBlocks ++ [⟨1, 1, 0⟩])
    (shared : s'.sharedBoHandles = s.sharedBoHandles ++ [⟨handle, s.controlBlocks.length⟩])
    (owners : ∀ k, s'.owners k = s.owners k + if k = s.controlBlocks.length then 1 else 0)
    (k : Nat) (block : ControlBlock) (found : s'.controlBlocks[k]? = some block) :
    block = s'.expectedBlock k := by
  have weak : s'.weakOwners k = s.weakOwners k + if k = s.controlBlocks.length then 1 else 0 := by
    unfold State.weakOwners
    rw [shared, List.countP_append, List.countP_singleton]
    simp [eq_comm]
  rw [controlBlocks] at found
  rw [State.expectedBlock, owners, weak]
  rcases Nat.lt_trichotomy k s.controlBlocks.length with below | rfl | above
  · rw [List.getElem?_append_left below] at found
    rw [if_neg (Nat.ne_of_lt below)]
    exact registered.blocks k block found
  · rw [List.getElem?_append_right (Nat.le_refl _), Nat.sub_self] at found
    obtain ⟨noOwner, noEntry⟩ := registered.fresh
    cases found
    simp [noOwner, noEntry]
  · rw [List.getElem?_eq_none (by simp; omega)] at found
    cases found

/-- A block is changed in one place. -/
theorem State.Registered.blocks_modify (registered : s.Registered) {k₀ : Nat}
    {f : ControlBlock → ControlBlock}
    (controlBlocks : s'.controlBlocks = s.controlBlocks.modify k₀ f)
    (owners : ∀ k, k ≠ k₀ → s'.owners k = s.owners k)
    (weak : ∀ k, k ≠ k₀ → s'.weakOwners k = s.weakOwners k)
    (changed : f (s.expectedBlock k₀) = s'.expectedBlock k₀)
    (k : Nat) (block : ControlBlock) (found : s'.controlBlocks[k]? = some block) :
    block = s'.expectedBlock k := by
  rw [controlBlocks, List.getElem?_modify] at found
  obtain ⟨before, was, now⟩ := Option.map_eq_some_iff.mp found
  have known := registered.blocks k before was
  by_cases same : k₀ = k
  · subst same
    rw [if_pos rfl] at now
    rw [← now, known]
    exact changed
  · rw [if_neg same] at now
    rw [← now, known]
    simp only [State.expectedBlock, owners k (Ne.symm same), weak k (Ne.symm same)]

end ComputeRuntime.BoHandles
