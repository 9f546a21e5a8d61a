import ComputeRuntime.BoHandles.Releases

/-! Runs of owners of shared handles: every handle is closed once, by its last owner. -/
namespace ComputeRuntime.BoHandles

open Keyed Transition

variable {s : State}

theorem reachable_owned (reachable : Reachable (system.restrict Allowed) s) : s.Owned := by
  induction reachable with
  | start initial =>
    cases initial
    exact owned_init
  | next _ stepped ih => exact step_owned ih stepped.1 stepped.2

/-- The session of the buffer object was closed. -/
def State.Closed (s : State) (bo : BufferObject) : Prop :=
  ∃ c ∈ s.closes, c.session = bo.session

/-- All owners of its handle are unreferenced. -/
def State.Released (s : State) (bo : BufferObject) : Prop :=
  ∀ other ∈ s.bos, other.session = bo.session → other.phase ≠ .live

structure State.Sound (s : State) : Prop where
  /-- A handle is closed once, and the kernel closes the session of the owner. -/
  once : Distinct (·.session) s.closes
  own : ∀ c ∈ s.closes, c.closed = some c.session
  /-- It is closed when no other owner remains that was not unreferenced. -/
  last : ∀ bo ∈ s.bos, s.Closed bo ↔ s.Released bo
  /-- Then the kernel has it open no more, and it has no entry. -/
  ended : ∀ bo ∈ s.bos, s.Released bo → (∀ o ∈ s.handles, o.session ≠ bo.session) ∧
    ∀ k, bo.controlBlock = some k → ∀ entry ∈ s.sharedBoHandles, entry.controlBlock ≠ k
  entries : ∀ entry ∈ s.sharedBoHandles, ∃ o ∈ s.handles, o.handle = entry.handle
  /-- What a buffer object holds is open. -/
  held : ∀ bo ∈ s.bos, bo.phase ≠ .destroyed → ∀ handle, bo.boHandle = some handle →
    ⟨handle, bo.object, bo.session⟩ ∈ s.handles ∧ ¬ s.Closed bo
  /-- A control block is freed once, when it has no owner and no entry. -/
  freed : ∀ (k : Nat) (block : ControlBlock), s.controlBlocks[k]? = some block →
    block.freed ≤ 1 ∧ (block.freed = 1 ↔
      (∀ bo ∈ s.bos, bo.controlBlock = some k → bo.phase = .destroyed) ∧
        ∀ entry ∈ s.sharedBoHandles, entry.controlBlock ≠ k)

theorem State.Owned.not_closed (owned : s.Owned) {bo : BufferObject} {o : OpenHandle}
    (isOpen : o ∈ s.handles) (session : o.session = bo.session) : ¬ s.Closed bo := by
  rintro ⟨c, closed, same⟩
  exact (owned.opened.closed c closed).2.2 o isOpen (session.trans same.symm)

theorem State.Owned.sound (owned : s.Owned) : s.Sound := by
  -- A session that is open has a live owner.
  have unopened : ∀ bo ∈ s.bos, s.Released bo → ∀ o ∈ s.handles, o.session ≠ bo.session := by
    intro bo _ released o isOpen session
    obtain ⟨other, member, live, same⟩ := owned.held.used o isOpen
    exact released other member (same.trans session) live
  constructor
  · exact owned.opened.once
  · exact fun c closed => (owned.opened.closed c closed).1
  · intro bo member
    constructor
    · rintro closed other inside session live
      obtain ⟨handle, holds⟩ := owned.held.live other inside live
      have isOpen := owned.held.held other inside (by simp [live]) handle holds
      exact owned.not_closed isOpen session closed
    · intro released
      rcases owned.held.ended bo member with ⟨o, isOpen, session⟩ | closed
      · exact absurd session (unopened bo member released o isOpen)
      · exact closed
  · intro bo member released
    refine ⟨unopened bo member released, ?_⟩
    rintro k block entry inside rfl
    obtain ⟨other, has, live, _, sameBlock⟩ := owned.registered.entries entry inside
    have session := owned.registered.sessions other has bo member _ sameBlock block
    exact released other has session live
  · exact fun entry member => owned.mem_open member
  · intro bo member phase handle holds
    have isOpen := owned.held.held bo member phase handle holds
    exact ⟨isOpen, owned.not_closed isOpen rfl⟩
  · intro k block found
    rw [owned.registered.blocks k block found]
    have owners : s.owners k = 0 ↔
        ∀ bo ∈ s.bos, bo.controlBlock = some k → bo.phase = .destroyed := by
      simp [State.owners, BufferObject.owns]
    have weak : s.weakOwners k = 0 ↔ ∀ entry ∈ s.sharedBoHandles, entry.controlBlock ≠ k := by
      simp [State.weakOwners]
    rw [← owners, ← weak]
    unfold State.expectedBlock
    simp only
    split
    next none => exact ⟨Nat.le_refl _, fun _ => none, fun _ => rfl⟩
    next some => exact ⟨Nat.zero_le _, (by simp), fun none => absurd none some⟩

/-- Handles are closed by their last owner in every run in which the last owner is released after
all others are destroyed. -/
theorem reachable_handles_sound (reachable : Reachable (system.restrict Allowed) s) : s.Sound :=
  (reachable_owned reachable).sound

instance (s : State) (action : Action) : Decidable (Allowed s action) :=
  match action with
  | .unreference i => inferInstanceAs (Decidable (∀ bo ∈ s.bos[i]?,
      (∃ other ∈ s.bos.eraseIdx i, other.session = bo.session ∧ other.phase = .live) ∨
        ∀ other ∈ s.bos, other.session = bo.session → other.phase ≠ .unreferenced))
  | .create _ _ | .importObject _ _ | .registerIpcExportedAllocation _ | .destroy _ =>
    .isTrue trivial

def run (actions : List Action) : Option State :=
  actions.foldlM State.step {}

/-- A run all of whose steps are allowed. -/
def runAllowed (actions : List Action) : Option State :=
  actions.foldlM (fun s action => if Allowed s action then s.step action else none) {}

theorem reachable_runAllowed {actions : List Action} (ran : runAllowed actions = some s) :
    Reachable (system.restrict Allowed) s := by
  apply Reachable.foldlM _ (.start rfl) ran
  intro s action s' stepped
  exact Option.ite_none_right_eq_some.mp stepped

/-- An exported object with two owners that are released one after the other, and a third owner
that imports it again. -/
def releasingRun : List Action :=
  [.create 0 5, .registerIpcExportedAllocation 0, .importObject 0 7, .unreference 0, .destroy 0,
    .unreference 1, .destroy 1, .importObject 0 5]

theorem reachable_handles_sound_released :
    ∃ s, runAllowed releasingRun = some s ∧ s.closes = [⟨0, some 0⟩] ∧
      s.handles = [⟨5, 0, 1⟩] ∧ s.Sound := by
  have ran : (runAllowed releasingRun).any (fun s => s.closes = [⟨0, some 0⟩] ∧
      s.handles = [⟨5, 0, 1⟩]) = true := by
    decide +kernel
  obtain ⟨s, ran, state⟩ := (Option.any_eq_true _ _).mp ran
  obtain ⟨closes, handles⟩ := of_decide_eq_true state
  exact ⟨s, ran, closes, handles, reachable_handles_sound (reachable_runAllowed ran)⟩

/-- Two owners are unreferenced before either of them is destroyed. -/
def leakingRun : List Action :=
  [.create 0 5, .registerIpcExportedAllocation 0, .importObject 0 7, .unreference 0,
    .unreference 1, .destroy 0, .destroy 1]

/-- Both owners leave the handle to the other: it is never closed and keeps its entry. -/
theorem handles_unsound_stated :
    ∃ s, Reachable system s ∧ (∀ bo ∈ s.bos, bo.phase = .destroyed) ∧ s.bos.length = 2 ∧
      s.closes = [] ∧ s.handles = [⟨5, 0, 0⟩] ∧ s.sharedBoHandles = [⟨5, 0⟩] := by
  have ran : (run leakingRun).any (fun s => (∀ bo ∈ s.bos, bo.phase = .destroyed) ∧
      s.bos.length = 2 ∧ s.closes = [] ∧ s.handles = [⟨5, 0, 0⟩] ∧
      s.sharedBoHandles = [⟨5, 0⟩]) = true := by
    decide +kernel
  obtain ⟨s, ran, state⟩ := (Option.any_eq_true _ _).mp ran
  have reachable : Reachable system s :=
    Reachable.foldlM (fun _ _ _ stepped => stepped) (.start rfl) ran
  exact ⟨s, reachable, of_decide_eq_true state⟩

end ComputeRuntime.BoHandles
