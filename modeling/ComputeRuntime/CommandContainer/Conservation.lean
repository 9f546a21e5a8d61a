import ComputeRuntime.CommandContainer.Model
import ComputeRuntime.Library.Tally

/-! Every command buffer that was obtained is in one place: the operations of a container only
move buffers from one list to another. -/
namespace ComputeRuntime

namespace AllocationsList

variable {p : Progress} {req : ReusableAllocationRequirements} {a : CmdBufferAllocation}
  {list rest : List CmdBufferAllocation}

theorem detachAllocation_some (found : detachAllocation p req list = (some a, rest)) :
    list.Perm (a :: rest) := by
  unfold detachAllocation at found
  split at found
  next => cases found
  next b search =>
    cases found
    exact List.perm_cons_erase (List.mem_of_find?_eq_some search)

/-- A search without a result leaves the list alone, and nothing in it fits. -/
theorem detachAllocation_none (absent : detachAllocation p req list = (none, rest)) :
    rest = list ∧ ∀ a ∈ list, fits p req a = false := by
  unfold detachAllocation at absent
  split at absent
  next search =>
    cases absent
    exact ⟨rfl, fun a member => by simpa using List.find?_eq_none.mp search a member⟩
  next => cases absent

theorem detachAllocation_of_unfit (unfit : ∀ a ∈ list, fits p req a = false) :
    detachAllocation p req list = (none, list) := by
  have search : list.find? (fits p req) = none :=
    List.find?_eq_none.mpr fun a member => by simp [unfit a member]
  rw [detachAllocation, search]

end AllocationsList

open AllocationsList

/-- The buffers that no container has. -/
def SharedBuffers.kept (s : SharedBuffers) : List CmdBufferAllocation :=
  s.reusableAllocationList ++ s.freed

/-- Requests to the memory manager are numbered. -/
def SharedBuffers.Numbered (s : SharedBuffers) : Prop :=
  (∀ a ∈ s.obtained, a.handle < s.attempts) ∧ s.obtained.Nodup

namespace CommandContainer

open Transition

/-- The buffers in the lists of a container. -/
def owned (c : CommandContainer) : List CmdBufferAllocation :=
  c.cmdBufferAllocations ++ c.immediateReusableAllocationList.getD []

/-- Buffers move between those that are held and the shared ones, and new ones come from the
memory manager. -/
structure Balance (held : List CmdBufferAllocation) (s : SharedBuffers)
    (held' : List CmdBufferAllocation) (s' : SharedBuffers) : Prop where
  count : ∀ a, held'.count a + s'.kept.count a + s.obtained.count a =
    held.count a + s.kept.count a + s'.obtained.count a
  numbered : s.Numbered → s'.Numbered

section Balance

variable {held held' held'' : List CmdBufferAllocation} {s s' s'' : SharedBuffers}

theorem Balance.refl (held : List CmdBufferAllocation) (s : SharedBuffers) :
    Balance held s held s := ⟨fun _ => rfl, id⟩

theorem Balance.trans (first : Balance held s held' s') (second : Balance held' s' held'' s'') :
    Balance held s held'' s'' where
  count a := by
    have := first.count a
    have := second.count a
    omega
  numbered := second.numbered ∘ first.numbered

/-- Only the order of the held buffers changes. -/
theorem Balance.of_perm (perm : held.Perm held') (s : SharedBuffers) : Balance held s held' s where
  count a := by rw [perm.count_eq]
  numbered := id

/-- Buffers move between the holder and the shared list. -/
theorem Balance.move {list : List CmdBufferAllocation}
    (perm : (held ++ s.reusableAllocationList).Perm (held' ++ list)) :
    Balance held s held' { s with reusableAllocationList := list } where
  count a := by
    have same := perm.count_eq a
    simp only [List.count_append, SharedBuffers.kept] at same ⊢
    omega
  numbered := id

end Balance

variable {memory : Memory} {c c' : CommandContainer} {s s' : SharedBuffers}
  {held : List CmdBufferAllocation} {a : CmdBufferAllocation}

theorem allocateCommandBuffer_balance {force : Bool}
    (ran : c.allocateCommandBuffer memory s force = (some a, s')) :
    Balance held s (a :: held) s' := by
  unfold allocateCommandBuffer at ran
  split at ran
  next => cases ran
  next placement _ =>
    cases ran
    constructor
    · intro b
      simp only [List.count_cons, SharedBuffers.kept]
      omega
    · rintro ⟨below, nodup⟩
      constructor
      · intro b member
        rcases List.mem_cons.mp member with rfl | old
        · exact Nat.lt_succ_self _
        · exact Nat.lt_succ_of_lt (below b old)
      · apply List.nodup_cons.mpr
        exact ⟨fun old => Nat.lt_irrefl _ (below _ old), nodup⟩

theorem allocateCommandBuffer_none {force : Bool}
    (ran : c.allocateCommandBuffer memory s force = (none, s')) : Balance held s held s' := by
  unfold allocateCommandBuffer at ran
  split at ran
  next =>
    cases ran
    exact ⟨fun _ => rfl, fun ⟨below, nodup⟩ =>
      ⟨fun b old => Nat.lt_succ_of_lt (below b old), nodup⟩⟩
  next => cases ran

theorem obtain_balance {force : Bool}
    (ran : c.obtainNextCommandBufferAllocation memory s force = (some a, s')) :
    Balance held s (a :: held) s' := by
  unfold obtainNextCommandBufferAllocation at ran
  simp only at ran
  split at ran
  next b list found =>
    cases ran
    apply Balance.move
    have perm := detachAllocation_some found
    exact (perm.append_left held).trans List.perm_middle
  next => exact allocateCommandBuffer_balance ran

theorem obtain_none {force : Bool}
    (ran : c.obtainNextCommandBufferAllocation memory s force = (none, s')) :
    Balance held s held s' := by
  unfold obtainNextCommandBufferAllocation at ran
  simp only at ran
  split at ran
  next => cases ran
  next => exact allocateCommandBuffer_none ran

/-- A buffer in hand is added to the container's own list. -/
theorem perm_push (c : CommandContainer) (a : CmdBufferAllocation) :
    (a :: c.owned).Perm
      { c with cmdBufferAllocations := c.cmdBufferAllocations ++ [a] }.owned := by
  simp only [owned, List.append_assoc, List.singleton_append]
  exact List.perm_middle.symm

theorem allocateNextCommandBuffer_balance
    (ran : c.allocateNextCommandBuffer memory s = some (c', s')) :
    Balance c.owned s c'.owned s' := by
  unfold allocateNextCommandBuffer at ran
  split at ran
  next => cases ran
  next obtained =>
    cases ran
    exact (obtain_balance obtained).trans (.of_perm (perm_push c _) _)

theorem initializeContainer_balance {code : ErrorCode} {createSecondary : Bool}
    (ran : c.initializeContainer memory s createSecondary = (c', s', code)) :
    Balance c.owned s c'.owned s' := by
  unfold initializeContainer at ran
  split at ran
  next obtained =>
    cases ran
    exact obtain_none obtained
  next obtained =>
    have first := (obtain_balance obtained).trans (.of_perm (perm_push c _) _)
    simp only at ran
    split at ran
    next =>
      split at ran
      next obtained =>
        cases ran
        exact first.trans (obtain_none obtained)
      next obtained =>
        cases ran
        exact first.trans ((obtain_balance obtained).trans (.of_perm (perm_push _ _) _))
    next =>
      cases ran
      exact first

/-- Of two lists of one owner, what is dropped from the first goes to the front of a third. -/
theorem perm_foldl_cons (front list : List CmdBufferAllocation) :
    (front.foldl (fun list a => a :: list) list).Perm (front ++ list) := by
  induction front generalizing list with
  | nil => exact .refl _
  | cons a front ih => exact (ih (a :: list)).trans List.perm_middle

/-- The buffers before the start index stay with the container. -/
theorem handleCmdBufferAllocations_balance (c : CommandContainer) (s : SharedBuffers)
    (start : Nat) :
    Balance c.owned s (c.cmdBufferAllocations.take start)
      (c.handleCmdBufferAllocations s start).2 := by
  apply Balance.move
  have pushed := perm_foldl_cons (c.cmdBufferAllocations.drop start)
    (s.reusableAllocationList ++ c.immediateReusableAllocationList.getD [])
  refine .trans ?_ (pushed.symm.append_left _)
  rw [← List.append_assoc, List.take_append_drop, owned, List.append_assoc]
  exact List.perm_append_comm.append_left _

@[simp] theorem setCmdBuffer_owned (c : CommandContainer) (a : CmdBufferAllocation) :
    (c.setCmdBuffer a).owned = c.owned := rfl

@[simp] theorem swapStreams_owned (c : CommandContainer) : c.swapStreams.owned = c.owned := by
  unfold swapStreams
  split <;> rfl

/-- After the buffers were handled, a container that keeps the first ones owns nothing else. -/
theorem owned_handled (c : CommandContainer) (s : SharedBuffers) (start : Nat) :
    { (c.handleCmdBufferAllocations s start).1 with
      cmdBufferAllocations :=
        (c.handleCmdBufferAllocations s start).1.cmdBufferAllocations.take start }.owned =
      c.cmdBufferAllocations.take start := by
  unfold owned handleCmdBufferAllocations
  cases c.immediateReusableAllocationList <;> simp

theorem reset_balance (ran : c.reset s = some (c', s')) : Balance c.owned s c'.owned s' := by
  have moved := handleCmdBufferAllocations_balance c s (1 + c.useSecondaryCommandStream.toNat)
  rw [← owned_handled c s] at moved
  unfold reset at ran
  obtain ⟨first, -, ran⟩ := Option.bind_eq_some_iff.mp ran
  split at ran
  next =>
    obtain ⟨second, -, ran⟩ := Option.bind_eq_some_iff.mp ran
    obtain ⟨current, -, ran⟩ := Option.bind_eq_some_iff.mp ran
    cases ran
    simp only [setCmdBuffer_owned, swapStreams_owned]
    split
    next =>
      rw [swapStreams_owned]
      exact moved
    next => exact moved
  next =>
    cases ran
    exact moved

theorem reuseExistingCmdBuffer_balance {force : Bool} {tags : Nat → Nat}
    {result : Option CmdBufferAllocation}
    (found : ∀ immediate, c.immediateReusableAllocationList = some immediate →
      (∃ a ∈ immediate, fits (progress s tags) (c.reuseRequirements force) a = true) ∨
        ∀ a ∈ s.reusableAllocationList,
          fits (progress s tags) (c.reuseRequirements force) a = false)
    (ran : c.reuseExistingCmdBuffer s force tags = some (result, c', s')) :
    Balance c.owned s c'.owned s' ∧
      (result = none → ∀ immediate, c.immediateReusableAllocationList = some immediate →
        ∀ a ∈ immediate ++ s.reusableAllocationList,
          fits (progress s tags) (c.reuseRequirements force) a = false) := by
  unfold reuseExistingCmdBuffer at ran
  obtain ⟨immediate, list, ran⟩ := Option.bind_eq_some_iff.mp ran
  simp only at ran
  split at ran
  next a rest detached =>
    cases ran
    refine ⟨.of_perm ?_ s, nofun⟩
    have perm := detachAllocation_some detached
    simp only [owned, list, Option.getD_some, List.append_assoc, List.singleton_append]
    exact perm.append_left _
  next detached =>
    obtain ⟨-, unfit⟩ := detachAllocation_none detached
    rcases found immediate list with ⟨a, member, fit⟩ | unfit'
    · rw [unfit a member] at fit
      cases fit
    · rw [detachAllocation_of_unfit unfit'] at ran
      cases ran
      refine ⟨.refl _ _, fun _ other same => ?_⟩
      rw [list] at same
      cases same
      intro a member
      rcases List.mem_append.mp member with here | here
      · exact unfit a here
      · exact unfit' a here

theorem storeAllocation_balance {peekTaskCount : Nat}
    (ran : c.storeAllocationAndFlushTagUpdate s a peekTaskCount = some (c', s')) :
    Balance (a :: c.owned) s c'.owned s' := by
  unfold storeAllocationAndFlushTagUpdate at ran
  obtain ⟨csr, -, ran⟩ := Option.bind_eq_some_iff.mp ran
  obtain ⟨immediate, list, ran⟩ := Option.bind_eq_some_iff.mp ran
  cases ran
  refine ⟨fun b => ?_, id⟩
  simp only [owned, list, Option.getD_some, SharedBuffers.kept, List.count_cons,
    List.count_append, List.count_nil]
  omega

theorem addCurrent_balance {peekTaskCount : Nat}
    (ran : c.addCurrentCommandBufferToReusableAllocationList s peekTaskCount = some (c', s')) :
    Balance c.owned s c'.owned s' := by
  unfold addCurrentCommandBufferToReusableAllocationList at ran
  obtain ⟨a, -, ran⟩ := Option.bind_eq_some_iff.mp ran
  split at ran
  next member =>
    refine .trans (.of_perm ?_ s) (storeAllocation_balance ran)
    exact (List.perm_cons_erase member).append_right _
  next => cases ran

theorem addReusable_balance {force : Bool}
    (ran : c.addReusable memory s force = some (c', s')) : Balance c.owned s c'.owned s' := by
  unfold addReusable at ran
  obtain ⟨immediate, list, ran⟩ := Option.bind_eq_some_iff.mp ran
  split at ran
  next => cases ran
  next obtained =>
    cases ran
    refine (obtain_balance obtained).trans (.of_perm ?_ _)
    simp only [owned, list, Option.getD_some, ← List.append_assoc]
    exact (List.perm_append_singleton _ _).symm

theorem fillRound_balance (ran : c.fillRound memory s = some (c', s')) :
    Balance c.owned s c'.owned s' := by
  obtain ⟨⟨c₁, s₁⟩, first, ran⟩ := Option.bind_eq_some_iff.mp ran
  have one := addReusable_balance first
  simp only at ran
  split at ran
  next => exact one.trans (addReusable_balance ran)
  next =>
    cases ran
    exact one

theorem fillImmediate_balance {amount : Nat}
    (ran : fillImmediate memory amount c s = some (c', s')) : Balance c.owned s c'.owned s' := by
  induction amount generalizing c s with
  | zero =>
    cases ran
    exact .refl _ _
  | succ amount ih =>
    obtain ⟨⟨c₁, s₁⟩, first, ran⟩ := Option.bind_eq_some_iff.mp ran
    exact (fillRound_balance first).trans (ih ran)

theorem fillReusableAllocationLists_balance {amount : Nat}
    (ran : c.fillReusableAllocationLists memory s amount = some (c', s')) :
    Balance c.owned s c'.owned s' := by
  unfold fillReusableAllocationLists at ran
  split at ran
  next =>
    cases ran
    exact .refl _ _
  next none =>
    have same : { c with immediateReusableAllocationList := some [] }.owned = c.owned := by
      rw [owned, owned, Option.not_isSome_iff_eq_none.mp none]
      rfl
    exact same ▸ fillImmediate_balance ran

/-- The buffers of all places where one can be. -/
def World.places (w : World) : List CmdBufferAllocation :=
  w.containers.flatMap owned ++ w.shared.kept

/-- What the shared list has to hold when a container looks for a buffer to reuse: nothing that
fits, unless the container's immediate list has something that fits. -/
def Allowed (w : World) : Op → Prop
  | .reuseExistingCmdBuffer i force tags =>
    ∀ c, w.containers[i]? = some c →
      ∀ immediate, c.immediateReusableAllocationList = some immediate →
        (∃ a ∈ immediate, fits (progress w.shared tags) (c.reuseRequirements force) a = true) ∨
          ∀ a ∈ w.shared.reusableAllocationList,
            fits (progress w.shared tags) (c.reuseRequirements force) a = false
  | _ => True

instance (w : World) (op : Op) : Decidable (Allowed w op) :=
  match op with
  | .reuseExistingCmdBuffer i force tags =>
    inferInstanceAs (Decidable (∀ c ∈ w.containers[i]?,
      ∀ immediate ∈ c.immediateReusableAllocationList,
        (∃ a ∈ immediate, fits (progress w.shared tags) (c.reuseRequirements force) a = true) ∨
          ∀ a ∈ w.shared.reusableAllocationList,
            fits (progress w.shared tags) (c.reuseRequirements force) a = false))
  | .initializeContainer .. | .allocateNextCommandBuffer _ | .closeAndAllocateNextCommandBuffer _
  | .addCurrentCommandBufferToReusableAllocationList .. | .allocateCommandBuffer ..
  | .setCmdBuffer .. | .swapStreams _ | .fillReusableAllocationLists .. | .reset _ | .destroy _
  | .updateTaskCount _ | .freeAllGraphicsAllocations => .isTrue trivial

/-- Every buffer that was obtained is in one place. -/
structure World.Conserved (w : World) : Prop where
  count : ∀ a, w.places.count a = w.shared.obtained.count a
  numbered : w.shared.Numbered

section Runs

variable {w w' : World}

/-- An operation on one container is seen by all others as an exchange with the shared lists. -/
theorem onContainer_balance {op : Op} {c c' : CommandContainer} {s' : SharedBuffers} {i : Nat}
    (target : World.target op = some i) (current : w.containers[i]? = some c)
    (allowed : Allowed w op) (ran : w.onContainer memory c op = some (c', s')) :
    Balance c.owned w.shared c'.owned s' := by
  cases op with
  | initializeContainer | destroy | updateTaskCount | freeAllGraphicsAllocations => cases ran
  | allocateNextCommandBuffer => exact allocateNextCommandBuffer_balance ran
  | closeAndAllocateNextCommandBuffer =>
    obtain ⟨_, -, ran⟩ := Option.bind_eq_some_iff.mp ran
    exact allocateNextCommandBuffer_balance ran
  | reuseExistingCmdBuffer j force tags =>
    cases target
    obtain ⟨⟨result, _⟩, ran, ⟨⟩⟩ := Option.map_eq_some_iff.mp ran
    exact (reuseExistingCmdBuffer_balance (allowed c current) ran).1
  | addCurrentCommandBufferToReusableAllocationList => exact addCurrent_balance ran
  | allocateCommandBuffer =>
    unfold World.onContainer at ran
    simp only at ran
    split at ran
    next => cases ran
    next obtained =>
      cases ran
      exact (allocateCommandBuffer_balance obtained).trans (.of_perm (perm_push c _) _)
  | setCmdBuffer j a =>
    obtain ⟨-, ⟨⟩⟩ := Option.ite_none_right_eq_some.mp ran
    exact .refl _ _
  | swapStreams =>
    cases ran
    rw [swapStreams_owned]
    exact .refl _ _
  | fillReusableAllocationLists => exact fillReusableAllocationLists_balance ran
  | reset => exact reset_balance ran

theorem Conserved.put {i : Nat} {c c' : CommandContainer} {s' : SharedBuffers}
    (conserved : w.Conserved) (current : w.containers[i]? = some c)
    (balance : Balance c.owned w.shared c'.owned s') : (w.put i (c', s')).Conserved where
  count a := by
    have before := conserved.count a
    have moved := balance.count a
    have exchanged := Tally.tally_set owned current c' a
    simp only [World.places, World.put, List.count_append, Tally.tally] at before exchanged ⊢
    omega
  numbered := balance.numbered conserved.numbered

theorem Conserved.run {op : Op} (conserved : w.Conserved) (allowed : Allowed w op)
    (ran : w.run memory op = some w') : w'.Conserved := by
  have onTarget : (do
      let i ← World.target op
      let c ← w.containers[i]?
      return w.put i (← w.onContainer memory c op)) = some w' → w'.Conserved := by
    intro ran
    obtain ⟨i, target, ran⟩ := Option.bind_eq_some_iff.mp ran
    obtain ⟨c, current, ran⟩ := Option.bind_eq_some_iff.mp ran
    obtain ⟨⟨c', s'⟩, moved, ⟨⟩⟩ := Option.bind_eq_some_iff.mp ran
    exact Conserved.put conserved current (onContainer_balance target current allowed moved)
  cases op with
  | initializeContainer size root csr secondary =>
    obtain ⟨c, s, code, created⟩ : ∃ c s code, initializeContainer memory
        { alignedCmdBufferSize := size, rootDeviceIndex := root, immediateCmdListCsr := csr }
        w.shared secondary = (c, s, code) := ⟨_, _, _, rfl⟩
    have balance := initializeContainer_balance created
    simp only [World.run, created] at ran
    cases ran
    refine ⟨fun a => ?_, balance.numbered conserved.numbered⟩
    have before := conserved.count a
    have moved := balance.count a
    simp only [owned, Option.getD_none, List.count_append, List.count_nil] at moved
    simp only [World.places, List.flatMap_append, List.flatMap_singleton, List.count_append,
      owned] at before ⊢
    omega
  | destroy i =>
    obtain ⟨c, current, ⟨⟩⟩ := Option.bind_eq_some_iff.mp ran
    have balance := handleCmdBufferAllocations_balance c w.shared 0
    refine ⟨fun a => ?_, balance.numbered conserved.numbered⟩
    have before := conserved.count a
    have moved := balance.count a
    have left := Tally.tally_eraseIdx owned current a
    simp only [List.take_zero, List.count_nil] at moved
    simp only [World.places, List.count_append, Tally.tally] at before left ⊢
    omega
  | updateTaskCount taskCount =>
    cases ran
    exact ⟨conserved.count, conserved.numbered⟩
  | freeAllGraphicsAllocations =>
    cases ran
    refine ⟨fun a => ?_, conserved.numbered⟩
    have before := conserved.count a
    simp only [World.places, SharedBuffers.kept, List.count_append, List.count_nil] at before ⊢
    omega
  | _ => exact onTarget ran

theorem reachable_conserved (reachable : Reachable ((system memory).restrict Allowed) w) :
    w.Conserved := by
  induction reachable with
  | start initial =>
    subst initial
    exact ⟨fun _ => rfl, by simp [SharedBuffers.Numbered]⟩
  | next _ step ih => exact Conserved.run ih step.1 step.2

/-- A search that returns no buffer has left none that fits. -/
def World.NullOnlyWithoutMatch (w : World) : Prop :=
  ∀ i force tags, Allowed w (.reuseExistingCmdBuffer i force tags) →
    ∀ c c' s', w.containers[i]? = some c →
      c.reuseExistingCmdBuffer w.shared force tags = some (none, c', s') →
      ∀ immediate, c.immediateReusableAllocationList = some immediate →
        ∀ a ∈ immediate ++ w.shared.reusableAllocationList,
          fits (progress w.shared tags) (c.reuseRequirements force) a = false

/-- In every run whose reuses find a buffer in the immediate list or could not find one in the
shared list, every buffer ever obtained is in exactly one place. -/
theorem buffers_conserved (reachable : Reachable ((system memory).restrict Allowed) w) :
    w.places.Perm w.shared.obtained ∧ w.shared.obtained.Nodup ∧ w.NullOnlyWithoutMatch := by
  have conserved := reachable_conserved reachable
  refine ⟨List.perm_iff_count.mpr conserved.count, conserved.numbered.2, ?_⟩
  intro i force tags allowed c c' s' current ran
  exact (reuseExistingCmdBuffer_balance (allowed c current) ran).2 rfl

end Runs

/-- A memory manager that never runs out of memory. -/
def ampleMemory : Memory := fun _ => some { isSystemMemoryPool := true, subDeviceBitfield := 0 }

/-- A container whose command stream is replaced once; the used buffer waits in its immediate
list for the receiver to finish task 1. -/
def replaceBuffer : List Op :=
  [.initializeContainer 0x110000 0 (some ⟨0, 0, 1⟩) false, .fillReusableAllocationLists 0 0,
   .addCurrentCommandBufferToReusableAllocationList 0 0, .allocateNextCommandBuffer 0]

/-- A reset moves the used buffer to the shared list, where it fits, as task 1 is finished. -/
def reuseFromShared : List Op :=
  replaceBuffer ++ [.reset 0, .reuseExistingCmdBuffer 0 false fun _ => 1]

theorem buffers_lost : ∃ w, Reachable (system ampleMemory) w ∧
    reuseFromShared.foldlM (World.run · ampleMemory) {} = some w ∧
    ∃ a ∈ w.shared.obtained, a ∉ w.places := by
  have lost : ((reuseFromShared.foldlM (World.run · ampleMemory) {}).any
      fun w => w.shared.obtained.any fun a => decide (a ∉ w.places)) = true := by decide +kernel
  obtain ⟨w, ran, lost⟩ := (Option.any_eq_true _ _).mp lost
  refine ⟨w, Reachable.foldlM (fun _ _ _ step => step) (.start rfl) ran, ran, ?_⟩
  simpa only [List.any_eq_true, decide_eq_true_eq] using lost

/-- The used buffer is written again once task 1 is finished: it comes from the immediate list. -/
def reuseFromImmediate : List Op := replaceBuffer ++ [.reuseExistingCmdBuffer 0 false fun _ => 1]

/-- A step, if it is allowed. -/
def World.runAllowed (w : World) (op : Op) : Option World :=
  if Allowed w op then w.run ampleMemory op else none

theorem buffers_conserved_reused : ∃ w : World,
    reuseFromImmediate.foldlM World.runAllowed {} = some w ∧
      (w.containers.map fun c => c.cmdBufferAllocations.map (·.handle)) = [[1, 0]] ∧
        w.places.Perm w.shared.obtained ∧ w.shared.obtained.Nodup ∧ w.NullOnlyWithoutMatch := by
  have ran : ((reuseFromImmediate.foldlM World.runAllowed {}).any fun w =>
      decide ((w.containers.map fun c => c.cmdBufferAllocations.map (·.handle)) = [[1, 0]])) =
        true := by
    decide +kernel
  obtain ⟨w, ran, state⟩ := (Option.any_eq_true _ _).mp ran
  have reachable : Reachable ((system ampleMemory).restrict Allowed) w :=
    Reachable.foldlM (fun _ _ _ step => Option.ite_none_right_eq_some.mp step) (.start rfl) ran
  exact ⟨w, ran, of_decide_eq_true state, buffers_conserved reachable⟩

end CommandContainer

end ComputeRuntime
