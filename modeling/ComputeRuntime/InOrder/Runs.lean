import ComputeRuntime.InOrder.Consistency

/-! Runs of regular in-order command lists: in every execution signals grow, and waits are for the
values that their operations signal. -/
namespace ComputeRuntime.InOrder

open Transition

variable {device : Device} {s s' : State} {items : Nat → List Item} {amounts : Nat → Amounts}

/-- The condition on the steps of a run. -/
def Allowed (device : Device) (s : State) : Action → Prop
  | .append id operation => (s.lists id).Appendable device operation
  | .close _ => True
  | .execute id => s.Executable device id

theorem State.Consistent.close (consistent : s.Consistent device items amounts) (id : Nat) :
    State.Consistent device { s with
      lists := Function.update s.lists id { s.lists id with closedCmdList := true } }
      items amounts := by
  have lists : ∀ id', Function.update s.lists id { s.lists id with closedCmdList := true } id' =
      { s.lists id' with
        closedCmdList := if id' = id then true else (s.lists id').closedCmdList } := by
    intro id'
    by_cases same : id' = id
    · subst same
      rw [Function.update_self, if_pos rfl]
    · rw [Function.update_of_ne same, if_neg same]
  constructor
  · intro id'
    have sound := consistent.sound id'
    simp only [lists]
    refine { sound with executed := fun some => ⟨?_, (sound.executed some).2⟩, records := ?_ }
    · exact ⟨sound.records.commands, sound.records.patches⟩
    · rw [(sound.executed some).1]
      exact ite_self true
  · exact consistent.small
  · intro id' other once
    simp only [lists] at once
    exact consistent.idle id' other once
  · intro id' value member
    simp only [lists]
    exact consistent.signalled id' value member
  · exact consistent.events

instance (s : State) : (action : Action) → Decidable (Allowed device s action)
  | .append id operation => decidable_of_iff
      ((s.lists id).info.counterValue + 1 <
          (if device.isQwordInOrderCounter then 2 ^ 64 else 2 ^ 32 - 1) ∧
        (operation.signalling = .optimizedCbEvent →
          device.heaplessModeEnabled = false ∧ (s.lists id).copyOnly = false))
      ⟨fun both => ⟨both.1, both.2⟩, fun appendable => ⟨appendable.room, appendable.resolved⟩⟩
  | .close _ => .isTrue trivial
  | .execute id => inferInstanceAs (Decidable
      ((s.lists id).info.counterValue *
        ((s.lists id).info.regularCmdListSubmissionCounter + 1) < 2 ^ device.bits))

/-- A run from new lists. -/
def runAllowed (device : Device) (actions : List Action) : Option State :=
  actions.foldlM
    (fun s action => if Allowed device s action then s.step device action else none)
    { lists := fun _ => {} }

theorem reachable_of_runAllowed {actions : List Action}
    (run : runAllowed device actions = some s) :
    Reachable ((system device).restrict (Allowed device)) s :=
  Reachable.foldlM (fun _ _ _ step => Option.ite_none_right_eq_some.mp step)
    (.start ⟨fun _ => false, rfl⟩) run

end ComputeRuntime.InOrder
