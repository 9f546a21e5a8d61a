import Mathlib.Data.List.Basic

/-! Memory in which commands are executed one behind another, and jumps are followed. -/
namespace Chain

universe u v

variable {A : Type u} {α : Type v}

/-- What is found at an address. -/
inductive Item (A : Type u) (α : Type v) where
  | execute (a : α) (next : A)
  | jump (target : A)
  | stop

/-- What is executed from an address on, until a stop. -/
inductive Runs (fetch : A → Option (Item A α)) : A → List α → Prop where
  | execute {address next : A} {a : α} {trace : List α}
      (found : fetch address = some (.execute a next)) (rest : Runs fetch next trace) :
      Runs fetch address (a :: trace)
  | jump {address target : A} {trace : List α} (found : fetch address = some (.jump target))
      (rest : Runs fetch target trace) : Runs fetch address trace
  | stop {address : A} (found : fetch address = some .stop) : Runs fetch address []

variable {fetch : A → Option (Item A α)}

theorem Runs.deterministic {address : A} {trace trace' : List α} (first : Runs fetch address trace)
    (second : Runs fetch address trace') : trace = trace' := by
  induction first generalizing trace' with
  | execute found _ ih =>
    cases second with
    | execute found' rest =>
      rw [found] at found'
      cases found'
      rw [ih rest]
    | jump found' _ => simp [found] at found'
    | stop found' => simp [found] at found'
  | jump found _ ih =>
    cases second with
    | execute found' _ => simp [found] at found'
    | jump found' rest =>
      rw [found] at found'
      cases found'
      exact ih rest
    | stop found' => simp [found] at found'
  | stop found =>
    cases second with
    | execute found' _ => simp [found] at found'
    | jump found' _ => simp [found] at found'
    | stop => rfl

/-- Commands one behind another. -/
theorem Runs.straight (place : Nat → A) {commands trace : List α} {start : Nat}
    (found : ∀ i command, commands[i]? = some command →
      fetch (place (start + i)) = some (.execute command (place (start + i + 1))))
    (rest : Runs fetch (place (start + commands.length)) trace) :
    Runs fetch (place start) (commands ++ trace) := by
  induction commands generalizing start with
  | nil => exact rest
  | cons command commands ih =>
    apply Runs.execute (found 0 command rfl)
    apply ih
    · intro i later member
      have at_ := found (i + 1) later member
      rwa [← Nat.add_assoc, Nat.add_right_comm] at at_
    · rwa [Nat.add_zero, Nat.add_right_comm]

end Chain
