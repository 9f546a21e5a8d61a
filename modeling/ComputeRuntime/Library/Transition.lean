import Mathlib.Data.Nat.Notation
import Mathlib.Data.Option.Basic

/-! Labelled transition systems: the states a run can reach, and the rule that proves a
property of all of them from its initial states and its steps. -/
namespace Transition

universe u v

variable {σ : Type u} {α : Type v}

structure System (σ : Type u) (α : Type v) where
  init : σ → Prop
  step : σ → α → σ → Prop

/-- The states of the runs of a system. -/
inductive Reachable (sys : System σ α) : σ → Prop where
  | start {s : σ} (initial : sys.init s) : Reachable sys s
  | next {s t : σ} {a : α} (before : Reachable sys s) (step : sys.step s a t) : Reachable sys t

/-- An inductive property: it holds at the start, and every step from a reachable state that
has it leads to a state that has it. -/
structure Invariant (sys : System σ α) (P : σ → Prop) : Prop where
  initial : ∀ s, sys.init s → P s
  preserved : ∀ s a t, Reachable sys s → P s → sys.step s a t → P t

theorem Invariant.holds {sys : System σ α} {P : σ → Prop} (invariant : Invariant sys P) {s : σ}
    (reachable : Reachable sys s) : P s := by
  induction reachable with
  | start initial => exact invariant.initial _ initial
  | next before step ih => exact invariant.preserved _ _ _ before ih step

/-- The runs all of whose steps are allowed in the state they start from. -/
def System.restrict (sys : System σ α) (allowed : σ → α → Prop) : System σ α where
  init := sys.init
  step := fun s a t => allowed s a ∧ sys.step s a t

theorem Reachable.of_restrict {sys : System σ α} {allowed : σ → α → Prop} {s : σ}
    (reachable : Reachable (sys.restrict allowed) s) : Reachable sys s := by
  induction reachable with
  | start initial => exact .start initial
  | next _ step ih => exact .next ih step.2

/-- What a computed run reaches. -/
theorem Reachable.foldlM {sys : System σ α} {compute : σ → α → Option σ}
    (steps : ∀ s a t, compute s a = some t → sys.step s a t) {s t : σ} {actions : List α}
    (reachable : Reachable sys s) (ran : actions.foldlM compute s = some t) : Reachable sys t := by
  induction actions generalizing s with
  | nil =>
    cases ran
    exact reachable
  | cons a actions ih =>
    rw [List.foldlM_cons] at ran
    obtain ⟨s', first, rest⟩ := Option.bind_eq_some_iff.mp ran
    exact ih (.next reachable (steps s a s' first)) rest

end Transition
