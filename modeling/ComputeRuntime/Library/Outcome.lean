import Mathlib.Data.List.Infix

/-! What a computation that may fail leaves behind in either case, and the rules that carry it
through sequences and loops over a list. -/
namespace Outcome

universe u

variable {ε α : Type*} {σ τ : Type u} {P : σ → Prop} {Q : ε → Prop} {R : τ → Prop}

/-- The result has `P`, or the failure has `Q`. -/
def Holds (P : σ → Prop) (Q : ε → Prop) : Except ε σ → Prop
  | .ok s => P s
  | .error e => Q e

theorem of_ok {x : Except ε σ} (outcome : Holds P Q x) {s : σ} (ran : x = .ok s) : P s := by
  subst ran
  exact outcome

/-- The result has `P`, and it is what the computation returned. -/
theorem remember {x : Except ε σ} (outcome : Holds P Q x) :
    Holds (fun s => x = .ok s ∧ P s) Q x := by
  cases x with
  | ok s => exact ⟨rfl, outcome⟩
  | error e => exact outcome

theorem imp {P' : σ → Prop} {Q' : ε → Prop} {x : Except ε σ} (outcome : Holds P Q x)
    (result : ∀ s, P s → P' s) (failure : ∀ e, Q e → Q' e) : Holds P' Q' x := by
  cases x with
  | ok s => exact result s outcome
  | error e => exact failure e outcome

theorem andThen {x : Except ε σ} {f : σ → Except ε τ} (first : Holds P Q x)
    (next : ∀ s, P s → Holds R Q (f s)) : Holds R Q (x >>= f) := by
  cases x with
  | ok s => exact next s first
  | error e => exact first

theorem map {x : Except ε σ} {f : σ → τ} (outcome : Holds P Q x) (next : ∀ s, P s → R (f s)) :
    Holds R Q (x.map f) := by
  cases x with
  | ok s => exact next s outcome
  | error e => exact outcome

theorem bind_eq_ok {x : Except ε σ} {f : σ → Except ε τ} {t : τ} :
    x >>= f = .ok t ↔ ∃ s, x = .ok s ∧ f s = .ok t := by
  cases x with
  | ok s =>
    constructor
    · exact fun ran => ⟨s, rfl, ran⟩
    · rintro ⟨_, ⟨⟩, ran⟩
      exact ran
  | error e =>
    constructor
    · rintro ⟨⟩
    · rintro ⟨_, ⟨⟩, _⟩

/-- A loop over a list: what is known depends on the elements that are done. -/
theorem foldlM {step : σ → α → Except ε σ} {list : List α} {P : List α → σ → Prop} {s : σ}
    (start : P [] s)
    (round : ∀ done x s, done ++ [x] <+: list → P done s →
      Holds (P (done ++ [x])) Q (step s x)) :
    Holds (P list) Q (list.foldlM step s) := by
  suffices walk : ∀ rest done s, done ++ rest = list → P done s →
      Holds (P list) Q (rest.foldlM step s) from walk list [] s rfl start
  intro rest
  induction rest with
  | nil =>
    rintro done s rfl holds
    rw [List.append_nil]
    exact holds
  | cons x rest ih =>
    intro done s whole holds
    have split : (done ++ [x]) ++ rest = list := by simp [← whole]
    rw [List.foldlM_cons]
    apply andThen (round done x s ⟨rest, split⟩ holds)
    exact fun s' next => ih (done ++ [x]) s' split next

/-- What every round keeps, whatever was done before. -/
theorem foldlM_keeps {step : σ → α → Except ε σ} {list : List α} {s : σ} (start : P s)
    (round : ∀ x ∈ list, ∀ s, P s → Holds P Q (step s x)) :
    Holds P Q (list.foldlM step s) := by
  apply foldlM (P := fun _ => P) start
  intro done x s inside holds
  exact round x (inside.subset (by simp)) s holds

/-- A loop returns what it returned, if each round does. -/
theorem foldlM_eq_ok {step step' : σ → α → Except ε σ}
    (same : ∀ s x t, step s x = .ok t → step' s x = .ok t) {list : List α} {s t : σ}
    (ran : list.foldlM step s = .ok t) : list.foldlM step' s = .ok t := by
  induction list generalizing s with
  | nil => exact ran
  | cons x list ih =>
    rw [List.foldlM_cons] at ran ⊢
    obtain ⟨mid, first, rest⟩ := bind_eq_ok.mp ran
    exact bind_eq_ok.mpr ⟨mid, same s x mid first, ih rest⟩

end Outcome
