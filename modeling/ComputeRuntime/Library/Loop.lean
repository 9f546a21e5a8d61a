import ComputeRuntime.Library.Word
import Mathlib.Data.Sum.Basic

/-! Counted loops whose counter is a fixed-width word, with an early return, and what follows
them. The bound may be wider than the counter: a counter that wraps around before it reaches the
bound runs for ever, so a loop takes fuel and says so when it is used up. Two kinds of rules
prove something about such code: `Ends` is about the runs that end, `Reaches` says that a run
ends. -/
namespace Loop

variable {ε σ τ ρ : Type*}

/-- `for (i = start; i < bound; i++)` with a `w`-bit counter. The body goes on with a new state
(`inl`) or returns from the function around the loop (`inr`). -/
def forWord (w : Nat) (outOfFuel : ε) (bound : Nat) (body : Nat → σ → Except ε (σ ⊕ ρ)) :
    Nat → Nat → σ → Except ε (σ ⊕ ρ)
  | 0, _, _ => .error outOfFuel
  | fuel + 1, i, s =>
    if i < bound then
      match body i s with
      | .error abort => .error abort
      | .ok (.inr r) => .ok (.inr r)
      | .ok (.inl s) => forWord w outOfFuel bound body fuel (Word.add w i 1) s
    else .ok (.inl s)

/-- The loop without a return statement in its body. -/
def forWordAll (w : Nat) (outOfFuel : ε) (bound : Nat) (body : Nat → σ → Except ε σ)
    (fuel i : Nat) (s : σ) : Except ε σ :=
  let lifted : Nat → σ → Except ε (σ ⊕ Empty) := fun i s => (body i s).map .inl
  (forWord w outOfFuel bound lifted fuel i s).map (Sum.elim id Empty.elim)

/-- What follows a part of a function that may have returned. -/
def andThen (part : Except ε (σ ⊕ ρ)) (next : σ → Except ε (τ ⊕ ρ)) : Except ε (τ ⊕ ρ) :=
  match part with
  | .error abort => .error abort
  | .ok (.inr r) => .ok (.inr r)
  | .ok (.inl s) => next s

/-- The last part of a function, reached when no part before it returned. -/
def finish (part : Except ε (σ ⊕ ρ)) (last : σ → Except ε ρ) : Except ε ρ :=
  match part with
  | .error abort => .error abort
  | .ok (.inr r) => .ok r
  | .ok (.inl s) => last s

/-- If the part ends, it goes on in a state with `P` or returns a value with `Q`. -/
def Ends (P : σ → Prop) (Q : ρ → Prop) (part : Except ε (σ ⊕ ρ)) : Prop :=
  ∀ o, part = .ok o → o.elim P Q

/-- The part ends and goes on in a state with `P`. -/
def Reaches (P : σ → Prop) (part : Except ε (σ ⊕ ρ)) : Prop := ∃ s, part = .ok (.inl s) ∧ P s

section Ends

variable {w : Nat} {outOfFuel : ε} {bound : Nat} {body : Nat → σ → Except ε (σ ⊕ ρ)} {fuel : Nat}
  {Q : ρ → Prop}

theorem Ends.goesOn {P : σ → Prop} {s : σ} (holds : P s) :
    Ends P Q (.ok (.inl s) : Except ε (σ ⊕ ρ)) := by
  rintro _ ⟨⟩
  exact holds

theorem Ends.mono {P P' : σ → Prop} {Q' : ρ → Prop} {part : Except ε (σ ⊕ ρ)}
    (ends : Ends P Q part) (state : ∀ s, P s → P' s) (value : ∀ r, Q r → Q' r) :
    Ends P' Q' part := by
  intro o ended
  have kept := ends o ended
  cases o with
  | inl s => exact state s kept
  | inr r => exact value r kept

theorem Ends.andThen {P : σ → Prop} {P' : τ → Prop} {part : Except ε (σ ⊕ ρ)}
    {next : σ → Except ε (τ ⊕ ρ)} (first : Ends P Q part)
    (second : ∀ s, P s → Ends P' Q (next s)) : Ends P' Q (andThen part next) := by
  intro o ended
  cases part with
  | error => cases ended
  | ok result =>
    cases result with
    | inl s => exact second s (first _ rfl) o ended
    | inr r =>
      cases ended
      exact first _ rfl

theorem Ends.finish {P : σ → Prop} {part : Except ε (σ ⊕ ρ)} {last : σ → Except ε ρ} {r : ρ}
    (first : Ends P Q part) (second : ∀ s, P s → last s = .ok r → Q r)
    (finished : finish part last = .ok r) : Q r := by
  cases part with
  | error => cases finished
  | ok result =>
    cases result with
    | inl s => exact second s (first _ rfl) finished
    | inr r =>
      cases finished
      exact first _ rfl

/-- When the last part returned, so did the first. -/
theorem finish_ok {part : Except ε (σ ⊕ ρ)} {last : σ → Except ε ρ} {r : ρ}
    (finished : finish part last = .ok r) : ∃ o, part = .ok o := by
  cases part with
  | error => cases finished
  | ok o => exact ⟨o, rfl⟩

theorem andThen_ok {part : Except ε (σ ⊕ ρ)} {next : σ → Except ε (τ ⊕ ρ)} {o : τ ⊕ ρ}
    (ended : andThen part next = .ok o) : ∃ o, part = .ok o := by
  cases part with
  | error => cases ended
  | ok o => exact ⟨o, rfl⟩

section Rounds

variable {i : Nat} {s : σ}

theorem forWord_done (done : ¬i < bound) :
    forWord w outOfFuel bound body (fuel + 1) i s = .ok (.inl s) := if_neg done

theorem forWord_error {abort : ε} (more : i < bound) (ran : body i s = .error abort) :
    forWord w outOfFuel bound body (fuel + 1) i s = .error abort :=
  (if_pos more).trans (by rw [ran])

theorem forWord_return {r : ρ} (more : i < bound) (ran : body i s = .ok (.inr r)) :
    forWord w outOfFuel bound body (fuel + 1) i s = .ok (.inr r) :=
  (if_pos more).trans (by rw [ran])

theorem forWord_next {s' : σ} (more : i < bound) (ran : body i s = .ok (.inl s')) :
    forWord w outOfFuel bound body (fuel + 1) i s =
      forWord w outOfFuel bound body fuel (Word.add w i 1) s' :=
  (if_pos more).trans (by rw [ran])

end Rounds

/-- A state property that every round keeps, whatever the counter is. -/
theorem forWord_keeps {P : σ → Prop} (round : ∀ i s, P s → Ends P Q (body i s)) {i : Nat} {s : σ}
    (start : P s) : Ends P Q (forWord w outOfFuel bound body fuel i s) := by
  induction fuel generalizing i s with
  | zero => rintro _ ⟨⟩
  | succ fuel ih =>
    by_cases more : i < bound
    · cases ran : body i s with
      | error =>
        rw [forWord_error more ran]
        rintro _ ⟨⟩
      | ok ended =>
        have kept := round i s start ended ran
        cases ended with
        | inl s =>
          rw [forWord_next more ran]
          exact ih kept
        | inr r =>
          rw [forWord_return more ran]
          rintro _ ⟨⟩
          exact kept
    · rw [forWord_done more]
      exact .goesOn start

variable {P : Nat → σ → Prop}

private theorem next_index (fits : bound < 2 ^ w) {i : Nat} (more : i < bound) :
    Word.add w i 1 = i + 1 :=
  Word.add_eq (by omega)

/-- When the counter can reach the bound, a loop that ends without returning has run every
round. -/
theorem forWord_runs (fits : bound < 2 ^ w)
    (round : ∀ i s, i < bound → P i s → Ends (P (i + 1)) Q (body i s)) {i : Nat} {s : σ}
    (low : i ≤ bound) (start : P i s) :
    Ends (P bound) Q (forWord w outOfFuel bound body fuel i s) := by
  induction fuel generalizing i s with
  | zero => rintro _ ⟨⟩
  | succ fuel ih =>
    by_cases more : i < bound
    · cases ran : body i s with
      | error =>
        rw [forWord_error more ran]
        rintro _ ⟨⟩
      | ok ended =>
        have kept := round i s more start ended ran
        cases ended with
        | inl s =>
          rw [forWord_next more ran, next_index fits more]
          exact ih more kept
        | inr r =>
          rw [forWord_return more ran]
          rintro _ ⟨⟩
          exact kept
    · have last : i = bound := by omega
      rw [forWord_done more]
      exact .goesOn (last ▸ start)

/-- A loop none of whose rounds aborts or returns ends once the fuel outlasts the bound. -/
theorem forWord_reaches (fits : bound < 2 ^ w)
    (round : ∀ i s, i < bound → P i s → Reaches (P (i + 1)) (body i s)) {i : Nat} {s : σ}
    (low : i ≤ bound) (enough : bound < i + fuel) (start : P i s) :
    Reaches (P bound) (forWord w outOfFuel bound body fuel i s) := by
  induction fuel generalizing i s with
  | zero => omega
  | succ fuel ih =>
    by_cases more : i < bound
    · obtain ⟨s', ran, kept⟩ := round i s more start
      rw [forWord_next more ran, next_index fits more]
      exact ih more (by omega) kept
    · have last : i = bound := by omega
      exact ⟨s, forWord_done more, last ▸ start⟩

/-- A loop that ends has run its first round, if there is one. -/
theorem forWord_first (some : 0 < bound) {s : σ} {o : σ ⊕ ρ}
    (ended : forWord w outOfFuel bound body fuel 0 s = .ok o) : ∃ o, body 0 s = .ok o := by
  cases fuel with
  | zero => cases ended
  | succ fuel =>
    cases ran : body 0 s with
    | error =>
      rw [forWord_error some ran] at ended
      cases ended
    | ok o => exact ⟨o, rfl⟩

/-- A counter too narrow for its bound never ends the loop; only a round that aborts or returns
does. -/
theorem forWord_narrow {P : σ → Prop} (narrow : 2 ^ w ≤ bound)
    (round : ∀ i s, i < 2 ^ w → P s → Ends P Q (body i s)) {i : Nat} {s : σ} (word : i < 2 ^ w)
    (start : P s) : Ends (fun _ => False) Q (forWord w outOfFuel bound body fuel i s) := by
  induction fuel generalizing i s with
  | zero => rintro _ ⟨⟩
  | succ fuel ih =>
    have more : i < bound := by omega
    cases ran : body i s with
    | error =>
      rw [forWord_error more ran]
      rintro _ ⟨⟩
    | ok ended =>
      have kept := round i s word start ended ran
      cases ended with
      | inl s =>
        rw [forWord_next more ran]
        exact ih (Word.add_lt w i 1) kept
      | inr r =>
        rw [forWord_return more ran]
        rintro _ ⟨⟩
        exact kept

theorem forWord_stuck {P : σ → Prop} (narrow : 2 ^ w ≤ bound)
    (round : ∀ i s, P s → Ends P (fun _ => False) (body i s)) {i : Nat} {s : σ}
    (word : i < 2 ^ w) (start : P s) (o : σ ⊕ ρ) :
    forWord w outOfFuel bound body fuel i s ≠ .ok o := by
  intro ended
  have never := forWord_narrow narrow (fun i s _ => round i s) word start o ended
  cases o with
  | inl s => exact never
  | inr r => exact never

end Ends

section Reaches

theorem Reaches.andThen {P : σ → Prop} {P' : τ → Prop} {part : Except ε (σ ⊕ ρ)}
    {next : σ → Except ε (τ ⊕ ρ)} (first : Reaches P part)
    (second : ∀ s, P s → Reaches P' (next s)) : Reaches P' (andThen part next) := by
  obtain ⟨s, rfl, holds⟩ := first
  exact second s holds

end Reaches

section All

variable {w : Nat} {outOfFuel : ε} {bound : Nat} {body : Nat → σ → Except ε σ} {fuel : Nat}

private theorem map_eq_ok {α β : Type*} {f : α → β} {x : Except ε α} {b : β} :
    x.map f = .ok b ↔ ∃ a, x = .ok a ∧ f a = b := by
  cases x <;> simp [Except.map]

theorem forWordAll_ends {P : Nat → σ → Prop} (fits : bound < 2 ^ w)
    (round : ∀ i s, i < bound → P i s → ∃ s', body i s = .ok s' ∧ P (i + 1) s') {i : Nat} {s : σ}
    (low : i ≤ bound) (enough : bound < i + fuel) (start : P i s) :
    ∃ s', forWordAll w outOfFuel bound body fuel i s = .ok s' ∧ P bound s' := by
  have lifted : Reaches (P bound) (forWord w outOfFuel bound
      (fun i s => (body i s).map (Sum.inl (β := Empty))) fuel i s) := by
    refine forWord_reaches fits ?_ low enough start
    intro i s more holds
    obtain ⟨s', ran, kept⟩ := round i s more holds
    exact ⟨s', map_eq_ok.mpr ⟨s', ran, rfl⟩, kept⟩
  obtain ⟨s', ran, holds⟩ := lifted
  exact ⟨s', map_eq_ok.mpr ⟨.inl s', ran, rfl⟩, holds⟩

/-- A loop without returns whose bound its counter cannot reach never ends. -/
theorem forWordAll_stuck (narrow : 2 ^ w ≤ bound) {i : Nat} (word : i < 2 ^ w) (s s' : σ) :
    forWordAll w outOfFuel bound body fuel i s ≠ .ok s' := by
  intro finished
  obtain ⟨o, ran, -⟩ := map_eq_ok.mp finished
  refine forWord_stuck (P := fun _ => True) narrow ?_ word trivial o ran
  rintro i s - o lifted
  obtain ⟨_, -, rfl⟩ := map_eq_ok.mp lifted
  trivial

theorem forWordAll_first (some : 0 < bound) {s s' : σ}
    (finished : forWordAll w outOfFuel bound body fuel 0 s = .ok s') :
    ∃ s₁, body 0 s = .ok s₁ := by
  obtain ⟨_, ran, -⟩ := map_eq_ok.mp finished
  obtain ⟨_, first⟩ := forWord_first some ran
  obtain ⟨s₁, first, -⟩ := map_eq_ok.mp first
  exact ⟨s₁, first⟩

end All

end Loop
