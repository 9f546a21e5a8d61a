import Mathlib.Data.Nat.Notation

/-! What the components share: texts, which are bytes, and how a call can end other than by
returning. -/
namespace ComputeRuntime

/-- The bytes of an ASCII text. -/
def ascii (text : String) : List UInt8 := text.toList.map fun character =>
  UInt8.ofNat character.toNat

/-- `unrecoverable` is a failed `UNRECOVERABLE_IF`, `divisionByZero` and `nullAccess` are traps,
`exception` is one that nothing catches, `outOfBounds` is an access outside the object it is meant
for; `outOfFuel` marks a loop that was cut off before it decided to leave, so a result that needs
fuel says how much is enough. -/
inductive Abort where
  | unrecoverable
  | divisionByZero
  | nullAccess
  | exception
  | outOfBounds
  | outOfFuel
  deriving DecidableEq

/-- The result of a call that may abort. -/
abbrev Result (α : Type u) := Except Abort α

/-- A sequence of calls that returns: the first one returned, and so did the rest. -/
theorem bind_eq_ok {α β : Type u} {x : Result α} {f : α → Result β} {b : β} :
    x >>= f = .ok b ↔ ∃ a, x = .ok a ∧ f a = .ok b := by
  cases x with
  | error abort =>
    constructor
    · rintro ⟨⟩
    · rintro ⟨_, ⟨⟩, _⟩
  | ok a =>
    constructor
    · exact fun returned => ⟨a, rfl, returned⟩
    · rintro ⟨_, ⟨⟩, returned⟩
      exact returned

/-- The rest of a sequence of calls whose first one returned. -/
theorem bind_of_ok {α β : Type u} {x : Result α} {a : α} (ran : x = .ok a) (f : α → Result β) :
    x >>= f = f a := by
  rw [ran]
  rfl

/-- Integer division, which traps on a zero divisor. -/
def checkedDiv (a b : ℕ) : Result ℕ := if b = 0 then .error .divisionByZero else .ok (a / b)

/-- The remainder of an integer division. -/
def checkedMod (a b : ℕ) : Result ℕ := if b = 0 then .error .divisionByZero else .ok (a % b)

theorem checkedDiv_eq {a b : ℕ} (nonzero : b ≠ 0) : checkedDiv a b = .ok (a / b) := if_neg nonzero

theorem checkedDiv_ok {a b c : ℕ} (divided : checkedDiv a b = .ok c) : c = a / b := by
  unfold checkedDiv at divided
  split at divided
  next => cases divided
  next =>
    cases divided
    rfl

theorem checkedMod_eq {a b : ℕ} (nonzero : b ≠ 0) : checkedMod a b = .ok (a % b) := if_neg nonzero

end ComputeRuntime
