import Mathlib.Data.Nat.Notation
import Mathlib.Data.Int.Notation
import Mathlib.Data.List.TakeWhile
import Mathlib.Order.Lattice
import Mathlib.Order.Basic
import Mathlib.Order.Defs.LinearOrder
import Mathlib.Algebra.Group.Int.Defs

/-! The C conversion of a text to a 64-bit integer. It saturates, and says where the number it
read ends. -/
namespace Strtoll

/-- The value of a digit or a letter as a digit. -/
def digitValue (character : UInt8) : Option ℕ :=
  if 48 ≤ character ∧ character ≤ 57 then some (character.toNat - 48)
  else if 97 ≤ character ∧ character ≤ 122 then some (character.toNat - 87)
  else if 65 ≤ character ∧ character ≤ 90 then some (character.toNat - 55)
  else none

/-- A digit of a base. -/
def isDigit (base : ℕ) (character : UInt8) : Bool :=
  (digitValue character).any (· < base)

/-- The value of some digits, the most significant first. -/
def value (base : ℕ) (digits : List UInt8) : ℕ :=
  digits.foldl (fun total character => total * base + (digitValue character).getD 0) 0

/-- The nearest 64-bit signed integer. -/
def saturate (number : ℤ) : ℤ := max (-2 ^ 63) (min number (2 ^ 63 - 1))

def isSpace (character : UInt8) : Bool :=
  character == 32 || (9 ≤ character && character ≤ 13)

/-- Whether a minus is in front, and what follows the sign. -/
def readSign : List UInt8 → Bool × List UInt8
  | 45 :: rest => (true, rest)
  | 43 :: rest => (false, rest)
  | rest => (false, rest)

/-- A base prefix counts only in front of a digit. -/
def skipPrefix (base : ℕ) : List UInt8 → List UInt8
  | 48 :: mark :: digit :: rest =>
    if base = 16 ∧ (mark = 120 ∨ mark = 88) ∧ isDigit 16 digit then digit :: rest
    else 48 :: mark :: digit :: rest
  | rest => rest

/-- The number a text starts with, and the text behind it: the whole text when there is none. -/
def strtoll (text : List UInt8) (base : ℕ) : ℤ × List UInt8 :=
  let (negative, unsigned) := readSign (text.dropWhile isSpace)
  let numeral := skipPrefix base unsigned
  let digits := numeral.takeWhile (isDigit base)
  if digits = [] then (0, text)
  else (saturate (if negative then -value base digits else value base digits),
    numeral.dropWhile (isDigit base))

variable {base : ℕ} {text unsigned digits rest : List UInt8} {negative : Bool}

theorem skipPrefix_of_ne (other : base ≠ 16) (rest : List UInt8) : skipPrefix base rest = rest := by
  unfold skipPrefix
  split
  next => rw [if_neg fun hex => other hex.1]
  next => rfl

/-- The digits are those in front of the first character that is none. -/
theorem strtoll_of_split (front : text.dropWhile isSpace = text)
    (sign : readSign text = (negative, unsigned))
    (numeral : skipPrefix base unsigned = digits ++ rest)
    (all : ∀ c ∈ digits, isDigit base c = true) (stops : ∀ c ∈ rest.head?, isDigit base c = false) :
    strtoll text base = if digits = [] then (0, text)
      else (saturate (if negative then -value base digits else value base digits), rest) := by
  have none_taken : rest.takeWhile (isDigit base) = [] := by
    cases rest with
    | nil => rfl
    | cons c rest => exact List.takeWhile_cons_of_neg (by simp [stops c rfl])
  have none_dropped : rest.dropWhile (isDigit base) = rest := by
    cases rest with
    | nil => rfl
    | cons c rest => exact List.dropWhile_cons_of_neg (by simp [stops c rfl])
  unfold strtoll
  rw [front, sign]
  simp only [numeral]
  rw [List.takeWhile_append_of_pos all, List.dropWhile_append_of_pos all, none_taken, none_dropped,
    List.append_nil]

theorem saturate_bounds (number : ℤ) : -2 ^ 63 ≤ saturate number ∧ saturate number < 2 ^ 63 := by
  unfold saturate
  omega

theorem strtoll_bounds (text : List UInt8) (base : ℕ) :
    -2 ^ 63 ≤ (strtoll text base).1 ∧ (strtoll text base).1 < 2 ^ 63 := by
  unfold strtoll
  simp only
  split
  next =>
    have zero : (-2 ^ 63 : ℤ) ≤ 0 ∧ (0 : ℤ) < 2 ^ 63 := by decide
    exact zero
  next => exact saturate_bounds _

end Strtoll
