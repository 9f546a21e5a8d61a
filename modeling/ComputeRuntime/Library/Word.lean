import Mathlib.Data.Nat.Bitwise
import Mathlib.Tactic.Ring

/-! Fixed-width unsigned arithmetic on natural numbers: a `w`-bit word is a number
below `2 ^ w`, and every operation reduces its result modulo `2 ^ w`. -/
namespace Word

/-- Addition modulo `2 ^ w`. -/
def add (w a b : Nat) : Nat := (a + b) % 2 ^ w

/-- Subtraction modulo `2 ^ w`. -/
def sub (w a b : Nat) : Nat := (a + (2 ^ w - b % 2 ^ w)) % 2 ^ w

/-- Multiplication modulo `2 ^ w`. -/
def mul (w a b : Nat) : Nat := a * b % 2 ^ w

/-- Bitwise complement of a `w`-bit word. -/
def not (w a : Nat) : Nat := 2 ^ w - 1 - a % 2 ^ w

theorem add_lt (w a b : Nat) : add w a b < 2 ^ w := Nat.mod_lt _ (Nat.two_pow_pos w)

theorem sub_lt (w a b : Nat) : sub w a b < 2 ^ w := Nat.mod_lt _ (Nat.two_pow_pos w)

theorem add_eq {w a b : Nat} (fits : a + b < 2 ^ w) : add w a b = a + b := Nat.mod_eq_of_lt fits

theorem mul_eq {w a b : Nat} (fits : a * b < 2 ^ w) : mul w a b = a * b := Nat.mod_eq_of_lt fits

theorem sub_eq {w a b : Nat} (below : b ≤ a) (fits : a < 2 ^ w) : sub w a b = a - b := by
  unfold sub
  rw [Nat.mod_eq_of_lt (Nat.lt_of_le_of_lt below fits)]
  have split : a + (2 ^ w - b) = (a - b) + 2 ^ w := by omega
  rw [split, Nat.add_mod_right, Nat.mod_eq_of_lt (by omega)]

/-- A subtraction that borrows ends up `2 ^ w` higher. -/
theorem sub_borrow {w a b : Nat} (above : a < b) (fits : b < 2 ^ w) :
    sub w a b = a + 2 ^ w - b := by
  unfold sub
  rw [Nat.mod_eq_of_lt fits, Nat.mod_eq_of_lt (by omega)]
  omega

/-- Two sums that wrap one after the other are one. -/
theorem add_add (w a b c : Nat) : add w (add w a b) c = add w a (b + c) := by
  simp only [add, Nat.mod_add_mod, Nat.add_assoc]

/-- A divisor of the modulus does not see a wrap. -/
theorem dvd_add_iff {d w a b : Nat} (divides : d ∣ 2 ^ w) : d ∣ add w a b ↔ d ∣ a + b :=
  Nat.dvd_mod_iff divides

theorem dvd_mul {d w b : Nat} (divides : d ∣ 2 ^ w) (factor : d ∣ b) (a : Nat) :
    d ∣ mul w a b :=
  (Nat.dvd_mod_iff divides).mpr (Dvd.dvd.mul_left factor a)

/-- Masking with the complement of `2 ^ k - 1` clears the `k` low bits. -/
theorem and_not_mask {w k x : Nat} (small : k ≤ w) (fits : x < 2 ^ w) :
    x &&& not w (2 ^ k - 1) = x / 2 ^ k * 2 ^ k := by
  have mask : 2 ^ k - 1 < 2 ^ w := by
    have := Nat.pow_le_pow_right (n := 2) (by omega) small
    have := Nat.two_pow_pos k
    omega
  apply Nat.eq_of_testBit_eq
  intro i
  rw [not, Nat.mod_eq_of_lt mask, Nat.testBit_and, Nat.sub_sub, Nat.add_comm 1,
    Nat.testBit_two_pow_sub_succ mask, Nat.testBit_two_pow_sub_one, Nat.mul_comm,
    Nat.testBit_two_pow_mul, Nat.testBit_div_two_pow]
  by_cases low : i < k
  · simp [low, Nat.not_le.mpr low]
  · have high : k ≤ i := by omega
    simp only [low, high, decide_false, decide_true, Bool.not_false, Bool.and_true, Bool.true_and,
      Nat.sub_add_cancel]
    by_cases inside : i < w
    · simp [inside]
    · rw [Nat.testBit_lt_two_pow (Nat.lt_of_lt_of_le fits (Nat.pow_le_pow_right (by omega)
        (by omega)))]
      simp

end Word
