import Mathlib.Data.Nat.Digits.Lemmas

/-! Decimal numerals as ASCII text. -/
namespace Decimal

/-- The numeral of a number, without leading zeros. -/
def text (n : ℕ) : List UInt8 :=
  if n = 0 then [48] else (Nat.digits 10 n).reverse.map fun digit => UInt8.ofNat (48 + digit)

/-- A digit character. -/
def IsDigit (character : UInt8) : Prop := 48 ≤ character.toNat ∧ character.toNat < 58

/-- The value of some digits, the most significant first. -/
def value (numeral : List UInt8) : ℕ :=
  numeral.foldl (fun total character => total * 10 + (character.toNat - 48)) 0

theorem value_concat (front : List UInt8) (last : UInt8) :
    value (front ++ [last]) = value front * 10 + (last.toNat - 48) := by
  simp only [value, List.foldl_append, List.foldl_cons, List.foldl_nil]

theorem toNat_digit {digit : ℕ} (small : digit < 10) :
    (UInt8.ofNat (48 + digit)).toNat = 48 + digit := by
  rw [UInt8.toNat_ofNat']
  omega

theorem isDigit_of_mem_text {n : ℕ} {character : UInt8} (member : character ∈ text n) :
    IsDigit character := by
  unfold text at member
  split at member
  · rw [List.mem_singleton] at member
    subst member
    exact ⟨by decide, by decide⟩
  · simp only [List.mem_map, List.mem_reverse] at member
    obtain ⟨digit, mem, rfl⟩ := member
    have small := Nat.digits_lt_base (by decide) mem
    rw [IsDigit, toNat_digit small]
    omega

theorem value_text (n : ℕ) : value (text n) = n := by
  unfold text
  split
  next zero =>
    subst zero
    rfl
  next =>
    rw [value, List.foldl_map, List.foldl_reverse]
    have folded : (Nat.digits 10 n).foldr (fun digit total =>
        total * 10 + ((UInt8.ofNat (48 + digit)).toNat - 48)) 0 =
        Nat.ofDigits 10 (Nat.digits 10 n) := by
      rw [Nat.ofDigits_eq_foldr]
      apply List.foldr_ext
      intro digit member total
      have small := Nat.digits_lt_base (by decide) member
      rw [toNat_digit small]
      simp only [Nat.cast_id]
      omega
    rw [folded, Nat.ofDigits_digits]

theorem text_length_pos (n : ℕ) : 0 < (text n).length := by
  unfold text
  split
  · decide
  next nonzero =>
    rw [List.length_map, List.length_reverse, List.length_pos_iff]
    exact Nat.digits_ne_nil_iff_ne_zero.mpr nonzero

/-- A numeral has at most `width` digits exactly when its number is below `10 ^ width`. -/
theorem text_length_le_iff {n width : ℕ} (some : 0 < width) :
    (text n).length ≤ width ↔ n < 10 ^ width := by
  unfold text
  split
  next zero =>
    subst zero
    simp [some, Nat.succ_le_iff]
  next =>
    rw [List.length_map, List.length_reverse]
    exact Nat.digits_length_le_iff (by decide) n

/-- The value of digits stays below the power of ten of their number. -/
theorem value_lt {numeral : List UInt8} (digits : ∀ character ∈ numeral, IsDigit character) :
    value numeral < 10 ^ numeral.length := by
  induction numeral using List.reverseRecOn with
  | nil => decide
  | append_singleton front last ih =>
    have digit := digits last (by simp)
    have high := ih fun character member => digits character (by simp [member])
    rw [value_concat, List.length_append, List.length_singleton, Nat.pow_succ]
    unfold IsDigit at digit
    omega

end Decimal
