import ComputeRuntime.Library.Word

/-! The alignment helpers, the power-of-two helpers and the memory constants that every
component uses, on 64-bit words. -/
namespace ComputeRuntime

namespace MemoryConstants

def kiloByte : Nat := 1024
def megaByte : Nat := 1024 * kiloByte
def gigaByte : Nat := 1024 * megaByte
def teraByte : Nat := 1024 * gigaByte
def pageSize : Nat := 4 * kiloByte
def pageSize64k : Nat := 64 * kiloByte
def pageSize2M : Nat := 2 * megaByte

end MemoryConstants

/-- Unsigned 64-bit addition. -/
abbrev add64 (a b : Nat) : Nat := Word.add 64 a b

/-- Unsigned 64-bit subtraction. -/
abbrev sub64 (a b : Nat) : Nat := Word.sub 64 a b

/-- Unsigned 64-bit multiplication. -/
abbrev mul64 (a b : Nat) : Nat := Word.mul 64 a b

def alignUp (before alignment : Nat) : Nat :=
  let mask := sub64 alignment 1
  add64 before mask &&& Word.not 64 mask

def alignDown (before alignment : Nat) : Nat :=
  let mask := sub64 alignment 1
  before &&& Word.not 64 mask

def isAligned (val alignment : Nat) : Bool := val &&& sub64 alignment 1 == 0

/-- A power of two that fits a 64-bit word. -/
def IsPow2 (alignment : Nat) : Prop := ∃ k < 64, alignment = 2 ^ k

namespace IsPow2

variable {x alignment : Nat}

theorem pos (pow2 : IsPow2 alignment) : 0 < alignment := by
  obtain ⟨k, _, rfl⟩ := pow2
  exact Nat.two_pow_pos k

theorem lt (pow2 : IsPow2 alignment) : alignment < 2 ^ 64 := by
  obtain ⟨k, hk, rfl⟩ := pow2
  exact Nat.pow_lt_pow_right (by omega) hk

private theorem mask (pow2 : IsPow2 alignment) : sub64 alignment 1 = alignment - 1 :=
  Word.sub_eq pow2.pos pow2.lt

/-- The larger of two powers of two is a multiple of the smaller one. -/
theorem dvd {small : Nat} (first : IsPow2 small) (second : IsPow2 alignment)
    (le : small ≤ alignment) : small ∣ alignment := by
  obtain ⟨j, _, rfl⟩ := first
  obtain ⟨k, _, rfl⟩ := second
  exact Nat.pow_dvd_pow 2 ((Nat.pow_le_pow_iff_right (by omega)).mp le)

end IsPow2

/-- The sizes of pages. -/
theorem isPow2_pageSize : IsPow2 MemoryConstants.pageSize := ⟨12, by decide, by decide⟩

theorem isPow2_pageSize64k : IsPow2 MemoryConstants.pageSize64k := ⟨16, by decide, by decide⟩

theorem isPow2_pageSize2M : IsPow2 (2 * MemoryConstants.megaByte) := ⟨21, by decide, by decide⟩

theorem alignDown_eq {x alignment : Nat} (pow2 : IsPow2 alignment) (fits : x < 2 ^ 64) :
    alignDown x alignment = x / alignment * alignment := by
  simp only [alignDown, pow2.mask]
  obtain ⟨k, hk, rfl⟩ := pow2
  exact Word.and_not_mask (by omega) fits

theorem alignDown_le {x alignment : Nat} (pow2 : IsPow2 alignment) (fits : x < 2 ^ 64) :
    alignDown x alignment ≤ x := by
  rw [alignDown_eq pow2 fits]
  exact Nat.div_mul_le_self x alignment

theorem lt_alignDown_add {x alignment : Nat} (pow2 : IsPow2 alignment) (fits : x < 2 ^ 64) :
    x < alignDown x alignment + alignment := by
  rw [alignDown_eq pow2 fits]
  have rem := Nat.mod_lt x pow2.pos
  have split := Nat.div_add_mod' x alignment
  omega

/-- An aligned lower bound of `x` is also below `x` aligned down. -/
theorem le_alignDown {x y alignment : Nat} (pow2 : IsPow2 alignment) (fits : x < 2 ^ 64)
    (aligned : alignment ∣ y) (le : y ≤ x) : y ≤ alignDown x alignment := by
  rw [alignDown_eq pow2 fits]
  obtain ⟨q, rfl⟩ := aligned
  rw [Nat.mul_comm]
  exact Nat.mul_le_mul_right _ ((Nat.le_div_iff_mul_le pow2.pos).mpr (by rwa [Nat.mul_comm]))

theorem alignDown_dvd {x alignment : Nat} (pow2 : IsPow2 alignment) (fits : x < 2 ^ 64) :
    alignment ∣ alignDown x alignment := by
  rw [alignDown_eq pow2 fits]
  exact Nat.dvd_mul_left alignment _

/-- Aligning up is aligning down the largest number the mask can reach. -/
theorem alignUp_eq {x alignment : Nat} (pow2 : IsPow2 alignment)
    (fits : x + (alignment - 1) < 2 ^ 64) :
    alignUp x alignment = alignDown (x + (alignment - 1)) alignment := by
  simp only [alignUp, alignDown, pow2.mask, add64, Word.add_eq fits]

theorem le_alignUp {x alignment : Nat} (pow2 : IsPow2 alignment)
    (fits : x + (alignment - 1) < 2 ^ 64) : x ≤ alignUp x alignment := by
  rw [alignUp_eq pow2 fits]
  have := lt_alignDown_add pow2 fits
  omega

theorem alignUp_lt {x alignment : Nat} (pow2 : IsPow2 alignment)
    (fits : x + (alignment - 1) < 2 ^ 64) : alignUp x alignment < x + alignment := by
  rw [alignUp_eq pow2 fits]
  have := alignDown_le pow2 fits
  have := pow2.pos
  omega

theorem alignUp_dvd {x alignment : Nat} (pow2 : IsPow2 alignment)
    (fits : x + (alignment - 1) < 2 ^ 64) : alignment ∣ alignUp x alignment := by
  rw [alignUp_eq pow2 fits]
  exact alignDown_dvd pow2 fits

/-- Aligning up gives a multiple even where it wraps around. -/
theorem dvd_alignUp {alignment : Nat} (pow2 : IsPow2 alignment) (x : Nat) :
    alignment ∣ alignUp x alignment := by
  have word := Word.add_lt 64 x (alignment - 1)
  have masked : alignUp x alignment = alignDown (add64 x (alignment - 1)) alignment := by
    simp only [alignUp, alignDown, pow2.mask]
  rw [masked]
  exact alignDown_dvd pow2 word

/-- An aligned upper bound of `x` is also above `x` aligned up. -/
theorem alignUp_le {x y alignment : Nat} (pow2 : IsPow2 alignment)
    (fits : x + (alignment - 1) < 2 ^ 64) (aligned : alignment ∣ y) (le : x ≤ y) :
    alignUp x alignment ≤ y := by
  obtain ⟨q, rfl⟩ := aligned
  obtain ⟨p, eq⟩ := alignUp_dvd pow2 fits
  rw [eq]
  refine Nat.mul_le_mul_left _ (Nat.lt_succ_iff.mp ?_)
  have bound := alignUp_lt pow2 fits
  rw [eq] at bound
  exact Nat.lt_of_mul_lt_mul_left (a := alignment) (by rw [Nat.mul_succ]; omega)

theorem alignUp_self {x alignment : Nat} (pow2 : IsPow2 alignment)
    (fits : x + (alignment - 1) < 2 ^ 64) (aligned : alignment ∣ x) : alignUp x alignment = x :=
  Nat.le_antisymm (alignUp_le pow2 fits aligned (Nat.le_refl x)) (le_alignUp pow2 fits)

theorem alignDown_self {x alignment : Nat} (pow2 : IsPow2 alignment) (fits : x < 2 ^ 64)
    (aligned : alignment ∣ x) : alignDown x alignment = x :=
  Nat.le_antisymm (alignDown_le pow2 fits) (le_alignDown pow2 fits aligned (Nat.le_refl x))

theorem isAligned_iff {x alignment : Nat} (pow2 : IsPow2 alignment) :
    isAligned x alignment = true ↔ alignment ∣ x := by
  simp only [isAligned, pow2.mask, beq_iff_eq]
  obtain ⟨k, _, rfl⟩ := pow2
  rw [Nat.and_two_pow_sub_one_eq_mod, Nat.dvd_iff_mod_eq_zero]

namespace Math

/-- One round of `value |= value >> shift`. -/
def smear (value shift : Nat) : Nat := value ||| value >>> shift

def prevPowerOfTwo (value : Nat) : Nat :=
  let value := smear value 1
  let value := smear value 2
  let value := smear value 4
  let value := smear value 8
  let value := smear value 16
  let value := smear value 32
  sub64 value (value >>> 1)

/-- `y` has a bit set at `i` when `x` has one among the `n` bits from `i` upwards. -/
private def Spread (n x y : Nat) : Prop := ∀ i, y.testBit i = true ↔ ∃ j < n, x.testBit (i + j)

private theorem spread_smear {n x y : Nat} (spread : Spread n x y) :
    Spread (n + n) x (smear y n) := by
  intro i
  rw [smear, Nat.testBit_or, Nat.testBit_shiftRight, Bool.or_eq_true, spread i, spread (n + i)]
  constructor
  · rintro (⟨j, hj, bit⟩ | ⟨j, hj, bit⟩)
    · exact ⟨j, by omega, bit⟩
    · exact ⟨n + j, by omega, by rwa [show i + (n + j) = n + i + j by omega]⟩
  · rintro ⟨j, hj, bit⟩
    by_cases near : j < n
    · exact Or.inl ⟨j, near, bit⟩
    · exact Or.inr ⟨j - n, by omega, by rwa [show n + i + (j - n) = i + j by omega]⟩

private theorem spread_all {x y : Nat} (spread : Spread 64 x y) (nonzero : x ≠ 0)
    (fits : x < 2 ^ 64) : y = 2 ^ (x.log2 + 1) - 1 := by
  apply Nat.eq_of_testBit_eq
  intro i
  rw [Nat.testBit_two_pow_sub_one, Bool.eq_iff_iff, spread i, decide_eq_true_iff]
  constructor
  · rintro ⟨j, _, bit⟩
    by_contra high
    have small : x < 2 ^ (i + j) :=
      Nat.lt_of_lt_of_le Nat.lt_log2_self (Nat.pow_le_pow_right (by omega) (by omega))
    rw [Nat.testBit_lt_two_pow small] at bit
    cases bit
  · intro low
    have top := (Nat.log2_lt nonzero).mpr fits
    refine ⟨x.log2 - i, by omega, ?_⟩
    rw [show i + (x.log2 - i) = x.log2 by omega]
    exact Nat.testBit_log2 nonzero

/-- The largest power of two below or at a non-zero 64-bit word. -/
theorem prevPowerOfTwo_eq {x : Nat} (nonzero : x ≠ 0) (fits : x < 2 ^ 64) :
    prevPowerOfTwo x = 2 ^ x.log2 := by
  have start : Spread 1 x x := by intro i; simp
  have all := spread_all (spread_smear (spread_smear (spread_smear (spread_smear (spread_smear
    (spread_smear start)))))) nonzero fits
  have top := (Nat.log2_lt nonzero).mpr fits
  have size : 2 ^ (x.log2 + 1) ≤ 2 ^ 64 := Nat.pow_le_pow_right (by omega) (by omega)
  have half : (2 ^ (x.log2 + 1) - 1) >>> 1 = 2 ^ x.log2 - 1 := by
    rw [Nat.shiftRight_eq_div_pow, Nat.pow_succ]
    omega
  have pos := Nat.two_pow_pos x.log2
  simp only [prevPowerOfTwo]
  rw [all, half, sub64, Word.sub_eq (by rw [Nat.pow_succ]; omega) (by omega), Nat.pow_succ]
  omega

theorem prevPowerOfTwo_pow2 {x : Nat} (nonzero : x ≠ 0) (fits : x < 2 ^ 64) :
    IsPow2 (prevPowerOfTwo x) :=
  ⟨x.log2, (Nat.log2_lt nonzero).mpr fits, prevPowerOfTwo_eq nonzero fits⟩

end Math

end ComputeRuntime
