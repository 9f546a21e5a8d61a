import Mathlib.Data.Set.Defs
import Mathlib.Tactic.Ring
import Mathlib.Algebra.Order.Ring.Nat
import Mathlib.Tactic.Linarith

/-! Boxes of bytes inside a linear memory: rows of a width, a fixed pitch from one row to the
next and another from one slice to the next. A box is packed when its bytes lie side by side;
then, and only then, it reaches no further than the number of its bytes. -/

structure StridedBox where
  width : ℕ
  height : ℕ
  depth : ℕ
  rowPitch : ℕ
  slicePitch : ℕ

namespace StridedBox

/-- Where a byte of the box lies, counted from the first one. -/
def offset (b : StridedBox) (x y z : ℕ) : ℕ := x + y * b.rowPitch + z * b.slicePitch

/-- The offsets of the bytes of a box that begins at `first`. -/
def offsets (b : StridedBox) (first : ℕ) : Set ℕ :=
  {o | ∃ x < b.width, ∃ y < b.height, ∃ z < b.depth, o = first + b.offset x y z}

/-- One more than the offset of the last byte. -/
def extent (b : StridedBox) : ℕ :=
  b.width + (b.height - 1) * b.rowPitch + (b.depth - 1) * b.slicePitch

def volume (b : StridedBox) : ℕ := b.width * b.height * b.depth

structure Nonempty (b : StridedBox) : Prop where
  width : 0 < b.width
  height : 0 < b.height
  depth : 0 < b.depth

/-- Rows do not run into each other, nor do slices. -/
structure Separate (b : StridedBox) : Prop where
  rows : b.width ≤ b.rowPitch
  slices : b.height * b.rowPitch ≤ b.slicePitch

def Packed (b : StridedBox) : Prop :=
  (b.height = 1 ∨ b.rowPitch = b.width) ∧ (b.depth = 1 ∨ b.slicePitch = b.height * b.width)

variable {b : StridedBox}

theorem offset_lt_extent {x y z : ℕ} (hx : x < b.width) (hy : y < b.height) (hz : z < b.depth) :
    b.offset x y z < b.extent := by
  have row := Nat.mul_le_mul_right b.rowPitch (Nat.le_sub_one_of_lt hy)
  have slice := Nat.mul_le_mul_right b.slicePitch (Nat.le_sub_one_of_lt hz)
  unfold offset extent
  omega

/-- The bytes of the box lie below a bound exactly when its extent does. -/
theorem offsets_lt_iff (filled : b.Nonempty) {first bound : ℕ} :
    (∀ o ∈ b.offsets first, o < bound) ↔ first + b.extent ≤ bound := by
  constructor
  · intro below
    have last := below (first + b.offset (b.width - 1) (b.height - 1) (b.depth - 1))
      ⟨b.width - 1, Nat.pred_lt_of_lt filled.width, b.height - 1, Nat.pred_lt_of_lt filled.height,
        b.depth - 1, Nat.pred_lt_of_lt filled.depth, rfl⟩
    have width := filled.width
    unfold offset at last
    unfold extent
    omega
  · rintro bound _ ⟨x, hx, y, hy, z, hz, rfl⟩
    have := offset_lt_extent hx hy hz
    omega

/-- What the rows and the slices leave between them makes up the difference. -/
theorem extent_eq (filled : b.Nonempty) (apart : b.Separate) :
    b.extent = b.volume + (b.height - 1) * (b.rowPitch - b.width) +
      (b.depth - 1) * (b.slicePitch - b.height * b.width) := by
  obtain ⟨h, height⟩ := Nat.exists_eq_add_of_lt filled.height
  obtain ⟨d, depth⟩ := Nat.exists_eq_add_of_lt filled.depth
  obtain ⟨row, rowPitch⟩ := Nat.exists_eq_add_of_le apart.rows
  have rows := Nat.mul_le_mul_left b.height apart.rows
  obtain ⟨slice, slicePitch⟩ := Nat.exists_eq_add_of_le (rows.trans apart.slices)
  rw [extent, volume, slicePitch, rowPitch, Nat.add_sub_cancel_left, Nat.add_sub_cancel_left,
    height, depth]
  simp only [Nat.zero_add, Nat.add_sub_cancel]
  ring

theorem volume_le_extent (filled : b.Nonempty) (apart : b.Separate) : b.volume ≤ b.extent := by
  rw [extent_eq filled apart, Nat.add_assoc]
  exact Nat.le_add_right _ _

/-- A box reaches as far as the number of its bytes exactly when it is packed. -/
theorem extent_le_volume_iff (filled : b.Nonempty) (apart : b.Separate) :
    b.extent ≤ b.volume ↔ b.Packed := by
  have rows := apart.rows
  have slices := (Nat.mul_le_mul_left b.height apart.rows).trans apart.slices
  have height := filled.height
  have depth := filled.depth
  have gaps : b.extent ≤ b.volume ↔ (b.height - 1) * (b.rowPitch - b.width) = 0 ∧
      (b.depth - 1) * (b.slicePitch - b.height * b.width) = 0 := by
    rw [extent_eq filled apart]
    omega
  rw [gaps, Nat.mul_eq_zero, Nat.mul_eq_zero, Packed]
  omega

/-- No two bytes of the box are one. -/
def Distinct (b : StridedBox) : Prop :=
  ∀ x < b.width, ∀ y < b.height, ∀ z < b.depth, ∀ x' < b.width, ∀ y' < b.height, ∀ z' < b.depth,
    b.offset x y z = b.offset x' y' z' → x = x' ∧ y = y' ∧ z = z'

/-- When slices are whole rows apart, the bytes are distinct exactly when each slice ends before
the next one begins. -/
theorem distinct_iff (filled : b.Nonempty) (rows : b.width ≤ b.rowPitch)
    (whole : b.rowPitch ∣ b.slicePitch) :
    b.Distinct ↔ b.depth = 1 ∨ b.height * b.rowPitch ≤ b.slicePitch := by
  obtain ⟨k, slicePitch⟩ := whole
  have width := filled.width
  have depth := filled.depth
  have pos : 0 < b.rowPitch := by omega
  have cancel : b.height * b.rowPitch ≤ b.slicePitch ↔ b.height ≤ k := by
    rw [slicePitch, Nat.mul_comm b.rowPitch]
    exact Nat.mul_le_mul_right_iff pos
  have split (x y z : ℕ) : b.offset x y z = x + b.rowPitch * (y + k * z) := by
    rw [offset, slicePitch]
    ring
  rw [cancel]
  constructor
  · intro distinct
    by_contra overlap
    -- the row behind the first slice is also a row of it
    have row : k < b.height := by omega
    have same : b.offset 0 k 0 = b.offset 0 0 1 := by
      rw [split, split]
      ring
    have := (distinct 0 width k row 0 depth 0 width 0 filled.height 1 (by omega) same).2.2
    omega
  · intro apart x hx y hy z hz x' hx' y' hy' z' hz' same
    rw [split, split] at same
    have columns := congrArg (· % b.rowPitch) same
    have lines := congrArg (· / b.rowPitch) same
    simp only [Nat.add_mul_mod_self_left, Nat.add_mul_div_left _ _ pos,
      Nat.mod_eq_of_lt (Nat.lt_of_lt_of_le hx rows), Nat.mod_eq_of_lt (Nat.lt_of_lt_of_le hx' rows),
      Nat.div_eq_of_lt (Nat.lt_of_lt_of_le hx rows), Nat.div_eq_of_lt (Nat.lt_of_lt_of_le hx' rows),
      Nat.zero_add] at columns lines
    rcases apart with flat | apart
    · obtain rfl : z = z' := by omega
      exact ⟨columns, by omega, rfl⟩
    · have some : 0 < k := by omega
      have inSlice := congrArg (· % k) lines
      have slices := congrArg (· / k) lines
      simp only [Nat.add_mul_mod_self_left, Nat.add_mul_div_left _ _ some,
        Nat.mod_eq_of_lt (Nat.lt_of_lt_of_le hy apart), Nat.mod_eq_of_lt (Nat.lt_of_lt_of_le hy' apart),
        Nat.div_eq_of_lt (Nat.lt_of_lt_of_le hy apart), Nat.div_eq_of_lt (Nat.lt_of_lt_of_le hy' apart),
        Nat.zero_add] at inSlice slices
      exact ⟨columns, inSlice, slices⟩

end StridedBox
