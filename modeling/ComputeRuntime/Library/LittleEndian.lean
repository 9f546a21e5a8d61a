import Mathlib.Data.Nat.Notation
import Mathlib.Tactic.Ring

/-! Little-endian numbers in byte memories that are functions of the address. -/
namespace LittleEndian

/-- The byte of a number at an offset. -/
def byte (value k : ℕ) : UInt8 := UInt8.ofNat (value / 256 ^ k)

/-- The number in some bytes. -/
def read : (ℕ → UInt8) → ℕ → ℕ
  | _, 0 => 0
  | cells, width + 1 => (cells 0).toNat + 256 * read (fun k => cells (k + 1)) width

theorem byte_succ (value k : ℕ) : byte value (k + 1) = byte (value / 256) k := by
  rw [byte, byte, Nat.pow_succ', Nat.div_div_eq_div_mul]

theorem toNat_byte_zero (value : ℕ) : (byte value 0).toNat = value % 256 := by
  rw [byte, Nat.pow_zero, Nat.div_one, UInt8.toNat_ofNat']

theorem read_byte (value width : ℕ) : read (byte value) width = value % 256 ^ width := by
  induction width generalizing value with
  | zero => simp [read, Nat.mod_one]
  | succ width ih =>
    have shifted : (fun k => byte value (k + 1)) = byte (value / 256) := by
      funext k
      exact byte_succ value k
    rw [read, shifted, ih, toNat_byte_zero, Nat.pow_succ', Nat.mod_mul]

theorem read_congr {cells other : ℕ → UInt8} {width : ℕ} (same : ∀ k < width, cells k = other k) :
    read cells width = read other width := by
  induction width generalizing cells other with
  | zero => rfl
  | succ width ih =>
    rw [read, read, same 0 (Nat.succ_pos _), ih fun k inside => same (k + 1) (by omega)]

end LittleEndian
