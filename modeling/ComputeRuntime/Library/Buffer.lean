import Mathlib.Data.Nat.Notation
import Mathlib.Data.List.Basic
import Mathlib.Algebra.Group.Nat.Defs

/-! Byte buffers at an address of a 64-bit memory. A read is given by its address and size and
succeeds only when it stays in the buffer, so that a program can be run on addresses it computes
and a read elsewhere shows. -/

/-- Some cells at an address. No object reaches into the upper half of the address space. -/
structure Buffer (β : Type*) where
  begin : ℕ
  bytes : List β
  fits : begin + bytes.length < 2 ^ 63

namespace Buffer

variable {β : Type*}

/-- The address behind the last cell. -/
def stop (buffer : Buffer β) : ℕ := buffer.begin + buffer.bytes.length

/-- The cells from an address on, if it is in the buffer or at its end. -/
def rest (buffer : Buffer β) (address : ℕ) : Option (List β) :=
  if buffer.begin ≤ address ∧ address ≤ buffer.stop then
    some (buffer.bytes.drop (address - buffer.begin))
  else none

/-- `size` cells at an address. -/
def read (buffer : Buffer β) (address size : ℕ) : Option (List β) :=
  if buffer.begin ≤ address ∧ address + size ≤ buffer.stop then
    some ((buffer.bytes.drop (address - buffer.begin)).take size)
  else none

/-- The buffer holds these cells at the offset, and more cells may follow. -/
def Holds (buffer : Buffer β) (offset : ℕ) (cells : List β) : Prop :=
  cells <+: buffer.bytes.drop offset ∧ offset ≤ buffer.bytes.length

variable {buffer : Buffer β} {offset : ℕ} {cells more : List β}

theorem Holds.length_le (holds : buffer.Holds offset cells) :
    offset + cells.length ≤ buffer.bytes.length := by
  have length := holds.1.length_le
  rw [List.length_drop] at length
  have low := holds.2
  omega

theorem Holds.read (holds : buffer.Holds offset cells) :
    buffer.read (buffer.begin + offset) cells.length = some cells := by
  have room := holds.length_le
  unfold Buffer.read
  rw [if_pos ⟨by omega, by rw [stop]; omega⟩, Nat.add_sub_cancel_left]
  exact congrArg some (List.prefix_iff_eq_take.mp holds.1).symm

theorem Holds.left (holds : buffer.Holds offset (cells ++ more)) :
    buffer.Holds offset cells :=
  ⟨(List.prefix_append cells more).trans holds.1, holds.2⟩

theorem Holds.right (holds : buffer.Holds offset (cells ++ more)) :
    buffer.Holds (offset + cells.length) more := by
  have room := holds.length_le
  rw [List.length_append] at room
  constructor
  · obtain ⟨rest, whole⟩ := holds.1
    refine ⟨rest, ?_⟩
    rw [← List.drop_drop, ← whole, List.append_assoc, List.drop_left]
  · omega

theorem holds_whole (buffer : Buffer β) : buffer.Holds 0 buffer.bytes := by
  constructor
  · simp
  · exact Nat.zero_le _

end Buffer
