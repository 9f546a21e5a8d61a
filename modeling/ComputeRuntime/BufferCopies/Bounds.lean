import ComputeRuntime.Helpers.AlignedMemory
import ComputeRuntime.Helpers.DebugHelpers
import ComputeRuntime.Library.StridedBox
import Mathlib.Data.Nat.ModEq

/-! The checks that keep buffer copies inside their buffers. They are made on 64-bit words, so
that what they let through is inside the buffers when nothing they compute wraps around. -/
namespace ComputeRuntime.BufferCopies

/-- The bounds check of `clEnqueueCopyBuffer`. -/
def copyBufferInBounds (srcSize dstSize srcOffset dstOffset cb : ℕ) : Bool :=
  !(decide (add64 srcOffset cb > srcSize) || decide (add64 dstOffset cb > dstSize))

/-- Three numbers of a `size_t` array. -/
structure Sizes where
  x : ℕ
  y : ℕ
  z : ℕ
  deriving DecidableEq

structure Pitches where
  bufferRowPitch : ℕ
  bufferSlicePitch : ℕ
  hostRowPitch : ℕ
  hostSlicePitch : ℕ
  deriving DecidableEq

/-- A pitch of zero means that the rows or slices are packed. -/
def packedIfZero (pitch packed : ℕ) : ℕ := if pitch = 0 then packed else pitch

def Pitches.fill (p : Pitches) (region : Sizes) : Pitches :=
  let bufferRowPitch := packedIfZero p.bufferRowPitch region.x
  let hostRowPitch := packedIfZero p.hostRowPitch region.x
  { bufferRowPitch := bufferRowPitch
    bufferSlicePitch := packedIfZero p.bufferSlicePitch (mul64 region.y bufferRowPitch)
    hostRowPitch := hostRowPitch
    hostSlicePitch := packedIfZero p.hostSlicePitch (mul64 region.y hostRowPitch) }

def invalidSlicePitch (height rowPitch slicePitch : ℕ) : Result Bool :=
  if slicePitch < mul64 height rowPitch then .ok true
  else do
    let rest ← checkedMod slicePitch rowPitch
    return decide (rest ≠ 0)

/-- The slice pitches of the buffer and, if that one is valid, of the host memory. -/
def invalidSlicePitches (height : ℕ) (p : Pitches) : Result Bool := do
  let invalid ← invalidSlicePitch height p.bufferRowPitch p.bufferSlicePitch
  if invalid then .ok true else invalidSlicePitch height p.hostRowPitch p.hostSlicePitch

/-- The position behind the last byte, as the check computes it. -/
def lastPosition (bufferOrigin region : Sizes) (rowPitch slicePitch : ℕ) : ℕ :=
  Word.add 64 (Word.add 64 (Word.add 64
    (Word.mul 64 (Word.sub 64 (Word.add 64 bufferOrigin.z region.z) 1) slicePitch)
    (Word.mul 64 (Word.sub 64 (Word.add 64 bufferOrigin.y region.y) 1) rowPitch)) bufferOrigin.x)
    region.x

/-- `Buffer::bufferRectPitchSet` for a buffer of a size: whether the rectangle is accepted, and the
pitches that are filled in. -/
def bufferRectPitchSet (size : ℕ) (bufferOrigin region : Sizes) (pitches : Pitches)
    (isSrcBuffer : Bool) : Result (Bool × Pitches) := do
  let p := pitches.fill region
  if region.x = 0 ∨ region.y = 0 ∨ region.z = 0 then .ok (false, p)
  else if p.bufferRowPitch < region.x ∨ p.hostRowPitch < region.x then .ok (false, p)
  else do
    let invalid ← invalidSlicePitches region.y p
    if invalid then .ok (false, p)
    else
      let slicePitch := if isSrcBuffer then p.bufferSlicePitch else p.hostSlicePitch
      let rowPitch := if isSrcBuffer then p.bufferRowPitch else p.hostRowPitch
      .ok (!decide (lastPosition bufferOrigin region rowPitch slicePitch > size), p)

/-- The check of `clEnqueueCopyBufferRect`: the pitches that the first call fills in are those the
second one sees. -/
def copyBufferRectInBounds (srcSize dstSize : ℕ) (srcOrigin dstOrigin region : Sizes)
    (pitches : Pitches) : Result (Bool × Pitches) := do
  let (src, p) ← bufferRectPitchSet srcSize srcOrigin region pitches true
  if src = false then .ok (false, p) else bufferRectPitchSet dstSize dstOrigin region p false

section Words

variable {w x y z height depth row slice width : ℕ}

theorem sub_one_modEq {a : ℕ} (word : 0 < w) (some : 0 < a) :
    Word.sub w (a % 2 ^ w) 1 ≡ a - 1 [MOD 2 ^ w] := by
  have pos := Nat.two_pow_pos w
  have one : 1 < 2 ^ w := Nat.one_lt_two_pow (by omega)
  apply Nat.ModEq.add_right_cancel' 1
  rw [Word.sub, Nat.mod_eq_of_lt one, Nat.sub_add_cancel some]
  calc (a % 2 ^ w + (2 ^ w - 1)) % 2 ^ w + 1
      ≡ a % 2 ^ w + (2 ^ w - 1) + 1 [MOD 2 ^ w] := (Nat.mod_modEq _ _).add_right 1
    _ = a % 2 ^ w + 2 ^ w := by omega
    _ ≡ a % 2 ^ w [MOD 2 ^ w] := Nat.add_modEq_right
    _ ≡ a [MOD 2 ^ w] := Nat.mod_modEq a _

/-- Positions are computed modulo the word size. -/
theorem position_word (word : 0 < w) (rows : 0 < y + height) (slices : 0 < z + depth) :
    Word.add w (Word.add w (Word.add w (Word.mul w (Word.sub w (Word.add w z depth) 1) slice)
      (Word.mul w (Word.sub w (Word.add w y height) 1) row)) x) width =
      (x + width + (y + height - 1) * row + (z + depth - 1) * slice) % 2 ^ w := by
  have slices := (sub_one_modEq word slices).mul_right slice
  have rows := (sub_one_modEq word rows).mul_right row
  have sum := ((slices.add rows).add_right x).add_right width
  simp only [Word.add, Word.mul, Nat.mod_add_mod, Nat.add_mod_mod]
  rw [show x + width + (y + height - 1) * row + (z + depth - 1) * slice =
    (z + depth - 1) * slice + (y + height - 1) * row + x + width by ring]
  exact sum

end Words

/-- A rectangle in a buffer. -/
structure Rect where
  size : ℕ
  origin : Sizes
  region : Sizes
  rowPitch : ℕ
  slicePitch : ℕ

namespace Rect

/-- Where a byte of the rectangle lies in the buffer. -/
def position (r : Rect) (x y z : ℕ) : ℕ :=
  r.origin.x + x + (r.origin.y + y) * r.rowPitch + (r.origin.z + z) * r.slicePitch

structure Confined (r : Rect) : Prop where
  inside : ∀ x < r.region.x, ∀ y < r.region.y, ∀ z < r.region.z, r.position x y z < r.size
  distinct : ∀ x < r.region.x, ∀ y < r.region.y, ∀ z < r.region.z,
    ∀ x' < r.region.x, ∀ y' < r.region.y, ∀ z' < r.region.z,
    r.position x y z = r.position x' y' z' → x = x' ∧ y = y' ∧ z = z'

/-- The position behind the last byte and, where there is a second slice, the bytes of the rows of
a slice fit a 64-bit word. -/
structure NoWrap (r : Rect) : Prop where
  last : r.origin.x + r.region.x + (r.origin.y + r.region.y - 1) * r.rowPitch +
    (r.origin.z + r.region.z - 1) * r.slicePitch < 2 ^ 64
  slice : r.region.z = 1 ∨ r.region.y * r.rowPitch < 2 ^ 64

def box (r : Rect) : StridedBox where
  width := r.region.x
  height := r.region.y
  depth := r.region.z
  rowPitch := r.rowPitch
  slicePitch := r.slicePitch

def first (r : Rect) : ℕ := r.position 0 0 0

/-- What is known of a rectangle that was accepted. -/
structure Accepted (r : Rect) : Prop where
  filled : r.box.Nonempty
  rows : r.region.x ≤ r.rowPitch
  whole : r.rowPitch ∣ r.slicePitch
  slices : mul64 r.region.y r.rowPitch ≤ r.slicePitch
  last : lastPosition r.origin r.region r.rowPitch r.slicePitch ≤ r.size

variable {r : Rect}

theorem position_eq (x y z : ℕ) : r.position x y z = r.first + r.box.offset x y z := by
  simp only [position, first, StridedBox.offset, box]
  ring

theorem last_eq (filled : r.box.Nonempty) :
    r.origin.x + r.region.x + (r.origin.y + r.region.y - 1) * r.rowPitch +
      (r.origin.z + r.region.z - 1) * r.slicePitch = r.first + r.box.extent := by
  obtain ⟨h, height⟩ := Nat.exists_eq_add_of_lt filled.height
  obtain ⟨d, depth⟩ := Nat.exists_eq_add_of_lt filled.depth
  have rows : r.origin.y + r.region.y - 1 = r.origin.y + h := by
    change r.region.y = 0 + h + 1 at height
    omega
  have slices : r.origin.z + r.region.z - 1 = r.origin.z + d := by
    change r.region.z = 0 + d + 1 at depth
    omega
  rw [rows, slices, first, position, StridedBox.extent, height, depth]
  simp only [Nat.zero_add, Nat.add_sub_cancel, box]
  ring

/-- The computed position is the real one modulo the word size. -/
theorem lastPosition_eq (filled : r.box.Nonempty) :
    lastPosition r.origin r.region r.rowPitch r.slicePitch = (r.first + r.box.extent) % 2 ^ 64 := by
  have height : 0 < r.region.y := filled.height
  have depth : 0 < r.region.z := filled.depth
  rw [← last_eq filled, lastPosition]
  exact position_word (by decide) (by omega) (by omega)

/-- An accepted rectangle is confined to the buffer exactly when nothing wrapped around. -/
theorem Accepted.confined_iff (accepted : r.Accepted) (size : r.size < 2 ^ 64)
    (slicePitch : r.slicePitch < 2 ^ 64) : r.Confined ↔ r.NoWrap := by
  have filled := accepted.filled
  have last := accepted.last
  have slices := accepted.slices
  rw [lastPosition_eq filled] at last
  have inside : (∀ x < r.region.x, ∀ y < r.region.y, ∀ z < r.region.z, r.position x y z < r.size) ↔
      r.first + r.box.extent ≤ r.size := by
    rw [← StridedBox.offsets_lt_iff filled]
    constructor
    · rintro below _ ⟨x, hx, y, hy, z, hz, rfl⟩
      rw [← position_eq]
      exact below x hx y hy z hz
    · intro below x hx y hy z hz
      rw [position_eq]
      exact below _ ⟨x, hx, y, hy, z, hz, rfl⟩
  have distinct := StridedBox.distinct_iff filled accepted.rows accepted.whole
  constructor
  · intro confined
    have low := inside.mp confined.inside
    have apart := distinct.mp fun x hx y hy z hz x' hx' y' hy' z' hz' same =>
      confined.distinct x hx y hy z hz x' hx' y' hy' z' hz' (by rw [position_eq, position_eq, same])
    refine ⟨?_, apart.imp_right fun below => ?_⟩
    · rw [last_eq filled]
      omega
    · exact Nat.lt_of_le_of_lt below slicePitch
  · intro noWrap
    have fits := noWrap.last
    rw [last_eq filled] at fits
    rw [Nat.mod_eq_of_lt fits] at last
    have apart : r.box.depth = 1 ∨ r.box.height * r.box.rowPitch ≤ r.box.slicePitch := by
      apply noWrap.slice.imp_right
      intro small
      rwa [mul64, Word.mul_eq small] at slices
    refine ⟨inside.mpr last, fun x hx y hy z hz x' hx' y' hy' z' hz' same => ?_⟩
    rw [position_eq, position_eq] at same
    exact distinct.mpr apart x hx y hy z hz x' hx' y' hy' z' hz' (Nat.add_left_cancel same)

end Rect

section Checks

variable {size height rowPitch slicePitch : ℕ} {origin region : Sizes} {p : Pitches}

/-- The pitches are 64-bit words. -/
structure Pitches.Words (p : Pitches) : Prop where
  bufferSlicePitch : p.bufferSlicePitch < 2 ^ 64
  hostSlicePitch : p.hostSlicePitch < 2 ^ 64

theorem packedIfZero_idem (pitch packed : ℕ) :
    packedIfZero (packedIfZero pitch packed) packed = packedIfZero pitch packed := by
  by_cases zero : pitch = 0 <;> simp [packedIfZero, zero]

theorem Pitches.fill_fill (p : Pitches) (region : Sizes) :
    (p.fill region).fill region = p.fill region := by
  simp only [Pitches.fill, packedIfZero_idem]

theorem packedIfZero_lt {pitch packed : ℕ} (word : pitch < 2 ^ 64) (other : packed < 2 ^ 64) :
    packedIfZero pitch packed < 2 ^ 64 := by
  rw [packedIfZero]
  split
  · exact other
  · exact word

theorem Pitches.Words.fill (words : p.Words) (region : Sizes) : (p.fill region).Words where
  bufferSlicePitch := packedIfZero_lt words.bufferSlicePitch (Nat.mod_lt _ (Nat.two_pow_pos 64))
  hostSlicePitch := packedIfZero_lt words.hostSlicePitch (Nat.mod_lt _ (Nat.two_pow_pos 64))

theorem invalidSlicePitch_cases (row : 0 < rowPitch) :
    invalidSlicePitch height rowPitch slicePitch = .ok true ∨
      invalidSlicePitch height rowPitch slicePitch = .ok false ∧
        mul64 height rowPitch ≤ slicePitch ∧ rowPitch ∣ slicePitch := by
  rw [invalidSlicePitch, checkedMod_eq (by omega)]
  by_cases less : slicePitch < mul64 height rowPitch
  · exact Or.inl (if_pos less)
  · rw [if_neg less]
    by_cases whole : slicePitch % rowPitch = 0
    · refine Or.inr ⟨?_, Nat.le_of_not_lt less, Nat.dvd_of_mod_eq_zero whole⟩
      simp [whole, bind, Except.bind, pure, Except.pure]
    · left
      simp [whole, bind, Except.bind, pure, Except.pure]

/-- No slice pitch is divided by zero, and what is valid is so for both sides. -/
theorem invalidSlicePitches_cases (buffer : 0 < p.bufferRowPitch) (host : 0 < p.hostRowPitch) :
    invalidSlicePitches height p = .ok true ∨
      invalidSlicePitches height p = .ok false ∧
        (mul64 height p.bufferRowPitch ≤ p.bufferSlicePitch ∧
          p.bufferRowPitch ∣ p.bufferSlicePitch) ∧
        mul64 height p.hostRowPitch ≤ p.hostSlicePitch ∧ p.hostRowPitch ∣ p.hostSlicePitch := by
  rw [invalidSlicePitches]
  rcases @invalidSlicePitch_cases height _ p.bufferSlicePitch buffer with first | ⟨first, buffer⟩
  · rw [first]
    exact Or.inl rfl
  · rw [first]
    rcases @invalidSlicePitch_cases height _ p.hostSlicePitch host with second | ⟨second, host⟩
    · exact Or.inl second
    · exact Or.inr ⟨second, buffer, host⟩

/-- The rectangle on the side that the check is about. -/
def Pitches.rect (p : Pitches) (size : ℕ) (origin region : Sizes) (isSrcBuffer : Bool) : Rect where
  size := size
  origin := origin
  region := region
  rowPitch := if isSrcBuffer then p.bufferRowPitch else p.hostRowPitch
  slicePitch := if isSrcBuffer then p.bufferSlicePitch else p.hostSlicePitch

/-- The check always returns, and what it accepts has passed each of its tests. -/
theorem bufferRectPitchSet_cases (size : ℕ) (origin region : Sizes) (p : Pitches)
    (isSrcBuffer : Bool) : ∃ accepted,
      bufferRectPitchSet size origin region p isSrcBuffer = .ok (accepted, p.fill region) ∧
      (accepted = true → ((p.fill region).rect size origin region isSrcBuffer).Accepted) := by
  rw [bufferRectPitchSet]
  dsimp only
  generalize p.fill region = p
  by_cases empty : region.x = 0 ∨ region.y = 0 ∨ region.z = 0
  · rw [if_pos empty]
    exact ⟨false, rfl, fun accepted => Bool.noConfusion accepted⟩
  · rw [if_neg empty]
    by_cases narrow : p.bufferRowPitch < region.x ∨ p.hostRowPitch < region.x
    · rw [if_pos narrow]
      exact ⟨false, rfl, fun accepted => Bool.noConfusion accepted⟩
    · rw [if_neg narrow]
      rcases @invalidSlicePitches_cases region.y p (by omega) (by omega) with
        invalid | ⟨valid, buffer, host⟩
      · rw [invalid]
        exact ⟨false, rfl, fun accepted => Bool.noConfusion accepted⟩
      · rw [valid]
        refine ⟨_, rfl, fun accepted => ?_⟩
        simp only [gt_iff_lt, Bool.not_eq_true', decide_eq_false_iff_not, Nat.not_lt] at accepted
        have filled : 0 < region.x ∧ 0 < region.y ∧ 0 < region.z := by omega
        cases isSrcBuffer with
        | true =>
          have row : region.x ≤ p.bufferRowPitch := by omega
          exact ⟨⟨filled.1, filled.2.1, filled.2.2⟩, row, buffer.2, buffer.1, accepted⟩
        | false =>
          have row : region.x ≤ p.hostRowPitch := by omega
          exact ⟨⟨filled.1, filled.2.1, filled.2.2⟩, row, host.2, host.1, accepted⟩

theorem copyBufferRectInBounds_cases (srcSize dstSize : ℕ) (srcOrigin dstOrigin region : Sizes)
    (p : Pitches) : ∃ accepted,
      copyBufferRectInBounds srcSize dstSize srcOrigin dstOrigin region p =
        .ok (accepted, p.fill region) ∧
      (accepted = true → ((p.fill region).rect srcSize srcOrigin region true).Accepted ∧
        ((p.fill region).rect dstSize dstOrigin region false).Accepted) := by
  obtain ⟨src, first, srcAccepted⟩ := bufferRectPitchSet_cases srcSize srcOrigin region p true
  obtain ⟨dst, second, dstAccepted⟩ :=
    bufferRectPitchSet_cases dstSize dstOrigin region (p.fill region) false
  rw [p.fill_fill] at second dstAccepted
  rw [copyBufferRectInBounds, first]
  cases src with
  | false => exact ⟨false, rfl, fun accepted => Bool.noConfusion accepted⟩
  | true => exact ⟨dst, second, fun accepted => ⟨srcAccepted rfl, dstAccepted accepted⟩⟩

theorem rect_confined_iff (words : p.Words) (word : size < 2 ^ 64) {isSrcBuffer : Bool}
    (accepted : (p.rect size origin region isSrcBuffer).Accepted) :
    (p.rect size origin region isSrcBuffer).Confined ↔
      (p.rect size origin region isSrcBuffer).NoWrap := by
  refine accepted.confined_iff word ?_
  cases isSrcBuffer with
  | true => exact words.bufferSlicePitch
  | false => exact words.hostSlicePitch

end Checks

/-- Copies that pass their checks stay in their buffers exactly when no position wraps around. -/
theorem bufferCopies_confined_iff {srcSize dstSize : ℕ} (srcWord : srcSize < 2 ^ 64)
    (dstWord : dstSize < 2 ^ 64) (srcOffset dstOffset cb : ℕ) (srcOrigin dstOrigin region : Sizes)
    {p : Pitches} (words : p.Words) :
    (copyBufferInBounds srcSize dstSize srcOffset dstOffset cb = true →
      ((srcOffset + cb ≤ srcSize ∧ dstOffset + cb ≤ dstSize) ↔
        srcOffset + cb < 2 ^ 64 ∧ dstOffset + cb < 2 ^ 64)) ∧
    (∃ accepted,
      bufferRectPitchSet srcSize srcOrigin region p true = .ok (accepted, p.fill region) ∧
      (accepted = true → (((p.fill region).rect srcSize srcOrigin region true).Confined ↔
        ((p.fill region).rect srcSize srcOrigin region true).NoWrap))) ∧
    ∃ accepted, copyBufferRectInBounds srcSize dstSize srcOrigin dstOrigin region p =
        .ok (accepted, p.fill region) ∧
      (accepted = true → (((p.fill region).rect srcSize srcOrigin region true).Confined ∧
          ((p.fill region).rect dstSize dstOrigin region false).Confined ↔
        ((p.fill region).rect srcSize srcOrigin region true).NoWrap ∧
          ((p.fill region).rect dstSize dstOrigin region false).NoWrap)) := by
  refine ⟨?_, ?_, ?_⟩
  · intro passed
    simp only [copyBufferInBounds, gt_iff_lt, Bool.not_eq_true', Bool.or_eq_false_iff,
      decide_eq_false_iff_not, Nat.not_lt, add64, Word.add] at passed
    omega
  · obtain ⟨accepted, returned, tests⟩ :=
      bufferRectPitchSet_cases srcSize srcOrigin region p true
    exact ⟨accepted, returned, fun yes => rect_confined_iff (words.fill region) srcWord (tests yes)⟩
  · obtain ⟨accepted, returned, tests⟩ :=
      copyBufferRectInBounds_cases srcSize dstSize srcOrigin dstOrigin region p
    refine ⟨accepted, returned, fun yes => ?_⟩
    obtain ⟨src, dst⟩ := tests yes
    exact and_congr (rect_confined_iff (words.fill region) srcWord src)
      (rect_confined_iff (words.fill region) dstWord dst)

/-- Two rows of four bytes, copied between two buffers of sixteen. -/
theorem bufferCopies_confined_small :
    (8 + 8 ≤ 16 ∧ 0 + 8 ≤ 16) ∧
      (((Pitches.mk 8 0 8 0).fill ⟨4, 2, 1⟩).rect 16 ⟨0, 0, 0⟩ ⟨4, 2, 1⟩ true).Confined ∧
      (((Pitches.mk 8 0 8 0).fill ⟨4, 2, 1⟩).rect 16 ⟨4, 0, 0⟩ ⟨4, 2, 1⟩ false).Confined := by
  obtain ⟨plain, -, accepted, returned, tests⟩ := @bufferCopies_confined_iff 16 16 (by decide)
    (by decide) 8 0 8 ⟨0, 0, 0⟩ ⟨4, 0, 0⟩ ⟨4, 2, 1⟩ ⟨8, 0, 8, 0⟩ ⟨by decide, by decide⟩
  have yes : accepted = true := by
    have run : copyBufferRectInBounds 16 16 ⟨0, 0, 0⟩ ⟨4, 0, 0⟩ ⟨4, 2, 1⟩ ⟨8, 0, 8, 0⟩ =
        .ok (true, (Pitches.mk 8 0 8 0).fill ⟨4, 2, 1⟩) := by decide +kernel
    rw [run] at returned
    injection returned with pair
    injection pair with first
    exact first.symm
  have both := (tests yes).mpr ⟨⟨by decide, Or.inl rfl⟩, ⟨by decide, Or.inl rfl⟩⟩
  exact ⟨(plain (by decide +kernel)).mpr (by decide), both⟩

/-- An offset of sixteen bytes below the word size, and a row pitch of half of it. -/
theorem bufferCopies_outside :
    (copyBufferInBounds 0x1000 0x1000 (2 ^ 64 - 16) 0 32 = true ∧
      ¬2 ^ 64 - 16 + 32 ≤ 0x1000) ∧
    bufferRectPitchSet 0x1000 ⟨0, 2, 0⟩ ⟨4, 1, 1⟩ ⟨2 ^ 63, 0, 4, 0⟩ true =
      .ok (true, ⟨2 ^ 63, 2 ^ 63, 4, 4⟩) ∧
    ¬((Pitches.mk (2 ^ 63) (2 ^ 63) 4 4).rect 0x1000 ⟨0, 2, 0⟩ ⟨4, 1, 1⟩ true).Confined := by
  refine ⟨by decide +kernel, by decide +kernel, fun confined => ?_⟩
  have inside := confined.inside 0 (by decide) 0 (by decide) 0 (by decide)
  exact absurd inside (by decide)

end ComputeRuntime.BufferCopies
