import ComputeRuntime.Staging.InFlight
import Mathlib.Tactic.Linarith

/-! How an image is cut into chunks: rows are grouped while they fit the chunk size, slices only
when one chunk holds all rows of a slice. -/
namespace ComputeRuntime

open Tiling

/-- An image transfer as it is asked for: the user's memory, the box of the image, and the
pitches of the user's memory. -/
structure ImageRequest where
  ptr : Nat
  origin : Origin
  region : Region
  rowPitch : Nat
  slicePitch : Nat
  bytesPerPixel : Nat
  isMipMapped3DImage : Bool
  deriving DecidableEq

/-- Some rows of some slices, counted from the start of the region. -/
structure Block where
  slice : Nat
  slices : Nat
  row : Nat
  rows : Nat
  deriving DecidableEq

namespace ImageRequest

def rowSize (q : ImageRequest) : Nat := q.region.x * q.bytesPerPixel

def mip (q : ImageRequest) : Nat := if q.isMipMapped3DImage then q.origin.mip else 0

/-- The bytes from the first to the last pixel of `slices` slices of `rows` rows. -/
def bytes (q : ImageRequest) (slices rows : Nat) : Nat :=
  (slices - 1) * q.slicePitch + (rows - 1) * q.rowPitch + q.rowSize

/-- The bytes of the user's memory from the first to the last pixel. -/
def size (q : ImageRequest) : Nat := q.bytes q.region.z q.region.y

/-- A request whose pixels the user's memory and the image have room for. -/
structure Sound (q : ImageRequest) : Prop where
  width : 0 < q.region.x
  height : 0 < q.region.y
  depth : 0 < q.region.z
  pitched : 0 < q.rowPitch
  rows : q.rowSize ≤ q.rowPitch
  slices : q.region.y * q.rowPitch ≤ q.slicePitch
  userMemory : q.ptr + q.size + 0x400000 < 2 ^ 64
  imageRows : q.origin.y + q.region.y < 2 ^ 64
  imageSlices : q.origin.z + q.region.z < 2 ^ 64

/-- The offset of a block from the user's pointer. -/
def offset (q : ImageRequest) (b : Block) : Nat := b.slice * q.slicePitch + b.row * q.rowPitch

/-- The metadata of a chunk of some rows of some slices. -/
def metadata (q : ImageRequest) (rows slices : Nat) : ImageMetadata :=
  ⟨q.bytesPerPixel, q.rowSize, q.rowPitch, q.slicePitch, rows, slices⟩

def userData (q : ImageRequest) (b : Block) : UserData :=
  ⟨q.ptr + q.offset b, q.bytes b.slices b.rows, q.metadata b.rows b.slices, true⟩

/-- The box of the image a block stands for. -/
def box (q : ImageRequest) (b : Block) : ChunkArgs :=
  .image ⟨q.origin.x, q.origin.y + b.row, q.origin.z + b.slice, q.mip⟩
    ⟨q.region.x, b.rows, b.slices⟩

/-- A block of the region: all rows of some slices, or some rows of one slice. -/
structure Has (q : ImageRequest) (b : Block) : Prop where
  someSlices : 0 < b.slices
  someRows : 0 < b.rows
  slices : b.slice + b.slices ≤ q.region.z
  rows : b.row + b.rows ≤ q.region.y
  whole : b.slices = 1 ∨ b.row = 0 ∧ b.rows = q.region.y

section Bytes

variable {q : ImageRequest} {b : Block}

theorem Sound.rows_le (sound : q.Sound) {rows : Nat} (some : 0 < rows) :
    (rows - 1) * q.rowPitch + q.rowSize ≤ rows * q.rowPitch := by
  obtain ⟨k, rfl⟩ : ∃ k, rows = k + 1 := ⟨rows - 1, by omega⟩
  have := sound.rows
  rw [Nat.add_sub_cancel, Nat.succ_mul]
  omega

theorem Sound.rows_lt (sound : q.Sound) {rows : Nat} (few : rows ≤ q.region.y) :
    rows * q.rowPitch ≤ q.slicePitch :=
  Nat.le_trans (Nat.mul_le_mul_right _ few) sound.slices

theorem bytes_mono (q : ImageRequest) {slices slices' rows rows' : Nat} (fewer : slices ≤ slices')
    (less : rows ≤ rows') : q.bytes slices rows ≤ q.bytes slices' rows' := by
  have slicesLe := Nat.mul_le_mul_right q.slicePitch (Nat.sub_le_sub_right fewer 1)
  have rowsLe := Nat.mul_le_mul_right q.rowPitch (Nat.sub_le_sub_right less 1)
  rw [bytes, bytes]
  omega

/-- A block ends inside the user's memory. -/
theorem Has.end_le (has : q.Has b) : q.offset b + q.bytes b.slices b.rows ≤ q.size := by
  have slices := Nat.mul_le_mul_right q.slicePitch
    (show b.slice + (b.slices - 1) ≤ q.region.z - 1 by
      have := has.slices
      have := has.someSlices
      omega)
  have rows := Nat.mul_le_mul_right q.rowPitch
    (show b.row + (b.rows - 1) ≤ q.region.y - 1 by
      have := has.rows
      have := has.someRows
      omega)
  rw [Nat.add_mul] at slices rows
  rw [size, bytes, bytes, offset]
  omega

theorem Has.bytes_le (has : q.Has b) : q.bytes b.slices b.rows ≤ q.size := by
  have := has.end_le
  omega

theorem Has.word (sound : q.Sound) (has : q.Has b) :
    (q.userData b).ptr + (q.userData b).size < 2 ^ 64 := by
  have low := has.end_le
  have high := sound.userMemory
  simp only [userData]
  omega

theorem Has.sound (sound : q.Sound) (has : q.Has b) : (q.userData b).Sound := by
  have rows := has.rows
  intro _
  exact {
    someRows := has.someRows
    someSlices := has.someSlices
    rowPitch := sound.rows
    slicePitch := sound.rows_lt (by simp only [userData, metadata]; omega)
    size := rfl }

/-- The size the code computes for a chunk. -/
theorem calculateSizeForRegion_eq (sound : q.Sound) (has : q.Has b) (rows slices : Nat) :
    calculateSizeForRegion ⟨q.region.x, b.rows, b.slices⟩
      ⟨q.bytesPerPixel, q.rowSize, q.rowPitch, q.slicePitch, rows, slices⟩ =
      q.bytes b.slices b.rows := by
  have total := has.bytes_le
  have word := sound.userMemory
  have someSlices := has.someSlices
  have someRows := has.someRows
  rw [bytes] at total
  have row : mul64 q.region.x q.bytesPerPixel = q.rowSize :=
    Word.mul_eq (show q.rowSize < 2 ^ 64 by omega)
  have rows : mul64 (sub64 b.rows 1) q.rowPitch = (b.rows - 1) * q.rowPitch := by
    have less : sub64 b.rows 1 = b.rows - 1 := Word.sub_eq someRows (by
      have := has.rows
      have := sound.imageRows
      omega)
    rw [less]
    exact Word.mul_eq (by omega)
  have slices : mul64 (sub64 b.slices 1) q.slicePitch = (b.slices - 1) * q.slicePitch := by
    have less : sub64 b.slices 1 = b.slices - 1 := Word.sub_eq someSlices (by
      have := has.slices
      have := sound.imageSlices
      omega)
    rw [less]
    exact Word.mul_eq (by omega)
  unfold calculateSizeForRegion bytes
  simp only [row, rows, slices]
  split
  next =>
    have first : add64 ((b.slices - 1) * q.slicePitch) ((b.rows - 1) * q.rowPitch) =
        (b.slices - 1) * q.slicePitch + (b.rows - 1) * q.rowPitch := Word.add_eq (by omega)
    rw [first]
    exact Word.add_eq (by omega)
  next single =>
    have one : b.slices = 1 := by omega
    rw [one, Nat.sub_self, Nat.zero_mul, Nat.zero_add]
    split
    next => exact Word.add_eq (by omega)
    next =>
      have oneRow : b.rows = 1 := by omega
      rw [oneRow, Nat.sub_self, Nat.zero_mul, Nat.zero_add]

end Bytes

/-! How many rows and slices a chunk takes. -/

def rowsPerChunk (q : ImageRequest) (chunkSize : Nat) : Nat :=
  min (max 1 (chunkSize / q.rowPitch)) q.region.y

def numOfChunksInYDim (q : ImageRequest) (chunkSize : Nat) : Nat :=
  q.region.y / q.rowsPerChunk chunkSize

/-- The rows of a slice that do not fill a chunk. -/
def remainder (q : ImageRequest) (chunkSize : Nat) : Nat := q.region.y % q.rowsPerChunk chunkSize

def slicesPerStep (q : ImageRequest) (chunkSize : Nat) : Nat :=
  if q.numOfChunksInYDim chunkSize = 1 then min (max 1 (chunkSize / q.slicePitch)) q.region.z
  else 1

/-- The chunks that some slices are cut into. -/
def chunksPerStep (q : ImageRequest) (chunkSize : Nat) : Nat :=
  q.numOfChunksInYDim chunkSize + if q.remainder chunkSize = 0 then 0 else 1

/-- No loop of the transfer has more rounds than its 32-bit counter can count. The rows and slices
of a chunk are counted when a read copies them one by one. -/
structure Counted (q : ImageRequest) (chunkSize : Nat) (isRead : Bool) : Prop where
  chunks : q.numOfChunksInYDim chunkSize < 2 ^ 32
  steps : q.region.z / q.slicesPerStep chunkSize < 2 ^ 32
  copyable : isRead = true →
    (q.metadata (q.rowsPerChunk chunkSize) (q.slicesPerStep chunkSize)).Copyable

section Plan

variable {q : ImageRequest} (sound : q.Sound) (chunkSize : Nat)

include sound

theorem rowsPerChunk_pos : 0 < q.rowsPerChunk chunkSize := by
  have := sound.height
  unfold rowsPerChunk
  omega

omit sound in
theorem rowsPerChunk_le : q.rowsPerChunk chunkSize ≤ q.region.y := Nat.min_le_right _ _

theorem numOfChunksInYDim_pos : 0 < q.numOfChunksInYDim chunkSize :=
  Nat.div_pos (rowsPerChunk_le chunkSize) (rowsPerChunk_pos sound chunkSize)

omit sound in
/-- The chunks of a slice and the rows that are left. -/
theorem rows_split : q.rowsPerChunk chunkSize * q.numOfChunksInYDim chunkSize +
    q.remainder chunkSize = q.region.y := Nat.div_add_mod _ _

theorem remainder_lt : q.remainder chunkSize < q.rowsPerChunk chunkSize :=
  Nat.mod_lt _ (rowsPerChunk_pos sound chunkSize)

/-- The remainder by the rows of all full chunks is the remainder by those of one. -/
theorem mod_fullChunks : q.region.y % (q.rowsPerChunk chunkSize * q.numOfChunksInYDim chunkSize) =
    q.remainder chunkSize := by
  have split := rows_split (q := q) chunkSize
  have few := remainder_lt sound chunkSize
  have one := Nat.le_mul_of_pos_right (q.rowsPerChunk chunkSize)
    (numOfChunksInYDim_pos sound chunkSize)
  conv_lhs => rw [← split]
  rw [Nat.add_mod_left, Nat.mod_eq_of_lt (by omega)]

theorem slicesPerStep_pos : 0 < q.slicesPerStep chunkSize := by
  have := sound.depth
  unfold slicesPerStep
  split <;> omega

theorem slicesPerStep_le : q.slicesPerStep chunkSize ≤ q.region.z := by
  have := sound.depth
  unfold slicesPerStep
  split <;> omega

/-- Slices whose rows do not come out even are never packed: a chunk that cannot hold all rows
of a slice cannot hold a slice. -/
theorem slicesPerStep_uneven (uneven : q.remainder chunkSize ≠ 0) :
    q.slicesPerStep chunkSize = 1 := by
  have depth := sound.depth
  have fewer : q.rowsPerChunk chunkSize < q.region.y := by
    refine Nat.lt_of_le_of_ne (rowsPerChunk_le chunkSize) fun all => uneven ?_
    rw [remainder, all, Nat.mod_self]
  unfold slicesPerStep
  split
  next =>
    have rows : chunkSize / q.rowPitch < q.region.y := by
      unfold rowsPerChunk at fewer
      omega
    have small : chunkSize < q.slicePitch :=
      Nat.lt_of_lt_of_le ((Nat.div_lt_iff_lt_mul sound.pitched).mp rows) sound.slices
    rw [Nat.div_eq_of_lt small]
    omega
  next => rfl

/-- Packed slices have all their rows in the chunk. -/
theorem rowsPerChunk_packed (packed : q.slicesPerStep chunkSize ≠ 1) :
    q.rowsPerChunk chunkSize = q.region.y := by
  have even : q.remainder chunkSize = 0 := by
    by_contra uneven
    exact packed (slicesPerStep_uneven sound chunkSize uneven)
  have single : q.numOfChunksInYDim chunkSize = 1 := by
    by_contra several
    exact packed (if_neg several)
  have split := rows_split (q := q) chunkSize
  rw [even, single] at split
  omega

end Plan

/-- The rows of chunk `j` of a step. -/
def rowsOf (q : ImageRequest) (chunkSize j : Nat) : Nat :=
  if j < q.numOfChunksInYDim chunkSize then q.rowsPerChunk chunkSize else q.remainder chunkSize

/-- The slices of a step. -/
def slicesOf (q : ImageRequest) (chunkSize step : Nat) : Nat :=
  if step < q.region.z / q.slicesPerStep chunkSize then q.slicesPerStep chunkSize
  else q.region.z % q.slicesPerStep chunkSize

/-- All chunks of the transfer. -/
def chunkCount (q : ImageRequest) (chunkSize : Nat) : Nat :=
  (q.region.z / q.slicesPerStep chunkSize +
    if q.region.z % q.slicesPerStep chunkSize = 0 then 0 else 1) * q.chunksPerStep chunkSize

/-- The rows and slices of chunk `k`. -/
def block (q : ImageRequest) (chunkSize k : Nat) : Block :=
  ⟨k / q.chunksPerStep chunkSize * q.slicesPerStep chunkSize,
    q.slicesOf chunkSize (k / q.chunksPerStep chunkSize),
    k % q.chunksPerStep chunkSize * q.rowsPerChunk chunkSize,
    q.rowsOf chunkSize (k % q.chunksPerStep chunkSize)⟩

def fullSize (q : ImageRequest) (chunkSize : Nat) : Nat :=
  q.bytes (q.slicesPerStep chunkSize) (q.rowsPerChunk chunkSize)

/-- The size of the first chunk in a slot of a read. In slot 1 it is smaller than a full chunk
when the second chunk has the rows that are left, or the slices that are left. -/
def slotSize (q : ImageRequest) (chunkSize slot : Nat) : Nat :=
  if slot = 0 then q.fullSize chunkSize
  else if q.numOfChunksInYDim chunkSize = 1 ∧ q.remainder chunkSize ≠ 0 then
    q.bytes 1 (q.remainder chunkSize)
  else if q.numOfChunksInYDim chunkSize = 1 ∧ q.region.z / q.slicesPerStep chunkSize = 1 then
    q.bytes (q.region.z % q.slicesPerStep chunkSize) (q.rowsPerChunk chunkSize)
  else q.fullSize chunkSize

section Slots

variable {q : ImageRequest} (sound : q.Sound) (chunkSize : Nat) {step j : Nat}

include sound

theorem slicesOf_le (step : Nat) : q.slicesOf chunkSize step ≤ q.slicesPerStep chunkSize := by
  have less := Nat.mod_lt q.region.z (slicesPerStep_pos sound chunkSize)
  unfold slicesOf
  split <;> omega

theorem rowsOf_le (j : Nat) : q.rowsOf chunkSize j ≤ q.rowsPerChunk chunkSize := by
  have fewer := remainder_lt sound chunkSize
  unfold rowsOf
  split <;> omega

omit sound in
/-- Chunk `j` of a step, by its number in the transfer. -/
theorem block_eq {k : Nat} (inStep : j < q.chunksPerStep chunkSize)
    (number : k = step * q.chunksPerStep chunkSize + j) : q.block chunkSize k =
      ⟨step * q.slicesPerStep chunkSize, q.slicesOf chunkSize step,
        j * q.rowsPerChunk chunkSize, q.rowsOf chunkSize j⟩ := by
  have quotient : k / q.chunksPerStep chunkSize = step := by
    rw [number, Nat.mul_comm, Nat.mul_add_div (by omega), Nat.div_eq_of_lt inStep, Nat.add_zero]
  have rest : k % q.chunksPerStep chunkSize = j := by
    rw [number, Nat.mul_comm, Nat.mul_add_mod, Nat.mod_eq_of_lt inStep]
  rw [block, quotient, rest]

/-- No two chunks have a pixel row in common. -/
theorem block_unique {i k y z : Nat}
    (row : (q.block chunkSize i).row ≤ y ∧ y < (q.block chunkSize i).row + (q.block chunkSize i).rows)
    (row' : (q.block chunkSize k).row ≤ y ∧
      y < (q.block chunkSize k).row + (q.block chunkSize k).rows)
    (slice : (q.block chunkSize i).slice ≤ z ∧
      z < (q.block chunkSize i).slice + (q.block chunkSize i).slices)
    (slice' : (q.block chunkSize k).slice ≤ z ∧
      z < (q.block chunkSize k).slice + (q.block chunkSize k).slices) : i = k := by
  have someRows := rowsPerChunk_pos sound chunkSize
  have someSlices := slicesPerStep_pos sound chunkSize
  -- the number in the step and the number of the step, by row and slice
  have counted (n : Nat)
      (row : (q.block chunkSize n).row ≤ y ∧
        y < (q.block chunkSize n).row + (q.block chunkSize n).rows)
      (slice : (q.block chunkSize n).slice ≤ z ∧
        z < (q.block chunkSize n).slice + (q.block chunkSize n).slices) :
      n % q.chunksPerStep chunkSize = y / q.rowsPerChunk chunkSize ∧
        n / q.chunksPerStep chunkSize = z / q.slicesPerStep chunkSize := by
    have few := rowsOf_le sound chunkSize (n % q.chunksPerStep chunkSize)
    have deep := slicesOf_le sound chunkSize (n / q.chunksPerStep chunkSize)
    simp only [block] at row slice
    constructor
    · exact (Nat.div_eq_of_lt_le row.1 (by rw [Nat.succ_mul]; omega)).symm
    · exact (Nat.div_eq_of_lt_le slice.1 (by rw [Nat.succ_mul]; omega)).symm
  obtain ⟨inStep, step⟩ := counted i row slice
  obtain ⟨inStep', step'⟩ := counted k row' slice'
  rw [← Nat.div_add_mod i (q.chunksPerStep chunkSize), inStep, step, ← inStep', ← step',
    Nat.div_add_mod]

theorem chunk_le_full : q.bytes (q.slicesOf chunkSize step) (q.rowsOf chunkSize j) ≤
    q.fullSize chunkSize :=
  q.bytes_mono (slicesOf_le sound chunkSize step) (rowsOf_le sound chunkSize j)

omit sound in
theorem chunk_full (steps : step < q.region.z / q.slicesPerStep chunkSize)
    (fills : j < q.numOfChunksInYDim chunkSize) :
    q.bytes (q.slicesOf chunkSize step) (q.rowsOf chunkSize j) = q.fullSize chunkSize := by
  rw [slicesOf, if_pos steps, rowsOf, if_pos fills, fullSize]

/-- Every second chunk has the rows that are left. -/
private theorem slotSize_uneven (inStep : j < q.chunksPerStep chunkSize)
    (single : q.numOfChunksInYDim chunkSize = 1) (uneven : q.remainder chunkSize ≠ 0) {n : Nat}
    (number : n = step * q.chunksPerStep chunkSize + j) :
    q.bytes (q.slicesOf chunkSize step) (q.rowsOf chunkSize j) ≤ q.slotSize chunkSize (n % 2) ∧
    (n < 2 → q.slotSize chunkSize n ≤
      q.bytes (q.slicesOf chunkSize step) (q.rowsOf chunkSize j)) := by
  have two : q.chunksPerStep chunkSize = 2 := by rw [chunksPerStep, single, if_neg uneven]
  have one := slicesPerStep_uneven sound chunkSize uneven
  have steps : q.region.z / q.slicesPerStep chunkSize = q.region.z := by rw [one, Nat.div_one]
  have depth := sound.depth
  rw [two] at inStep number
  have slots : n % 2 = j := by omega
  rw [slots]
  have cases : j = 0 ∨ j = 1 := by omega
  rcases cases with rfl | rfl
  · have zero : q.slotSize chunkSize 0 = q.fullSize chunkSize := if_pos rfl
    rw [zero]
    refine ⟨chunk_le_full sound chunkSize, fun first => ?_⟩
    have start : step = 0 := by omega
    rw [number, start, chunk_full chunkSize (by omega) (by omega)]
    exact Nat.le_of_eq zero
  · have rows : q.rowsOf chunkSize 1 = q.remainder chunkSize := if_neg (by omega)
    have second : q.slotSize chunkSize 1 = q.bytes 1 (q.remainder chunkSize) := by
      rw [slotSize, if_neg (by decide), if_pos ⟨single, uneven⟩]
    rw [rows, second]
    refine ⟨q.bytes_mono ?_ (Nat.le_refl _), fun first => ?_⟩
    · unfold slicesOf
      rw [one]
      split <;> omega
    · have start : step = 0 := by omega
      rw [number, start, slicesOf, if_pos (by omega), one]
      exact Nat.le_of_eq second

/-- Chunk `j` of a step is number `step * chunksPerStep + j` of the transfer; it fits what the
first chunk in its slot asked for, and the first chunks of the slots are these. -/
theorem slotSize_fits (inStep : j < q.chunksPerStep chunkSize)
    (steps : step ≤ q.region.z / q.slicesPerStep chunkSize) {n : Nat}
    (number : n = step * q.chunksPerStep chunkSize + j) :
    q.bytes (q.slicesOf chunkSize step) (q.rowsOf chunkSize j) ≤ q.slotSize chunkSize (n % 2) ∧
    (n < 2 → q.slotSize chunkSize n ≤
      q.bytes (q.slicesOf chunkSize step) (q.rowsOf chunkSize j)) := by
  have full : q.bytes (q.slicesOf chunkSize step) (q.rowsOf chunkSize j) ≤ q.fullSize chunkSize :=
    chunk_le_full sound chunkSize
  have some := numOfChunksInYDim_pos sound chunkSize
  have someSteps := Nat.div_pos (slicesPerStep_le sound chunkSize) (slicesPerStep_pos sound chunkSize)
  by_cases uneven : q.numOfChunksInYDim chunkSize = 1 ∧ q.remainder chunkSize ≠ 0
  · exact slotSize_uneven sound chunkSize inStep uneven.1 uneven.2 number
  -- in one chunk a step, the number of a chunk is that of its step
  have alone : q.numOfChunksInYDim chunkSize = 1 → j = 0 ∧ n = step := by
    intro single
    have even : q.remainder chunkSize = 0 := by
      by_contra left
      exact uneven ⟨single, left⟩
    have one : q.chunksPerStep chunkSize = 1 := by rw [chunksPerStep, single, if_pos even]
    rw [one] at inStep number
    omega
  by_cases short : q.numOfChunksInYDim chunkSize = 1 ∧ q.region.z / q.slicesPerStep chunkSize = 1
  · obtain ⟨rfl, rfl⟩ := alone short.1
    have cases : n = 0 ∨ n = 1 := by omega
    rcases cases with rfl | rfl
    · rw [slotSize, if_pos rfl]
      exact ⟨full, fun _ => Nat.le_of_eq (chunk_full chunkSize someSteps some).symm⟩
    · have last : q.slotSize chunkSize 1 =
          q.bytes (q.slicesOf chunkSize 1) (q.rowsOf chunkSize 0) := by
        rw [slotSize, if_neg (by decide), if_neg uneven, if_pos short, slicesOf, if_neg (by omega),
          rowsOf, if_pos some]
      exact ⟨Nat.le_of_eq last.symm, fun _ => Nat.le_of_eq last⟩
  · have any : ∀ slot, q.slotSize chunkSize slot = q.fullSize chunkSize := by
      intro slot
      rw [slotSize, if_neg uneven, if_neg short, ite_self]
    rw [any, any]
    refine ⟨full, fun first => ?_⟩
    have early : step < q.region.z / q.slicesPerStep chunkSize ∧
        j < q.numOfChunksInYDim chunkSize := by
      by_cases single : q.numOfChunksInYDim chunkSize = 1
      · have := alone single
        omega
      · have several : 2 ≤ q.chunksPerStep chunkSize := by
          rw [chunksPerStep]
          omega
        have start : step = 0 := by
          by_contra later
          have := Nat.le_mul_of_pos_left (q.chunksPerStep chunkSize) (Nat.pos_of_ne_zero later)
          omega
        rw [start] at number
        omega
    exact Nat.le_of_eq (chunk_full chunkSize early.1 early.2).symm

/-- Chunk `j` of a step is a block of the region. -/
theorem has_chunk {slice : Nat} (inStep : j < q.chunksPerStep chunkSize)
    (some : 0 < q.slicesOf chunkSize step) (inside : slice + q.slicesOf chunkSize step ≤ q.region.z) :
    q.Has ⟨slice, q.slicesOf chunkSize step, j * q.rowsPerChunk chunkSize, q.rowsOf chunkSize j⟩ := by
  have split := rows_split (q := q) chunkSize
  have somePositive := rowsPerChunk_pos sound chunkSize
  refine ⟨some, ?_, inside, ?_, ?_⟩
  · simp only [rowsOf]
    split
    next => exact somePositive
    next last =>
      rw [chunksPerStep] at inStep
      split at inStep <;> omega
  · simp only [rowsOf]
    split
    next fills =>
      have := Nat.mul_le_mul_right (q.rowsPerChunk chunkSize) (show j + 1 ≤ _ from fills)
      rw [Nat.mul_comm (q.rowsPerChunk chunkSize)] at split
      rw [Nat.succ_mul] at this
      omega
    next last =>
      have here : j = q.numOfChunksInYDim chunkSize := by
        rw [chunksPerStep] at inStep
        split at inStep <;> omega
      rw [here, Nat.mul_comm, split]
  · by_cases packed : q.slicesPerStep chunkSize = 1
    · left
      simp only [slicesOf, packed, Nat.mod_one] at some ⊢
      split at some
      next => rw [if_pos ‹_›]
      next => omega
    · right
      have all := rowsPerChunk_packed sound chunkSize packed
      have height := sound.height
      have single : q.numOfChunksInYDim chunkSize = 1 := by
        rw [numOfChunksInYDim, all, Nat.div_self height]
      have even : q.remainder chunkSize = 0 := by rw [remainder, all, Nat.mod_self]
      have alone : q.chunksPerStep chunkSize = 1 := by rw [chunksPerStep, single, if_pos even]
      have first : j = 0 := by omega
      rw [first, Nat.zero_mul, rowsOf, if_pos (by omega), all]
      exact ⟨rfl, rfl⟩

/-- When a full chunk can be copied, all chunks can. -/
theorem Counted.chunk {isRead : Bool} (counted : q.Counted chunkSize isRead) (read : isRead = true)
    (inStep : j < q.chunksPerStep chunkSize) :
    (q.metadata (q.rowsOf chunkSize j) (q.slicesOf chunkSize step)).Copyable := by
  have few := rowsOf_le sound chunkSize j
  have deep := slicesOf_le sound chunkSize step
  intro padded
  have full : (q.metadata (q.rowsPerChunk chunkSize) (q.slicesPerStep chunkSize)).Padded := by
    rcases padded with rows | ⟨area, several⟩
    · exact Or.inl rows
    · simp only [metadata] at area several
      -- packed slices have all their rows in each chunk
      have packed : q.slicesPerStep chunkSize ≠ 1 := by omega
      have even : q.remainder chunkSize = 0 := by
        by_contra uneven
        exact packed (slicesPerStep_uneven sound chunkSize uneven)
      rw [chunksPerStep, if_pos even, Nat.add_zero] at inStep
      rw [rowsOf, if_pos inStep] at area
      exact Or.inr ⟨area, Nat.lt_of_lt_of_le several deep⟩
  obtain ⟨rows, slices⟩ := counted.copyable read full
  exact ⟨Nat.lt_of_le_of_lt few rows, Nat.lt_of_le_of_lt deep slices⟩

end Slots

/-! Which pixels the chunks hit. -/

end ImageRequest

/-- How often a chunk holds a pixel of the image. -/
def ChunkArgs.hits (x y z : Nat) : ChunkArgs → Nat
  | .image origin region =>
    Tiling.hits x origin.x (origin.x + region.x) * (Tiling.hits y origin.y (origin.y + region.y) *
      Tiling.hits z origin.z (origin.z + region.z))
  | _ => 0

/-- The chunks hold each pixel of the slices before `slice`, and of the rows before `row` of the
`slices` slices after them, exactly once, and no other pixel. -/
def ImageRequest.Covered (q : ImageRequest) (chunks : List Submission) (slice slices row : Nat) :
    Prop :=
  ∀ x y z, (chunks.map fun c => c.args.hits x y z).sum =
    hits x q.origin.x (q.origin.x + q.region.x) *
      (hits y q.origin.y (q.origin.y + q.region.y) * hits z q.origin.z (q.origin.z + slice) +
        hits y q.origin.y (q.origin.y + row) *
          hits z (q.origin.z + slice) (q.origin.z + slice + slices))

namespace ImageRequest

variable {q : ImageRequest} {chunks : List Submission} {slice slices row : Nat}

theorem Covered.start (q : ImageRequest) (slices : Nat) : q.Covered [] 0 slices 0 := by
  intro x y z
  simp

theorem Covered.block {rows : Nat} (covered : q.Covered chunks slice slices row) {c : Submission}
    (args : c.args = q.box ⟨slice, slices, row, rows⟩) :
    q.Covered (chunks ++ [c]) slice slices (row + rows) := by
  intro x y z
  have cut := (hits_additive y).cut (show q.origin.y ≤ q.origin.y + row by omega)
    (show q.origin.y + row ≤ q.origin.y + (row + rows) by omega)
  have spans : q.origin.y + (row + rows) = q.origin.y + row + rows := by omega
  rw [List.map_append, List.sum_append, covered x y z, cut, spans]
  simp only [List.map_cons, List.map_nil, List.sum_cons, List.sum_nil, args, box, ChunkArgs.hits]
  ring

/-- All rows of the slices are done, so the slices are. -/
theorem Covered.nextSlices (covered : q.Covered chunks slice slices q.region.y) (slices' : Nat) :
    q.Covered chunks (slice + slices) slices' 0 := by
  intro x y z
  have cut := (hits_additive z).cut (show q.origin.z ≤ q.origin.z + slice by omega)
    (show q.origin.z + slice ≤ q.origin.z + slice + slices by omega)
  rw [covered x y z, Nat.add_zero, hits_empty, ← Nat.add_assoc, cut]
  ring

/-- The chunks hold every pixel as often as the box of the request: once or not at all. -/
def Tiled (q : ImageRequest) (chunks : List Submission) : Prop :=
  ∀ x y z, (chunks.map fun c => c.args.hits x y z).sum =
    (ChunkArgs.image q.origin q.region).hits x y z

theorem Covered.tiled (covered : q.Covered chunks q.region.z slices 0) : q.Tiled chunks := by
  intro x y z
  rw [covered x y z, Nat.add_zero, hits_empty, Nat.zero_mul, Nat.add_zero]
  rfl

/-- Every chunk stands for the block of its number. -/
def Planned (q : ImageRequest) (chunkSize : Nat) (chunks : List Submission) : Prop :=
  ∀ (k : Nat) (c : Submission), chunks[k]? = some c → q.Has (q.block chunkSize k) ∧
    c.userData = q.userData (q.block chunkSize k) ∧ c.args = q.box (q.block chunkSize k)

/-- Every chunk stands for a block of the region. -/
def Blocks (q : ImageRequest) (chunks : List Submission) : Prop :=
  ∀ c ∈ chunks, ∃ b, q.Has b ∧ c.userData = q.userData b ∧ c.args = q.box b

theorem Planned.blocks {chunkSize : Nat} (planned : q.Planned chunkSize chunks) :
    q.Blocks chunks := by
  intro c member
  obtain ⟨k, found⟩ := List.getElem?_of_mem member
  exact ⟨_, planned k c found⟩

/-- Some chunk holds each pixel row of the region. -/
theorem Tiled.holds (tiled : q.Tiled chunks) (blocks : q.Blocks chunks) (sound : q.Sound) {y z : Nat}
    (row : y < q.region.y) (slice : z < q.region.z) :
    ∃ c ∈ chunks, ∃ b, c.userData = q.userData b ∧ c.args = q.box b ∧
      (b.row ≤ y ∧ y < b.row + b.rows) ∧ b.slice ≤ z ∧ z < b.slice + b.slices := by
  have width := sound.width
  have hit := tiled q.origin.x (q.origin.y + y) (q.origin.z + z)
  have inside : (ChunkArgs.image q.origin q.region).hits q.origin.x (q.origin.y + y)
      (q.origin.z + z) = 1 := by
    have first : hits q.origin.x q.origin.x (q.origin.x + q.region.x) = 1 :=
      hits_eq_one.mpr ⟨Nat.le_refl _, by omega⟩
    have second : hits (q.origin.y + y) q.origin.y (q.origin.y + q.region.y) = 1 :=
      hits_eq_one.mpr ⟨by omega, by omega⟩
    have third : hits (q.origin.z + z) q.origin.z (q.origin.z + q.region.z) = 1 :=
      hits_eq_one.mpr ⟨by omega, by omega⟩
    rw [ChunkArgs.hits, first, second, third]
  obtain ⟨c, member, counted⟩ : ∃ c ∈ chunks,
      c.args.hits q.origin.x (q.origin.y + y) (q.origin.z + z) ≠ 0 := by
    by_contra none
    simp only [not_exists, not_and, ne_eq, not_not] at none
    have zero : (chunks.map fun c =>
        c.args.hits q.origin.x (q.origin.y + y) (q.origin.z + z)).sum = 0 := by
      rw [List.sum_eq_zero_iff]
      simpa using none
    omega
  obtain ⟨b, _, userData, args⟩ := blocks c member
  rw [args, box, ChunkArgs.hits] at counted
  simp only [ne_eq, mul_eq_zero, not_or, hits_eq_zero, not_not, Set.mem_Ico] at counted
  exact ⟨c, member, b, userData, args, by omega, by omega, by omega⟩

/-- What a read did to the user's memory: each pixel row holds the bytes at the row's place in the
chunk that holds it, and nothing else changed. -/
structure Landed (q : ImageRequest) (contents : Nat → Nat → UInt8) (chunks : List Submission)
    (before host : Nat → UInt8) : Prop where
  rows : ∀ y < q.region.y, ∀ z < q.region.z,
    ∃ (k : Nat) (c : Submission) (origin : Origin) (region : Region),
      chunks[k]? = some c ∧ c.args = .image origin region ∧
      (origin.y ≤ q.origin.y + y ∧ q.origin.y + y < origin.y + region.y) ∧
      (origin.z ≤ q.origin.z + z ∧ q.origin.z + z < origin.z + region.z) ∧
      ∀ byte < q.rowSize, host (q.ptr + (z * q.slicePitch + y * q.rowPitch + byte)) =
        contents k ((q.origin.z + z - origin.z) * q.slicePitch +
          (q.origin.y + y - origin.y) * q.rowPitch + byte)
  kept : ∀ a, (∀ y < q.region.y, ∀ z < q.region.z, ∀ byte < q.rowSize,
    a ≠ q.ptr + (z * q.slicePitch + y * q.rowPitch + byte)) → host a = before a

theorem Landed.of_reads {contents : Nat → Nat → UInt8} {before host : Nat → UInt8} (tiled : q.Tiled chunks)
    (blocks : q.Blocks chunks) (sound : q.Sound)
    (reads : HostReads contents before chunks (fun _ => True) host) :
    q.Landed contents chunks before host where
  rows := by
    intro y row z slice
    obtain ⟨c, member, b, userData, args, inRows, inSlices⟩ := tiled.holds blocks sound row slice
    obtain ⟨k, found⟩ := List.getElem?_of_mem member
    have rowsHold : q.origin.y + b.row ≤ q.origin.y + y ∧
        q.origin.y + y < q.origin.y + b.row + b.rows := by omega
    have slicesHold : q.origin.z + b.slice ≤ q.origin.z + z ∧
        q.origin.z + z < q.origin.z + b.slice + b.slices := by omega
    refine ⟨k, c, _, _, found, args, rowsHold, slicesHold, fun byte inside => ?_⟩
    -- the row inside the block
    obtain ⟨s, rfl⟩ : ∃ s, z = b.slice + s := ⟨z - b.slice, by omega⟩
    obtain ⟨r, rfl⟩ : ∃ r, y = b.row + r := ⟨y - b.row, by omega⟩
    have inBytes : s * q.slicePitch + r * q.rowPitch + byte ∈ c.userData.bytes := by
      rw [userData]
      exact ⟨s, by simp only [ImageRequest.userData, metadata]; omega, r,
        by simp only [ImageRequest.userData, metadata]; omega, by
          simp only [ImageMetadata.row, ImageRequest.userData, metadata, Set.mem_ofPred_eq]
          omega⟩
    have landed := reads.copied k c found trivial _ inBytes
    have place : c.userData.ptr = q.ptr + q.offset b := by rw [userData, ImageRequest.userData]
    have address : q.ptr + ((b.slice + s) * q.slicePitch + (b.row + r) * q.rowPitch + byte) =
        c.userData.ptr + (s * q.slicePitch + r * q.rowPitch + byte) := by
      rw [place, offset]
      ring
    have inSlice : q.origin.z + (b.slice + s) - (q.origin.z + b.slice) = s := by omega
    have inRow : q.origin.y + (b.row + r) - (q.origin.y + b.row) = r := by omega
    rw [address, landed, inSlice, inRow]
  kept := by
    intro a outside
    refine reads.kept a fun c member o inBytes => ?_
    obtain ⟨b, has, userData, _⟩ := blocks c member
    rw [userData] at inBytes ⊢
    obtain ⟨s, slice, r, row, low, high⟩ := inBytes
    have slices := has.slices
    have rows := has.rows
    simp only [ImageRequest.userData, metadata] at slice row low high ⊢
    have apart := outside (b.row + r) (by omega) (b.slice + s) (by omega)
      (o - (s * q.slicePitch + r * q.rowPitch)) (by omega)
    rw [Nat.add_mul, Nat.add_mul] at apart
    rw [offset]
    omega

/-- No wait of a read comes back before the bytes of its chunk are there. -/
def Awaited (q : ImageRequest) (env : Surroundings) (chunkSize : Nat) : Prop :=
  ∀ k < q.chunkCount chunkSize, ∀ o ∈ (q.userData (q.block chunkSize k)).bytes,
    env.seen (q.chunkCount chunkSize) k o = env.staged k o

/-- What the GPU put into the chunks has landed exactly when it was there in time. -/
theorem landed_iff {env : Surroundings} {before host : Nat → UInt8} {chunkSize : Nat}
    (sound : q.Sound) (tiled : q.Tiled chunks) (planned : q.Planned chunkSize chunks)
    (all : chunks.length = q.chunkCount chunkSize)
    (reads : HostReads (env.seen chunks.length) before chunks (fun _ => True) host) :
    q.Landed env.staged chunks before host ↔ q.Awaited env chunkSize := by
  constructor
  · intro landed k listed o member
    have found := List.getElem?_eq_getElem (all ▸ listed)
    obtain ⟨has, userData, -⟩ := planned k _ found
    have seen := reads.copied k _ found trivial o (userData ▸ member)
    obtain ⟨s, slice, r, row, low, high⟩ := member
    simp only [ImageRequest.userData, metadata] at slice row low high
    have slices := has.slices
    have rows := has.rows
    obtain ⟨k', c, origin, region, found', args, inRows, inSlices, bytes⟩ :=
      landed.rows ((q.block chunkSize k).row + r) (by omega) ((q.block chunkSize k).slice + s) (by omega)
    obtain ⟨has', -, args'⟩ := planned k' c found'
    rw [args', box, ChunkArgs.image.injEq] at args
    obtain ⟨rfl, rfl⟩ := args
    simp only at inRows inSlices bytes
    obtain rfl : k' = k := block_unique sound chunkSize (y := (q.block chunkSize k).row + r)
      (z := (q.block chunkSize k).slice + s) (by omega) (by omega) (by omega) (by omega)
    have byte := bytes (o - (s * q.slicePitch + r * q.rowPitch)) (by omega)
    have place : q.ptr + (((q.block chunkSize k').slice + s) * q.slicePitch +
        ((q.block chunkSize k').row + r) * q.rowPitch + (o - (s * q.slicePitch + r * q.rowPitch))) =
        q.ptr + q.offset (q.block chunkSize k') + o := by
      rw [offset, Nat.add_mul, Nat.add_mul]
      omega
    have inSlice : q.origin.z + ((q.block chunkSize k').slice + s) -
        (q.origin.z + (q.block chunkSize k').slice) = s := by omega
    have inRow : q.origin.y + ((q.block chunkSize k').row + r) -
        (q.origin.y + (q.block chunkSize k').row) = r := by omega
    have rest : s * q.slicePitch + r * q.rowPitch + (o - (s * q.slicePitch + r * q.rowPitch)) = o := by
      omega
    rw [place, inSlice, inRow, rest] at byte
    rw [userData, ImageRequest.userData] at seen
    rw [← all]
    exact seen.symm.trans byte
  · intro awaited
    refine .of_reads tiled planned.blocks sound ⟨fun k c found _ o member => ?_, reads.kept⟩
    have listed := (List.getElem?_eq_some_iff.mp found).1
    rw [reads.copied k c found trivial o member, all]
    exact awaited k (all ▸ listed) o ((planned k c found).2.1 ▸ member)

end ImageRequest

end ComputeRuntime
