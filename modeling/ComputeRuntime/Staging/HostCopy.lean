import ComputeRuntime.Staging.Supply

/-! What a read copies from its staging chunk to the user: the bytes of the pixel rows, and
nothing between them, whether row by row or at once. -/
namespace ComputeRuntime

open Memory

namespace ImageMetadata

variable {d : ImageMetadata} {size : Nat}

/-- The offsets of one pixel row from the start of the chunk. -/
def row (d : ImageMetadata) (slice row : Nat) : Set Nat :=
  {o | slice * d.slicePitch + row * d.rowPitch ≤ o ∧
    o < slice * d.slicePitch + row * d.rowPitch + d.rowSize}

/-- The offsets of the pixel rows of the chunk. -/
def rows (d : ImageMetadata) : Set Nat :=
  {o | ∃ s < d.slicesInChunk, ∃ r < d.rowsInChunk, o ∈ d.row s r}

/-- There are bytes between the pixel rows, so that they are copied one by one. -/
def Padded (d : ImageMetadata) : Prop :=
  d.rowSize < d.rowPitch ∨ d.rowSize * d.rowsInChunk < d.slicePitch ∧ d.slicesInChunk > 1

/-- The loops over slices and rows that copy a padded chunk have 32-bit counters. -/
def Copyable (d : ImageMetadata) : Prop :=
  d.Padded → d.rowsInChunk < 2 ^ 32 ∧ d.slicesInChunk < 2 ^ 32

/-- A chunk of some rows of some slices, in `size` bytes with the user's pitches. -/
structure Spans (d : ImageMetadata) (size : Nat) : Prop where
  someRows : 0 < d.rowsInChunk
  someSlices : 0 < d.slicesInChunk
  rowPitch : d.rowSize ≤ d.rowPitch
  slicePitch : d.rowsInChunk * d.rowPitch ≤ d.slicePitch
  size : size = (d.slicesInChunk - 1) * d.slicePitch + (d.rowsInChunk - 1) * d.rowPitch + d.rowSize

theorem Spans.row_le (spans : d.Spans size) {s r : Nat} (slice : s < d.slicesInChunk)
    (row : r < d.rowsInChunk) : s * d.slicePitch + r * d.rowPitch + d.rowSize ≤ size := by
  have slices := Nat.mul_le_mul_right d.slicePitch (show s ≤ d.slicesInChunk - 1 by omega)
  have rows := Nat.mul_le_mul_right d.rowPitch (show r ≤ d.rowsInChunk - 1 by omega)
  have := spans.size
  omega

theorem Spans.row_lt (spans : d.Spans size) {o : Nat} (member : o ∈ d.rows) : o < size := by
  obtain ⟨s, slice, r, row, inside⟩ := member
  have := spans.row_le slice row
  have := inside.2
  omega

theorem Spans.area_le (spans : d.Spans size) : d.rowSize * d.rowsInChunk ≤ size := by
  have last := Nat.mul_le_mul_left (d.rowsInChunk - 1) spans.rowPitch
  have split : d.rowSize * d.rowsInChunk = (d.rowsInChunk - 1) * d.rowSize + d.rowSize := by
    obtain ⟨k, count⟩ : ∃ k, d.rowsInChunk = k + 1 := ⟨_, (Nat.sub_add_cancel spans.someRows).symm⟩
    rw [count, Nat.add_sub_cancel]
    ring
  have := spans.size
  omega

/-- Rows without padding inside slices without padding, or in one slice, fill the chunk. -/
theorem Spans.dense (spans : d.Spans size) (noRowPadding : d.rowPitch ≤ d.rowSize)
    (noSlicePadding : d.slicePitch ≤ d.rowSize * d.rowsInChunk ∨ d.slicesInChunk ≤ 1) {o : Nat}
    (inside : o < size) : o ∈ d.rows := by
  have pitch : d.rowSize = d.rowPitch := Nat.le_antisymm spans.rowPitch noRowPadding
  have bytes := spans.size
  obtain ⟨k, count⟩ : ∃ k, d.rowsInChunk = k + 1 := ⟨_, (Nat.sub_add_cancel spans.someRows).symm⟩
  have sliceBytes : (d.rowsInChunk - 1) * d.rowPitch + d.rowSize = d.rowsInChunk * d.rowPitch := by
    rw [pitch, count, Nat.add_sub_cancel]
    ring
  -- a byte of one slice lies in one of its rows
  have inSlice : ∀ rest < d.rowsInChunk * d.rowPitch, ∃ r < d.rowsInChunk,
      r * d.rowPitch ≤ rest ∧ rest < r * d.rowPitch + d.rowPitch := by
    intro rest below
    have positive : 0 < d.rowPitch := Nat.pos_of_ne_zero fun zero => by simp [zero] at below
    have split := Nat.div_add_mod' rest d.rowPitch
    have small := Nat.mod_lt rest positive
    exact ⟨rest / d.rowPitch, (Nat.div_lt_iff_lt_mul positive).mpr below, by omega, by omega⟩
  rcases noSlicePadding with full | single
  · have slice : d.rowsInChunk * d.rowPitch = d.slicePitch := by
      have := spans.slicePitch
      rw [pitch, Nat.mul_comm] at full
      omega
    obtain ⟨j, slices⟩ : ∃ j, d.slicesInChunk = j + 1 :=
      ⟨_, (Nat.sub_add_cancel spans.someSlices).symm⟩
    have total : size = d.slicesInChunk * d.slicePitch := by
      rw [bytes, Nat.add_assoc, sliceBytes, slice, slices, Nat.add_sub_cancel]
      ring
    rw [total] at inside
    have positive : 0 < d.slicePitch := Nat.pos_of_ne_zero fun zero => by simp [zero] at inside
    have small := Nat.mod_lt o positive
    have split := Nat.div_add_mod' o d.slicePitch
    obtain ⟨r, row, low, high⟩ := inSlice (o % d.slicePitch) (slice ▸ small)
    refine ⟨o / d.slicePitch, (Nat.div_lt_iff_lt_mul positive).mpr inside, r, row, ?_, ?_⟩
    · omega
    · omega
  · have one : d.slicesInChunk = 1 := by
      have := spans.someSlices
      omega
    have total : size = d.rowsInChunk * d.rowPitch := by
      rw [bytes, one, Nat.add_assoc, sliceBytes]
      omega
    obtain ⟨r, row, low, high⟩ := inSlice o (total ▸ inside)
    refine ⟨0, by omega, r, row, ?_, ?_⟩
    · omega
    · omega

end ImageMetadata

namespace StagingBufferManager

variable {m : StagingBufferManager} {tracker : StagingBufferTracker} {dst size fuel : Nat}
  {d : ImageMetadata}

/-- `m'` is `m` after the bytes at some offsets were copied from a staging chunk to the user. -/
def CopiedTo (m : StagingBufferManager) (tracker : StagingBufferTracker) (dst : Nat)
    (offsets : Set Nat) (m' : StagingBufferManager) : Prop :=
  ∃ hostMemory, m' = { m with hostMemory } ∧ Copies (m.stagingMemory tracker.allocator)
    tracker.chunkAddress dst offsets m.hostMemory hostMemory

theorem CopiedTo.refl (m : StagingBufferManager) (tracker : StagingBufferTracker) (dst : Nat) :
    CopiedTo m tracker dst ∅ m := ⟨m.hostMemory, rfl, .refl _ _ _ _⟩

/-- One `memcpy` adds its piece to the copied offsets. -/
theorem CopiedTo.memcpy {m₁ : StagingBufferManager} {S : Set Nat}
    (copied : CopiedTo m tracker dst S m₁) (offset size : Nat) (nonzero : tracker.chunkAddress ≠ 0)
    (word : tracker.chunkAddress + offset < 2 ^ 64) (target : dst + offset < 2 ^ 64) :
    ∃ m₂, m₁.memcpyToHost tracker (add64 dst offset) offset size = .ok m₂ ∧
      CopiedTo m tracker dst (S ∪ {o | offset ≤ o ∧ o < offset + size}) m₂ := by
  obtain ⟨hostMemory, rfl, copies⟩ := copied
  unfold memcpyToHost
  rw [if_neg (by simp [nonzero])]
  have chunk : add64 tracker.chunkAddress offset = tracker.chunkAddress + offset :=
    Word.add_eq word
  have host : add64 dst offset = dst + offset := Word.add_eq target
  rw [chunk, host]
  exact ⟨_, rfl, _, rfl, copies.trans (copy_copies _ _ _ _ _ _)⟩

theorem CopiedTo.congr {m' : StagingBufferManager} {S T : Set Nat}
    (copied : CopiedTo m tracker dst S m') (same : ∀ o, o ∈ S ↔ o ∈ T) :
    CopiedTo m tracker dst T m' := by
  obtain ⟨hostMemory, rfl, copies⟩ := copied
  exact ⟨hostMemory, rfl, copies.congr same⟩

/-- The row loop of one slice. -/
private theorem copyRows (spans : d.Spans size) (few : d.rowsInChunk < 2 ^ 32)
    (nonzero : tracker.chunkAddress ≠ 0) (word : tracker.chunkAddress + size < 2 ^ 64) (target : dst + size < 2 ^ 64)
    (enough : 2 ^ 32 ≤ fuel) {s : Nat} (slice : s < d.slicesInChunk) {S : Set Nat}
    {m₁ : StagingBufferManager} (copied : CopiedTo m tracker dst S m₁) :
    ∃ m₂, Loop.forWordAll 32 .outOfFuel d.rowsInChunk (fun rowId m =>
        m.memcpyToHost tracker
          (add64 dst (add64 (mul64 s d.slicePitch) (mul64 rowId d.rowPitch)))
          (add64 (mul64 s d.slicePitch) (mul64 rowId d.rowPitch)) d.rowSize) fuel 0 m₁ =
        (.ok m₂ : Result StagingBufferManager) ∧
      CopiedTo m tracker dst (S ∪ {o | ∃ r < d.rowsInChunk, o ∈ d.row s r}) m₂ := by
  refine Loop.forWordAll_ends (P := fun count m₂ =>
      CopiedTo m tracker dst (S ∪ {o | ∃ r < count, o ∈ d.row s r}) m₂)
    few ?_ (Nat.zero_le _) (by omega)
    (copied.congr fun o => by simp)
  intro r m₂ row copied
  have low := spans.row_le slice row
  have sliceOffset : mul64 s d.slicePitch = s * d.slicePitch := Word.mul_eq (by omega)
  have rowOffset : mul64 r d.rowPitch = r * d.rowPitch := Word.mul_eq (by omega)
  have offset : add64 (s * d.slicePitch) (r * d.rowPitch) = s * d.slicePitch + r * d.rowPitch :=
    Word.add_eq (by omega)
  rw [sliceOffset, rowOffset, offset]
  obtain ⟨m₃, ran, copied⟩ := copied.memcpy (s * d.slicePitch + r * d.rowPitch) d.rowSize nonzero
    (by omega) (by omega)
  refine ⟨m₃, ran, copied.congr fun o => ?_⟩
  -- the rows before `r + 1` are those before `r` and row `r`
  constructor
  · rintro ((inS | ⟨r', below, inRow⟩) | inRow)
    · exact Or.inl inS
    · exact Or.inr ⟨r', by omega, inRow⟩
    · exact Or.inr ⟨r, by omega, inRow⟩
  · rintro (inS | ⟨r', below, inRow⟩)
    · exact Or.inl (Or.inl inS)
    · rcases Nat.lt_succ_iff_lt_or_eq.mp below with before | rfl
      · exact Or.inl (Or.inr ⟨r', before, inRow⟩)
      · exact Or.inr inRow

/-- Both paths copy the pixel rows of the chunk and leave the rest of the user's memory alone. -/
theorem copyImageToHost_rows (spans : d.Spans size) (copyable : d.Copyable)
    (nonzero : tracker.chunkAddress ≠ 0) (word : tracker.chunkAddress + size < 2 ^ 64) (target : dst + size < 2 ^ 64)
    (enough : 2 ^ 32 ≤ fuel) :
    ∃ m', m.copyImageToHost fuel dst tracker size d = .ok m' ∧ CopiedTo m tracker dst d.rows m' := by
  unfold copyImageToHost
  have area : mul64 d.rowSize d.rowsInChunk = d.rowSize * d.rowsInChunk :=
    Word.mul_eq (by have := spans.area_le; omega)
  simp only [area]
  split
  next padded =>
    refine Loop.forWordAll_ends (P := fun count m' =>
        CopiedTo m tracker dst {o | ∃ s < count, ∃ r < d.rowsInChunk, o ∈ d.row s r} m')
      (copyable padded).2 ?_ (Nat.zero_le _) (by have := (copyable padded).2; omega)
      ((CopiedTo.refl m tracker dst).congr fun o => by simp)
    intro s m₁ slice copied
    obtain ⟨m₂, ran, copied⟩ := copyRows spans (copyable padded).1 nonzero word target enough slice
      copied
    refine ⟨m₂, ran, copied.congr fun o => ?_⟩
    constructor
    · rintro (⟨s', below, inSlice⟩ | inSlice)
      · exact ⟨s', by omega, inSlice⟩
      · exact ⟨s, by omega, inSlice⟩
    · rintro ⟨s', below, inSlice⟩
      rcases Nat.lt_succ_iff_lt_or_eq.mp below with before | rfl
      · exact Or.inl ⟨s', before, inSlice⟩
      · exact Or.inr inSlice
  next dense =>
    obtain ⟨m', ran, copied⟩ := (CopiedTo.refl m tracker dst).memcpy 0 size nonzero (by omega)
      (by omega)
    have start : add64 dst 0 = dst := Word.add_eq (by omega)
    rw [start] at ran
    refine ⟨m', ran, copied.congr fun o => ?_⟩
    constructor
    · rintro (none | inside)
      · exact none.elim
      · have below : o < size := by
          have := inside.2
          omega
        exact spans.dense (by omega) (by omega) below
    · intro inRow
      have := spans.row_lt inRow
      exact Or.inr ⟨Nat.zero_le _, by omega⟩

end StagingBufferManager

/-- The offsets of the user's bytes that a chunk stands for. -/
def UserData.bytes (u : UserData) : Set Nat :=
  if u.isImageOperation then u.imageMetadata.rows else {o | o < u.size}

/-- The metadata of an image chunk describe its bytes. -/
def UserData.Sound (u : UserData) : Prop :=
  u.isImageOperation = true → u.imageMetadata.Spans u.size

/-- A padded chunk is small enough for the loops that copy it. -/
def UserData.Copyable (u : UserData) : Prop :=
  u.isImageOperation = true → u.imageMetadata.Copyable

theorem UserData.Sound.lt {u : UserData} (sound : u.Sound) {o : Nat} (member : o ∈ u.bytes) :
    o < u.size := by
  unfold UserData.bytes at member
  split at member
  next image => exact (sound image).row_lt member
  next => exact member

/-- A read copies the bytes its chunk stands for. -/
theorem StagingBufferManager.copyToUser_bytes {m : StagingBufferManager} {fuel : Nat}
    {u : UserData} {tracker : StagingBufferTracker} (sound : u.Sound) (copyable : u.Copyable)
    (nonzero : tracker.chunkAddress ≠ 0) (word : tracker.chunkAddress + u.size < 2 ^ 64)
    (target : u.ptr + u.size < 2 ^ 64) (enough : 2 ^ 32 ≤ fuel) :
    ∃ m', m.copyToUser fuel u tracker = .ok m' ∧ CopiedTo m tracker u.ptr u.bytes m' := by
  unfold copyToUser UserData.bytes
  split
  next image => exact copyImageToHost_rows (sound image) (copyable image) nonzero word target enough
  next =>
    obtain ⟨m', ran, copied⟩ := (CopiedTo.refl m tracker u.ptr).memcpy 0 u.size nonzero (by omega)
      (by omega)
    have start : add64 u.ptr 0 = u.ptr := Word.add_eq (by omega)
    rw [start] at ran
    refine ⟨m', ran, copied.congr fun o => ?_⟩
    simp

end ComputeRuntime
