import ComputeRuntime.Library.Outcome
import ComputeRuntime.Library.StridedBox
import Mathlib.Data.UInt
import Mathlib.Tactic.NormNum

/-! Copies of rectangular regions: how much of each buffer a copy looks up or imports before it
runs, and which bytes it then reads and writes. -/
namespace ComputeRuntime

/-- `ze_copy_region_t`, in bytes, rows and slices. -/
structure CopyRegion where
  originX : UInt32 := 0
  originY : UInt32 := 0
  originZ : UInt32 := 0
  width : UInt32
  height : UInt32
  depth : UInt32
  deriving DecidableEq

/-- One side of a copy: a region of a buffer and the pitches of its rows and slices. -/
structure CopySide where
  region : CopyRegion
  pitch : UInt32
  slicePitch : UInt32
  deriving DecidableEq

inductive ZeResult where
  | errorOutOfDeviceMemory
  | errorInvalidArgument
  | errorUnknown
  deriving DecidableEq

/-- What the copy asks of the builtin kernel it launches. -/
structure BuiltinKernel where
  suggestGroupSize : UInt32 → UInt32 → UInt32 → Except ZeResult (UInt32 × UInt32 × UInt32)
  setGroupSize : UInt32 → UInt32 → UInt32 → Except ZeResult Unit

/-- How many work items a launch has in each dimension. -/
structure WorkItems where
  x : ℕ
  y : ℕ
  z : ℕ
  deriving DecidableEq

/-- The engine that carries a copy out, with what it is given. -/
inductive CopyPath where
  | blit (copySize : WorkItems)
  | kernel3d (items : WorkItems)
  | kernel2d (items : WorkItems)
  deriving DecidableEq

/-- A copy that was appended: the sizes its buffers were looked up with, and how it runs. -/
structure AppendedCopy where
  dstSize : ℕ
  srcSize : ℕ
  path : CopyPath
  deriving DecidableEq

def getTotalSizeForCopyRegion (side : CopySide) : ℕ :=
  let region := side.region
  if region.depth > 1 then
    let offset := region.originX + region.originY * side.pitch + region.originZ * side.slicePitch
    (region.width * region.height * region.depth + offset).toNat
  else
    let offset := region.originX + region.originY * side.pitch
    (region.width * region.height + offset).toNat

/-- The work items of as many whole groups as fit one dimension. -/
def groupsOf (extent groupSize : UInt32) : ℕ := (extent / groupSize).toNat * groupSize.toNat

def appendMemoryCopyKernel3d (kernel : BuiltinKernel) (srcRegion : CopyRegion) :
    Except ZeResult WorkItems := do
  let (groupSizeX, groupSizeY, groupSizeZ) ←
    kernel.suggestGroupSize srcRegion.width srcRegion.height srcRegion.depth
  kernel.setGroupSize groupSizeX groupSizeY groupSizeZ
  if srcRegion.width % groupSizeX ≠ 0 ∨ srcRegion.height % groupSizeY ≠ 0 ∨
      srcRegion.depth % groupSizeZ ≠ 0 then
    throw .errorUnknown
  return ⟨groupsOf srcRegion.width groupSizeX, groupsOf srcRegion.height groupSizeY,
    groupsOf srcRegion.depth groupSizeZ⟩

/-- The kernel does not read its third index, so one group in that dimension is enough. -/
def appendMemoryCopyKernel2d (kernel : BuiltinKernel) (srcRegion : CopyRegion) :
    Except ZeResult WorkItems := do
  let (groupSizeX, groupSizeY, groupSizeZ) ←
    kernel.suggestGroupSize srcRegion.width srcRegion.height 1
  kernel.setGroupSize groupSizeX groupSizeY groupSizeZ
  if srcRegion.width % groupSizeX ≠ 0 ∨ srcRegion.height % groupSizeY ≠ 0 then
    throw .errorUnknown
  return ⟨groupsOf srcRegion.width groupSizeX, groupsOf srcRegion.height groupSizeY, 1⟩

/-- The engine for a copy, and what it is launched with. -/
def dispatchCopy (kernel : BuiltinKernel) (isCopyOnlyEnabled : Bool) (dst src : CopySide) :
    Except ZeResult CopyPath :=
  if isCopyOnlyEnabled then
    .ok (.blit ⟨src.region.width.toNat, src.region.height.toNat, src.region.depth.toNat⟩)
  else if src.region.depth > 1 ∨ src.region.originZ ≠ 0 ∨ dst.region.originZ ≠ 0 then
    .kernel3d <$> appendMemoryCopyKernel3d kernel src.region
  else .kernel2d <$> appendMemoryCopyKernel2d kernel src.region

/-- The copy; `found` says whether allocations for ranges of the two sizes exist or can be
made. -/
def appendMemoryCopyRegion (kernel : BuiltinKernel) (found : ℕ → ℕ → Bool)
    (isCopyOnlyEnabled : Bool) (dst src : CopySide) : Except ZeResult AppendedCopy := do
  let dstSize := getTotalSizeForCopyRegion dst
  let srcSize := getTotalSizeForCopyRegion src
  if found dstSize srcSize = false then throw .errorOutOfDeviceMemory
  let path ← dispatchCopy kernel isCopyOnlyEnabled dst src
  return ⟨dstSize, srcSize, path⟩

namespace CopySide

/-- The offset from the pointer that the work item of a three-dimensional kernel uses. -/
def offset3d (s : CopySide) (x y z : ℕ) : ℕ :=
  x + s.region.originX.toNat + (y + s.region.originY.toNat) * s.pitch.toNat +
    (z + s.region.originZ.toNat) * s.slicePitch.toNat

def offset2d (s : CopySide) (x y : ℕ) : ℕ :=
  x + s.region.originX.toNat + (y + s.region.originY.toNat) * s.pitch.toNat

/-- What `getTotalSizeForCopyRegion` computes when nothing wraps around. -/
def totalSize (s : CopySide) : ℕ :=
  let region := s.region
  if region.depth > 1 then
    region.width.toNat * region.height.toNat * region.depth.toNat +
      (region.originX.toNat + region.originY.toNat * s.pitch.toNat +
        region.originZ.toNat * s.slicePitch.toNat)
  else region.width.toNat * region.height.toNat +
    (region.originX.toNat + region.originY.toNat * s.pitch.toNat)

/-- The bytes of the side that a copy of `extents` reaches, without where it starts. -/
def box (s : CopySide) (extents : CopyRegion) : StridedBox where
  width := extents.width.toNat
  height := extents.height.toNat
  depth := extents.depth.toNat
  rowPitch := s.pitch.toNat
  slicePitch := s.slicePitch.toNat

def first (s : CopySide) : ℕ := s.offset3d 0 0 0

/-- The regions and pitches that a copy is meant for. -/
structure Valid (s : CopySide) : Prop where
  filled : (s.box s.region).Nonempty
  apart : (s.box s.region).Separate

end CopySide

/-- The offsets from the pointer of one side at which a copy reads or writes. -/
def CopyPath.touched (s : CopySide) : CopyPath → Set ℕ
  | .blit items | .kernel3d items =>
    {o | ∃ x < items.x, ∃ y < items.y, ∃ z < items.z, o = s.offset3d x y z}
  | .kernel2d items => {o | ∃ x < items.x, ∃ y < items.y, ∃ z < items.z, o = s.offset2d x y}

/-- The size was computed without wrapping around, and all that the copy touches lies in the
range of that size behind the pointer. -/
def CopySide.Covered (s : CopySide) (size : ℕ) (path : CopyPath) : Prop :=
  size = s.totalSize ∧ ∀ o ∈ path.touched s, o < size

section Sizes

variable {s : CopySide}

theorem getTotalSizeForCopyRegion_eq :
    getTotalSizeForCopyRegion s = s.totalSize % 2 ^ 32 := by
  unfold getTotalSizeForCopyRegion CopySide.totalSize
  dsimp only
  split
  · simp [Nat.add_mod, Nat.mul_mod]
  · simp [Nat.add_mod, Nat.mul_mod]

theorem getTotalSizeForCopyRegion_unwrapped_iff :
    getTotalSizeForCopyRegion s = s.totalSize ↔ s.totalSize < 2 ^ 32 := by
  rw [getTotalSizeForCopyRegion_eq, Nat.mod_eq_iff_lt (by decide)]

theorem groupsOf_eq {extent groupSize : UInt32} (whole : extent % groupSize = 0) :
    groupsOf extent groupSize = extent.toNat := by
  have divides : groupSize.toNat ∣ extent.toNat := by
    rw [Nat.dvd_iff_mod_eq_zero, ← UInt32.toNat_mod, whole]
    rfl
  rw [groupsOf, UInt32.toNat_div, Nat.div_mul_cancel divides]

end Sizes

section Touched

variable {dst src s : CopySide} {copied : CopyRegion}

/-- The work items of a copy number the bytes, the rows and the slices of the source region. -/
def CopyRegion.items (r : CopyRegion) : WorkItems := ⟨r.width.toNat, r.height.toNat, r.depth.toNat⟩

theorem appendMemoryCopyKernel3d_items {kernel : BuiltinKernel} {items : WorkItems}
    (ran : appendMemoryCopyKernel3d kernel copied = .ok items) : items = copied.items := by
  unfold appendMemoryCopyKernel3d at ran
  obtain ⟨⟨groupSizeX, groupSizeY, groupSizeZ⟩, _, ran⟩ := Outcome.bind_eq_ok.mp ran
  obtain ⟨_, _, ran⟩ := Outcome.bind_eq_ok.mp ran
  dsimp only at ran
  split at ran
  next => cases ran
  next whole =>
    simp only [not_or, not_not] at whole
    cases ran
    rw [groupsOf_eq whole.1, groupsOf_eq whole.2.1, groupsOf_eq whole.2.2]
    rfl

theorem appendMemoryCopyKernel2d_items {kernel : BuiltinKernel} {items : WorkItems}
    (ran : appendMemoryCopyKernel2d kernel copied = .ok items) :
    items = { copied.items with z := 1 } := by
  unfold appendMemoryCopyKernel2d at ran
  obtain ⟨⟨groupSizeX, groupSizeY, groupSizeZ⟩, _, ran⟩ := Outcome.bind_eq_ok.mp ran
  obtain ⟨_, _, ran⟩ := Outcome.bind_eq_ok.mp ran
  dsimp only at ran
  split at ran
  next => cases ran
  next whole =>
    simp only [not_or, not_not] at whole
    cases ran
    rw [groupsOf_eq whole.1, groupsOf_eq whole.2]
    rfl

theorem offset3d_eq (x y z : ℕ) : s.offset3d x y z = s.first + (s.box copied).offset x y z := by
  unfold CopySide.first CopySide.offset3d StridedBox.offset CopySide.box
  ring

theorem touched_items (s : CopySide) (copied : CopyRegion) :
    (CopyPath.kernel3d copied.items).touched s = (s.box copied).offsets s.first := by
  unfold CopyPath.touched
  simp only [@offset3d_eq s copied]
  rfl

/-- A copy of one slice, when the side starts in the first one. -/
theorem touched_items2d (flat : copied.depth.toNat = 1) (base : s.region.originZ = 0) :
    (CopyPath.kernel2d { copied.items with z := 1 }).touched s =
      (s.box copied).offsets s.first := by
  have items : { copied.items with z := 1 } = copied.items := by rw [CopyRegion.items, flat]
  rw [← touched_items, items]
  ext o
  simp only [CopyPath.touched, Set.mem_ofPred_eq]
  have same (x y z : ℕ) (low : z < copied.items.z) : s.offset2d x y = s.offset3d x y z := by
    obtain rfl : z = 0 := Nat.lt_one_iff.mp (flat ▸ low)
    simp [CopySide.offset2d, CopySide.offset3d, base]
  constructor
  · rintro ⟨x, hx, y, hy, z, hz, rfl⟩
    exact ⟨x, hx, y, hy, z, hz, same x y z hz⟩
  · rintro ⟨x, hx, y, hy, z, hz, rfl⟩
    exact ⟨x, hx, y, hy, z, hz, (same x y z hz).symm⟩

theorem dispatchCopy_touches {kernel : BuiltinKernel} {isCopyOnlyEnabled : Bool}
    {path : CopyPath} (deep : 0 < src.region.depth.toNat)
    (chosen : dispatchCopy kernel isCopyOnlyEnabled dst src = .ok path) :
    path.touched dst = (dst.box src.region).offsets dst.first ∧
      path.touched src = (src.box src.region).offsets src.first := by
  unfold dispatchCopy at chosen
  split at chosen
  next =>
    cases chosen
    exact ⟨touched_items dst src.region, touched_items src src.region⟩
  next =>
    split at chosen
    next =>
      obtain ⟨items, launched, chosen⟩ := Outcome.bind_eq_ok.mp chosen
      cases chosen
      obtain rfl := appendMemoryCopyKernel3d_items launched
      exact ⟨touched_items dst src.region, touched_items src src.region⟩
    next flat =>
      simp only [not_or, not_not, gt_iff_lt, UInt32.lt_iff_toNat_lt] at flat
      obtain ⟨shallow, srcBase, dstBase⟩ := flat
      obtain ⟨items, launched, chosen⟩ := Outcome.bind_eq_ok.mp chosen
      cases chosen
      obtain rfl := appendMemoryCopyKernel2d_items launched
      have one : src.region.depth.toNat = 1 := by
        rw [show (1 : UInt32).toNat = 1 from rfl] at shallow
        omega
      exact ⟨touched_items2d one dstBase, touched_items2d one srcBase⟩

/-- Every copy that is appended touches the box of the source's extents on either side. -/
theorem appendMemoryCopyRegion_touches {kernel : BuiltinKernel} {found : ℕ → ℕ → Bool}
    {isCopyOnlyEnabled : Bool} {copy : AppendedCopy} (deep : 0 < src.region.depth.toNat)
    (ran : appendMemoryCopyRegion kernel found isCopyOnlyEnabled dst src = .ok copy) :
    copy.dstSize = getTotalSizeForCopyRegion dst ∧ copy.srcSize = getTotalSizeForCopyRegion src ∧
      copy.path.touched dst = (dst.box src.region).offsets dst.first ∧
      copy.path.touched src = (src.box src.region).offsets src.first := by
  unfold appendMemoryCopyRegion at ran
  dsimp only at ran
  split at ran
  next => cases ran
  next =>
    obtain ⟨path, chosen, ran⟩ := Outcome.bind_eq_ok.mp ran
    cases ran
    exact ⟨rfl, rfl, dispatchCopy_touches deep chosen⟩

end Touched

section Covered

variable {dst src s : CopySide} {extents : CopyRegion}

/-- A side has room for the copied extents: they reach no further behind its origin than the
number of bytes of its own region. The slice it starts in is not counted for a flat region. -/
def CopySide.Room (s : CopySide) (extents : CopyRegion) : Prop :=
  if s.region.depth > 1 then (s.box extents).extent ≤ (s.box s.region).volume
  else s.region.originZ.toNat * s.slicePitch.toNat + (s.box extents).extent ≤
    s.region.width.toNat * s.region.height.toNat

/-- Rows and slices of the region lie side by side, and a flat region starts in the first slice. -/
def CopySide.Dense (s : CopySide) : Prop :=
  (s.box s.region).Packed ∧ (s.region.depth > 1 ∨ s.region.originZ = 0)

theorem covered_iff (filled : (s.box extents).Nonempty) {path : CopyPath}
    (touched : path.touched s = (s.box extents).offsets s.first) :
    s.Covered (getTotalSizeForCopyRegion s) path ↔ s.totalSize < 2 ^ 32 ∧ s.Room extents := by
  unfold CopySide.Covered
  rw [getTotalSizeForCopyRegion_unwrapped_iff, touched, StridedBox.offsets_lt_iff filled]
  apply and_congr_right
  intro small
  rw [getTotalSizeForCopyRegion_eq, Nat.mod_eq_of_lt small]
  unfold CopySide.totalSize CopySide.Room CopySide.first CopySide.offset3d StridedBox.volume
    CopySide.box
  simp only [Nat.zero_add]
  split
  next => omega
  next => omega

/-- With the extents of its own region a side has room exactly when the region is dense. -/
theorem room_iff_dense (valid : s.Valid) : s.Room s.region ↔ s.Dense := by
  have packed := StridedBox.extent_le_volume_iff valid.filled valid.apart
  have least := StridedBox.volume_le_extent valid.filled valid.apart
  unfold CopySide.Room CopySide.Dense
  split
  next deep => rw [packed, and_iff_left (Or.inl deep)]
  next flat =>
    rw [or_iff_right flat]
    have one : s.region.depth.toNat = 1 := by
      have deep := valid.filled.depth
      rw [gt_iff_lt, UInt32.lt_iff_toNat_lt, show (1 : UInt32).toNat = 1 from rfl] at flat
      exact Nat.le_antisymm (Nat.not_lt.mp flat) deep
    have volume : (s.box s.region).volume = s.region.width.toNat * s.region.height.toNat := by
      simp [StridedBox.volume, CopySide.box, one]
    have slice : 0 < s.slicePitch.toNat := by
      have row := valid.filled.width.trans_le valid.apart.rows
      exact (Nat.mul_pos valid.filled.height row).trans_le valid.apart.slices
    rw [← volume, ← packed]
    constructor
    · intro room
      have base : s.region.originZ.toNat * s.slicePitch.toNat = 0 := by omega
      refine ⟨by omega, UInt32.toNat_inj.mp ?_⟩
      exact (Nat.mul_eq_zero.mp base).resolve_right slice.ne'
    · rintro ⟨inside, base⟩
      rw [base]
      simpa using inside

/-- A copy has looked up all that it touches exactly when neither size wraps around, the source
region is dense, and the destination has room for the extents of the source. -/
theorem appendMemoryCopyRegion_covered_iff {kernel : BuiltinKernel} {found : ℕ → ℕ → Bool}
    {isCopyOnlyEnabled : Bool} {copy : AppendedCopy} (srcValid : src.Valid)
    (ran : appendMemoryCopyRegion kernel found isCopyOnlyEnabled dst src = .ok copy) :
    src.Covered copy.srcSize copy.path ∧ dst.Covered copy.dstSize copy.path ↔
      (src.totalSize < 2 ^ 32 ∧ src.Dense) ∧ dst.totalSize < 2 ^ 32 ∧ dst.Room src.region := by
  obtain ⟨dstSize, srcSize, dstTouched, srcTouched⟩ :=
    appendMemoryCopyRegion_touches srcValid.filled.depth ran
  -- being nonempty is about the extents only, which both boxes take from the source
  have filled : (dst.box src.region).Nonempty :=
    ⟨srcValid.filled.width, srcValid.filled.height, srcValid.filled.depth⟩
  rw [dstSize, srcSize, covered_iff srcValid.filled srcTouched, covered_iff filled dstTouched,
    room_iff_dense srcValid]

/-- Between regions of one shape, which is what the interface asks for, both must be dense. -/
theorem room_iff_dense_of_same (valid : s.Valid) (width : extents.width = s.region.width)
    (height : extents.height = s.region.height) (depth : extents.depth = s.region.depth) :
    s.Room extents ↔ s.Dense := by
  have box : s.box extents = s.box s.region := by
    rw [CopySide.box, CopySide.box, width, height, depth]
  rw [← room_iff_dense valid]
  unfold CopySide.Room
  rw [box]

/-- A kernel that is launched with one work item in a group. -/
def singleItemKernel : BuiltinKernel where
  suggestGroupSize := fun _ _ _ => .ok (1, 1, 1)
  setGroupSize := fun _ _ _ => .ok ()

/-- A side of two rows of sixteen bytes, one behind the other. -/
def twoRows (originX : UInt32) : CopySide where
  region := { originX := originX, width := 16, height := 2, depth := 1 }
  pitch := 16
  slicePitch := 32

theorem appendMemoryCopyRegion_covers_two_rows :
    (twoRows 4).Covered 36 (.kernel2d ⟨16, 2, 1⟩) ∧
      (twoRows 0).Covered 32 (.kernel2d ⟨16, 2, 1⟩) := by
  have ran : appendMemoryCopyRegion singleItemKernel (fun _ _ => true) false (twoRows 0)
      (twoRows 4) = .ok ⟨32, 36, .kernel2d ⟨16, 2, 1⟩⟩ := by decide +kernel
  have valid : (twoRows 4).Valid := ⟨⟨by decide, by decide, by decide⟩, by decide, by decide⟩
  apply (appendMemoryCopyRegion_covered_iff valid ran).mpr
  refine ⟨⟨by decide, ⟨.inr rfl, .inl rfl⟩, .inr rfl⟩, by decide, ?_⟩
  unfold CopySide.Room
  decide +kernel

/-- One byte of each of two rows, with other data between them. -/
def column : CopySide where
  region := { width := 1, height := 2, depth := 1 }
  pitch := 100
  slicePitch := 200

/-- The second row of a strided copy is not in the range that was looked up. -/
theorem appendMemoryCopyRegion_strided_outside :
    ¬ ∀ (kernel : BuiltinKernel) (found : ℕ → ℕ → Bool) (isCopyOnlyEnabled : Bool)
      (dst src : CopySide) (copy : AppendedCopy), src.Valid → dst.Valid →
      appendMemoryCopyRegion kernel found isCopyOnlyEnabled dst src = .ok copy →
      src.Covered copy.srcSize copy.path ∧ dst.Covered copy.dstSize copy.path := by
  intro covered
  have ran : appendMemoryCopyRegion singleItemKernel (fun _ _ => true) false column column =
      .ok ⟨2, 2, .kernel2d ⟨1, 2, 1⟩⟩ := by decide +kernel
  have valid : column.Valid := ⟨⟨by decide, by decide, by decide⟩, by decide, by decide⟩
  obtain ⟨⟨_, inside⟩, _⟩ := covered _ _ _ _ _ _ valid valid ran
  exact absurd (inside 100 ⟨0, by decide, 1, by decide, 0, by decide, by decide⟩) (by decide)

end Covered

end ComputeRuntime
