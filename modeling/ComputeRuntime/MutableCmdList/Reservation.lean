import ComputeRuntime.MutableCmdList.LocalIds
import Mathlib.Tactic.Ring

/-! When the local ids of every later group size fit what the append has reserved. -/
namespace ComputeRuntime.MutableCmdList

section Rows

variable {dev : Device} {simd g items channels limit n : ℕ}

/-- The SIMD widths and the register sizes there are. -/
structure Device.Supports (dev : Device) (simd : ℕ) : Prop where
  simd : simd = 1 ∨ simd = 8 ∨ simd = 16 ∨ simd = 32
  grf : dev.grfSize = 32 ∨ dev.grfSize = 64

theorem getThreadsPerWG_le_iff (supports : dev.Supports simd) (several : simd ≠ 1)
    (small : items < 2 ^ 31) : getThreadsPerWG simd items ≤ n ↔ items ≤ simd * n := by
  have wide : simd = 8 ∨ simd = 16 ∨ simd = 32 := supports.simd.resolve_left several
  have sum : Word.sub 32 (Word.add 32 items simd) 1 = items + simd - 1 := by
    rw [Word.add_eq (by omega), Word.sub_eq (by omega) (by omega)]
  rw [getThreadsPerWG, if_neg (by simp [isSimd1, several]), sum, Nat.shiftRight_eq_div_pow]
  rcases wide with rfl | rfl | rfl
  · change (items + 8 - 1) / 2 ^ 3 ≤ n ↔ _
    omega
  · change (items + 16 - 1) / 2 ^ 4 ≤ n ↔ _
    omega
  · change (items + 32 - 1) / 2 ^ 5 ≤ n ↔ _
    omega

/-- Rows for three coordinates, of one register each or of two. -/
theorem getPerThreadSizeLocalIDs_eq (supports : dev.Supports simd) (several : simd ≠ 1) :
    getPerThreadSizeLocalIDs simd dev.grfSize 3 =
      3 * dev.grfSize * getNumGrfsPerLocalIdCoordinate simd dev.grfSize := by
  rw [getPerThreadSizeLocalIDs, if_neg (by simp [isSimd1, several])]
  rcases supports.grf with grf | grf
  · rw [grf, getNumGrfsPerLocalIdCoordinate]
    split <;> rfl
  · rw [grf, getNumGrfsPerLocalIdCoordinate]
    split <;> rfl

theorem getPerThreadSizeLocalIDs_bounds (supports : dev.Supports simd) :
    0 < getPerThreadSizeLocalIDs simd dev.grfSize 3 ∧
      getPerThreadSizeLocalIDs simd dev.grfSize 3 ≤ 2 ^ 9 := by
  by_cases one : simd = 1
  · rw [getPerThreadSizeLocalIDs, if_pos (by simp [isSimd1, one])]
    rcases supports.grf with grf | grf <;> omega
  · rw [getPerThreadSizeLocalIDs_eq supports one, getNumGrfsPerLocalIdCoordinate]
    rcases supports.grf with grf | grf <;> split <;> omega

/-- The group has at most as many hardware threads, or work-items of SIMD 1, as the bytes hold
the ids of: by its size, or since the family does not admit more threads. -/
def FitsThreads (dev : Device) (simd grfCount items area : ℕ) : Prop :=
  let threads := area / getPerThreadSizeLocalIDs simd dev.grfSize 3
  items ≤ simd * threads ∨
    simd ≠ 1 ∧ ∃ limit ∈ maxThreadsPerThreadGroup dev.family simd grfCount, limit ≤ threads

theorem getPerThreadDataSizeTotal_le_iff {grfCount area : ℕ} (supports : dev.Supports simd)
    (small : items < 2 ^ 31) :
    getPerThreadDataSizeTotal dev simd grfCount 3 items ≤ area ↔
      FitsThreads dev simd grfCount items area := by
  obtain ⟨pos, le⟩ := getPerThreadSizeLocalIDs_bounds supports
  rw [getPerThreadDataSizeTotal, FitsThreads]
  generalize getPerThreadSizeLocalIDs simd dev.grfSize 3 = bytes at *
  have product {threads : ℕ} (few : threads < 2 ^ 32) :
      Word.mul 64 bytes threads ≤ area ↔ threads ≤ area / bytes := by
    have bound : bytes * threads < 2 ^ 64 :=
      (Nat.mul_le_mul le few.le).trans_lt (by decide)
    rw [Word.mul_eq bound, Nat.le_div_iff_mul_le pos, Nat.mul_comm]
  by_cases one : simd = 1
  · rw [if_pos (by simp [isSimd1, one]), product (by omega), one, Nat.one_mul]
    simp
  · have threads {n : ℕ} := @getThreadsPerWG_le_iff dev simd items n supports one small
    have few : getThreadsPerWG simd items < 2 ^ 32 := by
      have bound := (threads (n := items)).mpr (Nat.le_mul_of_pos_left _ (by
        rcases supports.simd with rfl | rfl | rfl | rfl <;> decide))
      omega
    rw [if_neg (by simp [isSimd1, one]), Nat.mod_eq_of_lt (by omega),
      calculateNumThreadsPerThreadGroup]
    cases limited : maxThreadsPerThreadGroup dev.family simd grfCount with
    | none =>
      dsimp only
      rw [product few, threads]
      simp
    | some limit =>
      dsimp only
      rw [product (by omega), min_le_iff, threads]
      simp [one]

end Rows

section Updates

variable {dev : Device} {v v' : VariableDispatch} {g : GroupSize} {gs : List GroupSize}

namespace VariableDispatch

/-- The condition on a group size. -/
def Fits (v : VariableDispatch) (dev : Device) (g : GroupSize) : Prop :=
  FitsThreads dev v.kernel.simdSize v.kernel.grfCount g.items v.perThreadAreaSize

/-- The arguments that depend on the group size lie in the cross-thread data, which lie in front of
the local ids. -/
structure Shaped (v : VariableDispatch) : Prop where
  arguments : ∀ argument ∈ v.kernel.offsets.arguments, ∀ offset ∈ argument.1,
    offset + argument.2 ≤ v.inlineDataSize + v.crossThreadDataSize
  inside : v.crossThreadOffset + v.crossThreadDataSize ≤ v.perThreadOffset

/-- A position in the heap that is not the command's. -/
def Outside (v : VariableDispatch) (position : ℕ) : Prop :=
  position < v.crossThreadOffset ∨ v.perThreadOffset + v.perThreadAreaSize ≤ position

/-- Where things lie, without what is written there. -/
def layout (v : VariableDispatch) : Kernel × GroupSize × ℕ × ℕ × ℕ × ℕ × ℕ :=
  (v.kernel, v.groupCount, v.inlineDataSize, v.crossThreadOffset, v.crossThreadDataSize,
    v.perThreadOffset, v.perThreadAreaSize)

/-- What an update leaves as it is. -/
structure SameLayout (v v' : VariableDispatch) : Prop where
  layout : v'.layout = v.layout
  heap : ∀ position, v.Outside position → v'.heap position = v.heap position

namespace SameLayout

theorem refl (v : VariableDispatch) : SameLayout v v := ⟨rfl, fun _ _ => rfl⟩

theorem kernel (same : SameLayout v v') : v'.kernel = v.kernel := congrArg Prod.fst same.layout

theorem perThreadAreaSize (same : SameLayout v v') : v'.perThreadAreaSize = v.perThreadAreaSize :=
  congrArg (fun layout => layout.2.2.2.2.2.2) same.layout

theorem outside_iff (same : SameLayout v v') {position : ℕ} :
    v'.Outside position ↔ v.Outside position := by
  have layout := same.layout
  simp only [VariableDispatch.layout, Prod.mk.injEq] at layout
  obtain ⟨-, -, -, cross, -, perThread, area⟩ := layout
  rw [Outside, Outside, cross, perThread, area]

theorem shaped (same : SameLayout v v') (shaped : v.Shaped) : v'.Shaped := by
  have layout := same.layout
  simp only [VariableDispatch.layout, Prod.mk.injEq] at layout
  obtain ⟨kernel, -, inlineData, cross, crossSize, perThread, -⟩ := layout
  constructor
  · rw [kernel, inlineData, crossSize]
    exact shaped.arguments
  · rw [cross, crossSize, perThread]
    exact shaped.inside

theorem trans {v'' : VariableDispatch} (first : SameLayout v v') (second : SameLayout v' v'') :
    SameLayout v v'' := by
  refine ⟨second.layout.trans first.layout, fun position outside => ?_⟩
  rw [second.heap position (first.outside_iff.mpr outside), first.heap position outside]

end SameLayout

/-- Bytes that are copied into the cross-thread data are not outside. -/
theorem Shaped.copied (shaped : v.Shaped) {source : ℕ → UInt8} {start size target position : ℕ}
    (low : v.crossThreadOffset ≤ target)
    (high : target + size ≤ v.crossThreadOffset + v.crossThreadDataSize)
    (outside : v.Outside position) :
    Memory.copy source start size target v.heap position = v.heap position := by
  have inside := shaped.inside
  apply Memory.copy_kept
  rcases outside with front | behind
  · exact .inl (by omega)
  · exact .inr (by omega)

theorem setIfDefined_same (shaped : v.Shaped) {offset : Option ℕ} (data : List ℕ)
    (listed : (offset, 12) ∈ v.kernel.offsets.arguments) :
    SameLayout v (v.setIfDefined offset data) := by
  cases offset with
  | none => exact .refl v
  | some offset =>
    have fits : offset + 12 ≤ v.inlineDataSize + v.crossThreadDataSize :=
      shaped.arguments _ listed offset rfl
    unfold setIfDefined
    dsimp only
    split
    next front =>
      split
      next => exact ⟨rfl, fun _ _ => rfl⟩
      next => exact ⟨rfl, fun _ => shaped.copied (Nat.le_refl _) (by omega)⟩
    next => exact ⟨rfl, fun _ => shaped.copied (by omega) (by omega)⟩

theorem setWorkDimensions_same (shaped : v.Shaped) (workDimensions : ℕ) :
    SameLayout v (v.setWorkDimensions workDimensions) := by
  unfold setWorkDimensions
  cases defined : v.kernel.offsets.workDimensions with
  | none => exact .refl v
  | some offset =>
    have fits : offset + 4 ≤ v.inlineDataSize + v.crossThreadDataSize :=
      shaped.arguments (v.kernel.offsets.workDimensions, 4) (by simp [Offsets.arguments]) offset
        defined
    dsimp only
    split
    next => exact ⟨rfl, fun _ _ => rfl⟩
    next => exact ⟨rfl, fun _ => shaped.copied (by omega) (by omega)⟩

/-- The arguments that depend on the group size are all written inside the command's own data. -/
theorem setArguments_same (shaped : v.Shaped) (g : GroupSize) :
    SameLayout v (((((v.setLocalWorkSize g).setLocalWorkSize2 g).setEnqLocalWorkSize g).setGws
      g).setWorkDim g) := by
  have one : SameLayout v (v.setLocalWorkSize g) :=
    setIfDefined_same shaped _ (by simp [Offsets.arguments])
  have two : SameLayout v ((v.setLocalWorkSize g).setLocalWorkSize2 g) :=
    one.trans (setIfDefined_same (one.shaped shaped) _ (by simp [Offsets.arguments]))
  have three : SameLayout v (((v.setLocalWorkSize g).setLocalWorkSize2 g).setEnqLocalWorkSize g) :=
    two.trans (setIfDefined_same (two.shaped shaped) _ (by simp [Offsets.arguments]))
  have four : SameLayout v
      ((((v.setLocalWorkSize g).setLocalWorkSize2 g).setEnqLocalWorkSize g).setGws g) :=
    three.trans (setIfDefined_same (three.shaped shaped) _ (by simp [Offsets.arguments]))
  exact four.trans (setWorkDimensions_same (four.shaped shaped) _)

theorem generateLocalIds_length_le_iff (supports : dev.Supports v.kernel.simdSize)
    (small : g.items < 2 ^ 31) :
    (v.generateLocalIds dev g).length ≤ v.perThreadAreaSize ↔ v.Fits dev g := by
  rw [generateLocalIds, List.length_map, List.length_range]
  exact getPerThreadDataSizeTotal_le_iff supports small

/-- Data that fit change no byte outside. -/
theorem setPerThreadData_ok (shaped : v.Shaped) {data : List UInt8}
    (fits : data.length ≤ v.perThreadAreaSize) :
    ∃ v', v.setPerThreadData data = .ok v' ∧ SameLayout v v' := by
  rw [setPerThreadData, if_neg (Nat.not_lt.mpr fits)]
  refine ⟨_, rfl, rfl, fun position outside => ?_⟩
  have inside := shaped.inside
  rcases outside with front | behind
  · exact if_neg (by omega)
  · dsimp only
    rw [if_pos (by omega), List.getElem?_eq_none (by omega)]
    rfl

theorem setLocalIds_ok (shaped : v.Shaped) (supports : dev.Supports v.kernel.simdSize)
    (small : g.items < 2 ^ 31)
    (fits : v.kernel.requiresLocalIdGeneration g = true → v.Fits dev g) :
    ∃ v', v.setLocalIds dev g = .ok v' ∧ SameLayout v v' := by
  rw [setLocalIds]
  by_cases required : v.kernel.requiresLocalIdGeneration g = true
  · obtain ⟨v', stored, same⟩ := setPerThreadData_ok shaped
      ((generateLocalIds_length_le_iff supports small).mpr (fits required))
    rw [if_pos required]
    dsimp only
    rw [stored]
    exact ⟨_, rfl, same.layout, same.heap⟩
  · rw [if_neg required]
    exact ⟨_, rfl, rfl, fun _ _ => rfl⟩

theorem setGroupSize_ok (shaped : v.Shaped) (supports : dev.Supports v.kernel.simdSize)
    (small : g.items < 2 ^ 31)
    (fits : v.kernel.requiresLocalIdGeneration g = true → v.Fits dev g) :
    ∃ v', v.setGroupSize dev g = .ok v' ∧ SameLayout v v' := by
  obtain ⟨v', generated, same⟩ := setLocalIds_ok shaped supports small fits
  refine ⟨_, ?_, same.trans (setArguments_same (same.shaped shaped) g)⟩
  rw [setGroupSize, generated]
  rfl

theorem fits_of_setGroupSize (supports : dev.Supports v.kernel.simdSize) (small : g.items < 2 ^ 31)
    (updated : v.setGroupSize dev g = .ok v')
    (required : v.kernel.requiresLocalIdGeneration g = true) : v.Fits dev g := by
  rw [← generateLocalIds_length_le_iff supports small]
  by_contra long
  have aborted : v.setPerThreadData (v.generateLocalIds dev g) = .error .unrecoverable :=
    if_pos (Nat.not_le.mp long)
  rw [setGroupSize, setLocalIds, if_pos required] at updated
  dsimp only at updated
  rw [aborted] at updated
  cases updated

theorem SameLayout.fits_iff (same : SameLayout v v') : v'.Fits dev g ↔ v.Fits dev g := by
  rw [Fits, Fits, same.kernel, same.perThreadAreaSize]

/-- A run whose group sizes fit returns, and changes nothing outside. -/
theorem setGroupSizes_ok (shaped : v.Shaped) (supports : dev.Supports v.kernel.simdSize)
    (small : ∀ g ∈ gs, g.items < 2 ^ 31)
    (fits : ∀ g ∈ gs, v.kernel.requiresLocalIdGeneration g = true → v.Fits dev g) :
    ∃ v', setGroupSizes dev v gs = .ok v' ∧ SameLayout v v' := by
  induction gs generalizing v with
  | nil => exact ⟨v, rfl, SameLayout.refl v⟩
  | cons g rest ih =>
    obtain ⟨here, later⟩ := List.forall_mem_cons.mp fits
    obtain ⟨few, fewer⟩ := List.forall_mem_cons.mp small
    obtain ⟨v₁, updated, same⟩ := setGroupSize_ok shaped supports few here
    obtain ⟨v', run, tail⟩ := ih (v := v₁) (same.shaped shaped) (same.kernel.symm ▸ supports) fewer
      (by simpa only [same.fits_iff, same.kernel] using later)
    refine ⟨v', ?_, same.trans tail⟩
    rw [setGroupSizes, updated]
    exact run

theorem fits_of_setGroupSizes (shaped : v.Shaped) (supports : dev.Supports v.kernel.simdSize)
    (small : ∀ g ∈ gs, g.items < 2 ^ 31) (run : setGroupSizes dev v gs = .ok v') :
    ∀ g ∈ gs, v.kernel.requiresLocalIdGeneration g = true → v.Fits dev g := by
  induction gs generalizing v with
  | nil => exact fun g member => absurd member List.not_mem_nil
  | cons g rest ih =>
    obtain ⟨few, fewer⟩ := List.forall_mem_cons.mp small
    rw [setGroupSizes, bind_eq_ok] at run
    obtain ⟨v₁, updated, run⟩ := run
    have fits := fits_of_setGroupSize supports few updated
    obtain ⟨v₁', updated', same⟩ := setGroupSize_ok shaped supports few fits
    obtain rfl := Except.ok.inj (updated.symm.trans updated')
    have later := ih (same.shaped shaped) (same.kernel.symm ▸ supports) fewer run
    refine List.forall_mem_cons.mpr ⟨fits, ?_⟩
    simpa only [same.fits_iff, same.kernel] using later

end VariableDispatch

end Updates

section Append

variable {dev : Device} {k : Kernel} {initial groupCount g : GroupSize} {extra used : ℕ}
  {heap inlineData : ℕ → UInt8}

/-- The alignments are powers of two, the sizes of the command fit their 32-bit words, and the
kernel's arguments lie in its cross-thread data. -/
structure Appendable (dev : Device) (k : Kernel) (initial : GroupSize) (extra used : ℕ) : Prop where
  supports : dev.Supports k.simdSize
  cacheLine : IsPow2 dev.cacheLineSize
  ioh : IsPow2 dev.iohAlignment
  whole : dev.iohAlignment ∣ dev.cacheLineSize
  line : dev.cacheLineSize ≤ 2 ^ 12
  sizes : k.crossThreadDataSize + k.getPerThreadDataSizeForWholeThreadGroup dev initial +
    6 * dev.maxWorkGroupSize + extra < 2 ^ 32
  used : used < 2 ^ 63
  arguments : ∀ argument ∈ k.offsets.arguments, ∀ offset ∈ argument.1,
    offset + argument.2 ≤ k.crossThreadDataSize

/-- The room for cross-thread data in the walker command. -/
def inlineRoom (dev : Device) (k : Kernel) : ℕ := if k.passInlineData then dev.inlineDataSize else 0

/-- The cross-thread data that are not in the walker command. -/
def crossThreadInHeap (dev : Device) (k : Kernel) : ℕ :=
  k.crossThreadDataSize - min k.crossThreadDataSize (inlineRoom dev k)

/-- What an append reserves: the cross-thread data, the local ids of the initial group size, six
bytes for each work-item of the largest group, and what a kernel group asks for. -/
def reservedSize (dev : Device) (k : Kernel) (initial : GroupSize) (extra : ℕ) : ℕ :=
  crossThreadInHeap dev k + k.getPerThreadDataSizeForWholeThreadGroup dev initial +
    6 * dev.maxWorkGroupSize + extra

/-- What of it is there for local ids, with the bytes that align it. -/
def perThreadArea (dev : Device) (k : Kernel) (initial : GroupSize) (extra : ℕ) : ℕ :=
  alignUp (reservedSize dev k initial extra) dev.iohAlignment - crossThreadInHeap dev k

theorem maxPerThreadDataSize_eq (small : 6 * dev.maxWorkGroupSize < 2 ^ 32) :
    dev.maxPerThreadDataSize = 6 * dev.maxWorkGroupSize := by
  rw [Device.maxPerThreadDataSize, Word.mul_eq (by omega), Nat.mul_comm, Nat.mod_eq_of_lt small]

theorem alignUp_add {start x alignment : ℕ} (pow2 : IsPow2 alignment) (aligned : alignment ∣ start)
    (fits : start + x + (alignment - 1) < 2 ^ 64) :
    alignUp (start + x) alignment = start + alignUp x alignment := by
  apply Nat.le_antisymm
  · have up := @le_alignUp x alignment pow2 (by omega)
    exact alignUp_le pow2 fits (Nat.dvd_add aligned (alignUp_dvd pow2 (by omega))) (by omega)
  · have up := @le_alignUp (start + x) alignment pow2 fits
    have rest : alignment ∣ alignUp (start + x) alignment - start :=
      Nat.dvd_sub (alignUp_dvd pow2 fits) aligned
    have low := @alignUp_le x _ alignment pow2 (by omega) rest (by omega)
    omega

/-- The command is found again where its space was reserved, and its local ids end with it. -/
theorem appendLaunchKernel_eq (ok : Appendable dev k initial extra used) :
    appendLaunchKernel dev k initial groupCount extra used heap inlineData =
      { kernel := k
        groupCount := groupCount
        inlineDataSize := inlineRoom dev k
        inlineData := inlineData
        crossThreadOffset := alignUp used dev.cacheLineSize
        crossThreadDataSize := crossThreadInHeap dev k
        perThreadOffset := alignUp used dev.cacheLineSize + crossThreadInHeap dev k
        perThreadAreaSize := perThreadArea dev k initial extra
        reservationEnd := alignUp used dev.cacheLineSize + crossThreadInHeap dev k +
          perThreadArea dev k initial extra
        heap := heap
        perThreadDataSize := k.getPerThreadDataSizeForWholeThreadGroup dev initial } := by
  have sizes := ok.sizes
  have line := ok.line
  have free := ok.used
  have pos := ok.cacheLine.pos
  have alignment := Nat.le_of_dvd pos ok.whole
  have cross : crossThreadInHeap dev k ≤ k.crossThreadDataSize := Nat.sub_le _ _
  have small : reservedSize dev k initial extra < 2 ^ 32 := by
    rw [reservedSize]
    omega
  have start := @alignUp_lt used _ ok.cacheLine (by omega)
  have aligned : dev.iohAlignment ∣ alignUp used dev.cacheLineSize :=
    ok.whole.trans (alignUp_dvd ok.cacheLine (by omega))
  have low := @le_alignUp (reservedSize dev k initial extra) _ ok.ioh (by omega)
  have high := @alignUp_lt (reservedSize dev k initial extra) _ ok.ioh (by omega)
  have inside : crossThreadInHeap dev k ≤ reservedSize dev k initial extra := by
    rw [reservedSize]
    omega
  -- the encoder and the search for the command agree on the size
  have requested : Word.add 32 (Word.add 32 (k.getPerThreadDataSizeForWholeThreadGroup dev initial)
      (crossThreadInHeap dev k)) (Word.add 32 (6 * dev.maxWorkGroupSize) extra) =
      reservedSize dev k initial extra := by
    simp (disch := omega) only [Word.add_eq]
    rw [reservedSize]
    omega
  have found : Word.add 64 (Word.add 64 (crossThreadInHeap dev k) (Word.add 64
      (6 * dev.maxWorkGroupSize) (k.getPerThreadDataSizeForWholeThreadGroup dev initial))) extra =
      reservedSize dev k initial extra := by
    simp (disch := omega) only [Word.add_eq]
    rw [reservedSize]
    omega
  have taken : alignUp (Word.add 64 (alignUp used dev.cacheLineSize) (reservedSize dev k initial extra))
      dev.iohAlignment = alignUp used dev.cacheLineSize +
        alignUp (reservedSize dev k initial extra) dev.iohAlignment := by
    rw [Word.add_eq (by omega), alignUp_add ok.ioh aligned (by omega)]
  rw [appendLaunchKernel]
  rw [← inlineRoom, ← crossThreadInHeap, maxPerThreadDataSize_eq (by omega), requested, found, taken,
    Word.sub_eq (by omega) (by omega), Nat.add_sub_cancel, Word.add_eq (by omega),
    Word.sub_eq (by omega) (by omega), ← perThreadArea]
  congr 1
  rw [perThreadArea]
  omega

theorem appendLaunchKernel_shaped (ok : Appendable dev k initial extra used) :
    (appendLaunchKernel dev k initial groupCount extra used heap inlineData).Shaped := by
  rw [appendLaunchKernel_eq ok]
  refine ⟨fun argument member offset defined => ?_, Nat.le_refl _⟩
  have fits := ok.arguments argument member offset defined
  dsimp only
  rw [crossThreadInHeap]
  omega

/-- The local ids of every group size that needs them fit the area, and no update writes outside
the reservation, exactly when the threads of these groups are as many as the area holds. -/
theorem groupSizes_confined_iff (ok : Appendable dev k initial extra used) {gs : List GroupSize}
    (sizes : ∀ g ∈ gs, 1 ≤ g.items ∧ g.items ≤ dev.maxWorkGroupSize) :
    let v := appendLaunchKernel dev k initial groupCount extra used heap inlineData
    ((∀ g ∈ gs, k.requiresLocalIdGeneration g = true →
        (v.generateLocalIds dev g).length ≤ v.perThreadAreaSize) ∧
      ∃ v', VariableDispatch.setGroupSizes dev v gs = .ok v' ∧ ∀ position,
        position < v.crossThreadOffset ∨ v.reservationEnd ≤ position →
        v'.heap position = heap position) ↔
    ∀ g ∈ gs, k.requiresLocalIdGeneration g = true →
      FitsThreads dev k.simdSize k.grfCount g.items (perThreadArea dev k initial extra) := by
  intro v
  have layout : v = _ := appendLaunchKernel_eq ok
  have supports : dev.Supports v.kernel.simdSize := layout ▸ ok.supports
  have bound := ok.sizes
  have small : ∀ g ∈ gs, g.items < 2 ^ 31 := fun g member => by
    have le := (sizes g member).2
    omega
  constructor
  · rintro ⟨produced, _⟩ g member required
    have fits := (VariableDispatch.generateLocalIds_length_le_iff supports (small g member)).mp
      (produced g member required)
    rw [layout] at fits
    exact fits
  · intro fits
    have fits : ∀ g ∈ gs, v.kernel.requiresLocalIdGeneration g = true → v.Fits dev g := by
      rw [layout]
      exact fits
    have shaped : v.Shaped := appendLaunchKernel_shaped ok
    obtain ⟨v', run, same⟩ := VariableDispatch.setGroupSizes_ok shaped supports small fits
    refine ⟨fun g member required => ?_, v', run, fun position outside => ?_⟩
    · refine (VariableDispatch.generateLocalIds_length_le_iff supports (small g member)).mpr ?_
      exact fits g member (layout ▸ required)
    · have kept := same.heap position
      rw [layout] at kept outside
      exact kept outside

/-- With six bytes for each work-item the local ids always fit. -/
theorem fitsThreads_of_sixBytes (ok : Appendable dev k initial extra used)
    (six : k.simdSize = 32 ∨ k.simdSize = 16 ∧ dev.grfSize = 32)
    (whole : k.simdSize ∣ dev.maxWorkGroupSize) (inside : g.items ≤ dev.maxWorkGroupSize) :
    FitsThreads dev k.simdSize k.grfCount g.items (perThreadArea dev k initial extra) := by
  have sizes := ok.sizes
  have line := ok.line
  have alignment := Nat.le_of_dvd ok.cacheLine.pos ok.whole
  have cross : crossThreadInHeap dev k ≤ k.crossThreadDataSize := Nat.sub_le _ _
  have area : 6 * dev.maxWorkGroupSize ≤ perThreadArea dev k initial extra := by
    have low := @le_alignUp (reservedSize dev k initial extra) _ ok.ioh (by
      rw [reservedSize]
      omega)
    rw [reservedSize] at low
    rw [perThreadArea, reservedSize]
    omega
  have rows : getPerThreadSizeLocalIDs k.simdSize dev.grfSize 3 = 6 * k.simdSize := by
    rw [getPerThreadSizeLocalIDs_eq ok.supports (by omega), getNumGrfsPerLocalIdCoordinate]
    rcases six with simd | ⟨simd, grf⟩
    · rcases ok.supports.grf with grf | grf <;> simp [simd, grf]
    · simp [simd, grf]
  left
  obtain ⟨threads, max⟩ := whole
  have held : threads ≤ perThreadArea dev k initial extra /
      getPerThreadSizeLocalIDs k.simdSize dev.grfSize 3 := by
    rw [rows, Nat.le_div_iff_mul_le (by omega)]
    calc threads * (6 * k.simdSize) = 6 * (k.simdSize * threads) := by ring
      _ ≤ perThreadArea dev k initial extra := max ▸ area
  calc g.items ≤ k.simdSize * threads := max ▸ inside
    _ ≤ _ := Nat.mul_le_mul_left _ held

/-- A device with registers of 64 bytes. -/
def wideDevice : Device where
  family := .xeHpc
  maxWorkGroupSize := 1024
  grfSize := 64
  cacheLineSize := 64
  iohAlignment := 1
  inlineDataSize := 64

/-- A kernel that needs local ids for groups with an odd number of columns. -/
def oddKernel (simdSize : ℕ) : Kernel where
  simdSize := simdSize
  grfCount := 128
  numLocalIdChannels := 3
  crossThreadDataSize := 96
  passInlineData := true
  offsets := { localWorkSize := some 60, workDimensions := some 92 }
  requiresLocalIdGeneration := fun g => g.x % 2 = 1 && g.x != 1
  generateLocalIDs := fun _ _ => 0

theorem oddKernel_appendable {simdSize : ℕ} (supports : wideDevice.Supports simdSize) :
    Appendable wideDevice (oddKernel simdSize) ⟨1, 1, 1⟩ 0 100 where
  supports := supports
  cacheLine := ⟨6, by decide, rfl⟩
  ioh := ⟨0, by decide, rfl⟩
  whole := by decide
  line := by decide
  sizes := by
    show 96 + 0 + 6 * 1024 + 0 < 2 ^ 32
    decide
  used := by decide
  arguments := by simp [oddKernel, Offsets.arguments]

theorem groupSizes_confined_simd32 :
    ∃ v', VariableDispatch.setGroupSizes wideDevice
      (appendLaunchKernel wideDevice (oddKernel 32) ⟨1, 1, 1⟩ ⟨8, 1, 1⟩ 0 100 (fun _ => 0) fun _ => 0)
      [⟨31, 33, 1⟩, ⟨1024, 1, 1⟩] = .ok v' := by
  have ok : Appendable wideDevice (oddKernel 32) ⟨1, 1, 1⟩ 0 100 :=
    oddKernel_appendable ⟨by decide, by decide⟩
  have sizes : ∀ g ∈ [(⟨31, 33, 1⟩ : GroupSize), ⟨1024, 1, 1⟩],
      1 ≤ g.items ∧ g.items ≤ wideDevice.maxWorkGroupSize := by decide +kernel
  obtain ⟨_, v', run, _⟩ := (@groupSizes_confined_iff wideDevice (oddKernel 32) _ ⟨8, 1, 1⟩ _ _
    (fun _ => 0) (fun _ => 0) ok _ sizes).mpr
    fun g member _ => fitsThreads_of_sixBytes ok (Or.inl rfl) (by decide) (sizes g member).2
  exact ⟨v', run⟩

/-- With SIMD 16 the rows are half empty: a group of 1023 work-items needs 12288 bytes, while there
are 6144. -/
theorem groupSizes_too_large :
    ¬∃ v', VariableDispatch.setGroupSizes wideDevice
      (appendLaunchKernel wideDevice (oddKernel 16) ⟨1, 1, 1⟩ ⟨8, 1, 1⟩ 0 100 (fun _ => 0) fun _ => 0)
        [⟨31, 33, 1⟩] = .ok v' := by
  rintro ⟨v', run⟩
  have supports : wideDevice.Supports 16 := ⟨by decide, by decide⟩
  have fits := VariableDispatch.fits_of_setGroupSizes
    (appendLaunchKernel_shaped (oddKernel_appendable supports)) supports (by decide +kernel) run
    ⟨31, 33, 1⟩ (by simp) (by decide +kernel)
  have area : (appendLaunchKernel wideDevice (oddKernel 16) ⟨1, 1, 1⟩ ⟨8, 1, 1⟩ 0 100 (fun _ => 0)
      fun _ => 0).perThreadAreaSize = 6144 := by decide +kernel
  rw [VariableDispatch.Fits, area] at fits
  rcases fits with few | ⟨_, limit, limited, _⟩
  · exact absurd few (by decide +kernel)
  · cases limited

end Append

end ComputeRuntime.MutableCmdList
