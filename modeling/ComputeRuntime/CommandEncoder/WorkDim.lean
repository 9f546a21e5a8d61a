import ComputeRuntime.CommandEncoder.Multiply

/-! The work dimension that is computed from the group counts. The comparisons are made on whole
registers, of which only the lower halves were loaded. -/
namespace ComputeRuntime.CommandEncoder

open RegisterOffsets

namespace EncodeIndirectParams

local instance three_neZero : NeZero 3 := ⟨Nat.succ_ne_zero 2⟩

/-- The dimension of a dispatch. -/
def workDim (groupCount : Fin 3 → BitVec 32) (groupSize : Fin 3 → Nat) : Nat :=
  if 1 < (groupCount 2).toNat ∨ 1 < groupSize 2 then 3
  else if 1 < (groupCount 1).toNat ∨ 1 < groupSize 1 then 2
  else 1

def byteOf (word : BitVec 32) (j : Fin 4) : BitVec 8 := word.extractLsb' (8 * j) 8

section Comparisons

variable (flag : StoredFlag) (m : Machine) (groupSize1 : Nat)

/-- Register 5 with a one loaded to its lower half. -/
def constantOne : BitVec 64 := high (m.gpr 5) ++ 1#32

def constantTwo : BitVec 64 := high (m.gpr 6) ++ 2#32

/-- Register 1 with the group count of a dimension loaded to its lower half. -/
def groupCount (i : Fin 3) : BitVec 64 := high (m.gpr 1) ++ m.mmio (gpgpuDispatchDim i)

/-- The first comparison: whether there is more than one group in the last dimension. -/
def workDimEq3 : Bool := (constantOne m).ult (groupCount m 2)

/-- The sum of the second comparison. -/
def sumOfSizes : BitVec 64 :=
  (high (m.gpr 0) ++ BitVec.ofNat 32 groupSize1) + groupCount m 1 +
    ((if workDimEq3 m then flag.word else 0) &&& constantOne m)

/-- The second comparison: whether the sum is more than two. -/
def workDimGe2 : Bool := (constantTwo m).ult (sumOfSizes flag m groupSize1)

end Comparisons

section Phases

variable {flag : StoredFlag} {m : Machine} {groupSize1 dstPtr : Nat}

@[simp] theorem setGpr_gpr (m : Machine) (n k : Nat) (value : BitVec 64) :
    (m.setGpr n value).gpr k = if k = n then value else m.gpr k :=
  Function.update_apply ..

@[simp] theorem setGpr_mmio (m : Machine) (n : Nat) (value : BitVec 64) :
    (m.setGpr n value).mmio = m.mmio := rfl

@[simp] theorem setGpr_memory (m : Machine) (n : Nat) (value : BitVec 64) :
    (m.setGpr n value).memory = m.memory := rfl

/-- Loading an immediate value to the lower half of a register. -/
theorem encodeIMM_run {offset number : Nat} (half : gprHalf false offset = some (number, false))
    (data : Nat) (m : Machine) :
    (EncodeSetMmio.encodeIMM offset data true false).run false flag m =
      m.setGpr number (high (m.gpr number) ++ BitVec.ofNat 32 data) := by
  change m.writeRegister false offset (BitVec.ofNat 32 data) = _
  rw [Machine.writeRegister, half]

theorem encodeREG_dispatchDim {offset number : Nat}
    (half : gprHalf false offset = some (number, false)) (i : Fin 3) (m : Machine) :
    (EncodeSetMmio.encodeREG offset (gpgpuDispatchDim i) false).run false flag m =
      m.setGpr number (high (m.gpr number) ++ m.mmio (gpgpuDispatchDim i)) := by
  change m.writeRegister false offset (m.readRegister false (gpgpuDispatchDim i)) = _
  rw [Machine.writeRegister, half, readRegister_gpgpuDispatchDim]

/-- What the comparisons leave behind. -/
theorem compareGroupCounts_run (flag : StoredFlag) (m : Machine) (groupSize1 : Nat) :
    let after := run false flag (compareGroupCounts groupSize1) m
    after.gpr 5 = constantOne m ∧
    after.gpr 3 = (if workDimEq3 m then flag.word else 0) &&& constantOne m ∧
    after.gpr 4 = (if workDimGe2 flag m groupSize1 then flag.word else 0) &&& constantOne m ∧
    after.gpr 7 = m.gpr 7 ∧ after.gpr 8 = m.gpr 8 ∧ after.mmio = m.mmio ∧
    after.memory = m.memory := by
  have first : gprHalf false csGprR0 = some (0, false) := rfl
  have second : gprHalf false csGprR1 = some (1, false) := rfl
  have sixth : gprHalf false csGprR5 = some (5, false) := rfl
  have seventh : gprHalf false csGprR6 = some (6, false) := rfl
  simp only [compareGroupCounts, run_cons, run_nil, encodeIMM_run sixth, encodeIMM_run seventh,
    encodeIMM_run first, encodeREG_dispatchDim second, run_greaterThan, run_bitwiseAnd,
    run_addition]
  simp [workDimGe2, workDimEq3, sumOfSizes, constantOne, constantTwo, groupCount]
  exact ⟨rfl, rfl⟩

theorem saveOtherBytes_run (flag : StoredFlag) (m : Machine) (dstPtr : Nat) :
    let after := run false flag (saveOtherBytes dstPtr) m
    low (after.gpr 7) = BitVec.ofNat 32 (memoryMask dstPtr) &&& m.memory (dstPtr / 4) ∧
    low (after.gpr 8) = BitVec.ofNat 32 (offsetBits dstPtr) ∧
    (∀ number < 7, after.gpr number = m.gpr number) ∧ after.mmio = m.mmio ∧
    after.memory = m.memory := by
  have ninth : gprHalf false csGprR8 = some (8, false) := rfl
  have load : ∀ m, (EncodeSetMmio.encodeMEM csGprR7 dstPtr false).run false flag m =
      m.setGpr 7 (high (m.gpr 7) ++ m.memory (dstPtr / 4)) := fun _ => rfl
  simp only [saveOtherBytes, run_cons, run_nil, load, encodeIMM_run ninth, run_bitwiseAnd]
  refine ⟨?_, ?_, ?_, rfl, rfl⟩
  · simp
  · simp
  · intro number small
    have not7 : number ≠ 7 := by omega
    have not8 : number ≠ 8 := by omega
    simp [not7, not8]

theorem moveToByte_run (flag : StoredFlag) (m : Machine) :
    let after := run false flag moveToByte m
    after.gpr 5 = m.gpr 5 + m.gpr 8 ∧
    after.gpr 3 = (m.gpr 3 + m.gpr 8) &&& (m.gpr 5 + m.gpr 8) ∧
    after.gpr 4 = (m.gpr 4 + m.gpr 8) &&& (m.gpr 5 + m.gpr 8) ∧
    after.gpr 7 = m.gpr 7 ∧ after.mmio = m.mmio ∧ after.memory = m.memory := by
  simp [moveToByte, run_addition, run_bitwiseAnd]

theorem sumUp_run (flag : StoredFlag) (m : Machine) :
    let after := run false flag sumUp m
    low (after.gpr 0) = low (m.gpr 5) + low (m.gpr 4) + low (m.gpr 3) ∧
    after.gpr 7 = m.gpr 7 ∧ after.memory = m.memory := by
  have copy : ∀ m, (EncodeSetMmio.encodeREG csGprR0 csGprR5 false).run false flag m =
      m.setGpr 0 (high (m.gpr 0) ++ low (m.gpr 5)) := fun _ => rfl
  simp only [sumUp, run_cons, run_nil, copy, run_addition]
  simp

/-- A flag that is cut down to its lowest bit. -/
theorem low_flag_and_one (set : Bool) (m : Machine) :
    low ((if set then flag.word else 0) &&& constantOne m) = BitVec.ofNat 32 set.toNat := by
  have one : low (constantOne m) = 1#32 := low_append _ _
  rw [low_and, one]
  cases set with
  | false => simp [low]
  | true =>
    apply BitVec.eq_of_getLsbD_eq
    intro i small
    simp only [low, BitVec.getLsbD_and, BitVec.getLsbD_setWidth, BitVec.getLsbD_one, if_true]
    by_cases lowest : i = 0
    · subst lowest
      simp [flag.lowest]
    · simp [lowest]

/-- The dimension that the comparisons amount to. -/
def comparedDim (flag : StoredFlag) (m : Machine) (groupSize1 : Nat) : Nat :=
  1 + (workDimGe2 flag m groupSize1).toNat + (workDimEq3 m).toNat

theorem offsetBits_eq_zero_iff (dstPtr : Nat) : offsetBits dstPtr = 0 ↔ dstPtr % 4 = 0 := by
  have small : dstPtr % 4 < 4 := Nat.mod_lt _ (by decide)
  unfold offsetBits
  generalize dstPtr % 4 = byte at small ⊢
  revert byte
  decide

theorem encodeWorkDim_aligned (aligned : dstPtr % 4 = 0) (flag : StoredFlag) (m : Machine)
    (groupSize1 : Nat) :
    let after := run false flag (encodeWorkDim dstPtr groupSize1) m
    low (after.gpr 0) = BitVec.ofNat 32 (comparedDim flag m groupSize1) ∧
    after.memory = m.memory := by
  have none_below : ¬ offsetBits dstPtr ≠ 0 := not_not.mpr ((offsetBits_eq_zero_iff _).mpr aligned)
  obtain ⟨one, eq3, ge2, _, _, _, memory⟩ := compareGroupCounts_run flag m groupSize1
  obtain ⟨sum, _, kept⟩ := sumUp_run flag (run false flag (compareGroupCounts groupSize1) m)
  simp only [encodeWorkDim, if_neg none_below, List.nil_append, List.append_nil, run_append]
  refine ⟨?_, kept.trans memory⟩
  have lowOne : low (constantOne m) = 1#32 := low_append _ _
  rw [sum, one, lowOne, ge2, eq3, low_flag_and_one, low_flag_and_one, comparedDim,
    BitVec.ofNat_add, BitVec.ofNat_add]

/-- A lowest bit moved to the byte above the others. -/
theorem move_bit (set : Bool) {byte : Nat} (small : byte < 4) :
    (BitVec.ofNat 32 set.toNat + BitVec.ofNat 32 (((1 <<< (8 * byte)) - 1) % 2 ^ 32)) &&&
        (1#32 + BitVec.ofNat 32 (((1 <<< (8 * byte)) - 1) % 2 ^ 32)) =
      BitVec.ofNat 32 (set.toNat <<< (8 * byte)) := by
  revert set byte
  decide

theorem sum_bits (ge2 eq3 : Bool) {byte : Nat} (small : byte < 4) :
    1#32 + BitVec.ofNat 32 (((1 <<< (8 * byte)) - 1) % 2 ^ 32) +
        BitVec.ofNat 32 (ge2.toNat <<< (8 * byte)) + BitVec.ofNat 32 (eq3.toNat <<< (8 * byte)) =
      BitVec.ofNat 32 ((1 + ge2.toNat + eq3.toNat) <<< (8 * byte)) := by
  revert ge2 eq3 byte
  decide

theorem encodeWorkDim_unaligned (unaligned : dstPtr % 4 ≠ 0) (flag : StoredFlag) (m : Machine)
    (groupSize1 : Nat) :
    let after := run false flag (encodeWorkDim dstPtr groupSize1) m
    low (after.gpr 0) = BitVec.ofNat 32 (comparedDim flag m groupSize1 <<< (8 * (dstPtr % 4))) +
      (BitVec.ofNat 32 (memoryMask dstPtr) &&& m.memory (dstPtr / 4)) ∧
    after.memory = m.memory := by
  have below : offsetBits dstPtr ≠ 0 := fun zero => unaligned ((offsetBits_eq_zero_iff _).mp zero)
  have small : dstPtr % 4 < 4 := Nat.mod_lt _ (by decide)
  obtain ⟨others, bits, untouched, mmio, memory⟩ := saveOtherBytes_run flag m dstPtr
  generalize saved : run false flag (saveOtherBytes dstPtr) m = m₁
    at others bits untouched mmio memory
  obtain ⟨one, eq3, ge2, seventh, eighth, _, memory₂⟩ := compareGroupCounts_run flag m₁ groupSize1
  generalize compared : run false flag (compareGroupCounts groupSize1) m₁ = m₂
    at one eq3 ge2 seventh eighth memory₂
  obtain ⟨one', eq3', ge2', seventh', _, memory₃⟩ := moveToByte_run flag m₂
  generalize moved : run false flag moveToByte m₂ = m₃ at one' eq3' ge2' seventh' memory₃
  obtain ⟨sum, seventh'', memory₄⟩ := sumUp_run flag m₃
  generalize summed : run false flag sumUp m₃ = m₄ at sum seventh'' memory₄
  -- the comparisons see the same upper halves as before
  have sameEq3 : workDimEq3 m₁ = workDimEq3 m := by
    simp only [workDimEq3, constantOne, groupCount, untouched 5 (by decide),
      untouched 1 (by decide), mmio]
  have sameGe2 : workDimGe2 flag m₁ groupSize1 = workDimGe2 flag m groupSize1 := by
    simp only [workDimGe2, sumOfSizes, sameEq3, constantOne, constantTwo, groupCount,
      untouched 0 (by decide), untouched 1 (by decide), untouched 5 (by decide),
      untouched 6 (by decide), mmio]
  simp only [encodeWorkDim, if_pos below, run_append, saved, compared, moved, summed,
    restoreOtherBytes, run_cons, run_nil, run_addition]
  have lowOne : low (constantOne m₁) = 1#32 := low_append _ _
  have bits' : low (m₂.gpr 8) = BitVec.ofNat 32 (((1 <<< (8 * (dstPtr % 4))) - 1) % 2 ^ 32) := by
    rw [eighth, bits, offsetBits]
  constructor
  · have seventhLow : low (m₄.gpr 7) =
        BitVec.ofNat 32 (memoryMask dstPtr) &&& m.memory (dstPtr / 4) := by
      rw [seventh'', seventh', seventh, others]
    rw [setGpr_gpr, if_pos rfl, low_add, seventhLow, sum, one', ge2', eq3']
    simp only [low_add, low_and, bits', one, lowOne]
    rw [ge2, eq3, low_flag_and_one, low_flag_and_one, move_bit _ small, move_bit _ small,
      sum_bits _ _ small, sameGe2, sameEq3]
    rfl
  · change m₄.memory = m.memory
    rw [memory₄, memory₃, memory₂, memory]

end Phases

section Stores

variable {flag : StoredFlag} {m : Machine} {groupSize : Fin 3 → Nat} {dstPtr : Nat}

/-- A mask with one byte clear and a value in that byte. -/
theorem byte_constants : ∀ value < 4, ∀ byte < 4,
    BitVec.ofNat 32 (value <<< (8 * byte)) &&& BitVec.ofNat 32 (Word.add 32
      (2 ^ 32 - 1 - ((1 <<< (8 * (byte + 1))) - 1) % 2 ^ 32)
      (((1 <<< (8 * byte)) - 1) % 2 ^ 32)) = 0#32 ∧
    ∀ j : Fin 4,
      byteOf (BitVec.ofNat 32 (Word.add 32
        (2 ^ 32 - 1 - ((1 <<< (8 * (byte + 1))) - 1) % 2 ^ 32)
        (((1 <<< (8 * byte)) - 1) % 2 ^ 32))) j =
          (if j.val = byte then 0#8 else BitVec.allOnes 8) ∧
      byteOf (BitVec.ofNat 32 (value <<< (8 * byte))) j =
        if j.val = byte then BitVec.ofNat 8 value else 0#8 := by
  decide

/-- A byte added between the others. -/
theorem byteOf_insert {value byte : Nat} (low : value < 4) (inside : byte < 4)
    (word : BitVec 32) (j : Fin 4) :
    byteOf (BitVec.ofNat 32 (value <<< (8 * byte)) + (BitVec.ofNat 32 (Word.add 32
        (2 ^ 32 - 1 - ((1 <<< (8 * (byte + 1))) - 1) % 2 ^ 32)
        (((1 <<< (8 * byte)) - 1) % 2 ^ 32)) &&& word)) j =
      if j.val = byte then BitVec.ofNat 8 value else byteOf word j := by
  obtain ⟨disjoint, bytes⟩ := byte_constants value low byte inside
  obtain ⟨cleared, placed⟩ := bytes j
  generalize BitVec.ofNat 32 (Word.add 32 (2 ^ 32 - 1 - ((1 <<< (8 * (byte + 1))) - 1) % 2 ^ 32)
    (((1 <<< (8 * byte)) - 1) % 2 ^ 32)) = mask at disjoint cleared ⊢
  have apart : BitVec.ofNat 32 (value <<< (8 * byte)) &&& (mask &&& word) = 0#32 := by
    rw [← BitVec.and_assoc, disjoint, BitVec.zero_and]
  rw [BitVec.add_eq_or_of_and_eq_zero _ _ apart]
  unfold byteOf at cleared placed ⊢
  rw [BitVec.extractLsb'_or, BitVec.extractLsb'_and, cleared, placed]
  split
  · rw [BitVec.zero_and, BitVec.or_zero]
  · rw [BitVec.allOnes_and, BitVec.zero_or]

/-- The dword that is stored. -/
def storedDword (flag : StoredFlag) (m : Machine) (groupSize : Fin 3 → Nat) (dstPtr : Nat) :
    BitVec 32 :=
  if groupSize 2 > 1 then BitVec.ofNat 32 (3 <<< (8 * (dstPtr % 4)))
  else if dstPtr % 4 = 0 then BitVec.ofNat 32 (comparedDim flag m (groupSize 1))
  else BitVec.ofNat 32 (comparedDim flag m (groupSize 1) <<< (8 * (dstPtr % 4))) +
    (BitVec.ofNat 32 (memoryMask dstPtr) &&& m.memory (dstPtr / 4))

/-- The commands for a valid offset. -/
def workDimCommands (groupSize : Fin 3 → Nat) (dstPtr : Nat) : List Command :=
  (if groupSize 2 > 1 then
    [EncodeSetMmio.encodeIMM csGprR0 (3 <<< (8 * (dstPtr % 4))) true false]
  else encodeWorkDim dstPtr (groupSize 1)) ++ [EncodeStoreMmio.encode csGprR0 dstPtr false]

theorem workDimCommands_run (flag : StoredFlag) (m : Machine) (groupSize : Fin 3 → Nat)
    (dstPtr : Nat) : (run false flag (workDimCommands groupSize dstPtr) m).memory =
      Function.update m.memory (dstPtr / 4) (storedDword flag m groupSize dstPtr) := by
  have stores : ∀ after : Machine, after.memory = m.memory →
      ((EncodeStoreMmio.encode csGprR0 dstPtr false).run false flag after).memory =
        Function.update m.memory (dstPtr / 4) (low (after.gpr 0)) := by
    intro after same
    rw [← same]
    rfl
  have first : gprHalf false csGprR0 = some (0, false) := rfl
  unfold workDimCommands storedDword
  rw [run_append]
  split
  next =>
    rw [run_cons, run_cons, run_nil, run_nil, encodeIMM_run first]
    rw [stores (m.setGpr 0 _) rfl]
    simp
  next =>
    split
    next aligned =>
      obtain ⟨result, memory⟩ := encodeWorkDim_aligned aligned flag m (groupSize 1)
      rw [run_cons, run_nil, stores _ memory, result]
    next unaligned =>
      obtain ⟨result, memory⟩ := encodeWorkDim_unaligned unaligned flag m (groupSize 1)
      rw [run_cons, run_nil, stores _ memory, result]

/-- The sizes of the parts: every arithmetic command has four instructions. -/
theorem workDim_sizes (dstPtr groupSize1 : Nat) :
    ((saveOtherBytes dstPtr).map Command.size).sum = 2 * 12 + 16 + aluCmdSize ∧
    ((compareGroupCounts groupSize1).map Command.size).sum = 3 * 12 + 2 * 12 + 6 * aluCmdSize ∧
    (moveToByte.map Command.size).sum = 5 * aluCmdSize ∧
    (sumUp.map Command.size).sum = 12 + 2 * aluCmdSize ∧
    (restoreOtherBytes.map Command.size).sum = aluCmdSize := by
  have alu : ∀ a b c d e, (EncodeMathMmio.encodeAlu a b c d e).length = 4 := fun _ _ _ _ _ => rfl
  refine ⟨?_, ?_, ?_, ?_, ?_⟩ <;>
  simp [saveOtherBytes, compareGroupCounts, moveToByte, sumUp, restoreOtherBytes, Command.size,
    EncodeSetMmio.encodeIMM, EncodeSetMmio.encodeMEM, EncodeSetMmio.encodeREG,
    EncodeMath.addition, EncodeMath.bitwiseAnd, EncodeMath.greaterThan,
    EncodeMathMmio.encodeAluAdd, EncodeMathMmio.encodeAluAnd,
    EncodeMathMmio.encodeAluSubStoreCarry, alu, aluCmdSize]

/-- The size is what was asked for before. -/
theorem workDimCommands_size (groupSize : Fin 3 → Nat) (dstPtr : Nat) :
    ((workDimCommands groupSize dstPtr).map Command.size).sum =
      getCmdsSizeForSetWorkDimIndirect groupSize (dstPtr % 4 != 0) := by
  have store : ([EncodeStoreMmio.encode csGprR0 dstPtr false].map Command.size).sum = 16 := rfl
  obtain ⟨saved, compared, moved, summed, restored⟩ := workDim_sizes dstPtr (groupSize 1)
  unfold workDimCommands getCmdsSizeForSetWorkDimIndirect
  rw [List.map_append, List.sum_append, store]
  by_cases large : groupSize 2 > 1
  · rw [if_pos large, if_neg (by omega)]
    rfl
  · rw [if_neg large, if_pos (by omega), encodeWorkDim]
    by_cases aligned : dstPtr % 4 = 0
    · have none_below : ¬ offsetBits dstPtr ≠ 0 :=
        not_not.mpr ((offsetBits_eq_zero_iff _).mpr aligned)
      have noPart : (dstPtr % 4 != 0) = false := by simp [aligned]
      simp only [if_neg none_below, noPart, List.map_append, List.sum_append, List.map_nil,
        List.sum_nil, compared, summed, Bool.false_eq_true, if_false]
      omega
    · have below : offsetBits dstPtr ≠ 0 :=
        fun zero => aligned ((offsetBits_eq_zero_iff _).mp zero)
      have part : (dstPtr % 4 != 0) = true := bne_iff_ne.mpr aligned
      simp only [if_pos below, part, List.map_append, List.sum_append, saved, compared, moved,
        summed, restored, if_true]
      omega

/-- The dimension is stored as a dword or as a byte, nothing else changes, and the commands are
as large as was asked for. -/
def StoresWorkDim (flag : StoredFlag) (m : Machine) (workDimOffset crossThreadAddress : Nat)
    (groupSize : Fin 3 → Nat) : Prop :=
  let dstPtr := add64 crossThreadAddress workDimOffset
  let dim := workDim (fun i => m.mmio (gpgpuDispatchDim i)) groupSize
  ∀ stream outArgs, ∃ commands,
    (setWorkDimIndirect stream workDimOffset crossThreadAddress groupSize outArgs).1 =
      stream ++ commands ∧
    (commands.map Command.size).sum =
      getCmdsSizeForSetWorkDimIndirect groupSize (dstPtr % 4 != 0) ∧
    (∀ index ≠ dstPtr / 4, (run false flag commands m).memory index = m.memory index) ∧
    if dstPtr % 4 = 0 then
      (run false flag commands m).memory (dstPtr / 4) = BitVec.ofNat 32 dim
    else ∀ j : Fin 4, byteOf ((run false flag commands m).memory (dstPtr / 4)) j =
      if j.val = dstPtr % 4 then BitVec.ofNat 8 dim else byteOf (m.memory (dstPtr / 4)) j

/-- What was emitted is determined. -/
theorem storesWorkDim_iff {workDimOffset crossThreadAddress : Nat}
    (valid : isValidOffset workDimOffset = true) :
    StoresWorkDim flag m workDimOffset crossThreadAddress groupSize ↔
      let dstPtr := add64 crossThreadAddress workDimOffset
      let dim := workDim (fun i => m.mmio (gpgpuDispatchDim i)) groupSize
      if dstPtr % 4 = 0 then storedDword flag m groupSize dstPtr = BitVec.ofNat 32 dim
      else ∀ j : Fin 4, byteOf (storedDword flag m groupSize dstPtr) j =
        if j.val = dstPtr % 4 then BitVec.ofNat 8 dim else byteOf (m.memory (dstPtr / 4)) j := by
  have emitted : ∀ stream outArgs,
      (setWorkDimIndirect stream workDimOffset crossThreadAddress groupSize outArgs).1 =
        stream ++ workDimCommands groupSize (add64 crossThreadAddress workDimOffset) := by
    intro stream outArgs
    rw [setWorkDimIndirect, if_pos valid, workDimCommands, ← List.append_assoc]
  have memory := workDimCommands_run flag m groupSize (add64 crossThreadAddress workDimOffset)
  simp only [StoresWorkDim]
  constructor
  · intro stores
    obtain ⟨commands, same, _, _, result⟩ := stores [] none
    rw [emitted] at same
    have determined := List.append_cancel_left same
    rw [← determined, memory, Function.update_self] at result
    exact result
  · intro result stream outArgs
    refine ⟨_, emitted stream outArgs, workDimCommands_size _ _, ?_, ?_⟩
    · intro index other
      rw [memory, Function.update_of_ne other]
    · rw [memory, Function.update_self]
      exact result

theorem comparedDim_bounds (flag : StoredFlag) (m : Machine) (groupSize1 : Nat) :
    1 ≤ comparedDim flag m groupSize1 ∧ comparedDim flag m groupSize1 ≤ 3 := by
  unfold comparedDim
  cases workDimGe2 flag m groupSize1 <;> cases workDimEq3 m <;> decide

theorem workDim_bounds (groupCount : Fin 3 → BitVec 32) (groupSize : Fin 3 → Nat) :
    1 ≤ workDim groupCount groupSize ∧ workDim groupCount groupSize ≤ 3 := by
  unfold workDim
  split
  next => decide
  next => split <;> decide

/-- The dimension is stored exactly when, with a larger local size in the last dimension, there
is nothing beside the byte, and otherwise the comparisons amount to it. -/
theorem setWorkDimIndirect_stores_iff (flag : StoredFlag) (m : Machine)
    (workDimOffset crossThreadAddress : Nat) (groupSize : Fin 3 → Nat)
    (valid : isValidOffset workDimOffset = true) :
    StoresWorkDim flag m workDimOffset crossThreadAddress groupSize ↔
      if 1 < groupSize 2 then
        ∀ j : Fin 4, add64 crossThreadAddress workDimOffset % 4 ≠ 0 →
          j.val ≠ add64 crossThreadAddress workDimOffset % 4 →
          byteOf (m.memory (add64 crossThreadAddress workDimOffset / 4)) j = 0
      else comparedDim flag m (groupSize 1) =
        workDim (fun i => m.mmio (gpgpuDispatchDim i)) groupSize := by
  rw [storesWorkDim_iff valid]
  simp only
  generalize add64 crossThreadAddress workDimOffset = dstPtr
  have small : dstPtr % 4 < 4 := Nat.mod_lt _ (by decide)
  obtain ⟨comparedLow, comparedHigh⟩ := comparedDim_bounds flag m (groupSize 1)
  obtain ⟨dimLow, dimHigh⟩ := workDim_bounds (fun i => m.mmio (gpgpuDispatchDim i)) groupSize
  by_cases large : 1 < groupSize 2
  · have three : workDim (fun i => m.mmio (gpgpuDispatchDim i)) groupSize = 3 :=
      if_pos (.inr large)
    have stored : storedDword flag m groupSize dstPtr = BitVec.ofNat 32 (3 <<< (8 * (dstPtr % 4))) :=
      if_pos large
    rw [if_pos large, three, stored]
    by_cases aligned : dstPtr % 4 = 0
    · simp [aligned]
    · rw [if_neg aligned]
      have bytes : ∀ j : Fin 4, byteOf (BitVec.ofNat 32 (3 <<< (8 * (dstPtr % 4)))) j =
          if j.val = dstPtr % 4 then 3#8 else 0#8 :=
        fun j => ((byte_constants 3 (by decide) (dstPtr % 4) small).2 j).2
      constructor
      · intro result j _ other
        have same := result j
        rw [bytes, if_neg other, if_neg other] at same
        exact same.symm
      · intro clear j
        rw [bytes]
        split
        next => rfl
        next other => exact (clear j aligned other).symm
  · have stored : storedDword flag m groupSize dstPtr =
        if dstPtr % 4 = 0 then BitVec.ofNat 32 (comparedDim flag m (groupSize 1))
        else BitVec.ofNat 32 (comparedDim flag m (groupSize 1) <<< (8 * (dstPtr % 4))) +
          (BitVec.ofNat 32 (memoryMask dstPtr) &&& m.memory (dstPtr / 4)) := if_neg large
    rw [if_neg large, stored]
    generalize comparedDim flag m (groupSize 1) = compared at comparedLow comparedHigh ⊢
    generalize workDim (fun i => m.mmio (gpgpuDispatchDim i)) groupSize = dim at dimLow dimHigh ⊢
    by_cases aligned : dstPtr % 4 = 0
    · rw [if_pos aligned, if_pos aligned]
      constructor
      · intro same
        have values := congrArg BitVec.toNat same
        simp only [BitVec.toNat_ofNat] at values
        omega
      · rintro rfl
        rfl
    · rw [if_neg aligned, if_neg aligned]
      have bytes := byteOf_insert (show compared < 4 by omega) small (m.memory (dstPtr / 4))
      constructor
      · intro result
        have same := result ⟨dstPtr % 4, small⟩
        rw [memoryMask, offsetBits, bytes, if_pos rfl, if_pos rfl] at same
        have values := congrArg BitVec.toNat same
        simp only [BitVec.toNat_ofNat] at values
        omega
      · rintro rfl j
        rw [memoryMask, offsetBits, bytes]

/-- Registers that are all clear above, as they are when nothing used them: 5 groups of one item
in a row have one dimension. -/
theorem setWorkDimIndirect_stores_row :
    StoresWorkDim ⟨-1, by decide⟩ ⟨fun _ => 7, fun offset => if offset = gpgpuDispatchDimX then 5
      else 1, fun _ => -1⟩ 2 64 (fun _ => 1) :=
  (setWorkDimIndirect_stores_iff _ _ 2 64 (fun _ => 1) (by decide)).mpr (by decide)

/-- An address left in register 1 makes one group look like many. -/
theorem setWorkDimIndirect_stale_register :
    ¬ StoresWorkDim ⟨-1, by decide⟩ ⟨fun number => if number = 1 then 0x100000000 else 0,
      fun _ => 1, fun _ => 0⟩ 0 64 (fun _ => 1) := by
  rw [storesWorkDim_iff (by decide)]
  decide

/-- A flag that is cut down to its lowest bit, in a whole register. -/
theorem flag_and_one (flag : StoredFlag) : flag.word &&& 1#64 = 1#64 := by
  apply BitVec.eq_of_getLsbD_eq
  intro i small
  by_cases lowest : i = 0
  · subst lowest
    simp [flag.lowest]
  · simp [BitVec.getLsbD_one, lowest]

/-- With clear upper halves the comparisons amount to the dimension. -/
theorem comparedDim_of_clear_halves (clear : ∀ number ∈ [0, 1, 5, 6], high (m.gpr number) = 0)
    (sizeOne : 1 ≤ groupSize 1) (sizeFits : groupSize 1 < 2 ^ 32) (single : ¬ 1 < groupSize 2)
    (countY : 1 ≤ (m.mmio gpgpuDispatchDimY).toNat) :
    comparedDim flag m (groupSize 1) =
      workDim (fun i => m.mmio (gpgpuDispatchDim i)) groupSize := by
  have whole : ∀ x : BitVec 32, (0#32 ++ x : BitVec 64).toNat = x.toNat := by
    intro x
    exact (BitVec.toNat_append 0#32 x).trans (by simp)
  have one : constantOne m = 1#64 := by
    rw [constantOne, clear 5 (by decide)]
    rfl
  have two : constantTwo m = 2#64 := by
    rw [constantTwo, clear 6 (by decide)]
    rfl
  have count : ∀ i, (groupCount m i).toNat = (m.mmio (gpgpuDispatchDim i)).toNat := by
    intro i
    rw [groupCount, clear 1 (by decide)]
    exact whole _
  have size : (high (m.gpr 0) ++ BitVec.ofNat 32 (groupSize 1) : BitVec 64).toNat =
      groupSize 1 := by
    rw [clear 0 (by decide)]
    exact (whole _).trans (Nat.mod_eq_of_lt sizeFits)
  have eq3 : workDimEq3 m = decide (1 < (m.mmio gpgpuDispatchDimZ).toNat) := by
    rw [workDimEq3, one, BitVec.ult, count]
    rfl
  have bit : ((if workDimEq3 m then flag.word else 0) &&& constantOne m).toNat =
      (workDimEq3 m).toNat := by
    rw [one]
    cases workDimEq3 m with
    | false => simp
    | true => rw [if_pos rfl, flag_and_one]; rfl
  have small := (m.mmio gpgpuDispatchDimY).isLt
  have carry := Bool.toNat_le (workDimEq3 m)
  have sum : (sumOfSizes flag m (groupSize 1)).toNat =
      groupSize 1 + (m.mmio gpgpuDispatchDimY).toNat + (workDimEq3 m).toNat := by
    have countOne : (groupCount m 1).toNat = (m.mmio gpgpuDispatchDimY).toNat := count 1
    rw [sumOfSizes, BitVec.toNat_add, BitVec.toNat_add, size, countOne, bit]
    rw [Nat.mod_eq_of_lt (a := groupSize 1 + _) (by omega), Nat.mod_eq_of_lt (by omega)]
  have ge2 : workDimGe2 flag m (groupSize 1) = decide (2 < groupSize 1 +
      (m.mmio gpgpuDispatchDimY).toNat + (workDimEq3 m).toNat) := by
    rw [workDimGe2, two, BitVec.ult, sum]
    rfl
  have dims : workDim (fun i => m.mmio (gpgpuDispatchDim i)) groupSize =
      if 1 < (m.mmio gpgpuDispatchDimZ).toNat ∨ 1 < groupSize 2 then 3
      else if 1 < (m.mmio gpgpuDispatchDimY).toNat ∨ 1 < groupSize 1 then 2 else 1 := rfl
  rw [comparedDim, dims, ge2, eq3]
  by_cases deep : 1 < (m.mmio gpgpuDispatchDimZ).toNat
  · have more : 2 < groupSize 1 + (m.mmio gpgpuDispatchDimY).toNat + 1 := by omega
    simp [deep, more]
  · by_cases flat : 1 < (m.mmio gpgpuDispatchDimY).toNat ∨ 1 < groupSize 1
    · have more : 2 < groupSize 1 + (m.mmio gpgpuDispatchDimY).toNat := by omega
      simp [deep, single, flat, more]
    · have few : ¬ 2 < groupSize 1 + (m.mmio gpgpuDispatchDimY).toNat := by omega
      simp [deep, single, flat, few]

end Stores

end EncodeIndirectParams

end ComputeRuntime.CommandEncoder
