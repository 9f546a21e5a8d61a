import ComputeRuntime.CommandEncoder.Encoder
import Mathlib.Data.BitVec
import Mathlib.Data.Nat.Bitwise

/-! Multiplication by shifting and adding. The lower halves of the registers are right whatever
the upper ones hold, since a sum's lower half depends on the lower halves only. -/
namespace ComputeRuntime.CommandEncoder

open RegisterOffsets

variable {isBcs : Bool} {flag : StoredFlag} {m : Machine} {first second final : Nat}

/-- The register offset that an engine sees for an offset of the first engine. -/
def engineOffset (isBcs : Bool) (offset : Nat) : Nat :=
  if isBcs then offset + bcs0Base else offset

section Arithmetic

@[simp] theorem run_nil (isBcs : Bool) (flag : StoredFlag) (m : Machine) :
    run isBcs flag [] m = m := rfl

@[simp] theorem run_cons (isBcs : Bool) (flag : StoredFlag) (command : Command)
    (commands : List Command) (m : Machine) : run isBcs flag (command :: commands) m =
      run isBcs flag commands (command.run isBcs flag m) := rfl

theorem run_append (isBcs : Bool) (flag : StoredFlag) (before after : List Command)
    (m : Machine) : run isBcs flag (before ++ after) m =
      run isBcs flag after (run isBcs flag before m) :=
  List.foldl_append

theorem run_addition (first second final : Nat) (m : Machine) :
    (EncodeMath.addition (.gpr first) (.gpr second) (.gpr final)).run isBcs flag m =
      m.setGpr final (m.gpr first + m.gpr second) := rfl

theorem run_bitwiseAnd (first second final : Nat) (m : Machine) :
    (EncodeMath.bitwiseAnd (.gpr first) (.gpr second) (.gpr final)).run isBcs flag m =
      m.setGpr final (m.gpr first &&& m.gpr second) := rfl

/-- The difference borrows when the first register holds the greater number. -/
theorem run_greaterThan (first second final : Nat) (m : Machine) :
    (EncodeMath.greaterThan (.gpr first) (.gpr second) (.gpr final)).run isBcs flag m =
      m.setGpr final (if (m.gpr second).ult (m.gpr first) then flag.word else 0) := rfl

end Arithmetic

namespace EncodeMathMmio

/-- The lower halves of the two registers that the loop works on, and what it leaves alone. -/
structure Factors (before m : Machine) (shifted product : BitVec 32) : Prop where
  shifted : low (m.gpr 0) = shifted
  product : low (m.gpr 1) = product
  mmio : m.mmio = before.mmio
  memory : m.memory = before.memory

theorem encodeREG_first (isBcs : Bool) (flag : StoredFlag) (offset : Nat) (m : Machine) :
    (EncodeSetMmio.encodeREG csGprR0 offset isBcs).run isBcs flag m =
      m.setGpr 0 (high (m.gpr 0) ++ m.readRegister isBcs (engineOffset isBcs offset)) := by
  cases isBcs <;> rfl

theorem encodeIMM_second (isBcs : Bool) (flag : StoredFlag) (data : Nat) (m : Machine) :
    (EncodeSetMmio.encodeIMM csGprR1 data true isBcs).run isBcs flag m =
      m.setGpr 1 (high (m.gpr 1) ++ BitVec.ofNat 32 data) := by
  cases isBcs <;> rfl

theorem encodeREG_sum_first (isBcs : Bool) (flag : StoredFlag) (m : Machine) :
    (EncodeSetMmio.encodeREG csGprR0 csGprR2 isBcs).run isBcs flag m =
      m.setGpr 0 (high (m.gpr 0) ++ low (m.gpr 2)) := by
  cases isBcs <;> rfl

theorem encodeREG_sum_second (isBcs : Bool) (flag : StoredFlag) (m : Machine) :
    (EncodeSetMmio.encodeREG csGprR1 csGprR2 isBcs).run isBcs flag m =
      m.setGpr 1 (high (m.gpr 1) ++ low (m.gpr 2)) := by
  cases isBcs <;> rfl

theorem encode_store (isBcs : Bool) (flag : StoredFlag) (dstAddress : Nat) (m : Machine) :
    (EncodeStoreMmio.encode csGprR1 dstAddress isBcs).run isBcs flag m =
      m.store dstAddress (low (m.gpr 1)) := by
  cases isBcs <;> rfl

variable {before : Machine} {shifted product : BitVec 32}

/-- The product takes in the shifted factor. -/
theorem Factors.add (factors : Factors before m shifted product) :
    Factors before (run isBcs flag [EncodeMath.addition (.gpr 1) (.gpr 0) (.gpr 2),
      EncodeSetMmio.encodeREG csGprR1 csGprR2 isBcs] m) shifted (product + shifted) := by
  rw [run_cons, run_cons, run_nil, run_addition, encodeREG_sum_second]
  constructor
  · exact factors.shifted
  · simp [Machine.setGpr, factors.shifted, factors.product]
  · exact factors.mmio
  · exact factors.memory

/-- The factor is shifted by adding it to itself. -/
theorem Factors.double (factors : Factors before m shifted product) :
    Factors before (run isBcs flag [EncodeMath.addition (.gpr 0) (.gpr 0) (.gpr 2),
      EncodeSetMmio.encodeREG csGprR0 csGprR2 isBcs] m) (shifted + shifted) product := by
  rw [run_cons, run_cons, run_nil, run_addition, encodeREG_sum_first]
  constructor
  · simp [Machine.setGpr, factors.shifted]
  · exact factors.product
  · exact factors.mmio
  · exact factors.memory

theorem and_shiftLeft_ne_zero (val i : Nat) : val &&& 1 <<< i ≠ 0 ↔ val / 2 ^ i % 2 = 1 := by
  rw [Nat.one_shiftLeft, Nat.and_two_pow, Nat.testBit_eq_decide_div_mod_eq]
  by_cases set : val / 2 ^ i % 2 = 1 <;> simp [set]

/-- One bit of the multiplier. -/
theorem Factors.bit {source : BitVec 32} {val i : Nat}
    (factors : Factors before m (source * BitVec.ofNat 32 (2 ^ i))
      (source * BitVec.ofNat 32 (val % 2 ^ i))) :
    Factors before (run isBcs flag (encodeBit val i isBcs) m)
      (source * BitVec.ofNat 32 (2 ^ (i + 1)))
      (source * BitVec.ofNat 32 (val % 2 ^ (i + 1))) := by
  have doubled : source * BitVec.ofNat 32 (2 ^ (i + 1)) =
      source * BitVec.ofNat 32 (2 ^ i) + source * BitVec.ofNat 32 (2 ^ i) := by
    rw [Nat.pow_succ, Nat.mul_two, BitVec.ofNat_add, BitVec.mul_add]
  rw [encodeBit, run_append, doubled, Nat.mod_pow_succ]
  by_cases set : val / 2 ^ i % 2 = 1
  · rw [if_pos ((and_shiftLeft_ne_zero val i).mpr set), set, Nat.mul_one, BitVec.ofNat_add,
      BitVec.mul_add]
    exact factors.add.double
  · have clear : val / 2 ^ i % 2 = 0 := by omega
    rw [if_neg (fun bit => set ((and_shiftLeft_ne_zero val i).mp bit)), clear, Nat.mul_zero,
      Nat.add_zero]
    exact factors.double

theorem Factors.bits {source : BitVec 32} {val : Nat}
    (factors : Factors before m source 0) (count : Nat) :
    Factors before (run isBcs flag ((List.range count).flatMap (encodeBit val · isBcs)) m)
      (source * BitVec.ofNat 32 (2 ^ count)) (source * BitVec.ofNat 32 (val % 2 ^ count)) := by
  induction count with
  | zero => simpa [Nat.mod_one] using factors
  | succ count ih =>
    rw [List.range_succ, List.flatMap_append, List.flatMap_singleton, run_append]
    exact ih.bit

/-- The loop stops behind the highest bit. -/
theorem lt_countLogLws {val turns logLws : Nat} (fits : val < 2 ^ (logLws + turns)) :
    val < 2 ^ countLogLws val turns logLws := by
  induction turns generalizing logLws with
  | zero => exact fits
  | succ turns ih =>
    unfold countLogLws
    split
    next =>
      apply ih
      rwa [Nat.add_right_comm]
    next done =>
      rw [Nat.shiftRight_eq_div_pow, not_not] at done
      exact Nat.lt_of_div_eq_zero (Nat.two_pow_pos logLws) done

/-- The product is stored, and of the rest only general purpose registers change. -/
theorem encodeMulRegVal_run (isBcs : Bool) (flag : StoredFlag) (m : Machine)
    (offset dstAddress : Nat) {val : Nat} (fits : val < 2 ^ 32) :
    (run isBcs flag (encodeMulRegVal offset val dstAddress isBcs) m).memory =
      (m.store dstAddress (m.readRegister isBcs (engineOffset isBcs offset) *
        BitVec.ofNat 32 val)).memory ∧
    (run isBcs flag (encodeMulRegVal offset val dstAddress isBcs) m).mmio = m.mmio := by
  rw [encodeMulRegVal, run_append, run_append, run_cons, run_cons, run_cons, run_nil, run_nil,
    encodeREG_first, encodeIMM_second, encode_store]
  have start : Factors m ((m.setGpr 0 (high (m.gpr 0) ++
      m.readRegister isBcs (engineOffset isBcs offset))).setGpr 1
        (high ((m.setGpr 0 (high (m.gpr 0) ++
          m.readRegister isBcs (engineOffset isBcs offset))).gpr 1) ++ BitVec.ofNat 32 0))
      (m.readRegister isBcs (engineOffset isBcs offset)) 0 := by
    constructor
    · simp [Machine.setGpr]
    · simp [Machine.setGpr]
    · rfl
    · rfl
  have loop := @Factors.bits isBcs flag _ _ _ val start (countLogLws val 32 0)
  rw [Nat.mod_eq_of_lt (lt_countLogLws (by simpa using fits))] at loop
  constructor
  · simp only [Machine.store, loop.product, loop.memory]
  · exact loop.mmio

end EncodeMathMmio

/-- The product modulo 2^32. -/
def product (factor : BitVec 32) (val : Nat) : BitVec 32 := .ofNat 32 (factor.toNat * val)

theorem product_eq (factor : BitVec 32) (val : Nat) :
    product factor val = factor * BitVec.ofNat 32 val := by
  rw [product, BitVec.ofNat_mul, BitVec.ofNat_toNat, BitVec.setWidth_eq]

namespace EncodeIndirectParams

variable {offsets : Fin 3 → Nat} {crossThreadAddress inlineDataGpuVa : Nat} {lws : Fin 3 → Nat}

/-- Where the global size of a dimension belongs: in the inline data or in the cross-thread data. -/
def globalSizeAddress (offsets : Fin 3 → Nat) (crossThreadAddress inlineDataGpuVa : Nat)
    (outArgs : Option IndirectParamsInInlineDataArgs) (i : Fin 3) : Nat :=
  if outArgs.any (·.storeGlobalWorkSizeInInlineData i) then (inlineDataGpuVa + offsets i) % 2 ^ 64
  else (crossThreadAddress + offsets i) % 2 ^ 64

/-- The memory after the global size of one dimension is stored. -/
def storeGlobalSize (offsets address lws : Fin 3 → Nat) (groupCount : Fin 3 → BitVec 32)
    (memory : Nat → BitVec 32) (i : Fin 3) : Nat → BitVec 32 :=
  if isUndefinedOffset (offsets i) then memory
  else Function.update memory (address i / 4) (product (groupCount i) (lws i))

/-- The stream once the address of the inline data is known. -/
def placed (inlineDataGpuVa : Nat)
    (state : List Command × Option IndirectParamsInInlineDataArgs) : List Command :=
  state.2.elim state.1 fun outArgs => applyInlineDataGpuVA outArgs inlineDataGpuVa state.1

/-- The commands that are noted down are in the stream. -/
def Noted (state : List Command × Option IndirectParamsInInlineDataArgs) : Prop :=
  ∀ outArgs ∈ state.2, ∀ commandArgs ∈ outArgs.commandsToPatch,
    commandArgs.command < state.1.length

/-- One more command that is noted down. -/
theorem applyInlineDataGpuVA_concat (outArgs : IndirectParamsInInlineDataArgs)
    (commandArgs : EncodeStoreMMIOParams) (stream : List Command) :
    applyInlineDataGpuVA
        { outArgs with commandsToPatch := outArgs.commandsToPatch ++ [commandArgs] }
        inlineDataGpuVa stream =
      (applyInlineDataGpuVA outArgs inlineDataGpuVa stream).set commandArgs.command
        (EncodeStoreMmio.encode commandArgs.offset (add64 commandArgs.address inlineDataGpuVa)
          commandArgs.isBcs) := by
  simp only [applyInlineDataGpuVA, List.foldl_append, List.foldl_cons, List.foldl_nil]

theorem length_applyInlineDataGpuVA (outArgs : IndirectParamsInInlineDataArgs)
    (stream : List Command) :
    (applyInlineDataGpuVA outArgs inlineDataGpuVa stream).length = stream.length := by
  unfold applyInlineDataGpuVA
  generalize outArgs.commandsToPatch = commandsToPatch
  induction commandsToPatch generalizing stream with
  | nil => rfl
  | cons commandArgs rest ih => rw [List.foldl_cons, ih, List.length_set]

/-- What is written behind the noted commands stays as it is. -/
theorem applyInlineDataGpuVA_append {outArgs : IndirectParamsInInlineDataArgs}
    {stream : List Command}
    (noted : ∀ commandArgs ∈ outArgs.commandsToPatch, commandArgs.command < stream.length)
    (more : List Command) :
    applyInlineDataGpuVA outArgs inlineDataGpuVa (stream ++ more) =
      applyInlineDataGpuVA outArgs inlineDataGpuVa stream ++ more := by
  unfold applyInlineDataGpuVA
  generalize outArgs.commandsToPatch = commandsToPatch at noted
  induction commandsToPatch generalizing stream with
  | nil => rfl
  | cons commandArgs rest ih =>
    have inside := noted commandArgs List.mem_cons_self
    rw [List.foldl_cons, List.foldl_cons, List.set_append_left _ _ inside]
    apply ih
    intro other member
    rw [List.length_set]
    exact noted other (List.mem_cons_of_mem _ member)

/-- Giving the store at the end another address is writing it with that address. -/
theorem encodeMulRegVal_set {stream : List Command} {offset val dstAddress address : Nat}
    {isBcs : Bool} :
    (stream ++ EncodeMathMmio.encodeMulRegVal offset val dstAddress isBcs).set
        ((stream ++ EncodeMathMmio.encodeMulRegVal offset val dstAddress isBcs).length - 1)
        (EncodeStoreMmio.encode csGprR1 address isBcs) =
      stream ++ EncodeMathMmio.encodeMulRegVal offset val address isBcs := by
  unfold EncodeMathMmio.encodeMulRegVal
  simp only [← List.append_assoc]
  rw [List.length_append, List.length_singleton, Nat.add_sub_cancel,
    List.set_append_right _ _ (Nat.le_refl _), Nat.sub_self]
  rfl

/-- One dimension: once the inline data is known, its commands store to where its size belongs. -/
theorem placed_setGlobalWorkSize
    {state : List Command × Option IndirectParamsInInlineDataArgs} (noted : Noted state)
    (i : Fin 3) :
    Noted (setGlobalWorkSize offsets crossThreadAddress lws state i) ∧
    placed inlineDataGpuVa (setGlobalWorkSize offsets crossThreadAddress lws state i) =
      placed inlineDataGpuVa state ++
        (if isUndefinedOffset (offsets i) then []
        else EncodeMathMmio.encodeMulRegVal (gpgpuDispatchDim i) (lws i)
          (globalSizeAddress offsets crossThreadAddress inlineDataGpuVa state.2 i) false) ∧
    ∀ j, globalSizeAddress offsets crossThreadAddress inlineDataGpuVa
        (setGlobalWorkSize offsets crossThreadAddress lws state i).2 j =
      globalSizeAddress offsets crossThreadAddress inlineDataGpuVa state.2 j := by
  obtain ⟨stream, outArgs⟩ := state
  unfold setGlobalWorkSize
  split
  next => exact ⟨noted, (List.append_nil _).symm, fun _ => rfl⟩
  next =>
    cases outArgs with
    | none => exact ⟨fun _ none => (by cases none), rfl, fun _ => rfl⟩
    | some outArgs =>
      have noted := noted outArgs rfl
      have longer : ∀ commandArgs ∈ outArgs.commandsToPatch, commandArgs.command <
          (stream ++ EncodeMathMmio.encodeMulRegVal (gpgpuDispatchDim i) (lws i)
            (patchLocation offsets crossThreadAddress (some outArgs) i) false).length := by
        intro commandArgs member
        rw [List.length_append]
        exact Nat.lt_add_right _ (noted commandArgs member)
      by_cases inline : outArgs.storeGlobalWorkSizeInInlineData i = true
      · refine ⟨?_, ?_, fun j => ?_⟩
        · simp only [Option.map_some, inline, if_true]
          rintro _ ⟨⟩ commandArgs member
          rcases List.mem_append.mp member with earlier | now
          · exact longer commandArgs earlier
          · rw [List.mem_singleton.mp now]
            simp [EncodeMathMmio.encodeMulRegVal]
        · have location : patchLocation offsets crossThreadAddress (some outArgs) i = offsets i := by
            simp [patchLocation, inline]
          have address : globalSizeAddress offsets crossThreadAddress inlineDataGpuVa
              (some outArgs) i = add64 (offsets i) inlineDataGpuVa := by
            simp [globalSizeAddress, inline, add64, Word.add, Nat.add_comm]
          simp only [placed, Option.map_some, inline, if_true, Option.elim_some, location, address]
          have last := @encodeMulRegVal_set (applyInlineDataGpuVA outArgs inlineDataGpuVa stream)
            (gpgpuDispatchDim i) (lws i) (offsets i) (add64 (offsets i) inlineDataGpuVa) false
          rw [List.length_append, length_applyInlineDataGpuVA, ← List.length_append] at last
          rw [applyInlineDataGpuVA_concat, applyInlineDataGpuVA_append noted]
          exact last
        · simp [globalSizeAddress, inline]
      · simp only [Option.map_some, inline, Bool.false_eq_true, if_false]
        refine ⟨?_, ?_, fun _ => trivial⟩
        · rintro _ ⟨⟩
          exact longer
        · have same : globalSizeAddress offsets crossThreadAddress inlineDataGpuVa
              (some outArgs) i = patchLocation offsets crossThreadAddress (some outArgs) i := by
            simp [globalSizeAddress, patchLocation, inline, add64, Word.add]
          rw [same]
          exact applyInlineDataGpuVA_append noted _

theorem readRegister_gpgpuDispatchDim (m : Machine) (i : Fin 3) :
    m.readRegister false (gpgpuDispatchDim i) = m.mmio (gpgpuDispatchDim i) := by
  match i with
  | 0 => rfl
  | 1 => rfl
  | 2 => rfl

/-- The commands of one dimension store its size. -/
theorem storeGlobalSize_run (flag : StoredFlag) (address : Fin 3 → Nat) (i : Fin 3)
    (fits : lws i < 2 ^ 32) (m : Machine) :
    let commands := if isUndefinedOffset (offsets i) then []
      else EncodeMathMmio.encodeMulRegVal (gpgpuDispatchDim i) (lws i) (address i) false
    (run false flag commands m).mmio = m.mmio ∧ (run false flag commands m).memory =
      storeGlobalSize offsets address lws (fun j => m.mmio (gpgpuDispatchDim j)) m.memory i := by
  unfold storeGlobalSize
  split
  next => exact ⟨rfl, rfl⟩
  next =>
    obtain ⟨memory, mmio⟩ := EncodeMathMmio.encodeMulRegVal_run false flag m (gpgpuDispatchDim i)
      (address i) fits
    have source : m.readRegister false (engineOffset false (gpgpuDispatchDim i)) =
        m.mmio (gpgpuDispatchDim i) := readRegister_gpgpuDispatchDim m i
    refine ⟨mmio, memory.trans ?_⟩
    rw [product_eq, source]
    rfl

theorem setGlobalWorkSizes_run (flag : StoredFlag) (fits : ∀ i, lws i < 2 ^ 32)
    (dims : List (Fin 3)) {state : List Command × Option IndirectParamsInInlineDataArgs}
    (noted : Noted state) :
    ∃ commands,
      placed inlineDataGpuVa (dims.foldl (setGlobalWorkSize offsets crossThreadAddress lws) state) =
        placed inlineDataGpuVa state ++ commands ∧
      ∀ m, (run false flag commands m).memory =
        dims.foldl (storeGlobalSize offsets
          (globalSizeAddress offsets crossThreadAddress inlineDataGpuVa state.2) lws
          fun j => m.mmio (gpgpuDispatchDim j)) m.memory := by
  induction dims generalizing state with
  | nil => exact ⟨[], (List.append_nil _).symm, fun m => rfl⟩
  | cons i dims ih =>
    obtain ⟨stillNoted, emitted, addresses⟩ :=
      @placed_setGlobalWorkSize offsets crossThreadAddress inlineDataGpuVa lws state noted i
    obtain ⟨rest, restEmitted, restStores⟩ := ih stillNoted
    refine ⟨(if isUndefinedOffset (offsets i) then []
      else EncodeMathMmio.encodeMulRegVal (gpgpuDispatchDim i) (lws i)
        (globalSizeAddress offsets crossThreadAddress inlineDataGpuVa state.2 i) false) ++ rest,
      ?_, fun m => ?_⟩
    · rw [List.foldl_cons, restEmitted, emitted, List.append_assoc]
    · obtain ⟨mmio, memory⟩ := @storeGlobalSize_run offsets lws flag
        (globalSizeAddress offsets crossThreadAddress inlineDataGpuVa state.2) i (fits i) m
      -- the registers and the addresses are as before for the other dimensions
      rw [run_append, restStores, List.foldl_cons, mmio, memory, funext addresses]

/-- The multiplication stores the product, and so the three global sizes are stored, each where it
belongs once the address of the inline data is known. -/
theorem setGlobalWorkSizeIndirect_multiplies (flag : StoredFlag) :
    (∀ (isBcs : Bool) (m : Machine) (offset val dstAddress : Nat), val < 2 ^ 31 →
      (run isBcs flag (EncodeMathMmio.encodeMulRegVal offset val dstAddress isBcs) m).memory =
        Function.update m.memory (dstAddress / 4)
          (product (m.readRegister isBcs (engineOffset isBcs offset)) val)) ∧
    ∀ (stream : List Command) (offsets : Fin 3 → Nat) (crossThreadAddress inlineDataGpuVa : Nat)
      (lws : Fin 3 → Nat) (outArgs : Option IndirectParamsInInlineDataArgs),
      (∀ i, lws i < 2 ^ 31) → Noted (stream, outArgs) → ∃ commands,
        placed inlineDataGpuVa
            (setGlobalWorkSizeIndirect stream offsets crossThreadAddress lws outArgs) =
          placed inlineDataGpuVa (stream, outArgs) ++ commands ∧
        ∀ m, (run false flag commands m).memory =
          [0, 1, 2].foldl (storeGlobalSize offsets
            (globalSizeAddress offsets crossThreadAddress inlineDataGpuVa outArgs) lws
            fun i => m.mmio (gpgpuDispatchDim i)) m.memory := by
  constructor
  · intro isBcs m offset val dstAddress small
    have fits : val < 2 ^ 32 := by omega
    rw [product_eq]
    exact (EncodeMathMmio.encodeMulRegVal_run isBcs flag m offset dstAddress fits).1
  · intro stream offsets crossThreadAddress inlineDataGpuVa lws outArgs small noted
    have fits : ∀ i, lws i < 2 ^ 32 := fun i => Nat.lt_trans (small i) (by decide)
    exact setGlobalWorkSizes_run flag fits [0, 1, 2] noted

/-- Registers full of ones do not disturb products of 5 groups and 7 items, of which one goes to
the cross-thread data and one to the inline data; the third size has no place. -/
theorem setGlobalWorkSizeIndirect_multiplies_five_by_seven :
    (run false ⟨-1, by decide⟩ (EncodeMathMmio.encodeMulRegVal gpgpuDispatchDimX 7 64 false)
      ⟨fun _ => -1, fun _ => 5, fun _ => 0⟩).memory 16 = 35 ∧
    ∃ commands, placed 0x1000
        (setGlobalWorkSizeIndirect [] (fun i => if i = 2 then undefinedOffset else 8 + 4 * i) 64
          (fun _ => 7) (some { storeGlobalWorkSizeInInlineData := (· == 1) })) = commands ∧
      let memory := (run false ⟨-1, by decide⟩ commands
        ⟨fun _ => -1, fun _ => 5, fun _ => 0⟩).memory
      memory ((64 + 8) / 4) = 35 ∧ memory ((0x1000 + 12) / 4) = 35 := by
  obtain ⟨one, three⟩ := setGlobalWorkSizeIndirect_multiplies ⟨-1, by decide⟩
  constructor
  · rw [one _ _ _ _ _ (by decide)]
    decide
  · have noted : Noted ([], some { storeGlobalWorkSizeInInlineData := (· == 1) }) := by
      rintro _ ⟨⟩ _ ⟨⟩
    obtain ⟨commands, emitted, stores⟩ := three []
      (fun i => if i = 2 then undefinedOffset else 8 + 4 * i) 64 0x1000 (fun _ => 7) _
      (fun _ => by decide) noted
    refine ⟨commands, emitted, ?_⟩
    rw [stores]
    decide

end EncodeIndirectParams

end ComputeRuntime.CommandEncoder
