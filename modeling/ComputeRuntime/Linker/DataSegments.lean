import ComputeRuntime.Library.Displaced
import ComputeRuntime.Linker.Passes
import Mathlib.Data.UInt

/-! What the linker transfers to the data segments. A relocation for a part of a segment that has
no initial data is stored at its offset counted in words, not in bytes. -/
namespace ComputeRuntime.Linker

open Displaced

section Spec

variable (input : LinkerInput) (args : LinkArguments) (symbols : RelocatedSymbols)

/-- How many bytes a relocation of a data segment patches. -/
def patchWidth (relocation : RelocationInfo) : Nat :=
  addressSizeInBytes (relocationTypeOf input.pointerSize relocation)

/-- What a relocation adds to the initial value: its symbol's address and addend, or the high half
of them. -/
def patchValue (symbol : RelocatedSymbol) (relocation : RelocationInfo) : Nat :=
  let address := add64 symbol.gpuAddress (toUint64 relocation.addend)
  if relocationTypeOf input.pointerSize relocation = .addressHigh then address / 2 ^ 32
  else address

def Target.segment (target : Target) : DataSegment :=
  if target = .globalConstants then args.globalConstants else args.globalVariables

/-- The bytes of a relocation are in the part of a data segment that it is for, and in the
segment. -/
def Fits (relocation : RelocationInfo) (dst : Subsegment) : Prop :=
  relocation.offset + patchWidth input relocation ≤ dst.size ∧
    dst.base + relocation.offset + patchWidth input relocation ≤
      (dst.target.segment args).segInfo.segmentSize

instance (relocation : RelocationInfo) (dst : Subsegment) :
    Decidable (Fits input args relocation dst) := inferInstanceAs (Decidable (_ ∧ _))

/-- The symbol of a relocation has an address, and its bytes fit the part of a data segment that it
is for. -/
structure Applicable (relocation : RelocationInfo) (symbol : RelocatedSymbol)
    (dst : Subsegment) : Prop where
  relocated : symbols.lookup relocation.symbolName = some symbol
  destined : destination args relocation.relocationSegment = some dst
  fits : Fits input args relocation dst

/-- The store of an applicable relocation: it belongs at its offset in bytes. -/
def storeOf (relocation : RelocationInfo) (symbol : RelocatedSymbol) (dst : Subsegment) :
    Store UInt8 :=
  let width := patchWidth input relocation
  let own := dst.base + relocation.offset
  let initValue := LittleEndian.read (fun k => initialData (dst.target.segment args) (own + k)) width
  { own
    actual := if dst.initData = none then dst.base + width * relocation.offset else own
    size := width
    cells := LittleEndian.byte ((initValue + patchValue input symbol relocation) % 256 ^ width) }

/-- The stores into one of the data segments, in the order of the relocations. -/
def stores (target : Target) (relocations : List RelocationInfo) : List (Store UInt8) :=
  relocations.filterMap fun relocation =>
    match symbols.lookup relocation.symbolName,
      destination args relocation.relocationSegment with
    | some symbol, some dst =>
      if dst.target = target ∧ Fits input args relocation dst then
        some (storeOf input args relocation symbol dst)
      else none
    | _, _ => none

/-- The bytes transferred to a data segment: the initial data and zeros, with each relocation's
value where it belongs. -/
structure Patched (target : Target) (bytes : List UInt8) : Prop where
  length : bytes.length = (target.segment args).segInfo.segmentSize
  patched : ∀ s ∈ stores input args symbols target input.dataRelocations, ∀ k < s.size,
    bytes[s.own + k]? = some (s.cells k)
  kept : ∀ i < (target.segment args).segInfo.segmentSize,
    (∀ s ∈ stores input args symbols target input.dataRelocations, ¬ s.Owns i) →
    bytes[i]? = some (initialData (target.segment args) i)

/-- What a link is to do with the relocations of the data segments. -/
structure DataLinked (result : LinkResult) : Prop where
  constants : ∀ bytes, result.constantsTransfer = some bytes →
    Patched input args symbols .globalConstants bytes
  globalVariables : ∀ bytes, result.variablesTransfer = some bytes →
    Patched input args symbols .globalVariables bytes
  reported : ∀ relocation ∈ input.dataRelocations,
    (∀ symbol dst, ¬ Applicable input args symbols relocation symbol dst) →
    ∃ unresolved ∈ result.state.outUnresolvedExternals,
      unresolved.unresolvedRelocation = relocation

/-- No byte of a data segment is patched twice. -/
def Apart (target : Target) : Prop :=
  (stores input args symbols target input.dataRelocations).Pairwise fun s t =>
    ∀ a, s.Owns a → ¬ t.Owns a

end Spec

section Steps

variable {input : LinkerInput} {args : LinkArguments} {symbols : RelocatedSymbols}
  {relocation : RelocationInfo} {symbol : RelocatedSymbol} {dst : Subsegment}
  {data later : DataState} {target : Target}

/-- What is known about the part of a data segment that a relocation is for. -/
structure Subsegment.Valid (args : LinkArguments) (dst : Subsegment) : Prop where
  target_cases : dst.target = .globalConstants ∨ dst.target = .globalVariables
  inside : (dst.target.segment args).InitDataFits →
    dst.base + dst.size ≤ (dst.target.segment args).segInfo.segmentSize
  blank : dst.initData = none → ∀ a, dst.base ≤ a → initialData (dst.target.segment args) a = 0
  filled : ∀ bytes, dst.initData = some bytes → dst.base = 0 ∧
    ((dst.target.segment args).InitDataFits →
      ∀ a, initialData (dst.target.segment args) a = bytes.getD a 0)

theorem initialData_behind (segment : DataSegment) {a : Nat} (behind : segment.initDataSize ≤ a) :
    initialData segment a = 0 := by
  unfold initialData
  split
  next => rfl
  next =>
    cases bytes : segment.initData with
    | none => rfl
    | some bytes' =>
      have length := segment.initData_length bytes' bytes
      rw [Option.getD_some]
      exact List.getD_eq_default _ _ (by omega)

theorem destination_valid {relocationSegment : SegmentType}
    (destined : destination args relocationSegment = some dst) : dst.Valid args := by
  -- the two kinds of parts: with the initial data, and behind it
  have front (target : Target) (segment : DataSegment) (same : target.segment args = segment)
      (cases_ : target = .globalConstants ∨ target = .globalVariables) :
      Subsegment.Valid args ⟨target, 0, segment.initDataSize, segment.initData⟩ := by
    subst same
    constructor
    · exact cases_
    · intro fits
      rw [Nat.zero_add]
      exact fits
    · intro none a _
      simp only at none
      simp [initialData, none]
    · intro bytes some
      simp only at some
      refine ⟨rfl, fun fits a => ?_⟩
      rw [initialData, if_neg (Nat.not_lt.mpr fits), some, Option.getD_some]
  have behind (target : Target) (segment : DataSegment) (same : target.segment args = segment)
      (cases_ : target = .globalConstants ∨ target = .globalVariables) :
      Subsegment.Valid args ⟨target, segment.initDataSize,
        sub64 segment.segInfo.segmentSize segment.initDataSize, none⟩ := by
    subst same
    constructor
    · exact cases_
    · intro fits
      have small := (target.segment args).fits
      have size : sub64 (target.segment args).segInfo.segmentSize
          (target.segment args).initDataSize = _ := Word.sub_eq fits (by omega)
      simp only [size]
      exact Nat.le_of_eq (Nat.add_sub_of_le fits)
    · intro _ a high
      exact initialData_behind _ high
    · rintro bytes ⟨⟩
  unfold destination at destined
  cases relocationSegment with
  | globalConstants =>
    cases destined
    exact front _ _ rfl (.inl rfl)
  | globalConstantsZeroInit =>
    cases destined
    exact behind _ _ rfl (.inl rfl)
  | globalVariables =>
    cases destined
    exact front _ _ rfl (.inr rfl)
  | globalVariablesZeroInit =>
    cases destined
    exact behind _ _ rfl (.inr rfl)
  | unknown => cases destined
  | globalStrings => cases destined
  | instructions => cases destined

theorem addressSizeInBytes_cases (type : RelocationType) :
    addressSizeInBytes type = 4 ∨ addressSizeInBytes type = 8 := by
  unfold addressSizeInBytes
  split
  · exact .inr rfl
  · exact .inl rfl

/-- The check of a relocation's end passes although the end is beyond 64 bits. -/
def Wraps (input : LinkerInput) (args : LinkArguments) (symbols : RelocatedSymbols)
    (relocation : RelocationInfo) : Prop :=
  2 ^ 64 ≤ relocation.offset + patchWidth input relocation ∧
    unplaced input args symbols relocation = false

/-- The initial data of the segment that a relocation is for are larger than the segment, and the
check, which is against the initial data, lets bytes behind the segment pass. -/
def Beyond (input : LinkerInput) (args : LinkArguments) (symbols : RelocatedSymbols)
    (relocation : RelocationInfo) : Prop :=
  unplaced input args symbols relocation = false ∧
    ∃ dst, destination args relocation.relocationSegment = some dst ∧
      ¬ (dst.target.segment args).InitDataFits ∧
      (dst.target.segment args).segInfo.segmentSize <
        dst.base + relocation.offset + patchWidth input relocation

/-- The linker finds a place only for what is applicable. -/
def Applies (input : LinkerInput) (args : LinkArguments) (symbols : RelocatedSymbols)
    (relocation : RelocationInfo) : Prop :=
  unplaced input args symbols relocation = false →
    ∃ symbol dst, Applicable input args symbols relocation symbol dst

theorem Applicable.placed (applicable : Applicable input args symbols relocation symbol dst) :
    unplaced input args symbols relocation = false := by
  obtain ⟨found, destined, fits, inside⟩ := applicable
  have small := (dst.target.segment args).fits
  have sum : add64 relocation.offset (addressSizeInBytes
      (relocationTypeOf input.pointerSize relocation)) =
      relocation.offset + patchWidth input relocation :=
    Word.add_eq (by unfold patchWidth at inside; omega)
  simp only [unplaced, found, destined, sum, decide_eq_false_iff_not]
  omega

/-- A relocation that finds no place is not applicable, and the other way round. -/
theorem Applies.placed_iff (applies : Applies input args symbols relocation) :
    unplaced input args symbols relocation = false ↔
      ∃ symbol dst, Applicable input args symbols relocation symbol dst :=
  ⟨applies, fun ⟨_, _, applicable⟩ => applicable.placed⟩

theorem Applies.missing (applies : Applies input args symbols relocation) :
    unplaced input args symbols relocation = true ↔
      ∀ symbol dst, ¬ Applicable input args symbols relocation symbol dst := by
  rw [← Bool.not_eq_false, applies.placed_iff]
  simp only [not_exists]

/-- What is checked is applicable unless the end wraps around or the initial data are too large. -/
theorem applies_iff : Applies input args symbols relocation ↔
    ¬ Wraps input args symbols relocation ∧ ¬ Beyond input args symbols relocation := by
  constructor
  · intro applies
    constructor
    · rintro ⟨wraps, placed⟩
      obtain ⟨symbol, dst, _, _, _, inside⟩ := applies placed
      have small := (dst.target.segment args).fits
      omega
    · rintro ⟨placed, dst, destined, _, outside⟩
      obtain ⟨symbol, dst', _, destined', _, inside⟩ := applies placed
      obtain rfl := Option.some.inj (destined.symm.trans destined')
      omega
  · rintro ⟨straight, within⟩ placed
    have noWrap : relocation.offset + patchWidth input relocation < 2 ^ 64 := by
      by_contra wraps
      exact straight ⟨by omega, placed⟩
    have checked := placed
    unfold unplaced at checked
    split at checked
    next symbol dst found destined =>
      have sum : add64 relocation.offset (addressSizeInBytes
          (relocationTypeOf input.pointerSize relocation)) =
          relocation.offset + patchWidth input relocation := Word.add_eq noWrap
      rw [sum, decide_eq_false_iff_not, Nat.not_lt] at checked
      refine ⟨symbol, dst, found, destined, checked, ?_⟩
      by_contra outside
      by_cases fits : (dst.target.segment args).InitDataFits
      · have room := (destination_valid destined).inside fits
        omega
      · exact within ⟨placed, dst, destined, fits, by omega⟩
    next => cases checked

theorem initDataFits_segment (initDataFits : args.InitDataFits) (target : Target) :
    (target.segment args).InitDataFits := by
  unfold Target.segment
  split
  · exact initDataFits.1
  · exact initDataFits.2

theorem applies_of_initDataFits (initDataFits : args.InitDataFits)
    (straight : ¬ Wraps input args symbols relocation) :
    Applies input args symbols relocation :=
  applies_iff.mpr ⟨straight, fun ⟨_, dst, _, large, _⟩ =>
    large (initDataFits_segment initDataFits dst.target)⟩

def DataState.bytes (data : DataState) (target : Target) : Nat → UInt8 :=
  if target = .globalConstants then data.constantsData else data.variablesData

/-- The increment of `patchIncrement` is the relocation's value, up to the width. -/
theorem patchIncrement_store (data : DataState) (valid : dst.Valid args)
    (fits : Fits input args relocation dst) {increment : Nat}
    (same : increment % 256 ^ patchWidth input relocation =
      patchValue input symbol relocation % 256 ^ patchWidth input relocation) :
    let s := storeOf input args relocation symbol dst
    ∃ value, patchIncrement data dst (patchWidth input relocation) relocation.offset increment =
      data.store dst.target s.actual s.size value ∧
      ((dst.target.segment args).InitDataFits → s.cells = LittleEndian.byte value) := by
  intro s
  obtain ⟨_, room⟩ := fits
  have small := (dst.target.segment args).fits
  have widths := addressSizeInBytes_cases (relocationTypeOf input.pointerSize relocation)
  have width : patchWidth input relocation ≤ 8 := by unfold patchWidth; omega
  unfold patchIncrement
  cases init : dst.initData with
  | none =>
    have product : mul64 (patchWidth input relocation) relocation.offset =
        patchWidth input relocation * relocation.offset := by
      apply Word.mul_eq
      have := Nat.mul_le_mul width (Nat.le_refl relocation.offset)
      omega
    have sum : add64 dst.base (patchWidth input relocation * relocation.offset) =
        dst.base + patchWidth input relocation * relocation.offset := by
      apply Word.add_eq
      have := Nat.mul_le_mul width (Nat.le_refl relocation.offset)
      omega
    have zeros : LittleEndian.read (fun k => initialData (dst.target.segment args)
        (dst.base + relocation.offset + k)) (patchWidth input relocation) = 0 := by
      have none : LittleEndian.read (fun k => initialData (dst.target.segment args)
          (dst.base + relocation.offset + k)) (patchWidth input relocation) =
          LittleEndian.read (LittleEndian.byte 0) (patchWidth input relocation) := by
        apply LittleEndian.read_congr
        intro k _
        rw [valid.blank init _ (by omega), LittleEndian.byte, Nat.zero_div]
        rfl
      rw [none, LittleEndian.read_byte, Nat.zero_mod]
    refine ⟨increment % 256 ^ patchWidth input relocation, ?_, ?_⟩
    · simp only [s, storeOf, init, if_true, product, sum]
    · intro _
      simp only [s, storeOf, zeros, Nat.zero_add, same]
  | some bytes =>
    obtain ⟨front, filled⟩ := valid.filled bytes init
    have sum : add64 dst.base relocation.offset = dst.base + relocation.offset :=
      Word.add_eq (by omega)
    refine ⟨_, by simp only [s, storeOf, init, reduceCtorEq, if_false, sum]; rfl, fun fits => ?_⟩
    simp only [s, storeOf]
    rw [Nat.add_mod, ← same, ← Nat.add_mod]
    simp only [filled fits, front, Nat.zero_add]

/-- The stores of one relocation. -/
theorem stores_singleton (found : symbols.lookup relocation.symbolName = some symbol)
    (destined : destination args relocation.relocationSegment = some dst) :
    stores input args symbols target [relocation] =
      if dst.target = target ∧ Fits input args relocation dst then
        [storeOf input args relocation symbol dst]
      else [] := by
  simp only [stores, List.filterMap_cons, List.filterMap_nil, found, destined]
  split <;> simp_all

theorem stores_unplaced (unplaced_ : ∀ symbol dst, ¬ Applicable input args symbols relocation
    symbol dst) : stores input args symbols target [relocation] = [] := by
  simp only [stores, List.filterMap_cons, List.filterMap_nil]
  split
  next => rfl
  next s here =>
    split at here
    next symbol dst found destined =>
      split at here
      next fits => exact absurd ⟨found, destined, fits.2⟩ (unplaced_ symbol dst)
      next => cases here
    next => cases here

theorem DataState.store_bytes (kind : target = .globalConstants ∨ target = .globalVariables)
    (valid : dst.Valid args) (s : Store UInt8) {value : Nat}
    (cells : s.cells = LittleEndian.byte value) :
    (data.store dst.target s.actual s.size value).bytes target =
      if dst.target = target then s.run (data.bytes target) else data.bytes target := by
  rcases kind with rfl | rfl <;> rcases valid.target_cases with same | same <;>
    simp [DataState.bytes, DataState.store, same, Store.run, cells]

/-- Whatever the type of a relocation is, its round is one increment. -/
theorem patchData_increment (found : symbols.lookup relocation.symbolName = some symbol)
    (destined : destination args relocation.relocationSegment = some dst)
    (placed : unplaced input args symbols relocation = false)
    (ran : patchData input args symbols data relocation = .ok later) :
    ∃ increment, increment % 256 ^ patchWidth input relocation =
        patchValue input symbol relocation % 256 ^ patchWidth input relocation ∧
      later = patchIncrement { data with isAnyRelocationPerformed := true } dst
        (patchWidth input relocation) relocation.offset increment := by
  unfold unplaced at placed
  rw [found, destined] at placed
  simp only [decide_eq_false_iff_not] at placed
  unfold patchData at ran
  simp only [found, destined, placed, if_false] at ran
  split at ran
  next type =>
    cases ran
    have width : patchWidth input relocation = 8 := by rw [patchWidth, type]; rfl
    refine ⟨_, ?_, by rw [width]⟩
    rw [patchValue, type, if_neg (by decide)]
  next type =>
    cases ran
    have width : patchWidth input relocation = 4 := by rw [patchWidth, type]; rfl
    refine ⟨_, ?_, by rw [width]⟩
    rw [patchValue, type, if_neg (by decide), width]
    exact Nat.mod_mod _ _
  next type =>
    cases ran
    have width : patchWidth input relocation = 4 := by rw [patchWidth, type]; rfl
    refine ⟨_, ?_, by rw [width]⟩
    rw [patchValue, type, if_pos rfl, width]
    exact Nat.mod_mod _ _
  next => cases ran

/-- A relocation without a place is only noted. -/
theorem patchData_unplaced (unplaced_ : unplaced input args symbols relocation = true)
    (ran : patchData input args symbols data relocation = .ok later) :
    later = { data with state := data.state.unresolved (dataUnresolved relocation) } := by
  unfold unplaced at unplaced_
  unfold patchData at ran
  simp only at ran
  split at ran
  next =>
    cases ran
    rfl
  next =>
    cases ran
    rfl
  next found destined =>
    simp only [found, destined, decide_eq_true_eq] at unplaced_
    rw [if_pos unplaced_] at ran
    cases ran
    rfl

/-- One round of the loop makes the stores of its relocation. -/
theorem patchData_bytes (kind : target = .globalConstants ∨ target = .globalVariables)
    (initDataFits : args.InitDataFits) (straight : ¬ Wraps input args symbols relocation)
    (ran : patchData input args symbols data relocation = .ok later) :
    later.bytes target =
      runAll (stores input args symbols target [relocation]) (data.bytes target) ∧
    later.isAnyRelocationPerformed =
      (data.isAnyRelocationPerformed || !unplaced input args symbols relocation) := by
  have applies := applies_of_initDataFits initDataFits straight
  by_cases placed : unplaced input args symbols relocation = false
  · obtain ⟨symbol, dst, found, destined, fits⟩ := applies placed
    have valid := destination_valid destined
    obtain ⟨increment, same, patched⟩ := patchData_increment found destined placed ran
    obtain ⟨value, stored, cells⟩ := patchIncrement_store
      { data with isAnyRelocationPerformed := true } valid fits same
    rw [placed, Bool.not_false, Bool.or_true, patched, stored, stores_singleton found destined,
      DataState.store_bytes kind valid _ (cells (initDataFits_segment initDataFits _))]
    constructor
    · by_cases here : dst.target = target
      · rw [if_pos here, if_pos ⟨here, fits⟩]
        rfl
      · rw [if_neg here, if_neg fun both => here both.1]
        rfl
    · rfl
  · have unplaced_ : unplaced input args symbols relocation = true := by simpa using placed
    rw [patchData_unplaced unplaced_ ran, stores_unplaced (applies.missing.mp unplaced_), unplaced_, Bool.not_true,
      Bool.or_false]
    exact ⟨rfl, rfl⟩

theorem stores_append (first second : List RelocationInfo) :
    stores input args symbols target (first ++ second) =
      stores input args symbols target first ++ stores input args symbols target second :=
  List.filterMap_append ..

/-- What the loop over the data relocations leaves in a segment's copy. -/
theorem patchDataSegments_bytes {state : State}
    (kind : target = .globalConstants ∨ target = .globalVariables) (initDataFits : args.InitDataFits)
    (straight : ∀ relocation ∈ input.dataRelocations, ¬ Wraps input args symbols relocation)
    (ran : patchDataSegments input args symbols state = .ok later) :
    later.bytes target = runAll (stores input args symbols target input.dataRelocations)
      (initialData (target.segment args)) ∧
    later.isAnyRelocationPerformed =
      input.dataRelocations.any fun relocation => !unplaced input args symbols relocation := by
  apply Outcome.of_ok (Outcome.foldlM (Q := fun _ => True) (P := fun done current =>
    current.bytes target = runAll (stores input args symbols target done)
      (initialData (target.segment args)) ∧
    current.isAnyRelocationPerformed =
      done.any fun relocation => !unplaced input args symbols relocation) ?_ ?_) ran
  · constructor
    · rcases kind with rfl | rfl <;> rfl
    · rfl
  · rintro done relocation current inside ⟨bytes, performed⟩
    cases step : patchData input args symbols current relocation with
    | error => trivial
    | ok next =>
      have member : relocation ∈ input.dataRelocations := inside.subset (by simp)
      obtain ⟨stepBytes, stepPerformed⟩ := patchData_bytes kind initDataFits
        (straight relocation member) step
      constructor
      · rw [stepBytes, bytes, stores_append, runAll, runAll, runAll, List.foldl_append]
      · rw [stepPerformed, performed, List.any_append]
        simp

end Steps

section Link

variable {input : LinkerInput} {args : LinkArguments} {symbols : RelocatedSymbols}
  {target : Target} {resolveExternalFunctions : Bool} {kernelDescriptors : List KernelDescriptor}
  {instructions : Nat → Nat → UInt8} {result : LinkResult}

theorem mem_stores {s : Store UInt8} {relocations : List RelocationInfo} :
    s ∈ stores input args symbols target relocations ↔ ∃ relocation ∈ relocations, ∃ symbol dst,
      Applicable input args symbols relocation symbol dst ∧ dst.target = target ∧
      s = storeOf input args relocation symbol dst := by
  rw [stores, List.mem_filterMap]
  constructor
  · rintro ⟨relocation, member, here⟩
    split at here
    next symbol dst found destined =>
      split at here
      next fits =>
        cases here
        exact ⟨relocation, member, symbol, dst, ⟨found, destined, fits.2⟩, fits.1, rfl⟩
      next => cases here
    next => cases here
  · rintro ⟨relocation, member, symbol, dst, ⟨found, destined, fits⟩, here, rfl⟩
    refine ⟨relocation, member, ?_⟩
    simp only [found, destined]
    rw [if_pos ⟨here, fits⟩]

/-- The stores of a link satisfy what the library asks for. -/
theorem stores_placed (apart : Apart input args symbols target) :
    Placed (stores input args symbols target input.dataRelocations)
      (initialData (target.segment args)) where
  disjoint := apart
  upward := by
    intro s member
    obtain ⟨relocation, _, symbol, dst, _, _, rfl⟩ := mem_stores.mp member
    have widths := addressSizeInBytes_cases (relocationTypeOf input.pointerSize relocation)
    have scaled : relocation.offset ≤ patchWidth input relocation * relocation.offset :=
      Nat.le_mul_of_pos_left _ (by unfold patchWidth; omega)
    simp only [storeOf]
    split <;> omega
  blank := by
    intro s member displaced a touched
    obtain ⟨relocation, _, symbol, dst, applicable, here, rfl⟩ := mem_stores.mp member
    have blank : dst.initData = none := by
      by_contra filled
      simp [storeOf, filled] at displaced
    have high : dst.base ≤ a := by
      simp only [Store.Owns, Store.Hits, storeOf, blank, if_true] at touched
      omega
    have zero := (destination_valid applicable.destined).blank blank a high
    rw [here] at zero
    exact zero

/-- When a link does with the data relocations what it is to do: no end of a relocation wraps
around, what is stored out of place stores zeros over zeros, and no relocation that is not
applied has a builtin's name. -/
structure DataSound (input : LinkerInput) (args : LinkArguments) (symbols : RelocatedSymbols)
    (kernelNames : List (List UInt8)) : Prop where
  straight : ∀ relocation ∈ input.dataRelocations, ¬ Wraps input args symbols relocation
  harmless : ∀ target, target = .globalConstants ∨ target = .globalVariables →
    (target.segment args).allocated = true →
    Harmless (stores input args symbols target input.dataRelocations)
  named : ∀ relocation ∈ input.dataRelocations,
    (∀ symbol dst, ¬ Applicable input args symbols relocation symbol dst) →
    ¬ Builtin kernelNames relocation

/-- The transfer to one of the two segments. -/
def LinkResult.transfer (result : LinkResult) (target : Target) : Option (List UInt8) :=
  if target = .globalConstants then result.constantsTransfer else result.variablesTransfer

theorem Passes.transfer {state : State} (passes : Passes input args symbols state result)
    (kind : target = .globalConstants ∨ target = .globalVariables) :
    LinkResult.transfer result target = transferred (target.segment args)
      (passes.data.bytes target) passes.data.isAnyRelocationPerformed := by
  rcases kind with rfl | rfl
  · exact passes.constants
  · exact passes.globalVariables

theorem transferred_eq_some {segment : DataSegment} {data : Nat → UInt8} {performed : Bool}
    {bytes : List UInt8} (some : transferred segment data performed = some bytes) :
    bytes.length = segment.segInfo.segmentSize ∧
      ∀ i < segment.segInfo.segmentSize, bytes[i]? = Option.some (data i) := by
  unfold transferred at some
  split at some
  next =>
    cases some
    constructor
    · simp
    · intro i inside
      simp [inside]
  next => cases some

/-- A store's own bytes are in its segment. -/
theorem stores_inside {s : Store UInt8}
    (member : s ∈ stores input args symbols target input.dataRelocations) {k : Nat}
    (inside : k < s.size) : s.own + k < (target.segment args).segInfo.segmentSize := by
  obtain ⟨relocation, _, symbol, dst, applicable, here, rfl⟩ := mem_stores.mp member
  have room := applicable.fits.2
  rw [here] at room
  simp only [storeOf] at inside ⊢
  omega

theorem DataSound.patched (initDataFits : args.InitDataFits) (sound : DataSound input args symbols
      (kernelDescriptors.map KernelDescriptor.kernelName))
    (passes : Passes input args symbols (.start kernelDescriptors instructions) result)
    (kind : target = .globalConstants ∨ target = .globalVariables)
    (apart : Apart input args symbols target) {bytes : List UInt8}
    (sent : LinkResult.transfer result target = some bytes) :
    Patched input args symbols target bytes := by
  obtain ⟨final, _⟩ := patchDataSegments_bytes kind initDataFits sound.straight passes.dataRan
  rw [passes.transfer kind, final] at sent
  obtain ⟨length, same⟩ := transferred_eq_some sent
  have allocated : (target.segment args).allocated = true := by
    unfold transferred at sent
    split at sent
    next both => exact both.2
    next => cases sent
  have intended := (stores_placed apart).asIntended (sound.harmless target kind allocated)
  constructor
  · exact length
  · intro s member k inside
    rw [same _ (stores_inside member inside), intended.stored s member k inside]
  · intro i inside unowned
    rw [same i inside, intended.kept i unowned]

theorem DataSound.reported (initDataFits : args.InitDataFits) (sound : DataSound input args symbols
      (kernelDescriptors.map KernelDescriptor.kernelName))
    (passes : Passes input args symbols (.start kernelDescriptors instructions) result)
    {relocation : RelocationInfo} (member : relocation ∈ input.dataRelocations)
    (missing : ∀ symbol dst, ¬ Applicable input args symbols relocation symbol dst) :
    ∃ unresolved ∈ result.state.outUnresolvedExternals,
      unresolved.unresolvedRelocation = relocation := by
  have applies := applies_of_initDataFits initDataFits (sound.straight relocation member)
  have unplaced_ := applies.missing.mpr missing
  refine ⟨dataUnresolved relocation, ?_, rfl⟩
  apply passes.reported.stays
  · apply List.mem_append_right
    exact List.mem_map.mpr ⟨relocation, List.mem_filter.mpr ⟨member, unplaced_⟩, rfl⟩
  · exact sound.named relocation member missing

/-- An entry for a relocation of a data segment comes from the data pass. -/
theorem Reported.unplaced {kernelNames : List (List UInt8)} {reported : List UnresolvedExternal}
    (report : Reported input args symbols kernelNames reported) {entry : UnresolvedExternal}
    (member : entry ∈ reported)
    (data : entry.unresolvedRelocation.relocationSegment ≠ .instructions) :
    Linker.unplaced input args symbols entry.unresolvedRelocation = true := by
  rcases List.mem_append.mp (report.old entry member) with text | own
  · obtain ⟨⟨relocations, segId⟩, segment, inside⟩ := List.mem_flatMap.mp text
    unfold unresolvedOfSegment at inside
    split at inside
    next => cases inside
    next found =>
      obtain ⟨relocation, relocationMember, entryEq⟩ := List.mem_filterMap.mp inside
      have same : entry.unresolvedRelocation = relocation := by
        unfold unresolvedInstruction at entryEq
        split at entryEq
        · cases entryEq
          rfl
        · split at entryEq
          · cases entryEq
          · cases entryEq
            rfl
      rw [same] at data
      exact absurd (input.kinds relocations (List.fst_mem_of_mem_zipIdx segment) relocation
        relocationMember) data
  · obtain ⟨relocation, kept, rfl⟩ := List.mem_map.mp own
    exact (List.mem_filter.mp kept).2

/-- If every relocation that is not applicable is reported, only what is applicable finds a place. -/
theorem applies_of_reported
    (passes : Passes input args symbols (.start kernelDescriptors instructions) result)
    (reported : ∀ relocation ∈ input.dataRelocations,
      (∀ symbol dst, ¬ Applicable input args symbols relocation symbol dst) →
      ∃ unresolved ∈ result.state.outUnresolvedExternals,
        unresolved.unresolvedRelocation = relocation) :
    ∀ relocation ∈ input.dataRelocations, Applies input args symbols relocation := by
  intro relocation member placed
  by_contra missing
  simp only [not_exists] at missing
  obtain ⟨entry, entryMember, rfl⟩ := reported relocation member missing
  have data : entry.unresolvedRelocation.relocationSegment ≠ .instructions := by
    intro same
    have kind := input.dataKinds _ member
    rw [same] at kind
    cases kind
  rw [passes.reported.unplaced entryMember data] at placed
  cases placed

theorem DataLinked.sound (linked : DataLinked input args symbols result)
    (passes : Passes input args symbols (.start kernelDescriptors instructions) result)
    (initDataFits : args.InitDataFits) (few : relocationCount input < 2 ^ 31)
    (apart : ∀ target, target = .globalConstants ∨ target = .globalVariables →
      Apart input args symbols target) :
    DataSound input args symbols (kernelDescriptors.map KernelDescriptor.kernelName) := by
  have applies := applies_of_reported passes linked.reported
  have straight : ∀ relocation ∈ input.dataRelocations, ¬ Wraps input args symbols relocation :=
    fun relocation member => (applies_iff.mp (applies relocation member)).1
  refine ⟨straight, ?_, ?_⟩
  · intro target kind allocated
    obtain ⟨final, performed⟩ := patchDataSegments_bytes kind initDataFits straight passes.dataRan
    cases any : passes.data.isAnyRelocationPerformed with
    | false =>
      -- nothing was applied, so there is no store
      have empty : stores input args symbols target input.dataRelocations = [] := by
        rw [List.eq_nil_iff_forall_not_mem]
        intro s member
        obtain ⟨relocation, inside, symbol, dst, applicable, _, _⟩ := mem_stores.mp member
        have placed := applicable.placed
        rw [any] at performed
        have unplaced_ := List.any_eq_false.mp performed.symm relocation inside
        simp [placed] at unplaced_
      rw [empty]
      intro before s after split
      simp at split
    | true =>
      have sent : LinkResult.transfer result target = some ((List.range
          (target.segment args).segInfo.segmentSize).map (passes.data.bytes target)) := by
        rw [passes.transfer kind, transferred, if_pos ⟨any, allocated⟩]
      have patched : Patched input args symbols target ((List.range
          (target.segment args).segInfo.segmentSize).map (passes.data.bytes target)) := by
        rcases kind with rfl | rfl
        · exact linked.constants _ sent
        · exact linked.globalVariables _ sent
      apply (stores_placed (apart target kind)).harmless
      intro s member k inside
      have here := patched.patched s member k inside
      have bound := stores_inside member inside
      rw [final] at here
      simpa [bound] using here
  · intro relocation member missing builtin
    obtain ⟨entry, reported, rfl⟩ := linked.reported relocation member missing
    exact passes.reported.gone few entry reported builtin

/-- A link that does not fail transfers the initial data with every relocation in its place and
reports the others when the data relocations are sound, and only then. -/
theorem link_data (ran : link input args resolveExternalFunctions
      (.start kernelDescriptors instructions) = .ok result)
    (linked : result.status ≠ .error) (relocated : relocateSymbols input args = some symbols)
    (initDataFits : args.InitDataFits)
    (apart : ∀ target, target = .globalConstants ∨ target = .globalVariables →
      Apart input args symbols target) :
    (DataSound input args symbols (kernelDescriptors.map KernelDescriptor.kernelName) →
      DataLinked input args symbols result) ∧
    (relocationCount input < 2 ^ 31 → DataLinked input args symbols result →
      DataSound input args symbols (kernelDescriptors.map KernelDescriptor.kernelName)) := by
  obtain ⟨found, same, ⟨passes⟩⟩ := link_passes ran linked
  obtain rfl := Option.some.inj (same.symm.trans relocated)
  constructor
  · intro sound
    constructor
    · intro bytes sent
      exact sound.patched initDataFits passes (.inl rfl) (apart _ (.inl rfl)) sent
    · intro bytes sent
      exact sound.patched initDataFits passes (.inr rfl) (apart _ (.inr rfl)) sent
    · intro relocation member missing
      exact sound.reported initDataFits passes member missing
  · intro few dataLinked
    exact dataLinked.sound passes initDataFits few apart

/-- A module with one constant of 8 bytes, and a pointer to it among the constants without
initial data. -/
def pointerInput (offset : Nat) : LinkerInput where
  pointerSize := .ptr64bit
  requiresPatchingOfInstructionSegments := false
  symbols := [([115], ⟨0, 8, .globalConstants, 0, true⟩)]
  textRelocations := []
  dataRelocations := [⟨[115], offset, .address, .globalConstantsZeroInit, [], 0⟩]
  valid := true
  symbols_nodup := by decide
  requires := fun some => absurd rfl some
  numbered := by decide
  kinds := by simp
  dataKinds := by simp [isDataSegment]

def emptySegment : DataSegment where
  segInfo := ⟨0, 0⟩
  allocated := false
  initData := none
  initDataSize := 0
  initData_length := by simp
  fits := Nat.zero_le _

def pointerArguments : LinkArguments where
  globalVariables := emptySegment
  globalConstants :=
    { segInfo := ⟨65536, 136⟩
      allocated := true
      initData := some [1, 2, 3, 4, 5, 6, 7, 8]
      initDataSize := 8
      initData_length := by simp
      fits := by decide }
  exportedFunctions := ⟨0, 0⟩
  globalStrings := ⟨0, 0⟩
  instructionsSegments := []
  device := ⟨0, false, 0, false⟩
  userModule := true

def pointerSymbols : RelocatedSymbols := [([115], ⟨⟨0, 8, .globalConstants, 0, true⟩, 65536⟩)]

theorem pointerInput_relocated (offset : Nat) :
    relocateSymbols (pointerInput offset) pointerArguments = some pointerSymbols := by
  rfl

/-- The link of a module without kernels returns and does not fail. -/
def Links (input : LinkerInput) (args : LinkArguments) : Bool :=
  match link input args true (.start [] fun _ _ => 0) with
  | .ok result => result.status != .error
  | .error _ => false

theorem links_returns (input : LinkerInput) (args : LinkArguments)
    (links : Links input args = true) : ∃ result,
    link input args true (.start [] fun _ _ => 0) = .ok result ∧ result.status ≠ .error := by
  unfold Links at links
  split at links
  next result ran => exact ⟨result, ran, by simpa using links⟩
  next => cases links

theorem pointerInput_apart (offset : Nat) (target : Target) :
    Apart (pointerInput offset) pointerArguments pointerSymbols target := by
  have few : (stores (pointerInput offset) pointerArguments pointerSymbols target
      (pointerInput offset).dataRelocations).length ≤ 1 := List.length_filterMap_le ..
  unfold Apart
  match stores (pointerInput offset) pointerArguments pointerSymbols target
      (pointerInput offset).dataRelocations, few with
  | [], _ => exact List.Pairwise.nil
  | [_], _ => exact List.pairwise_singleton ..

theorem pointerInput_applicable (offset : Nat) (fits : offset + 8 ≤ 128) :
    Applicable (pointerInput offset) pointerArguments pointerSymbols
      ⟨[115], offset, .address, .globalConstantsZeroInit, [], 0⟩
      ⟨⟨0, 8, .globalConstants, 0, true⟩, 65536⟩ ⟨.globalConstants, 8, 128, none⟩ :=
  ⟨rfl, rfl, fits, show 8 + offset + 8 ≤ 136 by omega⟩

theorem pointerArguments_initDataFits : pointerArguments.InitDataFits := by
  constructor
  · exact show 8 ≤ 136 by decide
  · exact Nat.le_refl 0

theorem link_data_firstWord : ∃ result,
    link (pointerInput 0) pointerArguments true (.start [] fun _ _ => 0) = .ok result ∧
      DataLinked (pointerInput 0) pointerArguments pointerSymbols result := by
  obtain ⟨result, ran, linked⟩ :=
    links_returns (pointerInput 0) pointerArguments (by decide +kernel)
  have sound : DataSound (pointerInput 0) pointerArguments pointerSymbols [] := by
    constructor
    · intro relocation member
      obtain rfl := List.mem_singleton.mp member
      rintro ⟨wraps, _⟩
      exact absurd wraps (by decide)
    · intro target _ _ before s after split displaced
      obtain ⟨relocation, member, symbol, dst, applicable, _, rfl⟩ :=
        mem_stores.mp (split ▸ List.mem_append_right before (List.mem_cons_self ..))
      obtain rfl := List.mem_singleton.mp member
      cases applicable.destined
      exact absurd displaced (by simp [storeOf])
    · intro relocation member missing
      obtain rfl := List.mem_singleton.mp member
      exact absurd (pointerInput_applicable 0 (by decide)) (missing _ _)
  refine ⟨result, ran, ?_⟩
  exact (link_data ran linked (pointerInput_relocated 0) pointerArguments_initDataFits
    fun target _ => pointerInput_apart 0 target).1 sound

/-- A pointer behind the first word is not transferred where it belongs. -/
theorem secondWord_is_missed : ¬ ∀ input args resolveExternalFunctions kernelDescriptors
    instructions result symbols,
    link input args resolveExternalFunctions (.start kernelDescriptors instructions) =
      .ok result → result.status ≠ .error → relocateSymbols input args = some symbols →
    args.InitDataFits → (∀ target, target = .globalConstants ∨ target = .globalVariables →
      Apart input args symbols target) → DataLinked input args symbols result := by
  intro meets
  obtain ⟨result, ran, linked⟩ :=
    links_returns (pointerInput 8) pointerArguments (by decide +kernel)
  have dataLinked := meets _ _ _ _ _ _ _ ran linked (pointerInput_relocated 8)
    pointerArguments_initDataFits fun target _ => pointerInput_apart 8 target
  obtain ⟨found, same, ⟨passes⟩⟩ := link_passes ran linked
  obtain rfl := Option.some.inj (same.symm.trans (pointerInput_relocated 8))
  obtain ⟨_, harmless, _⟩ := dataLinked.sound passes pointerArguments_initDataFits
    (by decide)
    fun target _ => pointerInput_apart 8 target
  have member := mem_stores.mpr ⟨_, List.mem_singleton_self _, _, _,
    pointerInput_applicable 8 (by decide), rfl, rfl⟩
  obtain ⟨before, after, split⟩ := List.append_of_mem member
  have zeros := (harmless .globalConstants (.inl rfl) rfl before _ after split (by decide)).1
  exact absurd (zeros 2 (by decide)) (by decide)

end Link

end ComputeRuntime.Linker
