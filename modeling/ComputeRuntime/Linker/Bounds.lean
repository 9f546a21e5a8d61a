import ComputeRuntime.Linker.DataSegments

/-! Where the linker stores. Its checks add 64-bit numbers of the file without a care for the
carry, and the pass over the builtins stores at offsets that an earlier pass rejected. -/
namespace ComputeRuntime.Linker

section Spec

variable (input : LinkerInput) (args : LinkArguments) (symbols : RelocatedSymbols)

/-- An access is to an element that exists, or inside the segment. -/
def Access.Inside : Access → Prop
  | .segment index => index < args.instructionsSegments.length
  | .store (.instructions segmentId) offset size => ∃ segment,
      args.instructionsSegments[segmentId]? = some segment ∧ offset + size ≤ segment.segmentSize
  | .store target offset size => offset + size ≤ (target.segment args).segInfo.segmentSize

/-- What a link accessed, whether it returned or not. -/
def accessesOf : Linking LinkResult → List Access
  | .ok result => result.state.accesses
  | .error stopped => stopped.2

/-- How many bytes a type patches in an instruction. -/
def instructionWidth (type : RelocationType) : Nat := (storeWidth type).getD 4

/-- An instruction relocation's bytes are in its segment. -/
def FitsInstruction (segment : PatchableSegment) (relocation : RelocationInfo) : Prop :=
  relocation.offset + instructionWidth relocation.type ≤ segment.segmentSize

/-- A relocation of an instruction segment. -/
structure TextRelocation (segId : Nat) (segment : PatchableSegment)
    (relocation : RelocationInfo) : Prop where
  found : args.instructionsSegments[segId]? = some segment
  member : ∃ relocations, input.textRelocations[segId]? = some relocations ∧
    relocation ∈ relocations

/-- An instruction relocation can be applied: its bytes are in its segment, and its value is
known, or known to the pass over the builtins. -/
def ApplicableInstruction (kernelNames : List (List UInt8)) (segment : PatchableSegment)
    (relocation : RelocationInfo) : Prop :=
  FitsInstruction segment relocation ∧
    (Resolvable symbols relocation ∨ Builtin kernelNames relocation)

/-- The relocations that cannot be applied are reported. -/
structure UnfitReported (kernelNames : List (List UInt8))
    (unresolved : List UnresolvedExternal) : Prop where
  text : ∀ segId segment relocation, TextRelocation input args segId segment relocation →
    ¬ ApplicableInstruction symbols kernelNames segment relocation → ∃ entry ∈ unresolved,
      entry.unresolvedRelocation = relocation ∧ entry.instructionsSegmentId = segId
  data : ∀ relocation ∈ input.dataRelocations,
    (∀ symbol dst, ¬ Applicable input args symbols relocation symbol dst) →
    ∃ entry ∈ unresolved, entry.unresolvedRelocation = relocation

/-- When a link stays inside its segments: no end of a relocation that is applied wraps around, none
is for initial data that the segment has no room for, no relocation that cannot be applied has a
builtin's name, and the data stores out of place are still in the segment. -/
structure BoundsSound (kernelNames : List (List UInt8)) : Prop where
  textStraight : ∀ segId segment relocation, TextRelocation input args segId segment relocation →
    2 ^ 64 ≤ relocation.offset + addressSizeInBytes relocation.type →
    unresolvedInstruction symbols segId segment relocation ≠ none
  textNamed : ∀ segId segment relocation, TextRelocation input args segId segment relocation →
    ¬ FitsInstruction segment relocation → ¬ Builtin kernelNames relocation
  dataStraight : ∀ relocation ∈ input.dataRelocations, ¬ Wraps input args symbols relocation
  dataWithin : ∀ relocation ∈ input.dataRelocations, ¬ Beyond input args symbols relocation
  dataNamed : ∀ relocation ∈ input.dataRelocations,
    (∀ symbol dst, ¬ Applicable input args symbols relocation symbol dst) →
    ¬ Builtin kernelNames relocation
  dataStores : ∀ target, target = .globalConstants ∨ target = .globalVariables →
    ∀ s ∈ stores input args symbols target input.dataRelocations,
      s.actual + s.size ≤ (target.segment args).segInfo.segmentSize

end Spec

section Instructions

variable {input : LinkerInput} {args : LinkArguments} {symbols : RelocatedSymbols}
  {kernelNames : List (List UInt8)} {segId : Nat} {segment : PatchableSegment}
  {state after : State} {relocation : RelocationInfo}

/-- What the passes over the instructions keep: the accesses are inside, and what is put off for
the implicit arguments fits. -/
structure Bounded (args : LinkArguments) (state : State) : Prop where
  accesses : ∀ access ∈ state.accesses, access.Inside args
  implicit : ∀ entry ∈ state.pImplicitArgsRelocationAddresses, ∃ segment,
    args.instructionsSegments[entry.1]? = some segment ∧
      entry.2.1 + addressSizeInBytes entry.2.2 ≤ segment.segmentSize

/-- What is known of the accesses when a pass fails. -/
def StoppedInside (args : LinkArguments) (stopped : Abort × List Access) : Prop :=
  ∀ access ∈ stopped.2, access.Inside args

theorem Bounded.access (bounded : Bounded args state) {access : Access}
    (inside : access.Inside args) : Bounded args (state.access access) where
  accesses := by
    intro other member
    rcases List.mem_append.mp member with old | new
    · exact bounded.accesses other old
    · exact List.mem_singleton.mp new ▸ inside
  implicit := bounded.implicit

theorem Bounded.store (bounded : Bounded args state)
    (found : args.instructionsSegments[segId]? = some segment) {offset size : Nat}
    (inside : offset + size ≤ segment.segmentSize) (value : Nat) :
    Bounded args (state.store segId offset size value) :=
  have stored : Access.Inside args (.store (.instructions segId) offset size) :=
    ⟨segment, found, inside⟩
  ⟨(bounded.access stored).accesses, bounded.implicit⟩

theorem Bounded.fail (bounded : Bounded args state) (abort : Abort) :
    Outcome.Holds (Bounded args) (StoppedInside args) (state.fail abort) :=
  bounded.accesses

theorem storeWidth_le {type : RelocationType} {size : Nat} (width : storeWidth type = some size) :
    size = instructionWidth type ∧ size ≤ addressSizeInBytes type := by
  constructor
  · simp [instructionWidth, width]
  · cases type <;> cases width <;> decide

theorem Bounded.patchAddress (bounded : Bounded args state)
    (found : args.instructionsSegments[segId]? = some segment)
    (fits : FitsInstruction segment relocation) (value : Nat) :
    Outcome.Holds (Bounded args) (StoppedInside args)
      (patchAddress state segId value relocation) := by
  cases ran : Linker.patchAddress state segId value relocation with
  | ok after =>
    obtain ⟨size, patched, width, rfl⟩ := patchAddress_ok ran
    have same := (storeWidth_le width).1
    unfold FitsInstruction at fits
    exact bounded.store found (same ▸ fits) patched
  | error stopped =>
    unfold Linker.patchAddress at ran
    split at ran <;> cases ran
    exact bounded.accesses

/-- A relocation that is applied, and whose end does not wrap around, is inside. -/
theorem applied_fits
    (straight : 2 ^ 64 ≤ relocation.offset + addressSizeInBytes relocation.type →
      unresolvedInstruction symbols segId segment relocation ≠ none)
    (applied : unresolvedInstruction symbols segId segment relocation = none) :
    relocation.offset + addressSizeInBytes relocation.type ≤ segment.segmentSize := by
  have noWrap : relocation.offset + addressSizeInBytes relocation.type < 2 ^ 64 := by
    by_contra wraps
    exact straight (by omega) applied
  have sum : add64 relocation.offset (addressSizeInBytes relocation.type) =
      relocation.offset + addressSizeInBytes relocation.type := Word.add_eq noWrap
  unfold unresolvedInstruction at applied
  rw [sum] at applied
  split at applied
  next => cases applied
  next inside => omega

theorem instructionWidth_le (type : RelocationType) :
    instructionWidth type ≤ addressSizeInBytes type := by
  cases type with
  | other => exact Nat.le_refl 4
  | _ => decide

theorem Bounded.patchInstruction (bounded : Bounded args state) (numbered : segId < 2 ^ 32)
    (found : args.instructionsSegments[segId]? = some segment)
    (straight : 2 ^ 64 ≤ relocation.offset + addressSizeInBytes relocation.type →
      unresolvedInstruction symbols segId segment relocation ≠ none) :
    Outcome.Holds (Bounded args) (StoppedInside args)
      (patchInstruction symbols segId segment state relocation) := by
  have noted : ∀ entry, Bounded args (state.unresolved entry) :=
    fun _ => ⟨bounded.accesses, bounded.implicit⟩
  have fits : segment.segmentSize ≥ add64 relocation.offset (addressSizeInBytes relocation.type) →
      Resolvable symbols relocation →
      relocation.offset + addressSizeInBytes relocation.type ≤ segment.segmentSize := by
    intro checked resolvable
    apply applied_fits straight
    rw [unresolvedInstruction, if_neg (by omega), if_pos resolvable]
  have width := instructionWidth_le relocation.type
  unfold Linker.patchInstruction
  split
  next => exact bounded.fail _
  next =>
    split
    next => exact noted _
    next checked =>
      split
      next perThread =>
        have inside := fits (by omega) (.inl perThread)
        split
        next => exact bounded.fail _
        next =>
          have four : addressSizeInBytes relocation.type = 4 := by
            rw [perThread]
            rfl
          exact bounded.store found (by omega) _
      next =>
        split
        next implicitArgs =>
          have inside := fits (by omega) (.inr (.inl implicitArgs))
          refine ⟨bounded.accesses, ?_⟩
          intro entry member
          rcases List.mem_append.mp member with old | new
          · exact bounded.implicit entry old
          · obtain rfl := List.mem_singleton.mp new
            simp only [Nat.mod_eq_of_lt numbered]
            exact ⟨segment, found, inside⟩
        next =>
          split
          next empty =>
            have inside := fits (by omega) (.inr (.inr (.inl empty)))
            exact bounded.patchAddress found (by unfold FitsInstruction; omega) _
          next =>
            split
            next symbol here =>
              have inside := fits (by omega) (.inr (.inr (.inr (by simp [here]))))
              exact bounded.patchAddress found (by unfold FitsInstruction; omega) _
            next => exact noted _

theorem Bounded.patchInstructionsSegments (bounded : Bounded args state)
    (sound : BoundsSound input args symbols kernelNames) :
    Outcome.Holds (Bounded args) (StoppedInside args)
      (patchInstructionsSegments input args symbols state) := by
  unfold Linker.patchInstructionsSegments
  split
  next => exact bounded
  next =>
    split
    next => exact bounded.fail _
    next enough =>
      apply Outcome.foldlM_keeps bounded
      rintro ⟨relocations, segId⟩ member current holds
      have text := List.mk_mem_zipIdx_iff_getElem?.mp member
      have inside := (List.getElem?_eq_some_iff.mp text).1
      have exists_ : segId < args.instructionsSegments.length := by omega
      have found : args.instructionsSegments[segId]? =
          some (args.instructionsSegments[segId]) := List.getElem?_eq_getElem exists_
      have numbered := input.numbered
      unfold patchInstructionsSegment instructionsSegment
      simp only [found, bind, Except.bind]
      have indexed : Access.Inside args (.segment segId) := exists_
      apply Outcome.foldlM_keeps (holds.access indexed)
      intro relocation relocationMember now holds
      apply holds.patchInstruction (by omega) found
      exact sound.textStraight segId _ relocation ⟨found, relocations, text, relocationMember⟩

end Instructions

section Data

variable {input : LinkerInput} {args : LinkArguments} {symbols : RelocatedSymbols}
  {kernelNames : List (List UInt8)} {state : State} {relocation : RelocationInfo}
  {data later : DataState} {target : Target}

/-- A store into a data segment's copy. -/
def storeAccess (target : Target) (s : Displaced.Store UInt8) : Access :=
  .store target s.actual s.size

/-- One round accesses what its relocation stores, and nothing else. -/
theorem patchData_accesses (applies : Applies input args symbols relocation)
    (ran : patchData input args symbols data relocation = .ok later) :
    later.state.pImplicitArgsRelocationAddresses = data.state.pImplicitArgsRelocationAddresses ∧
    ∀ access, access ∈ later.state.accesses ↔ access ∈ data.state.accesses ∨
      ∃ symbol dst, Applicable input args symbols relocation symbol dst ∧
        access = storeAccess dst.target (storeOf input args relocation symbol dst) := by
  by_cases placed : unplaced input args symbols relocation = false
  · obtain ⟨symbol, dst, found, destined, fits⟩ := applies placed
    have valid := destination_valid destined
    have patched : ∀ increment, increment % 256 ^ patchWidth input relocation =
        patchValue input symbol relocation % 256 ^ patchWidth input relocation →
        later = patchIncrement { data with isAnyRelocationPerformed := true } dst
          (patchWidth input relocation) relocation.offset increment →
        later.state = data.state.access
          (storeAccess dst.target (storeOf input args relocation symbol dst)) := by
      intro increment same patched
      obtain ⟨value, stored, _⟩ := patchIncrement_store
        { data with isAnyRelocationPerformed := true } valid fits same
      rw [patched, stored]
      rfl
    have accessed : later.state = data.state.access
        (storeAccess dst.target (storeOf input args relocation symbol dst)) := by
      obtain ⟨increment, same, patch⟩ := patchData_increment found destined placed ran
      exact patched increment same patch
    rw [accessed]
    constructor
    · rfl
    · intro access
      rw [State.access, List.mem_append, List.mem_singleton]
      constructor
      · rintro (old | rfl)
        · exact .inl old
        · exact .inr ⟨symbol, dst, ⟨found, destined, fits⟩, rfl⟩
      · rintro (old | ⟨other, place, ⟨otherFound, otherDestined, _⟩, rfl⟩)
        · exact .inl old
        · obtain rfl := Option.some.inj (found.symm.trans otherFound)
          obtain rfl := Option.some.inj (destined.symm.trans otherDestined)
          exact .inr rfl
  · have missing := applies.missing.mp (by simpa using placed)
    have kept := patchData_unplaced (by simpa using placed) ran
    rw [kept]
    constructor
    · rfl
    · intro access
      constructor
      · exact .inl
      · rintro (old | ⟨symbol, dst, applicable, _⟩)
        · exact old
        · exact absurd applicable (missing symbol dst)

theorem BoundsSound.applies (sound : BoundsSound input args symbols kernelNames)
    (member : relocation ∈ input.dataRelocations) : Applies input args symbols relocation :=
  applies_iff.mpr ⟨sound.dataStraight relocation member, sound.dataWithin relocation member⟩

theorem Bounded.patchDataSegments (bounded : Bounded args state)
    (sound : BoundsSound input args symbols kernelNames) :
    Outcome.Holds (fun data => Bounded args data.state) (StoppedInside args)
      (patchDataSegments input args symbols state) := by
  unfold Linker.patchDataSegments
  have start (constants variables_ : Nat → UInt8) :
      Bounded args (DataState.mk state constants variables_ false).state := bounded
  apply Outcome.foldlM_keeps (P := fun (data : DataState) => Bounded args data.state) (start _ _)
  intro relocation member data holds
  cases ran : patchData input args symbols data relocation with
  | ok later =>
    obtain ⟨implicit, accesses⟩ := patchData_accesses (sound.applies member) ran
    constructor
    · intro access inside
      rcases (accesses access).mp inside with old | ⟨symbol, dst, applicable, rfl⟩
      · exact holds.accesses access old
      · have kind := (destination_valid applicable.destined).target_cases
        have room := sound.dataStores dst.target kind _
          (mem_stores.mpr ⟨relocation, member, symbol, dst, applicable, rfl, rfl⟩)
        rcases kind with same | same <;> rw [same] at room ⊢ <;> exact room
    · rw [implicit]
      exact holds.implicit
  | error stopped =>
    -- a round stops before it stores anything
    have same : stopped.2 = data.state.accesses := by
      unfold patchData at ran
      simp only at ran
      split at ran
      next => cases ran
      next => cases ran
      next =>
        split at ran
        next => cases ran
        next =>
          split at ran <;> cases ran
          rfl
    intro access inside
    rw [same] at inside
    exact holds.accesses access inside

end Data

section Later

variable {input : LinkerInput} {args : LinkArguments} {symbols : RelocatedSymbols}
  {kernelNames : List (List UInt8)} {state : State}

theorem Bounded.resolveImplicitArg (bounded : Bounded args state) {i : Nat}
    {segment : PatchableSegment} {reloc : Nat × RelocationType}
    (found : args.instructionsSegments[i]? = some segment)
    (fits : reloc.1 + addressSizeInBytes reloc.2 ≤ segment.segmentSize) :
    Outcome.Holds (Bounded args) (StoppedInside args)
      (resolveImplicitArg args i state reloc) := by
  unfold Linker.resolveImplicitArg
  split
  next => exact bounded
  next kernelDescriptor _ =>
    have noted : ∀ kernels, Bounded args { state with kernelDescriptors := kernels } :=
      fun _ => ⟨bounded.accesses, bounded.implicit⟩
    simp only
    split
    next =>
      split
      next => exact (noted _).fail _
      next =>
        apply (noted _).store found
        unfold addressSizeInBytes at fits
        exact fits
    next => exact noted _

theorem Bounded.resolveImplicitArgs (bounded : Bounded args state) :
    Outcome.Holds (Bounded args) (StoppedInside args) (resolveImplicitArgs args state) := by
  apply Outcome.foldlM_keeps bounded
  intro i _ current holds
  apply Outcome.foldlM_keeps holds
  intro reloc member now holds
  obtain ⟨entry, kept, rfl⟩ := List.mem_map.mp member
  obtain ⟨inside, same⟩ := List.mem_filter.mp kept
  obtain ⟨segment, found, fits⟩ := bounded.implicit entry inside
  rw [of_decide_eq_true same] at found
  exact holds.resolveImplicitArg found fits

/-- An entry's relocation fits its segment. -/
def EntryFits (args : LinkArguments) (entry : UnresolvedExternal) : Prop :=
  ∃ segment, args.instructionsSegments[entry.instructionsSegmentId]? = some segment ∧
    FitsInstruction segment entry.unresolvedRelocation

/-- What the loop over the builtins keeps: the entries it may patch fit. -/
structure BuiltinsFit (args : LinkArguments) (kernelNames : List (List UInt8)) (state : State) :
    Prop where
  bounded : Bounded args state
  kernels : state.kernelDescriptors.map KernelDescriptor.kernelName = kernelNames
  entries : ∀ entry ∈ state.outUnresolvedExternals,
    Builtin kernelNames entry.unresolvedRelocation → EntryFits args entry

theorem BuiltinsFit.patchBuiltin (fit : BuiltinsFit args kernelNames state)
    {entry : UnresolvedExternal} (member : entry ∈ state.outUnresolvedExternals)
    (builtin : Builtin kernelNames entry.unresolvedRelocation) (value : Nat) :
    Outcome.Holds (BuiltinsFit args kernelNames) (StoppedInside args)
      (Linker.patchBuiltin args state entry value) := by
  obtain ⟨segment, found, fits⟩ := fit.entries entry member builtin
  have inside : Access.Inside args (.segment entry.instructionsSegmentId) :=
    (List.getElem?_eq_some_iff.mp found).1
  cases ran : Linker.patchBuiltin args state entry value with
  | ok after =>
    obtain ⟨same, keeps⟩ := patchBuiltin_ok ran
    have bounded : Bounded args after := by
      unfold Linker.patchBuiltin instructionsSegment at ran
      simp only [found, bind, Except.bind] at ran
      exact Outcome.of_ok ((fit.bounded.access inside).patchAddress found fits value) ran
    exact ⟨bounded, keeps.kernels.trans fit.kernels, same ▸ fit.entries⟩
  | error stopped =>
    unfold Linker.patchBuiltin instructionsSegment at ran
    simp only [found, bind, Except.bind] at ran
    have outcome := (fit.bounded.access inside).patchAddress found fits value
    rw [ran] at outcome
    exact outcome

theorem BuiltinsFit.remove (fit : BuiltinsFit args kernelNames state) {vecIndex : Nat}
    (inside : vecIndex < state.outUnresolvedExternals.length) :
    BuiltinsFit args kernelNames (state.remove vecIndex) := by
  refine ⟨⟨fit.bounded.accesses, fit.bounded.implicit⟩, fit.kernels, ?_⟩
  intro entry member
  obtain ⟨j, _, here⟩ := (mem_removeUnresolved inside).mp member
  exact fit.entries entry (List.mem_iff_getElem?.mpr ⟨j, here⟩)

theorem BuiltinsFit.resolveBuiltin (fit : BuiltinsFit args kernelNames state) (vecIndex : Nat) :
    Outcome.Holds (BuiltinsFit args kernelNames) (StoppedInside args)
      (resolveBuiltin args state vecIndex) := by
  unfold Linker.resolveBuiltin
  split
  next => exact fit
  next entry here =>
    have member := List.mem_iff_getElem?.mpr ⟨vecIndex, here⟩
    -- after the patch the vector is as long as before
    have removed : ∀ value, Builtin kernelNames entry.unresolvedRelocation →
        Outcome.Holds (BuiltinsFit args kernelNames) (StoppedInside args)
          (Linker.patchBuiltin args state entry value >>= fun (patched : State) =>
            .ok (patched.remove vecIndex)) := by
      intro value builtin
      cases ran : Linker.patchBuiltin args state entry value with
      | ok after =>
        have kept := Outcome.of_ok (fit.patchBuiltin member builtin value) ran
        apply kept.remove
        rw [(patchBuiltin_ok ran).1]
        exact (List.getElem?_eq_some_iff.mp here).1
      | error stopped =>
        have outcome := fit.patchBuiltin member builtin value
        rw [ran] at outcome
        exact outcome
    split
    next subDevice =>
      split
      next => exact removed _ (.inl subDevice)
      next => exact fit.remove (List.getElem?_eq_some_iff.mp here).1
    next =>
      split
      next perThread =>
        split
        next => exact fit.bounded.fail _
        next => exact fit
        next kernelDescriptor found =>
          have named := kernelOfSection_some found
          rw [fit.kernels] at named
          exact removed _ (.inr ⟨perThread, named⟩)
      next => exact fit

theorem BuiltinsFit.resolveBuiltinsFrom (fit : BuiltinsFit args kernelNames state)
    (rounds : Nat) : Outcome.Holds (BuiltinsFit args kernelNames) (StoppedInside args)
      (resolveBuiltinsFrom args rounds state) := by
  induction rounds generalizing state with
  | zero => exact fit
  | succ vecIndex ih => exact Outcome.andThen (fit.resolveBuiltin vecIndex) fun _ kept => ih kept

theorem BuiltinsFit.resolveBuiltins (fit : BuiltinsFit args kernelNames state) :
    Outcome.Holds (BuiltinsFit args kernelNames) (StoppedInside args)
      (resolveBuiltins args state) := by
  exact fit.resolveBuiltinsFrom _

end Later

section Final

variable {input : LinkerInput} {args : LinkArguments} {symbols : RelocatedSymbols}
  {resolveExternalFunctions : Bool} {kernelDescriptors : List KernelDescriptor}
  {instructions : Nat → Nat → UInt8} {result : LinkResult} {kernelNames : List (List UInt8)}
  {segId : Nat} {segment : PatchableSegment} {relocation : RelocationInfo}
  {entry : UnresolvedExternal}

theorem unresolvedInstruction_some
    (noted : unresolvedInstruction symbols segId segment relocation = some entry) :
    entry.unresolvedRelocation = relocation ∧ entry.instructionsSegmentId = segId % 2 ^ 32 := by
  unfold unresolvedInstruction at noted
  split at noted
  next =>
    cases noted
    exact ⟨rfl, rfl⟩
  next =>
    split at noted
    next => cases noted
    next =>
      cases noted
      exact ⟨rfl, rfl⟩

/-- A segment's relocation has the segment's number in 32 bits. -/
theorem TextRelocation.numbered (text : TextRelocation input args segId segment relocation) :
    segId < 2 ^ 32 := by
  obtain ⟨relocations, found, _⟩ := text.member
  have inside := (List.getElem?_eq_some_iff.mp found).1
  have numbered := input.numbered
  omega

theorem TextRelocation.kind (text : TextRelocation input args segId segment relocation) :
    relocation.relocationSegment = .instructions := by
  obtain ⟨relocations, found, member⟩ := text.member
  exact input.kinds relocations (List.mem_of_getElem? found) relocation member

/-- The entries of before the builtins are those of the relocations that were not applied. -/
theorem mem_unresolvedBefore : entry ∈ unresolvedBefore input args symbols ↔
    (∃ segId segment relocation, TextRelocation input args segId segment relocation ∧
      unresolvedInstruction symbols segId segment relocation = some entry) ∨
    ∃ relocation ∈ input.dataRelocations,
      unplaced input args symbols relocation = true ∧ entry = dataUnresolved relocation := by
  rw [unresolvedBefore, List.mem_append]
  apply or_congr
  · rw [List.mem_flatMap]
    constructor
    · rintro ⟨⟨relocations, segId⟩, member, inside⟩
      have text := List.mk_mem_zipIdx_iff_getElem?.mp member
      unfold unresolvedOfSegment at inside
      split at inside
      next => cases inside
      next segment found =>
        obtain ⟨relocation, relocationMember, noted⟩ := List.mem_filterMap.mp inside
        exact ⟨segId, segment, relocation, ⟨found, relocations, text, relocationMember⟩, noted⟩
    · rintro ⟨segId, segment, relocation, ⟨found, relocations, text, member⟩, noted⟩
      refine ⟨(relocations, segId), List.mk_mem_zipIdx_iff_getElem?.mpr text, ?_⟩
      rw [unresolvedOfSegment, found]
      exact List.mem_filterMap.mpr ⟨relocation, member, noted⟩
  · rw [List.mem_map]
    constructor
    · rintro ⟨relocation, kept, rfl⟩
      obtain ⟨member, missing⟩ := List.mem_filter.mp kept
      exact ⟨relocation, member, missing, rfl⟩
    · rintro ⟨relocation, member, missing, rfl⟩
      exact ⟨relocation, List.mem_filter.mpr ⟨member, missing⟩, rfl⟩

/-- An instruction relocation that cannot be applied is noted. -/
theorem BoundsSound.noted (sound : BoundsSound input args symbols kernelNames)
    (text : TextRelocation input args segId segment relocation)
    (unfit : ¬ (FitsInstruction segment relocation ∧ Resolvable symbols relocation)) :
    ∃ entry, unresolvedInstruction symbols segId segment relocation = some entry := by
  rw [← Option.ne_none_iff_exists']
  intro applied
  apply unfit
  constructor
  · have fits := applied_fits (sound.textStraight segId segment relocation text) applied
    have width := instructionWidth_le relocation.type
    unfold FitsInstruction
    omega
  · by_contra unresolvable
    unfold unresolvedInstruction at applied
    rw [if_neg unresolvable] at applied
    split at applied <;> cases applied

theorem BoundsSound.reported (sound : BoundsSound input args symbols kernelNames)
    {unresolved : List UnresolvedExternal}
    (report : Reported input args symbols kernelNames unresolved) :
    UnfitReported input args symbols kernelNames unresolved := by
  constructor
  · intro segId segment relocation text unfit
    have plain : ¬ Builtin kernelNames relocation := by
      intro builtin
      by_cases fits : FitsInstruction segment relocation
      · exact unfit ⟨fits, .inr builtin⟩
      · exact sound.textNamed segId segment relocation text fits builtin
    obtain ⟨entry, noted⟩ := sound.noted text fun both => unfit ⟨both.1, .inl both.2⟩
    obtain ⟨same, number⟩ := unresolvedInstruction_some noted
    refine ⟨entry, report.stays entry ?_ (same ▸ plain), same, ?_⟩
    · exact mem_unresolvedBefore.mpr (.inl ⟨segId, segment, relocation, text, noted⟩)
    · rw [number, Nat.mod_eq_of_lt text.numbered]
  · intro relocation member missing
    have noPlace := (sound.applies member).missing.mpr missing
    refine ⟨dataUnresolved relocation, report.stays _ ?_ ?_, rfl⟩
    · exact mem_unresolvedBefore.mpr (.inr ⟨relocation, member, noPlace, rfl⟩)
    · exact sound.dataNamed relocation member missing

/-- An entry of before with a builtin's name fits its segment. -/
theorem BoundsSound.entryFits (sound : BoundsSound input args symbols kernelNames)
    (member : entry ∈ unresolvedBefore input args symbols)
    (builtin : Builtin kernelNames entry.unresolvedRelocation) : EntryFits args entry := by
  rcases mem_unresolvedBefore.mp member with
    ⟨segId, segment, relocation, text, noted⟩ | ⟨relocation, inside, missing, rfl⟩
  · obtain ⟨rfl, number⟩ := unresolvedInstruction_some noted
    rw [Nat.mod_eq_of_lt text.numbered] at number
    refine ⟨segment, number ▸ text.found, ?_⟩
    by_contra unfit
    exact sound.textNamed segId segment _ text unfit builtin
  · refine absurd builtin (sound.dataNamed relocation inside ?_)
    intro symbol dst applicable
    have placed := applicable.placed
    rw [missing] at placed
    cases placed

/-- The loop over the builtins starts with entries that fit. -/
theorem BoundsSound.builtinsFit {patched implicit : State} {data : DataState}
    (sound : BoundsSound input args symbols
      (kernelDescriptors.map KernelDescriptor.kernelName)) (bounded : Bounded args implicit)
    (instructionsRan : patchInstructionsSegments input args symbols
      (.start kernelDescriptors instructions) = .ok patched)
    (dataRan : patchDataSegments input args symbols patched = .ok data)
    (implicitRan : resolveImplicitArgs args data.state = .ok implicit) :
    BuiltinsFit args (kernelDescriptors.map KernelDescriptor.kernelName) implicit := by
  obtain ⟨before, kernels⟩ := implicit_before instructionsRan dataRan implicitRan
  refine ⟨bounded, kernels, ?_⟩
  intro entry member
  rw [before] at member
  exact sound.entryFits member

/-- A link in which the condition holds accesses nothing outside, whether it returns or stops. -/
theorem BoundsSound.inside (sound : ∀ symbols, relocateSymbols input args = some symbols →
      BoundsSound input args symbols (kernelDescriptors.map KernelDescriptor.kernelName)) :
    ∀ access ∈ accessesOf (link input args resolveExternalFunctions
      (.start kernelDescriptors instructions)), access.Inside args := by
  have start : Bounded args (.start kernelDescriptors instructions) := by
    constructor
    · rintro _ ⟨⟩
    · rintro _ ⟨⟩
  have outcome : Outcome.Holds (fun result : LinkResult => Bounded args result.state)
      (StoppedInside args)
      (link input args resolveExternalFunctions (.start kernelDescriptors instructions)) := by
    unfold link
    split
    next => exact start
    next symbols relocated =>
      have found : relocateSymbols input args = some symbols := by
        split at relocated
        next => exact relocated
        next => cases relocated
      have sound := sound symbols found
      apply Outcome.andThen (Outcome.remember (start.patchInstructionsSegments sound))
      rintro patched ⟨instructionsRan, bounded⟩
      apply Outcome.andThen (Outcome.remember (bounded.patchDataSegments sound))
      rintro data ⟨dataRan, bounded⟩
      apply Outcome.andThen (Outcome.remember bounded.resolveImplicitArgs)
      rintro implicit ⟨implicitRan, bounded⟩
      have fit := sound.builtinsFit bounded instructionsRan dataRan implicitRan
      apply Outcome.andThen fit.resolveBuiltins
      intro after resolved
      exact resolved.bounded
  cases ran : link input args resolveExternalFunctions (.start kernelDescriptors instructions) with
  | ok result =>
    rw [ran] at outcome
    exact outcome.accesses
  | error stopped =>
    rw [ran] at outcome
    exact outcome

end Final

end ComputeRuntime.Linker
