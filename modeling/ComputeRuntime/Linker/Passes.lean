import ComputeRuntime.Library.Outcome
import ComputeRuntime.Linker.Model

/-! What each pass of the linker does to the unresolved externals. -/
namespace ComputeRuntime.Linker

variable {input : LinkerInput} {args : LinkArguments} {symbols : RelocatedSymbols}
  {segId : Nat} {segment : PatchableSegment} {state after : State} {relocation : RelocationInfo}
  {data later : DataState}

/-- What a pass leaves alone or only adds to. -/
structure Keeps (state after : State) : Prop where
  kernels : after.kernelDescriptors.map KernelDescriptor.kernelName =
    state.kernelDescriptors.map KernelDescriptor.kernelName
  accesses : state.accesses ⊆ after.accesses

theorem Keeps.refl (state : State) : Keeps state state :=
  ⟨rfl, fun _ member => member⟩

theorem Keeps.trans {middle : State} (first : Keeps state middle) (second : Keeps middle after) :
    Keeps state after :=
  ⟨second.kernels.trans first.kernels, fun _ member => second.accesses (first.accesses member)⟩

theorem store_keeps (state : State) (segmentId offset size value : Nat) :
    Keeps state (state.store segmentId offset size value) :=
  ⟨rfl, List.subset_append_left _ _⟩

theorem access_keeps (state : State) (access : Access) : Keeps state (state.access access) :=
  ⟨rfl, List.subset_append_left _ _⟩

section Instructions

/-- How many bytes a type patches in an instruction, if it patches any. -/
def storeWidth : RelocationType → Option Nat
  | .address => some 8
  | .addressLow => some 4
  | .addressHigh => some 4
  | .address16 => some 2
  | _ => none

theorem patchAddress_ok {value : Nat} (ran : patchAddress state segId value relocation = .ok after) :
    ∃ size patched, storeWidth relocation.type = some size ∧
      after = state.store segId relocation.offset size patched := by
  unfold patchAddress at ran
  split at ran
  next type =>
    cases ran
    exact ⟨8, value, by rw [type]; rfl, rfl⟩
  next type =>
    cases ran
    exact ⟨4, _, by rw [type]; rfl, rfl⟩
  next type =>
    cases ran
    exact ⟨4, _, by rw [type]; rfl, rfl⟩
  next type =>
    cases ran
    exact ⟨2, _, by rw [type]; rfl, rfl⟩
  next => cases ran

/-- The value of an instruction relocation does not come from a symbol, or from one that has an
address. -/
def Resolvable (symbols : RelocatedSymbols) (relocation : RelocationInfo) : Prop :=
  relocation.type = .perThreadPayloadOffset ∨
    relocation.symbolName = implicitArgsRelocationSymbolName ∨ relocation.symbolName = [] ∨
    symbols.lookup relocation.symbolName ≠ none

instance (symbols : RelocatedSymbols) (relocation : RelocationInfo) :
    Decidable (Resolvable symbols relocation) :=
  inferInstanceAs (Decidable (_ ∨ _ ∨ _ ∨ _))

/-- The entry of an instruction relocation that is not applied. -/
def unresolvedInstruction (symbols : RelocatedSymbols) (segId : Nat) (segment : PatchableSegment)
    (relocation : RelocationInfo) : Option UnresolvedExternal :=
  if segment.segmentSize < add64 relocation.offset (addressSizeInBytes relocation.type) then
    some ⟨relocation, segId % 2 ^ 32, true⟩
  else if Resolvable symbols relocation then none
  else some ⟨relocation, segId % 2 ^ 32, false⟩

theorem patchInstruction_ok
    (ran : patchInstruction symbols segId segment state relocation = .ok after) :
    after.outUnresolvedExternals = state.outUnresolvedExternals ++
      (unresolvedInstruction symbols segId segment relocation).toList ∧ Keeps state after := by
  unfold patchInstruction at ran
  unfold unresolvedInstruction
  split at ran
  next => cases ran
  next =>
    split at ran
    next outside =>
      cases ran
      rw [if_pos outside]
      exact ⟨rfl, rfl, fun _ member => member⟩
    next inside =>
      rw [if_neg inside]
      split at ran
      next perThread =>
        have resolvable : Resolvable symbols relocation := .inl perThread
        rw [if_pos resolvable, Option.toList_none, List.append_nil]
        split at ran
        next => cases ran
        next =>
          cases ran
          exact ⟨rfl, store_keeps ..⟩
      next perThread =>
        split at ran
        next implicitArgs =>
          have resolvable : Resolvable symbols relocation := .inr (.inl implicitArgs)
          rw [if_pos resolvable, Option.toList_none, List.append_nil]
          cases ran
          exact ⟨rfl, rfl, fun _ member => member⟩
        next implicitArgs =>
          split at ran
          next empty =>
            have resolvable : Resolvable symbols relocation := .inr (.inr (.inl empty))
            rw [if_pos resolvable, Option.toList_none, List.append_nil]
            obtain ⟨size, patched, _, rfl⟩ := patchAddress_ok ran
            exact ⟨rfl, store_keeps ..⟩
          next empty =>
            split at ran
            next symbol found =>
              have resolvable : Resolvable symbols relocation :=
                .inr (.inr (.inr (by simp [found])))
              rw [if_pos resolvable, Option.toList_none, List.append_nil]
              obtain ⟨size, patched, _, rfl⟩ := patchAddress_ok ran
              exact ⟨rfl, store_keeps ..⟩
            next missing =>
              have unresolvable : ¬ Resolvable symbols relocation := by
                rintro (same | same | same | same)
                · exact perThread same
                · exact implicitArgs same
                · exact empty same
                · exact same missing
              rw [if_neg unresolvable]
              cases ran
              exact ⟨rfl, rfl, fun _ member => member⟩

theorem instructionsSegment_ok {index : Nat}
    (ran : instructionsSegment args state index = .ok (segment, after)) :
    args.instructionsSegments[index]? = some segment ∧ after = state.access (.segment index) := by
  unfold instructionsSegment at ran
  simp only at ran
  split at ran
  next => cases ran
  next found =>
    cases ran
    exact ⟨found, rfl⟩

/-- The entries of the relocations of one segment that are not applied. -/
def unresolvedOfSegment (args : LinkArguments) (symbols : RelocatedSymbols)
    (segmentRelocations : List RelocationInfo × Nat) : List UnresolvedExternal :=
  match args.instructionsSegments[segmentRelocations.2]? with
  | none => []
  | some segment =>
    segmentRelocations.1.filterMap (unresolvedInstruction symbols segmentRelocations.2 segment)

theorem patchInstructionsSegment_ok {relocations : List RelocationInfo × Nat}
    (ran : patchInstructionsSegment args symbols state relocations = .ok after) :
    after.outUnresolvedExternals = state.outUnresolvedExternals ++
      unresolvedOfSegment args symbols relocations ∧ Keeps state after := by
  obtain ⟨⟨segment, accessed⟩, found, loop⟩ := Outcome.bind_eq_ok.mp ran
  obtain ⟨element, rfl⟩ := instructionsSegment_ok found
  rw [unresolvedOfSegment, element]
  apply Outcome.of_ok (Outcome.foldlM (Q := fun _ => True) (P := fun done current =>
    current.outUnresolvedExternals = state.outUnresolvedExternals ++
      done.filterMap (unresolvedInstruction symbols relocations.2 segment) ∧
    Keeps state current) ?_ ?_) loop
  · exact ⟨by simp [State.access], access_keeps _ _⟩
  · rintro done relocation current _ ⟨out, keeps⟩
    cases step : patchInstruction symbols relocations.2 segment current relocation with
    | error => trivial
    | ok next =>
      obtain ⟨stepOut, stepKeeps⟩ := patchInstruction_ok step
      refine ⟨?_, keeps.trans stepKeeps⟩
      rw [stepOut, out, List.filterMap_append, List.append_assoc]
      cases entry : unresolvedInstruction symbols relocations.2 segment relocation <;> simp [entry]

theorem patchInstructionsSegments_ok
    (ran : patchInstructionsSegments input args symbols state = .ok after) :
    after.outUnresolvedExternals = state.outUnresolvedExternals ++
      input.textRelocations.zipIdx.flatMap (unresolvedOfSegment args symbols) ∧
    Keeps state after := by
  unfold patchInstructionsSegments at ran
  split at ran
  next unneeded =>
    have none : input.textRelocations = [] := by
      by_contra some
      rw [input.requires some] at unneeded
      cases unneeded
    cases ran
    rw [none]
    simp [Keeps.refl]
  next =>
    split at ran
    next => cases ran
    next =>
      apply Outcome.of_ok (Outcome.foldlM (Q := fun _ => True) (P := fun done current =>
        current.outUnresolvedExternals = state.outUnresolvedExternals ++
          done.flatMap (unresolvedOfSegment args symbols) ∧ Keeps state current) ?_ ?_) ran
      · simp [Keeps.refl]
      · rintro done relocations current _ ⟨out, keeps⟩
        cases step : patchInstructionsSegment args symbols current relocations with
        | error => trivial
        | ok next =>
          obtain ⟨stepOut, stepKeeps⟩ := patchInstructionsSegment_ok step
          refine ⟨?_, keeps.trans stepKeeps⟩
          rw [stepOut, out, List.flatMap_append, List.append_assoc]
          simp

end Instructions

section Data

/-- Whether the linker finds no place for a relocation of a data segment. -/
def unplaced (input : LinkerInput) (args : LinkArguments) (symbols : RelocatedSymbols)
    (relocation : RelocationInfo) : Bool :=
  match symbols.lookup relocation.symbolName,
    destination args relocation.relocationSegment with
  | some _, some dst => dst.size < add64 relocation.offset
      (addressSizeInBytes (relocationTypeOf input.pointerSize relocation))
  | _, _ => true

/-- The entry of a relocation of a data segment. -/
def dataUnresolved (relocation : RelocationInfo) : UnresolvedExternal :=
  ⟨relocation, 2 ^ 32 - 1, false⟩

theorem patchIncrement_state (data : DataState) (dst : Subsegment) (patchSize offset value : Nat) :
    ∃ access, (patchIncrement data dst patchSize offset value).state =
      data.state.access access := by
  unfold patchIncrement
  split
  · exact ⟨_, rfl⟩
  · exact ⟨_, rfl⟩

theorem patchData_ok (ran : patchData input args symbols data relocation = .ok later) :
    later.state.outUnresolvedExternals = data.state.outUnresolvedExternals ++
      (if unplaced input args symbols relocation then [dataUnresolved relocation] else []) ∧
    Keeps data.state later.state := by
  have noted : Keeps data.state (data.state.unresolved (dataUnresolved relocation)) :=
    ⟨rfl, fun _ member => member⟩
  unfold patchData at ran
  simp only at ran
  split at ran
  next missing =>
    cases ran
    simp only [unplaced, missing, if_true]
    exact ⟨rfl, noted⟩
  next found missing =>
    cases ran
    simp only [unplaced, found, missing, if_true]
    exact ⟨rfl, noted⟩
  next symbol dst found destined =>
    split at ran
    next outside =>
      cases ran
      simp only [unplaced, found, destined, outside, decide_true, if_true]
      exact ⟨rfl, noted⟩
    next inside =>
      simp only [unplaced, found, destined, inside, decide_false, Bool.false_eq_true, if_false,
        List.append_nil]
      have patched : ∀ patchSize value, later = patchIncrement
          { data with isAnyRelocationPerformed := true } dst patchSize relocation.offset value →
          later.state.outUnresolvedExternals = data.state.outUnresolvedExternals ∧
            Keeps data.state later.state := by
        rintro patchSize value rfl
        obtain ⟨access, same⟩ := patchIncrement_state
          { data with isAnyRelocationPerformed := true } dst patchSize relocation.offset value
        rw [same]
        exact ⟨rfl, access_keeps _ _⟩
      split at ran
      next =>
        cases ran
        exact patched _ _ rfl
      next =>
        cases ran
        exact patched _ _ rfl
      next =>
        cases ran
        exact patched _ _ rfl
      next => cases ran

theorem patchDataSegments_ok (ran : patchDataSegments input args symbols state = .ok later) :
    later.state.outUnresolvedExternals = state.outUnresolvedExternals ++
      (input.dataRelocations.filter (unplaced input args symbols)).map dataUnresolved ∧
    Keeps state later.state := by
  apply Outcome.of_ok (Outcome.foldlM (Q := fun _ => True) (P := fun done current =>
    current.state.outUnresolvedExternals = state.outUnresolvedExternals ++
      (done.filter (unplaced input args symbols)).map dataUnresolved ∧
    Keeps state current.state) ?_ ?_) ran
  · simp [Keeps.refl]
  · rintro done relocation current _ ⟨out, keeps⟩
    cases step : patchData input args symbols current relocation with
    | error => trivial
    | ok next =>
      obtain ⟨stepOut, stepKeeps⟩ := patchData_ok step
      refine ⟨?_, keeps.trans stepKeeps⟩
      rw [stepOut, out, List.filter_append, List.map_append, List.append_assoc]
      cases placed : unplaced input args symbols relocation <;> simp [placed]

end Data

section Implicit

theorem resolveImplicitArg_ok {i : Nat} {reloc : Nat × RelocationType}
    (ran : resolveImplicitArg args i state reloc = .ok after) :
    after.outUnresolvedExternals = state.outUnresolvedExternals ∧ Keeps state after := by
  unfold resolveImplicitArg at ran
  split at ran
  next =>
    cases ran
    exact ⟨rfl, .refl _⟩
  next kernelDescriptor found =>
    have kernels : (state.kernelDescriptors.set i { kernelDescriptor with
        requiresImplicitArgs := kernelDescriptor.requiresImplicitArgs ||
          (kernelDescriptor.useStackCalls || (args.userModule && args.device.debugger)) }).map
        KernelDescriptor.kernelName = state.kernelDescriptors.map KernelDescriptor.kernelName := by
      rw [List.map_set]
      obtain ⟨inside, here⟩ := List.getElem?_eq_some_iff.mp found
      apply List.ext_getElem?
      intro j
      rw [List.getElem?_set, List.length_map]
      split
      next same =>
        subst same
        simp [inside, here]
      next => rfl
    simp only at ran
    split at ran
    next =>
      split at ran
      next => cases ran
      next =>
        cases ran
        exact ⟨rfl, kernels, List.subset_append_left _ _⟩
    next =>
      cases ran
      exact ⟨rfl, kernels, fun _ member => member⟩

theorem resolveImplicitArgs_ok (ran : resolveImplicitArgs args state = .ok after) :
    after.outUnresolvedExternals = state.outUnresolvedExternals ∧ Keeps state after := by
  apply Outcome.of_ok (Outcome.foldlM_keeps (Q := fun _ => True) (P := fun current =>
    current.outUnresolvedExternals = state.outUnresolvedExternals ∧ Keeps state current)
    ⟨rfl, .refl _⟩ ?_) ran
  intro i _ current holds
  apply Outcome.foldlM_keeps (P := fun current =>
    current.outUnresolvedExternals = state.outUnresolvedExternals ∧ Keeps state current) holds
  intro reloc _ now holds
  cases step : resolveImplicitArg args i now reloc with
  | error => trivial
  | ok next =>
    obtain ⟨same, keeps⟩ := resolveImplicitArg_ok step
    exact ⟨same.trans holds.1, holds.2.trans keeps⟩

end Implicit

section Builtins

/-- A kernel has the name that the section of a relocation is for. -/
def NamesKernel (kernelNames : List (List UInt8)) (relocationSegmentName : List UInt8) : Prop :=
  (ascii ".text.").length ≤ relocationSegmentName.length ∧
    relocationSegmentName.drop (ascii ".text.").length ∈ kernelNames

/-- `resolveBuiltins` takes the entries of these relocations off the list. -/
def Builtin (kernelNames : List (List UInt8)) (relocation : RelocationInfo) : Prop :=
  relocation.symbolName = subDeviceID ∨ relocation.symbolName = perThreadOff ∧
    NamesKernel kernelNames relocation.relocationSegmentName

theorem kernelOfSection_some {kernelDescriptors : List KernelDescriptor} {name : List UInt8}
    {kernelDescriptor : KernelDescriptor}
    (found : kernelOfSection kernelDescriptors name = some (some kernelDescriptor)) :
    NamesKernel (kernelDescriptors.map KernelDescriptor.kernelName) name := by
  unfold kernelOfSection at found
  split at found
  next => cases found
  next long =>
    have search := Option.some.inj found
    constructor
    · omega
    · have same := List.find?_some search
      simp only [decide_eq_true_eq] at same
      exact List.mem_map.mpr ⟨kernelDescriptor, List.mem_of_find?_eq_some search, same⟩

theorem kernelOfSection_none {kernelDescriptors : List KernelDescriptor} {name : List UInt8}
    (missing : kernelOfSection kernelDescriptors name = some none) :
    ¬ NamesKernel (kernelDescriptors.map KernelDescriptor.kernelName) name := by
  rintro ⟨long, member⟩
  obtain ⟨kernelDescriptor, inside, same⟩ := List.mem_map.mp member
  unfold kernelOfSection at missing
  rw [if_neg (by omega)] at missing
  have search := List.find?_eq_none.mp (Option.some.inj missing) kernelDescriptor inside
  simp [same] at search

/-- What is in the vector after an element was removed: the others. -/
theorem mem_removeUnresolved {unresolved : List UnresolvedExternal} {vecIndex : Nat}
    {entry : UnresolvedExternal} (inside : vecIndex < unresolved.length) :
    entry ∈ removeUnresolved unresolved vecIndex ↔
      ∃ j, j ≠ vecIndex ∧ unresolved[j]? = some entry := by
  have nonempty : unresolved ≠ [] := by
    rintro rfl
    exact absurd inside (Nat.not_lt_zero _)
  obtain ⟨last, lastEq⟩ : ∃ last, unresolved.getLast? = some last :=
    Option.isSome_iff_exists.mp (by simp [nonempty])
  have lastAt : unresolved[unresolved.length - 1]? = some last := by
    rw [← List.getLast?_eq_getElem?, lastEq]
  rw [removeUnresolved, lastEq, List.mem_iff_getElem?]
  simp only [List.getElem?_dropLast, List.length_set, List.getElem?_set]
  constructor
  · rintro ⟨k, here⟩
    split at here
    next early =>
      split at here
      next same =>
        -- the last element took the place
        exact ⟨unresolved.length - 1, by omega, lastAt.trans here⟩
      next different => exact ⟨k, Ne.symm different, here⟩
    next => cases here
  · rintro ⟨j, different, here⟩
    obtain ⟨bound, _⟩ := List.getElem?_eq_some_iff.mp here
    by_cases isLast : j = unresolved.length - 1
    · refine ⟨vecIndex, ?_⟩
      rw [if_pos (by omega), if_pos rfl, if_pos inside, ← lastAt, ← isLast, here]
    · refine ⟨j, ?_⟩
      rw [if_pos (by omega), if_neg (Ne.symm different), here]

/-- Behind an index only elements from behind it are left. -/
theorem removeUnresolved_behind {unresolved : List UnresolvedExternal} {vecIndex j : Nat}
    {entry : UnresolvedExternal} (behind : vecIndex ≤ j)
    (here : (removeUnresolved unresolved vecIndex)[j]? = some entry) :
    ∃ k, vecIndex < k ∧ unresolved[k]? = some entry := by
  unfold removeUnresolved at here
  split at here
  next => cases here
  next last lastEq =>
    rw [List.getLast?_eq_getElem?] at lastEq
    simp only [List.getElem?_dropLast, List.length_set, List.getElem?_set] at here
    split at here
    next early =>
      split at here
      next same =>
        subst same
        rw [if_pos (by omega)] at here
        exact ⟨unresolved.length - 1, by omega, lastEq.trans here⟩
      next different => exact ⟨j, by omega, here⟩
    next => cases here

theorem patchBuiltin_ok {unresolved : UnresolvedExternal} {value : Nat}
    (ran : patchBuiltin args state unresolved value = .ok after) :
    after.outUnresolvedExternals = state.outUnresolvedExternals ∧ Keeps state after := by
  obtain ⟨⟨segment, accessed⟩, found, patched⟩ := Outcome.bind_eq_ok.mp ran
  obtain ⟨_, rfl⟩ := instructionsSegment_ok found
  obtain ⟨size, stored, _, rfl⟩ := patchAddress_ok patched
  exact ⟨rfl, (access_keeps ..).trans (store_keeps ..)⟩

/-- One round: an element of a builtin is removed, any other is left. -/
theorem resolveBuiltin_ok {vecIndex : Nat}
    (ran : resolveBuiltin args state vecIndex = .ok after) : Keeps state after ∧
    ((after.outUnresolvedExternals = state.outUnresolvedExternals ∧
        ∀ entry, state.outUnresolvedExternals[vecIndex]? = some entry →
          ¬ Builtin (state.kernelDescriptors.map KernelDescriptor.kernelName)
            entry.unresolvedRelocation) ∨
      (after.outUnresolvedExternals = removeUnresolved state.outUnresolvedExternals vecIndex ∧
        ∃ entry, state.outUnresolvedExternals[vecIndex]? = some entry ∧
          Builtin (state.kernelDescriptors.map KernelDescriptor.kernelName)
            entry.unresolvedRelocation)) := by
  unfold resolveBuiltin at ran
  split at ran
  next missing =>
    cases ran
    refine ⟨.refl _, .inl ⟨rfl, ?_⟩⟩
    intro entry here
    rw [missing] at here
    cases here
  next entry here =>
    split at ran
    next subDevice =>
      obtain ⟨middle, patched, removed⟩ := Outcome.bind_eq_ok.mp ran
      cases removed
      have same : middle.outUnresolvedExternals = state.outUnresolvedExternals ∧
          Keeps state middle := by
        split at patched
        next => exact patchBuiltin_ok patched
        next =>
          cases patched
          exact ⟨rfl, .refl _⟩
      refine ⟨⟨same.2.kernels, same.2.accesses⟩, .inr ⟨?_, entry, here, .inl subDevice⟩⟩
      rw [State.remove, same.1]
    next notSubDevice =>
      split at ran
      next perThread =>
        split at ran
        next => cases ran
        next missing =>
          cases ran
          refine ⟨.refl _, .inl ⟨rfl, ?_⟩⟩
          rintro other found (same | ⟨_, named⟩)
          · cases here.symm.trans found
            exact notSubDevice same
          · cases here.symm.trans found
            exact kernelOfSection_none missing named
        next kernelDescriptor found =>
          obtain ⟨middle, patched, removed⟩ := Outcome.bind_eq_ok.mp ran
          cases removed
          have same := patchBuiltin_ok patched
          refine ⟨⟨same.2.kernels, same.2.accesses⟩,
            .inr ⟨?_, entry, here, .inr ⟨perThread, kernelOfSection_some found⟩⟩⟩
          rw [State.remove, same.1]
      next notPerThread =>
        cases ran
        refine ⟨.refl _, .inl ⟨rfl, ?_⟩⟩
        rintro other found (same | ⟨same, _⟩)
        · cases here.symm.trans found
          exact notSubDevice same
        · cases here.symm.trans found
          exact notPerThread same

/-- What the loop leaves in the vector, from an index down. -/
structure BuiltinsResolved (rounds : Nat) (state after : State) : Prop where
  keeps : Keeps state after
  old : ∀ entry ∈ after.outUnresolvedExternals, entry ∈ state.outUnresolvedExternals
  stays : ∀ entry ∈ state.outUnresolvedExternals,
    ¬ Builtin (state.kernelDescriptors.map KernelDescriptor.kernelName)
      entry.unresolvedRelocation → entry ∈ after.outUnresolvedExternals
  gone : (∀ j entry, rounds ≤ j → state.outUnresolvedExternals[j]? = some entry →
      ¬ Builtin (state.kernelDescriptors.map KernelDescriptor.kernelName)
        entry.unresolvedRelocation) →
    ∀ entry ∈ after.outUnresolvedExternals,
      ¬ Builtin (state.kernelDescriptors.map KernelDescriptor.kernelName)
        entry.unresolvedRelocation

theorem resolveBuiltinsFrom_ok {rounds : Nat}
    (ran : resolveBuiltinsFrom args rounds state = .ok after) :
    BuiltinsResolved rounds state after := by
  induction rounds generalizing state with
  | zero =>
    cases ran
    refine ⟨.refl _, fun _ member => member, fun _ member _ => member, ?_⟩
    intro clean entry member
    obtain ⟨j, here⟩ := List.mem_iff_getElem?.mp member
    exact clean j entry (Nat.zero_le _) here
  | succ vecIndex ih =>
    obtain ⟨middle, round, rest⟩ := Outcome.bind_eq_ok.mp ran
    obtain ⟨keeps, old, stays, gone⟩ := ih rest
    obtain ⟨firstKeeps, ⟨same, clean⟩ | ⟨removed, entry, here, builtin⟩⟩ := resolveBuiltin_ok round
    · rw [same, firstKeeps.kernels] at stays gone
      rw [same] at old
      refine ⟨firstKeeps.trans keeps, old, stays, ?_⟩
      intro cleanBehind
      apply gone
      intro j other behind found
      rcases Nat.eq_or_lt_of_le behind with rfl | later
      · exact clean other found
      · exact cleanBehind j other later found
    · obtain ⟨inside, _⟩ := List.getElem?_eq_some_iff.mp here
      rw [removed, firstKeeps.kernels] at stays gone
      rw [removed] at old
      refine ⟨firstKeeps.trans keeps, ?_, ?_, ?_⟩
      · intro other member
        obtain ⟨j, _, found⟩ := (mem_removeUnresolved inside).mp (old other member)
        exact List.mem_iff_getElem?.mpr ⟨j, found⟩
      · intro other member plain
        obtain ⟨j, found⟩ := List.mem_iff_getElem?.mp member
        apply stays other _ plain
        apply (mem_removeUnresolved inside).mpr
        refine ⟨j, ?_, found⟩
        rintro rfl
        rw [here] at found
        cases found
        exact plain builtin
      · intro cleanBehind
        apply gone
        intro j other behind found
        obtain ⟨k, later, original⟩ := removeUnresolved_behind behind found
        exact cleanBehind k other later original

/-- A vector of fewer than `2 ^ 31` elements is visited as a whole. -/
theorem builtinRounds_eq {size : Nat} (small : size < 2 ^ 31) : builtinRounds size = size := by
  unfold builtinRounds
  rcases Nat.eq_zero_or_pos size with rfl | some
  · decide
  · have index : sub64 size 1 = size - 1 := Word.sub_eq some (by omega)
    rw [index, Nat.mod_eq_of_lt (by omega)]
    simp only
    rw [if_pos (by omega)]
    omega

end Builtins

section Link

variable {resolveExternalFunctions : Bool} {result : LinkResult}

/-- The passes of a link that did not fail. -/
structure Passes (input : LinkerInput) (args : LinkArguments) (symbols : RelocatedSymbols)
    (state : State) (result : LinkResult) where
  patched : State
  data : DataState
  implicit : State
  instructionsRan : patchInstructionsSegments input args symbols state = .ok patched
  dataRan : patchDataSegments input args symbols patched = .ok data
  implicitRan : resolveImplicitArgs args data.state = .ok implicit
  builtinsRan : resolveBuiltins args implicit = .ok result.state
  constants : result.constantsTransfer =
    transferred args.globalConstants data.constantsData data.isAnyRelocationPerformed
  globalVariables : result.variablesTransfer =
    transferred args.globalVariables data.variablesData data.isAnyRelocationPerformed

theorem link_passes (ran : link input args resolveExternalFunctions state = .ok result)
    (linked : result.status ≠ .error) :
    ∃ symbols, relocateSymbols input args = some symbols ∧
      Nonempty (Passes input args symbols state result) := by
  unfold link at ran
  split at ran
  next =>
    cases ran
    exact absurd rfl linked
  next symbols relocated =>
    obtain ⟨patched, instructionsRan, ran⟩ := Outcome.bind_eq_ok.mp ran
    obtain ⟨data, dataRan, ran⟩ := Outcome.bind_eq_ok.mp ran
    obtain ⟨implicit, implicitRan, ran⟩ := Outcome.bind_eq_ok.mp ran
    obtain ⟨resolved, builtinsRan, ran⟩ := Outcome.bind_eq_ok.mp ran
    cases ran
    refine ⟨symbols, ?_, ⟨patched, data, implicit, instructionsRan, dataRan, implicitRan,
      builtinsRan, rfl, rfl⟩⟩
    split at relocated
    next => exact relocated
    next => cases relocated

/-- The unresolved externals before the builtins are resolved. -/
def unresolvedBefore (input : LinkerInput) (args : LinkArguments) (symbols : RelocatedSymbols) :
    List UnresolvedExternal :=
  input.textRelocations.zipIdx.flatMap (unresolvedOfSegment args symbols) ++
    (input.dataRelocations.filter (unplaced input args symbols)).map dataUnresolved

/-- How many relocations there are. -/
def relocationCount (input : LinkerInput) : Nat :=
  (input.textRelocations.map List.length).sum + input.dataRelocations.length

theorem unresolvedOfSegment_length (args : LinkArguments) (symbols : RelocatedSymbols)
    (relocations : List RelocationInfo × Nat) :
    (unresolvedOfSegment args symbols relocations).length ≤ relocations.1.length := by
  unfold unresolvedOfSegment
  split
  · exact Nat.zero_le _
  · exact List.length_filterMap_le _ _

theorem unresolvedBefore_length (input : LinkerInput) (args : LinkArguments)
    (symbols : RelocatedSymbols) :
    (unresolvedBefore input args symbols).length ≤ relocationCount input := by
  have instructions : ∀ segments : List (List RelocationInfo × Nat),
      (segments.flatMap (unresolvedOfSegment args symbols)).length ≤
        (segments.map fun segment => segment.1.length).sum := by
    intro segments
    induction segments with
    | nil => exact Nat.le_refl _
    | cons segment segments ih =>
      have first := unresolvedOfSegment_length args symbols segment
      rw [List.flatMap_cons, List.length_append, List.map_cons, List.sum_cons]
      omega
  have counted : (input.textRelocations.zipIdx.map fun segment => segment.1.length) =
      input.textRelocations.map List.length := by
    have projected := congrArg (List.map List.length)
      (List.zipIdx_map_fst 0 input.textRelocations)
    rw [List.map_map] at projected
    exact projected
  have text := instructions input.textRelocations.zipIdx
  have data := List.length_filter_le (unplaced input args symbols) input.dataRelocations
  rw [unresolvedBefore, relocationCount, List.length_append, List.length_map, ← counted]
  omega

/-- The unresolved externals of a link are those of before that are not builtins. -/
structure Reported (input : LinkerInput) (args : LinkArguments) (symbols : RelocatedSymbols)
    (kernelNames : List (List UInt8)) (reported : List UnresolvedExternal) : Prop where
  old : ∀ entry ∈ reported, entry ∈ unresolvedBefore input args symbols
  stays : ∀ entry ∈ unresolvedBefore input args symbols,
    ¬ Builtin kernelNames entry.unresolvedRelocation → entry ∈ reported
  gone : relocationCount input < 2 ^ 31 →
    ∀ entry ∈ reported, ¬ Builtin kernelNames entry.unresolvedRelocation

/-- The passes before the one over the builtins leave these entries and the kernels' names. -/
theorem implicit_before {kernelDescriptors : List KernelDescriptor}
    {instructions : Nat → Nat → UInt8} {patched implicit : State}
    (instructionsRan : patchInstructionsSegments input args symbols
      (.start kernelDescriptors instructions) = .ok patched)
    (dataRan : patchDataSegments input args symbols patched = .ok data)
    (implicitRan : resolveImplicitArgs args data.state = .ok implicit) :
    implicit.outUnresolvedExternals = unresolvedBefore input args symbols ∧
      implicit.kernelDescriptors.map KernelDescriptor.kernelName =
        kernelDescriptors.map KernelDescriptor.kernelName := by
  obtain ⟨instructionsOut, instructionsKeep⟩ := patchInstructionsSegments_ok instructionsRan
  obtain ⟨dataOut, dataKeep⟩ := patchDataSegments_ok dataRan
  obtain ⟨implicitOut, implicitKeep⟩ := resolveImplicitArgs_ok implicitRan
  constructor
  · rw [implicitOut, dataOut, instructionsOut]
    rfl
  · exact ((instructionsKeep.trans dataKeep).trans implicitKeep).kernels

theorem Passes.reported {kernelDescriptors : List KernelDescriptor}
    {instructions : Nat → Nat → UInt8}
    (passes : Passes input args symbols (.start kernelDescriptors instructions) result) :
    Reported input args symbols (kernelDescriptors.map KernelDescriptor.kernelName)
      result.state.outUnresolvedExternals := by
  obtain ⟨_, old, stays, gone⟩ := resolveBuiltinsFrom_ok passes.builtinsRan
  obtain ⟨before, kernels⟩ :=
    implicit_before passes.instructionsRan passes.dataRan passes.implicitRan
  rw [before] at old
  rw [before, kernels] at stays gone
  refine ⟨old, stays, ?_⟩
  intro few
  apply gone
  intro j entry behind here
  have length := unresolvedBefore_length input args symbols
  obtain ⟨inside, _⟩ := List.getElem?_eq_some_iff.mp here
  rw [builtinRounds_eq (by omega)] at behind
  omega

end Link

end ComputeRuntime.Linker
