import ComputeRuntime.Helpers.AlignedMemory
import ComputeRuntime.Helpers.DebugHelpers
import ComputeRuntime.Library.LittleEndian
import ComputeRuntime.Library.Memory
import Mathlib.Logic.Function.Basic

/-! The linker: it gives the symbols of a module their GPU addresses and patches them into the
module's instructions and into the initial data of its global variables and constants. -/
namespace ComputeRuntime

inductive SegmentType where
  | unknown
  | globalConstants
  | globalConstantsZeroInit
  | globalStrings
  | globalVariables
  | globalVariablesZeroInit
  | instructions
  deriving DecidableEq

def isDataSegment : SegmentType → Bool
  | .globalConstants | .globalConstantsZeroInit | .globalVariables | .globalVariablesZeroInit =>
    true
  | _ => false

structure SymbolInfo where
  offset : Nat
  size : Nat
  segment : SegmentType
  instructionSegmentId : Nat
  global : Bool
  deriving DecidableEq

/-- `other` is a number that an ELF file gives and the enumeration does not name. -/
inductive RelocationType where
  | unknown
  | address
  | addressLow
  | addressHigh
  | perThreadPayloadOffset
  | address16
  | other (relocType : Nat)
  deriving DecidableEq

structure RelocationInfo where
  symbolName : List UInt8
  offset : Nat
  type : RelocationType
  relocationSegment : SegmentType
  relocationSegmentName : List UInt8
  addend : Int
  deriving DecidableEq

inductive PointerSize where
  | ptr32bit
  | ptr64bit
  deriving DecidableEq

/-- The symbols are a map; every way to add a relocation of an instruction segment sets the trait
and the kind of segment, and numbers the segment by 32 bits; only a relocation of a data segment
is added to the data relocations. -/
structure LinkerInput where
  pointerSize : PointerSize
  requiresPatchingOfInstructionSegments : Bool
  symbols : List (List UInt8 × SymbolInfo)
  textRelocations : List (List RelocationInfo)
  dataRelocations : List RelocationInfo
  valid : Bool
  symbols_nodup : (symbols.map Prod.fst).Nodup
  requires : textRelocations ≠ [] → requiresPatchingOfInstructionSegments = true
  numbered : textRelocations.length ≤ 2 ^ 32
  kinds : ∀ relocations ∈ textRelocations, ∀ relocation ∈ relocations,
    relocation.relocationSegment = .instructions
  dataKinds : ∀ relocation ∈ dataRelocations, isDataSegment relocation.relocationSegment = true

structure SegmentInfo where
  gpuAddress : Nat
  segmentSize : Nat
  deriving DecidableEq

/-- No allocation is larger than the address space of 57 bits. -/
structure PatchableSegment where
  hostPointer : Nat
  gpuAddress : Nat
  segmentSize : Nat
  fits : segmentSize ≤ 2 ^ 57

/-- One of the two data segments: whether there is an allocation for it, and the initial data. A
segment whose allocation failed has size 0 although it may have initial data. -/
structure DataSegment where
  segInfo : SegmentInfo
  allocated : Bool
  initData : Option (List UInt8)
  initDataSize : Nat
  initData_length : ∀ bytes, initData = some bytes → bytes.length = initDataSize
  fits : segInfo.segmentSize ≤ 2 ^ 57

/-- The segment has room for its initial data. -/
def DataSegment.InitDataFits (segment : DataSegment) : Prop :=
  segment.initDataSize ≤ segment.segInfo.segmentSize

structure UnresolvedExternal where
  unresolvedRelocation : RelocationInfo
  instructionsSegmentId : Nat := 2 ^ 32 - 1
  internalError : Bool := false
  deriving DecidableEq

structure RelocatedSymbol where
  symbol : SymbolInfo
  gpuAddress : Nat
  deriving DecidableEq

structure KernelDescriptor where
  kernelName : List UInt8
  perThreadDataOffset : Nat
  useStackCalls : Bool
  requiresImplicitArgs : Bool
  deriving DecidableEq

/-- What the linker asks the device. -/
structure LinkerDevice where
  implicitArgsVersion : Nat
  isResolvingSubDeviceIDNeeded : Bool
  workPartitionAllocationGpuAddress : Nat
  debugger : Bool

/-- The arguments of a link. -/
structure LinkArguments where
  globalVariables : DataSegment
  globalConstants : DataSegment
  exportedFunctions : SegmentInfo
  globalStrings : SegmentInfo
  instructionsSegments : List PatchableSegment
  device : LinkerDevice
  userModule : Bool

/-- Both data segments have room for their initial data. -/
def LinkArguments.InitDataFits (args : LinkArguments) : Prop :=
  args.globalConstants.InitDataFits ∧ args.globalVariables.InitDataFits

namespace Linker

def subDeviceID : List UInt8 := ascii "__SubDeviceID"

def perThreadOff : List UInt8 := ascii "__INTEL_PER_THREAD_OFF"

def implicitArgsRelocationSymbolName : List UInt8 :=
  ascii "__INTEL_PATCH_CROSS_THREAD_OFFSET_OFF_R0"

/-- Where the linker stores: into an instruction segment, or into its copy of the data of a data
segment. -/
inductive Target where
  | instructions (segmentId : Nat)
  | globalConstants
  | globalVariables
  deriving DecidableEq

/-- What the linker accesses: an element of the vector of instruction segments, or some bytes at
an offset from the start of a segment, in pointer arithmetic. -/
inductive Access where
  | segment (index : Nat)
  | store (target : Target) (offset size : Nat)
  deriving DecidableEq

/-- The result of a part of the link; one that ends it keeps what was accessed before. -/
abbrev Linking (α : Type) := Except (Abort × List Access) α

abbrev RelocatedSymbols := List (List UInt8 × RelocatedSymbol)

/-- `pImplicitArgsRelocationAddresses` holds the segment, the offset in it and the type. -/
structure State where
  outUnresolvedExternals : List UnresolvedExternal
  pImplicitArgsRelocationAddresses : List (Nat × Nat × RelocationType)
  kernelDescriptors : List KernelDescriptor
  instructions : Nat → Nat → UInt8
  accesses : List Access

/-- A signed addend as it is added to a 64-bit address. -/
def toUint64 (addend : Int) : Nat := (addend % 2 ^ 64).toNat

/-- The GPU address of a symbol, if it is inside its segment. -/
def relocateSymbol (args : LinkArguments) (symbolInfo : SymbolInfo) : Option Nat :=
  if symbolInfo.segment = .instructions ∧ symbolInfo.global = false then
    match args.instructionsSegments[symbolInfo.instructionSegmentId]? with
    | none => none
    | some segment =>
      if segment.segmentSize < add64 symbolInfo.offset symbolInfo.size then none
      else some (add64 segment.gpuAddress symbolInfo.offset)
  else
    let place (seg : SegmentInfo) (offset : Nat) : Option Nat :=
      if seg.segmentSize < add64 offset symbolInfo.size then none
      else some (add64 seg.gpuAddress offset)
    match symbolInfo.segment with
    | .unknown => none
    | .globalVariables => place args.globalVariables.segInfo symbolInfo.offset
    | .globalVariablesZeroInit => place args.globalVariables.segInfo
        (add64 symbolInfo.offset args.globalVariables.initDataSize)
    | .globalConstants => place args.globalConstants.segInfo symbolInfo.offset
    | .globalConstantsZeroInit => place args.globalConstants.segInfo
        (add64 symbolInfo.offset args.globalConstants.initDataSize)
    | .globalStrings => place args.globalStrings symbolInfo.offset
    | .instructions => place args.exportedFunctions symbolInfo.offset

def relocateSymbols (input : LinkerInput) (args : LinkArguments) : Option RelocatedSymbols :=
  input.symbols.mapM fun (symbolName, symbolInfo) =>
    (relocateSymbol args symbolInfo).map fun gpuAddress => (symbolName, ⟨symbolInfo, gpuAddress⟩)

def addressSizeInBytes (relocationtype : RelocationType) : Nat :=
  if relocationtype = .address then 8 else 4

/-- The low bytes of a value, stored into an instruction segment. -/
def State.store (state : State) (segmentId offset size value : Nat) : State :=
  { state with
    instructions := Function.update state.instructions segmentId
      (Memory.copy (LittleEndian.byte value) 0 size offset (state.instructions segmentId))
    accesses := state.accesses ++ [.store (.instructions segmentId) offset size] }

def State.fail (state : State) (abort : Abort) : Linking State := .error (abort, state.accesses)

def State.unresolved (state : State) (unresolved : UnresolvedExternal) : State :=
  { state with outUnresolvedExternals := state.outUnresolvedExternals ++ [unresolved] }

def patchAddress (state : State) (segmentId value : Nat) (relocation : RelocationInfo) :
    Linking State :=
  match relocation.type with
  | .address => .ok (state.store segmentId relocation.offset 8 value)
  | .addressLow => .ok (state.store segmentId relocation.offset 4 (value % 2 ^ 32))
  | .addressHigh => .ok (state.store segmentId relocation.offset 4 (value / 2 ^ 32 % 2 ^ 32))
  | .address16 => .ok (state.store segmentId relocation.offset 2 (value % 2 ^ 16))
  | _ => state.fail .unrecoverable

/-- The body of the inner loop of `patchInstructionsSegments`. -/
def patchInstruction (relocatedSymbols : RelocatedSymbols) (segId : Nat)
    (segment : PatchableSegment) (state : State) (relocation : RelocationInfo) : Linking State :=
  if segment.hostPointer = 0 then state.fail .unrecoverable
  else if segment.segmentSize < add64 relocation.offset (addressSizeInBytes relocation.type) then
    .ok (state.unresolved ⟨relocation, segId % 2 ^ 32, true⟩)
  else if relocation.type = .perThreadPayloadOffset then
    match state.kernelDescriptors[segId]? with
    | none => state.fail .exception
    | some kernelDescriptor =>
      .ok (state.store segId relocation.offset 4 kernelDescriptor.perThreadDataOffset)
  else if relocation.symbolName = implicitArgsRelocationSymbolName then
    .ok { state with
      pImplicitArgsRelocationAddresses := state.pImplicitArgsRelocationAddresses ++
        [(segId % 2 ^ 32, relocation.offset, relocation.type)] }
  else if relocation.symbolName = [] then patchAddress state segId 0 relocation
  else
    match relocatedSymbols.lookup relocation.symbolName with
    | some symbol =>
      patchAddress state segId (add64 symbol.gpuAddress (toUint64 relocation.addend)) relocation
    | none => .ok (state.unresolved ⟨relocation, segId % 2 ^ 32, false⟩)

def State.access (state : State) (access : Access) : State :=
  { state with accesses := state.accesses ++ [access] }

/-- An element of the vector of instruction segments. -/
def instructionsSegment (args : LinkArguments) (state : State) (index : Nat) :
    Linking (PatchableSegment × State) :=
  let state := state.access (.segment index)
  match args.instructionsSegments[index]? with
  | none => .error (.outOfBounds, state.accesses)
  | some segment => .ok (segment, state)

/-- The body of the outer loop of `patchInstructionsSegments`. -/
def patchInstructionsSegment (args : LinkArguments) (relocatedSymbols : RelocatedSymbols)
    (state : State) (relocations : List RelocationInfo × Nat) : Linking State :=
  instructionsSegment args state relocations.2 >>= fun found =>
    relocations.1.foldlM (patchInstruction relocatedSymbols relocations.2 found.1) found.2

def patchInstructionsSegments (input : LinkerInput) (args : LinkArguments)
    (relocatedSymbols : RelocatedSymbols) (state : State) : Linking State :=
  if input.requiresPatchingOfInstructionSegments = false then .ok state
  else if args.instructionsSegments.length < input.textRelocations.length then
    state.fail .unrecoverable
  else input.textRelocations.zipIdx.foldlM (patchInstructionsSegment args relocatedSymbols) state

/-- The state of `patchDataSegments`: the copies of the data, as functions of the offset, and
whether a relocation was performed. -/
structure DataState where
  state : State
  constantsData : Nat → UInt8
  variablesData : Nat → UInt8
  isAnyRelocationPerformed : Bool

/-- The data of a segment before it is patched: `memcpy_s` copies nothing when the initial data do
not fit. -/
def initialData (segment : DataSegment) (offset : Nat) : UInt8 :=
  if segment.segInfo.segmentSize < segment.initDataSize then 0
  else (segment.initData.getD []).getD offset 0

/-- The part of a data segment that a relocation is for. -/
structure Subsegment where
  target : Target
  base : Nat
  size : Nat
  initData : Option (List UInt8)

def destination (args : LinkArguments) (relocationSegment : SegmentType) : Option Subsegment :=
  let afterInitData (target : Target) (segment : DataSegment) : Subsegment :=
    ⟨target, segment.initDataSize, sub64 segment.segInfo.segmentSize segment.initDataSize, none⟩
  match relocationSegment with
  | .globalConstants => some ⟨.globalConstants, 0, args.globalConstants.initDataSize,
      args.globalConstants.initData⟩
  | .globalConstantsZeroInit => some (afterInitData .globalConstants args.globalConstants)
  | .globalVariables => some ⟨.globalVariables, 0, args.globalVariables.initDataSize,
      args.globalVariables.initData⟩
  | .globalVariablesZeroInit => some (afterInitData .globalVariables args.globalVariables)
  | _ => none

def DataState.store (data : DataState) (target : Target) (offset size value : Nat) : DataState :=
  let write := Memory.copy (LittleEndian.byte value) 0 size offset
  { data with
    state := data.state.access (.store target offset size)
    constantsData :=
      if target = .globalConstants then write data.constantsData else data.constantsData
    variablesData :=
      if target = .globalVariables then write data.variablesData else data.variablesData }

/-- `PatchSizeT` has `patchSize` bytes. Without initial data the offset counts in this type. -/
def patchIncrement (data : DataState) (dst : Subsegment) (patchSize relocationOffset : Nat)
    (incrementValue : Nat) : DataState :=
  match dst.initData with
  | none => data.store dst.target (add64 dst.base (mul64 patchSize relocationOffset)) patchSize
      (incrementValue % 256 ^ patchSize)
  | some initData =>
    let initValue := LittleEndian.read (fun k => initData.getD (relocationOffset + k) 0) patchSize
    data.store dst.target (add64 dst.base relocationOffset) patchSize
      ((initValue + incrementValue) % 256 ^ patchSize)

def relocationTypeOf (pointerSize : PointerSize) (relocation : RelocationInfo) : RelocationType :=
  if pointerSize = .ptr32bit then .addressLow else relocation.type

/-- The body of the loop of `patchDataSegments`. -/
def patchData (input : LinkerInput) (args : LinkArguments) (relocatedSymbols : RelocatedSymbols)
    (data : DataState) (relocation : RelocationInfo) : Linking DataState :=
  let unresolved : DataState := { data with state := data.state.unresolved ⟨relocation, 2 ^ 32 - 1,
    false⟩ }
  match relocatedSymbols.lookup relocation.symbolName,
    destination args relocation.relocationSegment with
  | none, _ => .ok unresolved
  | some _, none => .ok unresolved
  | some symbol, some dst =>
    let relocType := relocationTypeOf input.pointerSize relocation
    if dst.size < add64 relocation.offset (addressSizeInBytes relocType) then .ok unresolved
    else
      let incrementValue := add64 symbol.gpuAddress (toUint64 relocation.addend)
      let data := { data with isAnyRelocationPerformed := true }
      match relocType with
      | .address => .ok (patchIncrement data dst 8 relocation.offset incrementValue)
      | .addressLow =>
        .ok (patchIncrement data dst 4 relocation.offset (incrementValue % 2 ^ 32))
      | .addressHigh =>
        .ok (patchIncrement data dst 4 relocation.offset (incrementValue / 2 ^ 32 % 2 ^ 32))
      | _ => .error (.unrecoverable, data.state.accesses)

def patchDataSegments (input : LinkerInput) (args : LinkArguments)
    (relocatedSymbols : RelocatedSymbols) (state : State) : Linking DataState :=
  input.dataRelocations.foldlM (patchData input args relocatedSymbols)
    ⟨state, initialData args.globalConstants, initialData args.globalVariables, false⟩

/-- The bytes that are transferred to the allocation of a data segment, if there is one. -/
def transferred (segment : DataSegment) (data : Nat → UInt8) (isAnyRelocationPerformed : Bool) :
    Option (List UInt8) :=
  if isAnyRelocationPerformed ∧ segment.allocated then
    some ((List.range segment.segInfo.segmentSize).map data)
  else none

/-- `getAlignedSize` of the two versions of the implicit arguments. -/
def implicitArgsAlignedSize (implicitArgsVersion : Nat) : Option Nat :=
  if implicitArgsVersion = 0 then some 128 else if implicitArgsVersion = 1 then some 160 else none

/-- The body of the inner loop of `resolveImplicitArgs`, for kernel `i`. -/
def resolveImplicitArg (args : LinkArguments) (i : Nat) (state : State)
    (pImplicitArgsReloc : Nat × RelocationType) : Linking State :=
  match state.kernelDescriptors[i]? with
  | none => .ok state
  | some kernelDescriptor =>
    let addImplcictArgs := kernelDescriptor.useStackCalls ||
      (args.userModule && args.device.debugger)
    let requiresImplicitArgs := kernelDescriptor.requiresImplicitArgs || addImplcictArgs
    let state := { state with
      kernelDescriptors := state.kernelDescriptors.set i
        { kernelDescriptor with requiresImplicitArgs } }
    if requiresImplicitArgs then
      match implicitArgsAlignedSize args.device.implicitArgsVersion with
      | none => state.fail .unrecoverable
      | some implicitArgsSize =>
        let patchSize := if pImplicitArgsReloc.2 = .address then 8 else 4
        .ok (state.store i pImplicitArgsReloc.1 patchSize implicitArgsSize)
    else .ok state

def resolveImplicitArgs (args : LinkArguments) (state : State) : Linking State :=
  (List.range state.kernelDescriptors.length).foldlM (fun current i =>
    ((state.pImplicitArgsRelocationAddresses.filter fun reloc => reloc.1 = i).map
      Prod.snd).foldlM (resolveImplicitArg args i) current) state

/-- The vector without the element at an index, whose place the last one takes. -/
def removeUnresolved (unresolved : List UnresolvedExternal) (vecIndex : Nat) :
    List UnresolvedExternal :=
  match unresolved.getLast? with
  | none => []
  | some last => (unresolved.set vecIndex last).dropLast

def State.remove (state : State) (vecIndex : Nat) : State :=
  { state with
    outUnresolvedExternals := removeUnresolved state.outUnresolvedExternals vecIndex }

/-- An unresolved relocation is patched after all. -/
def patchBuiltin (args : LinkArguments) (state : State) (unresolved : UnresolvedExternal)
    (value : Nat) : Linking State := do
  let (_, state) ← instructionsSegment args state unresolved.instructionsSegmentId
  patchAddress state unresolved.instructionsSegmentId value unresolved.unresolvedRelocation

/-- The kernel a relocation section is for; `substr` of a name shorter than the prefix throws. -/
def kernelOfSection (kernelDescriptors : List KernelDescriptor)
    (relocationSegmentName : List UInt8) : Option (Option KernelDescriptor) :=
  if relocationSegmentName.length < (ascii ".text.").length then none
  else some (kernelDescriptors.find? fun kernelDescriptor =>
    kernelDescriptor.kernelName = relocationSegmentName.drop (ascii ".text.").length)

/-- The body of the loop of `resolveBuiltins`. -/
def resolveBuiltin (args : LinkArguments) (state : State) (vecIndex : Nat) : Linking State :=
  match state.outUnresolvedExternals[vecIndex]? with
  | none => .ok state
  | some unresolved =>
    if unresolved.unresolvedRelocation.symbolName = subDeviceID then
      (if args.device.isResolvingSubDeviceIDNeeded then
        patchBuiltin args state unresolved args.device.workPartitionAllocationGpuAddress
      else .ok state) >>= fun state => .ok (state.remove vecIndex)
    else if unresolved.unresolvedRelocation.symbolName = perThreadOff then
      match kernelOfSection state.kernelDescriptors
        unresolved.unresolvedRelocation.relocationSegmentName with
      | none => state.fail .exception
      | some none => .ok state
      | some (some kernelDescriptor) =>
        patchBuiltin args state unresolved kernelDescriptor.perThreadDataOffset >>= fun state =>
          .ok (state.remove vecIndex)
    else .ok state

/-- The loop of `resolveBuiltins`, from the index below `rounds` down to 0. -/
def resolveBuiltinsFrom (args : LinkArguments) : Nat → State → Linking State
  | 0, state => .ok state
  | vecIndex + 1, state => resolveBuiltin args state vecIndex >>= resolveBuiltinsFrom args vecIndex

/-- How many elements the loop visits, from the back: its index is an `int`, so a size beyond its
range leaves some out. -/
@[irreducible] def builtinRounds (size : Nat) : Nat :=
  let vecIndex := sub64 size 1 % 2 ^ 32
  if vecIndex < 2 ^ 31 then vecIndex + 1 else 0

def resolveBuiltins (args : LinkArguments) (state : State) : Linking State :=
  resolveBuiltinsFrom args (builtinRounds state.outUnresolvedExternals.length) state

inductive LinkingStatus where
  | error
  | linkedFully
  | linkedPartially
  deriving DecidableEq

structure LinkResult where
  status : LinkingStatus
  relocatedSymbols : RelocatedSymbols
  state : State
  constantsTransfer : Option (List UInt8)
  variablesTransfer : Option (List UInt8)

/-- `resolveExternalFunctions` is what that function returns. -/
def link (input : LinkerInput) (args : LinkArguments) (resolveExternalFunctions : Bool)
    (state : State) : Linking LinkResult :=
  match if input.valid then relocateSymbols input args else none with
  | none => .ok ⟨.error, [], state, none, none⟩
  | some relocatedSymbols => do
    let initialUnresolvedExternalsCount := state.outUnresolvedExternals.length
    let patched ← patchInstructionsSegments input args relocatedSymbols state
    let data ← patchDataSegments input args relocatedSymbols patched
    let implicit ← resolveImplicitArgs args data.state
    let resolved ← resolveBuiltins args implicit
    let status :=
      if initialUnresolvedExternalsCount < resolved.outUnresolvedExternals.length then
        LinkingStatus.linkedPartially
      else if resolveExternalFunctions then .linkedFully else .error
    .ok ⟨status, relocatedSymbols.filter fun symbol => symbol.2.symbol.global, resolved,
      transferred args.globalConstants data.constantsData data.isAnyRelocationPerformed,
      transferred args.globalVariables data.variablesData data.isAnyRelocationPerformed⟩

/-- A linker that has just been made, with the list that its callers pass to `link`. -/
def State.start (kernelDescriptors : List KernelDescriptor) (instructions : Nat → Nat → UInt8) :
    State :=
  ⟨[], [], kernelDescriptors, instructions, []⟩

end Linker

end ComputeRuntime
