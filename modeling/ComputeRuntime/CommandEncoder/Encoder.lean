import ComputeRuntime.CommandEncoder.Machine
import ComputeRuntime.Helpers.AlignedMemory

/-! The commands that the encoders emit. -/
namespace ComputeRuntime.CommandEncoder

open RegisterOffsets

namespace EncodeSetMmio

def encodeIMM (offset data : Nat) (remap isBcs : Bool) : Command :=
  .loadRegisterImm (offset + if isBcs && remap then bcs0Base else 0) data

def encodeMEM (offset address : Nat) (isBcs : Bool) : Command :=
  .loadRegisterMem (if isBcs then offset + bcs0Base else offset) address

def encodeREG (dstOffset srcOffset : Nat) (isBcs : Bool) : Command :=
  if isBcs then .loadRegisterReg (dstOffset + bcs0Base) (srcOffset + bcs0Base)
  else .loadRegisterReg dstOffset srcOffset

end EncodeSetMmio

/-- Without an offset for the partition, which no caller here asks for. -/
def EncodeStoreMmio.encode (offset address : Nat) (isBcs : Bool) : Command :=
  .storeRegisterMem (if isBcs then offset + bcs0Base else offset) address

namespace EncodeMathMmio

def encodeAlu (srcA srcB op finalResultRegister postOperationStateRegister : AluRegisters) :
    List AluInst :=
  [⟨.opcodeLoad, .srca, srcA⟩, ⟨.opcodeLoad, .srcb, srcB⟩, ⟨op, .opcodeNone, .opcodeNone⟩,
    ⟨.opcodeStore, finalResultRegister, postOperationStateRegister⟩]

def encodeAluAdd (firstOperandRegister secondOperandRegister finalResultRegister : AluRegisters) :
    List AluInst :=
  encodeAlu firstOperandRegister secondOperandRegister .opcodeAdd finalResultRegister .accu

/-- `regB` is subtracted from `regA`. -/
def encodeAluSubStoreCarry (regA regB finalResultRegister : AluRegisters) : List AluInst :=
  encodeAlu regA regB .opcodeSub finalResultRegister .cf

def encodeAluAnd (firstOperandRegister secondOperandRegister finalResultRegister : AluRegisters) :
    List AluInst :=
  encodeAlu firstOperandRegister secondOperandRegister .opcodeAnd finalResultRegister .accu

end EncodeMathMmio

namespace EncodeMath

def greaterThan (firstOperandRegister secondOperandRegister finalResultRegister : AluRegisters) :
    Command :=
  .math (EncodeMathMmio.encodeAluSubStoreCarry secondOperandRegister firstOperandRegister
    finalResultRegister)

def addition (firstOperandRegister secondOperandRegister finalResultRegister : AluRegisters) :
    Command :=
  .math (EncodeMathMmio.encodeAluAdd firstOperandRegister secondOperandRegister
    finalResultRegister)

def bitwiseAnd (firstOperandRegister secondOperandRegister finalResultRegister : AluRegisters) :
    Command :=
  .math (EncodeMathMmio.encodeAluAnd firstOperandRegister secondOperandRegister
    finalResultRegister)

end EncodeMath

namespace EncodeMathMmio

/-- The loop that counts the bits of a 32-bit value, which may turn 32 times. -/
def countLogLws (val : Nat) : Nat → Nat → Nat
  | 0, logLws => logLws
  | turns + 1, logLws =>
    if val >>> logLws ≠ 0 then countLogLws val turns (logLws + 1) else logLws

/-- One turn of the loop over the bits. -/
def encodeBit (val i : Nat) (isBcs : Bool) : List Command :=
  (if val &&& 1 <<< i ≠ 0 then
    [EncodeMath.addition (.gpr 1) (.gpr 0) (.gpr 2),
      EncodeSetMmio.encodeREG csGprR1 csGprR2 isBcs]
  else []) ++
  [EncodeMath.addition (.gpr 0) (.gpr 0) (.gpr 2),
    EncodeSetMmio.encodeREG csGprR0 csGprR2 isBcs]

/-- The store is the last of the commands. -/
def encodeMulRegVal (offset val dstAddress : Nat) (isBcs : Bool) : List Command :=
  let logLws := countLogLws val 32 0
  [EncodeSetMmio.encodeREG csGprR0 offset isBcs,
    EncodeSetMmio.encodeIMM csGprR1 0 true isBcs] ++
  (List.range logLws).flatMap (encodeBit val · isBcs) ++
  [EncodeStoreMmio.encode csGprR1 dstAddress isBcs]

end EncodeMathMmio

/-- A command that is given another address later, by its place in the stream. -/
structure EncodeStoreMMIOParams where
  command : Nat
  address : Nat
  offset : Nat
  isBcs : Bool
  deriving DecidableEq

/-- What is to be stored in inline data, whose address is not known yet. -/
structure IndirectParamsInInlineDataArgs where
  commandsToPatch : List EncodeStoreMMIOParams := []
  storeGlobalWorkSizeInInlineData : Fin 3 → Bool := fun _ => false
  storeWorkDimInInlineData : Bool := false

/-- Offsets have 16 bits. -/
def undefinedOffset : Nat := 0xFFFF

def isUndefinedOffset (offset : Nat) : Bool := offset == undefinedOffset

def isValidOffset (offset : Nat) : Bool := !isUndefinedOffset offset

namespace EncodeIndirectParams

/-- Where the global size of a dimension goes. -/
def patchLocation (offsets : Fin 3 → Nat) (crossThreadAddress : Nat)
    (outArgs : Option IndirectParamsInInlineDataArgs) (i : Fin 3) : Nat :=
  if outArgs.any (·.storeGlobalWorkSizeInInlineData i) then offsets i
  else add64 crossThreadAddress (offsets i)

/-- One turn of the loop over the dimensions, on the stream and the arguments. -/
def setGlobalWorkSize (offsets : Fin 3 → Nat) (crossThreadAddress : Nat) (lws : Fin 3 → Nat)
    (state : List Command × Option IndirectParamsInInlineDataArgs) (i : Fin 3) :
    List Command × Option IndirectParamsInInlineDataArgs :=
  if isUndefinedOffset (offsets i) then state
  else
    let location := patchLocation offsets crossThreadAddress state.2 i
    let stream := state.1 ++
      EncodeMathMmio.encodeMulRegVal (gpgpuDispatchDim i) (lws i) location false
    (stream, state.2.map fun outArgs =>
      if outArgs.storeGlobalWorkSizeInInlineData i then
        { outArgs with commandsToPatch := outArgs.commandsToPatch ++
          [⟨stream.length - 1, location, csGprR1, false⟩] }
      else outArgs)

def setGlobalWorkSizeIndirect (stream : List Command) (offsets : Fin 3 → Nat)
    (crossThreadAddress : Nat) (lws : Fin 3 → Nat)
    (outArgs : Option IndirectParamsInInlineDataArgs) :
    List Command × Option IndirectParamsInInlineDataArgs :=
  [0, 1, 2].foldl (setGlobalWorkSize offsets crossThreadAddress lws) (stream, outArgs)

/-- The commands that were noted down are given their addresses in the inline data. -/
def applyInlineDataGpuVA (args : IndirectParamsInInlineDataArgs) (inlineDataGpuVa : Nat)
    (stream : List Command) : List Command :=
  args.commandsToPatch.foldl (fun stream commandArgs =>
    stream.set commandArgs.command (EncodeStoreMmio.encode commandArgs.offset
      (add64 commandArgs.address inlineDataGpuVa) commandArgs.isBcs)) stream

/-- The bits below the addressed byte. -/
def offsetBits (dstPtr : Nat) : Nat := ((1 <<< (8 * (dstPtr % 4))) - 1) % 2 ^ 32

/-- All bits but those of the addressed byte. -/
def memoryMask (dstPtr : Nat) : Nat :=
  Word.add 32 (2 ^ 32 - 1 - ((1 <<< (8 * (dstPtr % 4 + 1))) - 1) % 2 ^ 32) (offsetBits dstPtr)

/-- The other bytes of the dword go to register 7, and the bits below the byte to register 8. -/
def saveOtherBytes (dstPtr : Nat) : List Command :=
  [EncodeSetMmio.encodeMEM csGprR7 dstPtr false,
    EncodeSetMmio.encodeIMM csGprR8 (memoryMask dstPtr) true false,
    EncodeMath.bitwiseAnd (.gpr 8) (.gpr 7) (.gpr 7),
    EncodeSetMmio.encodeIMM csGprR8 (offsetBits dstPtr) true false]

/-- Register 3 tells whether the dimension is 3, and register 4 whether it is at least 2. -/
def compareGroupCounts (groupSize1 : Nat) : List Command :=
  [EncodeSetMmio.encodeIMM csGprR5 1 true false,
    EncodeSetMmio.encodeIMM csGprR6 2 true false,
    EncodeSetMmio.encodeREG csGprR1 (gpgpuDispatchDim 2) false,
    EncodeMath.greaterThan (.gpr 1) (.gpr 5) (.gpr 3),
    EncodeMath.bitwiseAnd (.gpr 3) (.gpr 5) (.gpr 3),
    EncodeSetMmio.encodeIMM csGprR0 groupSize1 true false,
    EncodeSetMmio.encodeREG csGprR1 (gpgpuDispatchDim 1) false,
    EncodeMath.addition (.gpr 0) (.gpr 1) (.gpr 0),
    EncodeMath.addition (.gpr 0) (.gpr 3) (.gpr 0),
    EncodeMath.greaterThan (.gpr 0) (.gpr 6) (.gpr 4),
    EncodeMath.bitwiseAnd (.gpr 4) (.gpr 5) (.gpr 4)]

/-- Adding the bits below the byte carries a one to its lowest bit. -/
def moveToByte : List Command :=
  [EncodeMath.addition (.gpr 5) (.gpr 8) (.gpr 5),
    EncodeMath.addition (.gpr 3) (.gpr 8) (.gpr 3),
    EncodeMath.bitwiseAnd (.gpr 3) (.gpr 5) (.gpr 3),
    EncodeMath.addition (.gpr 4) (.gpr 8) (.gpr 4),
    EncodeMath.bitwiseAnd (.gpr 4) (.gpr 5) (.gpr 4)]

def sumUp : List Command :=
  [EncodeSetMmio.encodeREG csGprR0 csGprR5 false,
    EncodeMath.addition (.gpr 0) (.gpr 4) (.gpr 0),
    EncodeMath.addition (.gpr 0) (.gpr 3) (.gpr 0)]

def restoreOtherBytes : List Command := [EncodeMath.addition (.gpr 0) (.gpr 7) (.gpr 0)]

/-- The commands for a local size of 1 in the last dimension. -/
def encodeWorkDim (dstPtr : Nat) (groupSize1 : Nat) : List Command :=
  (if offsetBits dstPtr ≠ 0 then saveOtherBytes dstPtr else []) ++
  compareGroupCounts groupSize1 ++
  (if offsetBits dstPtr ≠ 0 then moveToByte else []) ++
  sumUp ++
  if offsetBits dstPtr ≠ 0 then restoreOtherBytes else []

def setWorkDimIndirect (stream : List Command) (workDimOffset crossThreadAddress : Nat)
    (groupSize : Fin 3 → Nat) (outArgs : Option IndirectParamsInInlineDataArgs) :
    List Command × Option IndirectParamsInInlineDataArgs :=
  if isValidOffset workDimOffset then
    let dstPtr := add64 crossThreadAddress workDimOffset
    let stream := stream ++
      (if groupSize 2 > 1 then
        [EncodeSetMmio.encodeIMM csGprR0 (3 <<< (8 * (dstPtr % 4))) true false]
      else encodeWorkDim dstPtr (groupSize 1)) ++
      [EncodeStoreMmio.encode csGprR0 dstPtr false]
    (stream, outArgs.map fun outArgs =>
      if outArgs.storeWorkDimInInlineData then
        { outArgs with commandsToPatch := outArgs.commandsToPatch ++
          [⟨stream.length - 1, workDimOffset, csGprR0, false⟩] }
      else outArgs)
  else (stream, outArgs)

def aluCmdSize : Nat := 4 + 4 * 4

def getCmdsSizeForSetWorkDimIndirect (groupSize : Fin 3 → Nat) (misaligedPtr : Bool) : Nat :=
  16 + 12 + if groupSize 2 < 2 then
    2 * 12 + 3 * 12 + 8 * aluCmdSize + if misaligedPtr then 2 * 12 + 16 + 7 * aluCmdSize else 0
  else 0

end EncodeIndirectParams

end ComputeRuntime.CommandEncoder
