import Mathlib.Logic.Function.Basic
import Mathlib.Algebra.Group.Nat.Defs

/-! The machine that register commands run on. A general purpose register has 64 bits, of which
a register command sees one half; register arithmetic sees it whole. -/
namespace ComputeRuntime.CommandEncoder

namespace RegisterOffsets

def gpgpuDispatchDimX : Nat := 0x2500
def gpgpuDispatchDimY : Nat := 0x2504
def gpgpuDispatchDimZ : Nat := 0x2508

def gpgpuDispatchDim : Fin 3 → Nat
  | 0 => gpgpuDispatchDimX
  | 1 => gpgpuDispatchDimY
  | 2 => gpgpuDispatchDimZ

def csGprR0 : Nat := 0x2600
def csGprR1 : Nat := 0x2608
def csGprR2 : Nat := 0x2610
def csGprR5 : Nat := 0x2628
def csGprR6 : Nat := 0x2630
def csGprR7 : Nat := 0x2638
def csGprR8 : Nat := 0x2640
def bcs0Base : Nat := 0x20000

end RegisterOffsets

/-- The opcodes and the operands of register arithmetic that are used here. -/
inductive AluRegisters where
  | opcodeNone
  | opcodeLoad
  | opcodeStore
  | opcodeAdd
  | opcodeSub
  | opcodeAnd
  | gpr (number : Nat)
  | srca
  | srcb
  | accu
  | zf
  | cf
  deriving DecidableEq

structure AluInst where
  opcode : AluRegisters
  operand1 : AluRegisters
  operand2 : AluRegisters
  deriving DecidableEq

inductive Command where
  | loadRegisterImm (registerOffset dataDword : Nat)
  | loadRegisterReg (destination source : Nat)
  | loadRegisterMem (registerAddress memoryAddress : Nat)
  | storeRegisterMem (registerAddress memoryAddress : Nat)
  | math (instructions : List AluInst)
  deriving DecidableEq

/-- The size of a command in bytes. -/
def Command.size : Command → Nat
  | .loadRegisterImm _ _ => 12
  | .loadRegisterReg _ _ => 12
  | .loadRegisterMem _ _ => 16
  | .storeRegisterMem _ _ => 16
  | .math instructions => 4 + 4 * instructions.length

def low (word : BitVec 64) : BitVec 32 := word.setWidth 32

def high (word : BitVec 64) : BitVec 32 := word.extractLsb' 32 32

/-- The registers, and the memory by dwords. -/
structure Machine where
  gpr : Nat → BitVec 64
  mmio : Nat → BitVec 32
  memory : Nat → BitVec 32

/-- What a set flag is stored as. All that is known of it is its lowest bit. -/
structure StoredFlag where
  word : BitVec 64
  lowest : word.getLsbD 0 = true

/-- The offset of the first general purpose register of an engine. -/
def gprBase (isBcs : Bool) : Nat :=
  RegisterOffsets.csGprR0 + if isBcs then RegisterOffsets.bcs0Base else 0

/-- The general purpose register that an offset is a half of, and whether it is the upper one. -/
def gprHalf (isBcs : Bool) (offset : Nat) : Option (Nat × Bool) :=
  if gprBase isBcs ≤ offset ∧ offset < gprBase isBcs + 128 then
    some ((offset - gprBase isBcs) / 8, (offset - gprBase isBcs) / 4 % 2 == 1)
  else none

namespace Machine

def setGpr (m : Machine) (number : Nat) (value : BitVec 64) : Machine :=
  { m with gpr := Function.update m.gpr number value }

def readRegister (isBcs : Bool) (m : Machine) (offset : Nat) : BitVec 32 :=
  match gprHalf isBcs offset with
  | some (number, false) => low (m.gpr number)
  | some (number, true) => high (m.gpr number)
  | none => m.mmio offset

def writeRegister (isBcs : Bool) (m : Machine) (offset : Nat) (value : BitVec 32) : Machine :=
  match gprHalf isBcs offset with
  | some (number, false) => m.setGpr number (high (m.gpr number) ++ value)
  | some (number, true) => m.setGpr number (value ++ low (m.gpr number))
  | none => { m with mmio := Function.update m.mmio offset value }

/-- A command holds an address without its two lowest bits. -/
def store (m : Machine) (address : Nat) (value : BitVec 32) : Machine :=
  { m with memory := Function.update m.memory (address / 4) value }

end Machine

/-- The registers of the arithmetic unit. -/
structure Alu where
  srca : BitVec 64 := 0
  srcb : BitVec 64 := 0
  accu : BitVec 64 := 0
  zf : Bool := false
  cf : Bool := false

/-- What an instruction that stores takes from the unit. -/
def Alu.result (flag : StoredFlag) (alu : Alu) : AluRegisters → BitVec 64
  | .accu => alu.accu
  | .zf => if alu.zf then flag.word else 0
  | .cf => if alu.cf then flag.word else 0
  | _ => 0

def AluInst.run (flag : StoredFlag) (state : Alu × Machine) (inst : AluInst) : Alu × Machine :=
  let (alu, m) := state
  match inst.opcode, inst.operand1, inst.operand2 with
  | .opcodeLoad, .srca, .gpr number => ({ alu with srca := m.gpr number }, m)
  | .opcodeLoad, .srcb, .gpr number => ({ alu with srcb := m.gpr number }, m)
  | .opcodeAdd, _, _ =>
    ({ alu with
      accu := alu.srca + alu.srcb
      zf := alu.srca + alu.srcb == 0
      cf := decide (2 ^ 64 ≤ alu.srca.toNat + alu.srcb.toNat) }, m)
  | .opcodeSub, _, _ =>
    ({ alu with
      accu := alu.srca - alu.srcb
      zf := alu.srca - alu.srcb == 0
      cf := alu.srca.ult alu.srcb }, m)
  | .opcodeAnd, _, _ =>
    ({ alu with accu := alu.srca &&& alu.srcb, zf := alu.srca &&& alu.srcb == 0 }, m)
  | .opcodeStore, .gpr number, source => (alu, m.setGpr number (alu.result flag source))
  | _, _, _ => state

def Command.run (isBcs : Bool) (flag : StoredFlag) (m : Machine) : Command → Machine
  | .loadRegisterImm registerOffset dataDword =>
    m.writeRegister isBcs registerOffset (.ofNat 32 dataDword)
  | .loadRegisterReg destination source =>
    m.writeRegister isBcs destination (m.readRegister isBcs source)
  | .loadRegisterMem registerAddress memoryAddress =>
    m.writeRegister isBcs registerAddress (m.memory (memoryAddress / 4))
  | .storeRegisterMem registerAddress memoryAddress =>
    m.store memoryAddress (m.readRegister isBcs registerAddress)
  | .math instructions => (instructions.foldl (AluInst.run flag) ({}, m)).2

def run (isBcs : Bool) (flag : StoredFlag) (commands : List Command) (m : Machine) : Machine :=
  commands.foldl (Command.run isBcs flag) m

section Halves

@[simp] theorem low_append (upper lower : BitVec 32) : low (upper ++ lower) = lower := by
  unfold low
  exact BitVec.setWidth_append_eq_right

@[simp] theorem high_append (upper lower : BitVec 32) : high (upper ++ lower) = upper := by
  unfold high
  exact BitVec.extractLsb'_append_eq_left

@[simp] theorem low_add (a b : BitVec 64) : low (a + b) = low a + low b :=
  BitVec.setWidth_add a b (by decide)

@[simp] theorem low_and (a b : BitVec 64) : low (a &&& b) = low a &&& low b :=
  BitVec.setWidth_and

end Halves

end ComputeRuntime.CommandEncoder
