import ComputeRuntime.Helpers.AlignedMemory
import Mathlib.Data.Nat.Notation

/-! Arguments in shared local memory: the offsets that a kernel keeps for them, and the variables
that take them over when the kernel is appended to a mutable command list. -/
namespace ComputeRuntime.MutableCmdList.Slm

/-- `undefined<SlmOffset>`. -/
def undefinedSlmOffset : ℕ := 2 ^ 32 - 1

/-- `alignUp<SlmOffset>`. -/
def alignUpSlm (before alignment : ℕ) : ℕ :=
  let mask := Word.sub 64 alignment 1 % 2 ^ 32
  Word.add 32 before mask &&& Word.not 32 mask

/-- An argument of a kernel: the offset in its cross-thread data, and the size and the offset that
were recorded when it was set. -/
structure SlmArg where
  requiredSlmAlignment : ℕ
  slmOffset : ℕ
  slmArgSize : ℕ
  slmArgOffsetValue : ℕ
  deriving DecidableEq

structure Kernel where
  args : List SlmArg
  slmArgsTotalSize : ℕ
  deriving DecidableEq

/-- The arguments behind the one that is set get new offsets, but none is recorded for them. -/
def patchSlmOffsets : ℕ → List SlmArg → List SlmArg × ℕ
  | slmOffset, [] => ([], slmOffset)
  | slmOffset, arg :: args =>
    let slmOffset := alignUpSlm slmOffset arg.requiredSlmAlignment
    let rest := patchSlmOffsets (Word.add 32 slmOffset arg.slmArgSize) args
    ({ arg with slmOffset := slmOffset } :: rest.1, rest.2)

/-- The arguments after one is set, and the end of the last one. -/
def setArgs (argSize : ℕ) : ℕ → List SlmArg → List SlmArg × Option ℕ
  | _, [] => ([], none)
  | 0, arg :: args =>
    let arg := { arg with
      slmArgSize := argSize % 2 ^ 32
      slmArgOffsetValue := arg.slmOffset }
    let rest := patchSlmOffsets (Word.add 32 arg.slmOffset arg.slmArgSize) args
    (arg :: rest.1, some rest.2)
  | argIndex + 1, arg :: args =>
    let rest := setArgs argSize argIndex args
    (arg :: rest.1, rest.2)

/-- `setArgBuffer` for an argument in local memory. -/
def Kernel.setArgBuffer (k : Kernel) (argIndex argSize : ℕ) : Kernel :=
  let set := setArgs argSize argIndex k.args
  { args := set.1
    slmArgsTotalSize :=
      match set.2 with
      | none => k.slmArgsTotalSize
      | some slmOffset => alignUpSlm slmOffset MemoryConstants.kiloByte }

/-- The arguments from one on are set, one after the other. -/
def Kernel.setInOrder : Kernel → ℕ → List ℕ → Kernel
  | k, _, [] => k
  | k, argIndex, argSize :: sizes =>
    (k.setArgBuffer argIndex argSize).setInOrder (argIndex + 1) sizes

/-- The variable of an argument, with what is in the command's payload for it. -/
structure SlmVariable where
  slmAlignment : ℕ
  slmSize : ℕ
  slmOffsetValue : ℕ
  payload : ℕ
  deriving DecidableEq

/-- `processVariableDispatchForSlm` of a variable that ends at the offset, with the variables that
come next. The offset of the next one is computed anew, and of those behind it as long as that
changes something; behind the last one the total is set. -/
def processVariableDispatchForSlm : ℕ → List SlmVariable → List SlmVariable × Option ℕ
  | nextSlmOffset, [] => ([], some (alignUpSlm nextSlmOffset MemoryConstants.kiloByte))
  | nextSlmOffset, v :: vs =>
    let alignedNewOffset := alignUpSlm nextSlmOffset v.slmAlignment
    if alignedNewOffset = v.slmOffsetValue then (v :: vs, none)
    else
      let rest := processVariableDispatchForSlm (Word.add 32 alignedNewOffset v.slmSize) vs
      ({ v with slmOffsetValue := alignedNewOffset, payload := alignedNewOffset } :: rest.1, rest.2)

/-- `setSlmBufferVariable` of one of the variables, and the total if it is set. -/
def setSlmBufferVariable (size : ℕ) : ℕ → List SlmVariable → List SlmVariable × Option ℕ
  | _, [] => ([], none)
  | 0, v :: vs =>
    if v.slmSize = size % 2 ^ 32 then (v :: vs, none)
    else
      let v := { v with slmSize := size % 2 ^ 32 }
      let rest := processVariableDispatchForSlm (Word.add 32 v.slmOffsetValue v.slmSize) vs
      (v :: rest.1, rest.2)
  | argument + 1, v :: vs =>
    let rest := setSlmBufferVariable size argument vs
    (v :: rest.1, rest.2)

/-- A kernel that a command can be switched to. The template has the offsets of its cross-thread
data from when the command was appended. -/
structure MutableKernel where
  template : List ℕ
  kernelVariables : List SlmVariable
  slmArgsTotalSize : ℕ
  deriving DecidableEq

def Kernel.capture (k : Kernel) : MutableKernel where
  template := k.args.map SlmArg.slmOffset
  kernelVariables := k.args.map fun arg =>
    ⟨arg.requiredSlmAlignment, arg.slmArgSize, arg.slmArgOffsetValue, arg.slmOffset⟩
  slmArgsTotalSize := k.slmArgsTotalSize

def MutableKernel.setSlmArgument (m : MutableKernel) (argument size : ℕ) : MutableKernel :=
  let set := setSlmBufferVariable size argument m.kernelVariables
  { m with kernelVariables := set.1, slmArgsTotalSize := set.2.getD m.slmArgsTotalSize }

def SlmVariable.resetSlmVariable (v : SlmVariable) : SlmVariable :=
  { v with slmOffsetValue := undefinedSlmOffset, slmSize := undefinedSlmOffset }

def MutableKernel.resetSlmVariables (m : MutableKernel) : MutableKernel :=
  { m with kernelVariables := m.kernelVariables.map SlmVariable.resetSlmVariable }

def MutableKernel.copyTemplateViewIndirectData (m : MutableKernel) : MutableKernel :=
  { m with kernelVariables := List.zipWith (fun v t => { v with payload := t }) m.kernelVariables m.template }

/-- A command with the kernels it can run. The payload is that of the current kernel. -/
structure MutableKernelGroup where
  kernels : List MutableKernel
  current : ℕ
  deriving DecidableEq

inductive Update where
  | argument (index size : ℕ)
  | kernel (index : ℕ)
  deriving DecidableEq

/-- `updateMutableCommandsExp` and `updateMutableCommandKernelsExp`. -/
def MutableKernelGroup.update (g : MutableKernelGroup) : Update → MutableKernelGroup
  | .argument index size =>
    { g with kernels := g.kernels.modify g.current fun m => m.setSlmArgument index size }
  | .kernel index =>
    -- the kernel that is current stays as it is, and one that is not in the group is an error
    if index = g.current ∨ g.kernels.length ≤ index then g
    else
      { kernels := (g.kernels.modify g.current MutableKernel.resetSlmVariables).modify index
          MutableKernel.copyTemplateViewIndirectData
        current := index }

def MutableKernelGroup.run (g : MutableKernelGroup) (updates : List Update) : MutableKernelGroup :=
  updates.foldl MutableKernelGroup.update g

/-- A command is appended with one of the kernels. -/
def append (kernels : List Kernel) (first : ℕ) : MutableKernelGroup where
  kernels := kernels.map Kernel.capture
  current := first

end ComputeRuntime.MutableCmdList.Slm
