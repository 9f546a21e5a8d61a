import ComputeRuntime.Helpers.AlignedMemory
import ComputeRuntime.Helpers.DebugHelpers
import ComputeRuntime.Library.LittleEndian
import ComputeRuntime.Library.Memory
import Mathlib.Data.Nat.Notation

/-! The indirect data of a mutable command: an append reserves heap space for local ids by a formula
on the largest work-group, and every later group size writes as many as its hardware threads need,
and the arguments that depend on it. -/
namespace ComputeRuntime.MutableCmdList

inductive ProductFamily where
  | xeHpg
  | xeHpc
  | xe2Hpg
  | xe3
  deriving DecidableEq

structure Device where
  family : ProductFamily
  maxWorkGroupSize : ℕ
  grfSize : ℕ
  cacheLineSize : ℕ
  iohAlignment : ℕ
  inlineDataSize : ℕ
  deriving DecidableEq

structure GroupSize where
  x : ℕ
  y : ℕ
  z : ℕ
  deriving DecidableEq

/-- The number of work-items. -/
def GroupSize.items (g : GroupSize) : ℕ := g.x * g.y * g.z

/-- The arguments in the cross-thread data that depend on the group size; `none` is an undefined
offset. -/
structure Offsets where
  localWorkSize : Option ℕ := none
  localWorkSize2 : Option ℕ := none
  enqLocalWorkSize : Option ℕ := none
  globalWorkSize : Option ℕ := none
  workDimensions : Option ℕ := none

/-- The offsets with the sizes of what is written there. -/
def Offsets.arguments (offsets : Offsets) : List (Option ℕ × ℕ) :=
  [(offsets.localWorkSize, 12), (offsets.localWorkSize2, 12), (offsets.enqLocalWorkSize, 12),
    (offsets.globalWorkSize, 12), (offsets.workDimensions, 4)]

/-- What the driver knows of a kernel; which group sizes need local ids from the driver is asked
of the hardware's walker, and `generateLocalIDs` is the content of their rows. -/
structure Kernel where
  simdSize : ℕ
  grfCount : ℕ
  numLocalIdChannels : ℕ
  crossThreadDataSize : ℕ
  passInlineData : Bool
  offsets : Offsets
  requiresLocalIdGeneration : GroupSize → Bool
  generateLocalIDs : GroupSize → ℕ → UInt8

def isSimd1 (simd : ℕ) : Bool := simd = 1

def getNumGrfsPerLocalIdCoordinate (simd grfSize : ℕ) : ℕ := if simd = 32 ∧ grfSize = 32 then 2 else 1

def getThreadsPerWG (simd lws : ℕ) : ℕ :=
  if isSimd1 simd then lws
  else (Word.sub 32 (Word.add 32 lws simd) 1) >>> (if simd = 32 then 5 else if simd = 16 then 4 else 3)

def getPerThreadSizeLocalIDs (simd grfSize numChannels : ℕ) : ℕ :=
  if isSimd1 simd then grfSize
  else Word.mul 32 (Word.mul 32 (getNumGrfsPerLocalIdCoordinate simd grfSize) grfSize) numChannels

/-- The threads that a family admits in a group, if it limits them. -/
def maxThreadsPerThreadGroup (family : ProductFamily) (simd grfCount : ℕ) : Option ℕ :=
  match family with
  | .xeHpg => none
  | .xeHpc => none
  | .xe2Hpg => some (if (grfCount ≠ 256 ∧ simd = 16) ∨ isSimd1 simd then 64 else 32)
  | .xe3 =>
    some (if grfCount = 512 then 16
      else if grfCount = 256 ∨ simd = 32 then 32
      else if grfCount = 192 then 40
      else if grfCount = 160 then 48
      else if grfCount ≤ 128 then 64
      else 32)

def calculateNumThreadsPerThreadGroup (family : ProductFamily) (simd totalWorkItems grfCount : ℕ) :
    ℕ :=
  match maxThreadsPerThreadGroup family simd grfCount with
  | none => getThreadsPerWG simd totalWorkItems
  | some limit => min (getThreadsPerWG simd totalWorkItems) limit

def getPerThreadDataSizeTotal (dev : Device) (simd grfCount numChannels localWorkSize : ℕ) : ℕ :=
  let perThreadSizeLocalIDs := getPerThreadSizeLocalIDs simd dev.grfSize numChannels
  if isSimd1 simd then Word.mul 64 perThreadSizeLocalIDs localWorkSize
  else
    Word.mul 64 perThreadSizeLocalIDs
      (calculateNumThreadsPerThreadGroup dev.family simd (localWorkSize % 2 ^ 32) grfCount)

/-- What the kernel itself has generated for a group size. -/
def Kernel.getPerThreadDataSizeForWholeThreadGroup (k : Kernel) (dev : Device) (g : GroupSize) : ℕ :=
  if k.requiresLocalIdGeneration g then
    getPerThreadDataSizeTotal dev k.simdSize k.grfCount k.numLocalIdChannels g.items % 2 ^ 32
  else 0

/-- Three 16-bit ids for each work-item of the largest group. -/
def Device.maxPerThreadDataSize (dev : Device) : ℕ := Word.mul 64 dev.maxWorkGroupSize 6 % 2 ^ 32

/-- A command's indirect data: where its cross-thread and per-thread data lie in the heap. The first
bytes of the cross-thread data are inline data in the walker, if the kernel passes them. -/
structure VariableDispatch where
  kernel : Kernel
  groupCount : GroupSize
  inlineDataSize : ℕ
  inlineData : ℕ → UInt8
  crossThreadOffset : ℕ
  crossThreadDataSize : ℕ
  perThreadOffset : ℕ
  perThreadAreaSize : ℕ
  /-- The end of the used part of the heap after the append. -/
  reservationEnd : ℕ
  heap : ℕ → UInt8
  perThreadDataSize : ℕ

/-- An append: the dispatch reserves space behind what is used of the heap, and the command is then
found again from the end of the used part. -/
def appendLaunchKernel (dev : Device) (k : Kernel) (initial groupCount : GroupSize)
    (extraHeapSize used : ℕ) (heap inlineData : ℕ → UInt8) : VariableDispatch :=
  let inlineDataSize := if k.passInlineData then dev.inlineDataSize else 0
  let crossThread := k.crossThreadDataSize - min k.crossThreadDataSize inlineDataSize
  let consumed := k.getPerThreadDataSizeForWholeThreadGroup dev initial
  -- the space that the encoder takes
  let iohRequiredSize := Word.add 32 (Word.add 32 consumed crossThread)
    (Word.add 32 dev.maxPerThreadDataSize extraHeapSize)
  let start := alignUp used dev.cacheLineSize
  let used := alignUp (Word.add 64 start iohRequiredSize) dev.iohAlignment
  -- the command as it is found again
  let totalPerThread := Word.add 64 dev.maxPerThreadDataSize consumed
  let kernelIohSize := alignUp (Word.add 64 (Word.add 64 crossThread totalPerThread) extraHeapSize)
    dev.iohAlignment
  let kernelIohStartOffset := Word.sub 64 used kernelIohSize
  { kernel := k
    groupCount := groupCount
    inlineDataSize := inlineDataSize
    inlineData := inlineData
    crossThreadOffset := kernelIohStartOffset
    crossThreadDataSize := crossThread
    perThreadOffset := Word.add 64 kernelIohStartOffset crossThread
    perThreadAreaSize := Word.sub 64 kernelIohSize crossThread
    reservationEnd := used
    heap := heap
    perThreadDataSize := consumed }

namespace VariableDispatch

def numChannels : ℕ := 3

/-- The local ids that a group size needs. -/
def generateLocalIds (v : VariableDispatch) (dev : Device) (g : GroupSize) : List UInt8 :=
  (List.range (getPerThreadDataSizeTotal dev v.kernel.simdSize v.kernel.grfCount numChannels
    g.items)).map (v.kernel.generateLocalIDs g)

def setPerThreadData (v : VariableDispatch) (perThreadData : List UInt8) : Result VariableDispatch :=
  if v.perThreadAreaSize < perThreadData.length then .error .unrecoverable
  else
    .ok { v with heap := fun position =>
      if v.perThreadOffset ≤ position then
        (perThreadData[position - v.perThreadOffset]?).getD (v.heap position)
      else v.heap position }

/-- The part of `setGroupSize` that is about local ids. -/
def setLocalIds (v : VariableDispatch) (dev : Device) (g : GroupSize) : Result VariableDispatch :=
  if v.kernel.requiresLocalIdGeneration g then do
    let data := v.generateLocalIds dev g
    let v ← v.setPerThreadData data
    return { v with perThreadDataSize := data.length }
  else .ok { v with perThreadDataSize := 0 }

/-- The bytes of 32-bit numbers. -/
def wordBytes (data : List ℕ) (k : ℕ) : UInt8 := LittleEndian.byte (data.getD (k / 4) 0) (k % 4)

def setIfDefined (v : VariableDispatch) (offset : Option ℕ) (data : List ℕ) : VariableDispatch :=
  match offset with
  | none => v
  | some offset =>
    if offset < v.inlineDataSize then
      if offset + 12 ≤ v.inlineDataSize then
        { v with inlineData := Memory.copy (wordBytes data) 0 12 offset v.inlineData }
      else
        let inlineDataCopySize := v.inlineDataSize - offset
        { v with
          inlineData := Memory.copy (wordBytes data) 0 inlineDataCopySize offset v.inlineData
          heap := Memory.copy (wordBytes data) inlineDataCopySize (12 - inlineDataCopySize)
            v.crossThreadOffset v.heap }
    else
      let target := v.crossThreadOffset + offset - v.inlineDataSize
      { v with heap := Memory.copy (wordBytes data) 0 12 target v.heap }

def setWorkDimensions (v : VariableDispatch) (workDimensions : ℕ) : VariableDispatch :=
  match v.kernel.offsets.workDimensions with
  | none => v
  | some offset =>
    if offset < v.inlineDataSize then
      { v with inlineData := Memory.copy (wordBytes [workDimensions]) 0 4 offset v.inlineData }
    else
      let target := v.crossThreadOffset + offset - v.inlineDataSize
      { v with heap := Memory.copy (wordBytes [workDimensions]) 0 4 target v.heap }

def setLocalWorkSize (v : VariableDispatch) (g : GroupSize) : VariableDispatch :=
  v.setIfDefined v.kernel.offsets.localWorkSize [g.x, g.y, g.z]

def setLocalWorkSize2 (v : VariableDispatch) (g : GroupSize) : VariableDispatch :=
  v.setIfDefined v.kernel.offsets.localWorkSize2 [g.x, g.y, g.z]

def setEnqLocalWorkSize (v : VariableDispatch) (g : GroupSize) : VariableDispatch :=
  v.setIfDefined v.kernel.offsets.enqLocalWorkSize [g.x, g.y, g.z]

def setGws (v : VariableDispatch) (g : GroupSize) : VariableDispatch :=
  v.setIfDefined v.kernel.offsets.globalWorkSize [Word.mul 32 g.x v.groupCount.x,
    Word.mul 32 g.y v.groupCount.y, Word.mul 32 g.z v.groupCount.z]

def setWorkDim (v : VariableDispatch) (g : GroupSize) : VariableDispatch :=
  v.setWorkDimensions (if 1 < Word.mul 32 v.groupCount.z g.z then 3
    else if 1 < Word.mul 32 v.groupCount.y g.y then 2 else 1)

/-- A new group size that is not staged. The fields of the walker command are left out. -/
def setGroupSize (v : VariableDispatch) (dev : Device) (g : GroupSize) :
    Result VariableDispatch := do
  let v ← v.setLocalIds dev g
  return ((((v.setLocalWorkSize g).setLocalWorkSize2 g).setEnqLocalWorkSize g).setGws g).setWorkDim g

/-- The group sizes that a command is given one after the other. -/
def setGroupSizes (dev : Device) : VariableDispatch → List GroupSize → Result VariableDispatch
  | v, [] => .ok v
  | v, g :: rest => do
    let v ← v.setGroupSize dev g
    setGroupSizes dev v rest

end VariableDispatch

end ComputeRuntime.MutableCmdList
