import ComputeRuntime.Library.Transition
import Mathlib.Logic.Function.Basic

/-! Surface states for bindless access: slots that are carved from a growing heap, released into
one of two pools and handed out again from the other. -/
namespace ComputeRuntime.BindlessHeaps

/-- A slot: where it begins in its allocation, and its offset for the GPU. -/
structure SurfaceStateInHeapInfo where
  heapAllocation : Nat
  surfaceStateOffset : Nat
  ssPtr : Nat
  ssSize : Nat
  deriving DecidableEq

/-- What a helper is created with. Allocations are numbered in the order they are made in. -/
structure Setup where
  surfaceStateSize : Nat
  positive : 0 < surfaceStateSize
  reuseSlotCountThreshold : Nat := 512
  heaplessEnabled : Bool := false
  gpuAddress : Nat → Nat
  gpuBaseAddress : Nat → Nat

def bindlessImageSlotMax : Nat := 5

/-- The heap stands in the last allocation that was made for it. -/
structure IndirectHeap where
  graphicsAllocation : Nat := 0
  sizeUsed : Nat := 0
  maxAvailableSpace : Nat := 65536
  deriving DecidableEq

def IndirectHeap.getAvailableSpace (heap : IndirectHeap) : Nat :=
  heap.maxAvailableSpace - heap.sizeUsed

/-- Without enough space the process aborts. -/
def IndirectHeap.getSpace (heap : IndirectHeap) (size : Nat) : Option (Nat × IndirectHeap) :=
  if heap.maxAvailableSpace < heap.sizeUsed + size then none
  else some (heap.sizeUsed, { heap with sizeUsed := heap.sizeUsed + size })

def globalSshAllocationSize : Nat := 4 * 65536

structure BindlessHeapsHelper where
  surfaceStateHeap : IndirectHeap := {}
  surfaceStateInHeapVectorReuse : Fin 2 → Fin 2 → List SurfaceStateInHeapInfo := fun _ _ => []
  stateCacheDirtyForContext : BitVec 64 := 0
  allocatePoolIndex : Fin 2 := 0
  releasePoolIndex : Fin 2 := 0
  allocateFromReusePool : Bool := false

variable (setup : Setup)

/-- Slots of other sizes abort the process. -/
def Setup.getReusedSshVectorIndex (ssSize : Nat) : Option (Fin 2) :=
  if ssSize = bindlessImageSlotMax * setup.surfaceStateSize then some 1
  else if ssSize = setup.surfaceStateSize then some 0
  else none

namespace BindlessHeapsHelper

variable (helper : BindlessHeapsHelper)

/-- The vector of one size class in one of the pools. -/
def setVector (pool index : Fin 2) (slots : List SurfaceStateInHeapInfo) : BindlessHeapsHelper :=
  { helper with
    surfaceStateInHeapVectorReuse := Function.update helper.surfaceStateInHeapVectorReuse pool
      (Function.update (helper.surfaceStateInHeapVectorReuse pool) index slots) }

def reuseSlotCount : Nat :=
  (helper.surfaceStateInHeapVectorReuse helper.releasePoolIndex 0).length +
    (helper.surfaceStateInHeapVectorReuse helper.releasePoolIndex 1).length

/-- The pools are exchanged when enough slots were released. -/
def exchanges : Bool :=
  !helper.allocateFromReusePool && setup.reuseSlotCountThreshold < helper.reuseSlotCount

def exchangePools : BindlessHeapsHelper :=
  if helper.exchanges setup then
    { helper with
      -- All contexts are invalidated.
      stateCacheDirtyForContext := BitVec.allOnes 64
      allocateFromReusePool := true
      allocatePoolIndex := helper.releasePoolIndex
      releasePoolIndex := if helper.releasePoolIndex = 0 then 1 else 0 }
  else helper

/-- The slots of the other size go to the release pool. -/
def endReuse (index : Fin 2) : BindlessHeapsHelper :=
  let otherSizeIndex : Fin 2 := if index = 0 then 1 else 0
  let remaining :=
    helper.surfaceStateInHeapVectorReuse helper.allocatePoolIndex otherSizeIndex
  let moved := helper.setVector helper.releasePoolIndex otherSizeIndex
    (helper.surfaceStateInHeapVectorReuse helper.releasePoolIndex otherSizeIndex ++ remaining)
  { moved.setVector helper.allocatePoolIndex otherSizeIndex [] with allocateFromReusePool := false }

/-- The last slot of the vector is handed out. -/
def popReused (index : Fin 2) : Option (SurfaceStateInHeapInfo × BindlessHeapsHelper) :=
  let slots := helper.surfaceStateInHeapVectorReuse helper.allocatePoolIndex index
  slots.getLast?.map fun slot =>
    let popped := helper.setVector helper.allocatePoolIndex index slots.dropLast
    (slot, if slots.dropLast.isEmpty then popped.endReuse index else popped)

/-- Whether a new allocation is made for the heap is up to the memory manager. -/
def growHeap (grows : Bool) : Option BindlessHeapsHelper :=
  if grows then
    some { helper with
      surfaceStateHeap := {
        graphicsAllocation := helper.surfaceStateHeap.graphicsAllocation + 1
        sizeUsed := 0
        maxAvailableSpace := globalSshAllocationSize } }
  else none

/-- A heap that cannot grow has no slot. -/
def carve (ssSize : Nat) (grows : Bool) :
    Option (Option SurfaceStateInHeapInfo × BindlessHeapsHelper) :=
  let grown :=
    if helper.surfaceStateHeap.getAvailableSpace < ssSize then helper.growHeap grows
    else some helper
  match grown with
  | none => some (none, helper)
  | some helper =>
    (helper.surfaceStateHeap.getSpace ssSize).map fun (ssPtr, heap) =>
      let allocation := heap.graphicsAllocation
      let bindlessOffset := setup.gpuAddress allocation - setup.gpuBaseAddress allocation +
        heap.sizeUsed - ssSize
      (some {
        heapAllocation := allocation
        surfaceStateOffset :=
          if setup.heaplessEnabled then bindlessOffset + setup.gpuBaseAddress allocation
          else bindlessOffset
        ssPtr := ssPtr
        ssSize := ssSize }, { helper with surfaceStateHeap := heap })

def allocateSSInHeap (ssSize : Nat) (grows : Bool) :
    Option (Option SurfaceStateInHeapInfo × BindlessHeapsHelper) :=
  let helper := helper.exchangePools setup
  if helper.allocateFromReusePool then
    match setup.getReusedSshVectorIndex ssSize with
    | none => none
    | some index =>
      match helper.popReused index with
      | some (slot, helper) => some (some slot, helper)
      | none => helper.carve setup ssSize grows
  else helper.carve setup ssSize grows

def releaseSSToReusePool (slot : SurfaceStateInHeapInfo) : Option BindlessHeapsHelper :=
  (setup.getReusedSshVectorIndex slot.ssSize).map fun index =>
    helper.setVector helper.releasePoolIndex index
      (helper.surfaceStateInHeapVectorReuse helper.releasePoolIndex index ++ [slot])

def clearStateDirtyForContext (contextId : Fin 64) : BindlessHeapsHelper :=
  { helper with
    stateCacheDirtyForContext :=
      helper.stateCacheDirtyForContext &&& ~~~ (1#64 <<< contextId.val) }

end BindlessHeapsHelper

/-! ### Runs -/

/-- What happened in a step, and whether it invalidated all contexts. -/
inductive Event where
  | allocated (ssSize : Nat) (slot : Option SurfaceStateInHeapInfo) (invalidated : Bool)
  | released (slot : SurfaceStateInHeapInfo)
  | cleared (contextId : Fin 64)
  deriving DecidableEq

/-- The helper with the slots that were carved, those that callers hold, and the history. -/
structure World where
  helper : BindlessHeapsHelper := {}
  carved : List SurfaceStateInHeapInfo := []
  held : List SurfaceStateInHeapInfo := []
  history : List Event := []

inductive Action where
  | allocate (ssSize : Nat) (grows : Bool)
  | release (slot : SurfaceStateInHeapInfo)
  | clear (contextId : Fin 64)
  deriving DecidableEq

/-- Slots have one of two sizes, and only slots that are held are released. -/
def World.step (w : World) : Action → Option World
  | .allocate ssSize grows =>
    if ssSize = setup.surfaceStateSize ∨ ssSize = bindlessImageSlotMax * setup.surfaceStateSize then
      (w.helper.allocateSSInHeap setup ssSize grows).map fun (slot, helper) => {
        helper := helper
        -- A slot is carved when the heap has changed.
        carved := w.carved ++
          if helper.surfaceStateHeap = w.helper.surfaceStateHeap then [] else slot.toList
        held := w.held ++ slot.toList
        history := w.history ++ [.allocated ssSize slot (w.helper.exchanges setup &&
          helper.stateCacheDirtyForContext = BitVec.allOnes 64)] }
    else none
  | .release slot =>
    if slot ∈ w.held then
      (w.helper.releaseSSToReusePool setup slot).map fun helper => { w with
        helper := helper
        held := w.held.erase slot
        history := w.history ++ [.released slot] }
    else none
  | .clear contextId =>
    some { w with
      helper := w.helper.clearStateDirtyForContext contextId
      history := w.history ++ [.cleared contextId] }

def system : Transition.System World Action where
  init w := w = {}
  step w action w' := w.step setup action = some w'

end ComputeRuntime.BindlessHeaps
