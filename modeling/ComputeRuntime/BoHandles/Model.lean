import ComputeRuntime.Library.Transition
import Mathlib.Data.List.Basic

/-! Buffer objects that share a handle of the kernel: imports and exports register it with weak
ownership, and the last owner closes it. -/
namespace ComputeRuntime.BoHandles

/-- A handle that the kernel has open for an object; every opening is a session of its own. -/
structure OpenHandle where
  handle : Nat
  object : Nat
  session : Nat
  deriving DecidableEq

/-- `freed` counts how often the block was deleted. -/
structure ControlBlock where
  refCount : Int
  weakRefCount : Int
  freed : Nat := 0
  deriving DecidableEq

/-- `unreferenced` is a buffer object whose last reference is gone and that is not deleted yet. -/
inductive Phase where
  | live
  | unreferenced
  | destroyed
  deriving DecidableEq

/-- A buffer object with its wrapper of the handle; `none` is the handle -1. -/
structure BufferObject where
  object : Nat
  session : Nat
  boHandle : Option Nat
  controlBlock : Option Nat := none
  boHandleShared : Bool := false
  phase : Phase := .live
  deriving DecidableEq

/-- The session of the buffer object, and the one that the kernel closed. -/
structure Close where
  session : Nat
  closed : Option Nat
  deriving DecidableEq

/-- A weak entry of `sharedBoHandles`. -/
structure SharedHandle where
  handle : Nat
  controlBlock : Nat
  deriving DecidableEq

structure State where
  handles : List OpenHandle := []
  nextSession : Nat := 0
  closes : List Close := []
  controlBlocks : List ControlBlock := []
  sharedBoHandles : List SharedHandle := []
  bos : List BufferObject := []
  /-- The local objects that no other owner can import yet. -/
  unexported : List Nat := []
  deriving DecidableEq

namespace ControlBlock

/-- The end of a destructor of the wrapper. -/
def release (block : ControlBlock) : ControlBlock :=
  if block.refCount = 0 ∧ block.weakRefCount = 0 then { block with freed := block.freed + 1 }
  else block

def lowerRefCount (block : ControlBlock) : ControlBlock :=
  { block with refCount := block.refCount - 1 }.release

def lowerWeakRefCount (block : ControlBlock) : ControlBlock :=
  { block with weakRefCount := block.weakRefCount - 1 }.release

end ControlBlock

namespace State

variable (s : State)

/-! ### The kernel -/

def openHandle (object handle : Nat) : State :=
  { s with
    handles := s.handles ++ [⟨handle, object, s.nextSession⟩]
    nextSession := s.nextSession + 1 }

def gemClose (session handle : Nat) : State :=
  { s with
    handles := s.handles.eraseP (·.handle = handle)
    closes := s.closes ++ [⟨session, (s.handles.find? (·.handle = handle)).map (·.session)⟩] }

/-! ### The wrapper of a handle -/

def canCloseBoHandle (bo : BufferObject) : Bool :=
  match bo.controlBlock with
  | none => true
  | some k => s.controlBlocks[k]?.any (·.refCount = 1)

/-- The block of a wrapper, made when there is none. -/
def ensureControlBlock (bo : BufferObject) : State × Nat :=
  match bo.controlBlock with
  | some k => (s, k)
  | none => ({ s with controlBlocks := s.controlBlocks ++ [⟨1, 0, 0⟩] }, s.controlBlocks.length)

def findSharedBoHandle (handle : Nat) : Option SharedHandle :=
  s.sharedBoHandles.find? (·.handle = handle)

/-- `BufferObject::close`; closing succeeds. -/
def close (bo : BufferObject) : State × BufferObject :=
  match bo.boHandle with
  | none => (s, bo)
  | some handle =>
    if s.canCloseBoHandle bo then (s.gemClose bo.session handle, { bo with boHandle := none })
    else (s, bo)

/-! ### The memory manager -/

/-- The buffer object with its wrapper, shared with the registered owner if there is one. -/
def tryToGetBoHandleWrapperWithSharedOwnership (object session handle : Nat) :
    State × BufferObject :=
  match s.findSharedBoHandle handle with
  | none => (s, { object := object, session := session, boHandle := some handle })
  | some entry =>
    ({ s with controlBlocks :=
        s.controlBlocks.modify entry.controlBlock fun block =>
          { block with refCount := block.refCount + 1 } },
      { object := object, session := session, boHandle := some handle
        controlBlock := some entry.controlBlock })

/-- `registerSharedBoHandleAllocation` for one buffer object. -/
def registerSharedBoHandle (bo : BufferObject) : State × BufferObject :=
  match bo.boHandle with
  | none => (s, bo)
  | some handle =>
    match s.findSharedBoHandle handle with
    | some _ => (s, { bo with boHandleShared := true })
    | none =>
      let (s, k) := s.ensureControlBlock bo
      ({ s with
        controlBlocks := s.controlBlocks.modify k fun block =>
          { block with weakRefCount := block.weakRefCount + 1 }
        sharedBoHandles := s.sharedBoHandles ++ [⟨handle, k⟩] },
        { bo with boHandleShared := true, controlBlock := some k })

def eraseSharedBoHandleWrapper (handle : Nat) : State :=
  match s.findSharedBoHandle handle with
  | none => s
  | some entry =>
    { s with
      sharedBoHandles := s.sharedBoHandles.eraseP (·.handle = handle)
      controlBlocks := s.controlBlocks.modify entry.controlBlock .lowerWeakRefCount }

/-- `unreference` of the last reference, up to the deletion of the buffer object. -/
def unreference (bo : BufferObject) : State × BufferObject :=
  let (s, closed) := s.close bo
  match bo.boHandle with
  | none => (s, closed)
  | some handle =>
    if closed.boHandleShared ∧ closed.boHandle ≠ bo.boHandle then
      (s.eraseSharedBoHandleWrapper handle, closed)
    else (s, closed)

/-- The destructor of the wrapper of a buffer object. -/
def destroyWrapper (bo : BufferObject) : State :=
  match bo.controlBlock with
  | none => s
  | some k => { s with controlBlocks := s.controlBlocks.modify k .lowerRefCount }

/-- The section of an import with `reuseSharedAllocation` false for one handle. -/
def importSharedHandle (object session handle : Nat) : State :=
  let (s, bo) := s.tryToGetBoHandleWrapperWithSharedOwnership object session handle
  let (s, bo) := s.registerSharedBoHandle bo
  { s with bos := s.bos ++ [bo] }

end State

/-! ### Runs -/

inductive Action where
  | create (object handle : Nat)
  | importObject (object handle : Nat)
  | registerIpcExportedAllocation (i : Nat)
  | unreference (i : Nat)
  | destroy (i : Nat)
  deriving DecidableEq

/-- The kernel opens handles that are not open, objects are imported once they are exported, and
only a buffer object with a reference is exported or unreferenced. -/
def State.step (s : State) : Action → Option State
  | .create object handle =>
    if s.handles.all (fun o => o.handle ≠ handle ∧ o.object ≠ object) &&
        s.bos.all (·.object ≠ object) then
      let opened := s.openHandle object handle
      some { opened with
        bos := s.bos ++ [{ object := object, session := s.nextSession, boHandle := some handle }]
        unexported := s.unexported ++ [object] }
    else none
  | .importObject object handle =>
    if object ∈ s.unexported then none
    else
      match s.handles.find? (·.object = object) with
      -- The kernel returns the handle that is open for the object.
      | some o => some (s.importSharedHandle object o.session o.handle)
      | none =>
        if s.handles.all (·.handle ≠ handle) then
          some ((s.openHandle object handle).importSharedHandle object s.nextSession handle)
        else none
  | .registerIpcExportedAllocation i =>
    match s.bos[i]? with
    | none => none
    | some bo =>
      if bo.phase = .live then
        let (registered, bo) := s.registerSharedBoHandle bo
        some { registered with
          bos := s.bos.set i bo
          unexported := s.unexported.filter (· ≠ bo.object) }
      else none
  | .unreference i =>
    match s.bos[i]? with
    | none => none
    | some bo =>
      if bo.phase = .live then
        let (s', bo) := s.unreference bo
        some { s' with bos := s.bos.set i { bo with phase := .unreferenced } }
      else none
  | .destroy i =>
    match s.bos[i]? with
    | none => none
    | some bo =>
      if bo.phase = .unreferenced then
        some { s.destroyWrapper bo with bos := s.bos.set i { bo with phase := .destroyed } }
      else none

def system : Transition.System State Action where
  init s := s = {}
  step s action s' := s.step action = some s'

end ComputeRuntime.BoHandles
