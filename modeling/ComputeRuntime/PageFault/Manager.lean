import ComputeRuntime.Helpers.AlignedMemory
import ComputeRuntime.Helpers.DebugHelpers
import Mathlib.Logic.Function.Basic

/-! The manager that moves shared allocations between a CPU copy and a GPU copy. It protects the
CPU copy while the GPU copy is the current one, so that a CPU access faults and is handled here. -/
namespace ComputeRuntime

inductive UsmInitialPlacement where
  | cpu
  | gpu
  deriving DecidableEq

/-- The allocation flags that choose a placement. -/
structure MemoryAllocFlags where
  usmInitialPlacementGpu : Bool
  usmInitialPlacementCpu : Bool
  deriving DecidableEq

/-- `usmInitialPlacement` is the debug flag, -1 by default. -/
def MemoryPropertiesHelper.getUSMInitialPlacement (usmInitialPlacement : Int)
    (memoryProperties : MemoryAllocFlags) : UsmInitialPlacement :=
  let initialPlacement :=
    if memoryProperties.usmInitialPlacementGpu then UsmInitialPlacement.gpu else .cpu
  let initialPlacement :=
    if memoryProperties.usmInitialPlacementCpu then .cpu else initialPlacement
  if usmInitialPlacement ≠ -1 then
    if usmInitialPlacement ≠ 1 then .cpu else .gpu
  else initialPlacement

inductive AllocationDomain where
  | cpu
  | gpu
  | none
  deriving DecidableEq

/-- `unifiedMemoryManager` names one of the managers whose lists the page-fault manager keeps; 0
is the null one of a default entry. -/
structure PageFaultData where
  domain : AllocationDomain
  size : Nat
  unifiedMemoryManager : Nat
  deriving DecidableEq

/-- The manager, the `nonGpuDomainAllocs` of the unified-memory managers, and the memory: two
copies of every byte, and which CPU bytes are protected. -/
structure CpuPageFaultManager where
  memoryData : Nat → Option PageFaultData
  nonGpuDomainAllocs : Nat → List Nat
  cpuCopy : Nat → UInt8
  gpuCopy : Nat → UInt8
  cpuProtected : Nat → Bool

/-- The two functions a `gpuDomainHandler` can be. -/
inductive GpuDomainHandler where
  | transferAndUnprotectMemory
  | unprotectAndTransferMemory
  deriving DecidableEq

namespace CpuPageFaultManager

/-- Whether the address belongs to the allocation of `size` bytes at `ptr`. -/
def inRange (ptr size address : Nat) : Bool := ptr ≤ address && address < add64 ptr size

/-- The part of a function over addresses that lies in an allocation, from another one. -/
def overwrite {α : Type} (ptr size : Nat) (source target : Nat → α) (address : Nat) : α :=
  if inRange ptr size address then source address else target address

def allowCPUMemoryAccess (m : CpuPageFaultManager) (ptr size : Nat) : CpuPageFaultManager :=
  { m with cpuProtected := overwrite ptr size (fun _ => false) m.cpuProtected }

def protectCPUMemoryAccess (m : CpuPageFaultManager) (ptr size : Nat) : CpuPageFaultManager :=
  { m with cpuProtected := overwrite ptr size (fun _ => true) m.cpuProtected }

/-- The transfers copy the whole allocation. -/
def transferToCpu (m : CpuPageFaultManager) (ptr size : Nat) : CpuPageFaultManager :=
  { m with cpuCopy := overwrite ptr size m.gpuCopy m.cpuCopy }

def transferToGpu (m : CpuPageFaultManager) (ptr size : Nat) : CpuPageFaultManager :=
  { m with gpuCopy := overwrite ptr size m.cpuCopy m.gpuCopy }

def setData (m : CpuPageFaultManager) (ptr : Nat) (pageFaultData : Option PageFaultData) :
    CpuPageFaultManager :=
  { m with memoryData := Function.update m.memoryData ptr pageFaultData }

def setNonGpuDomainAllocs (m : CpuPageFaultManager) (unifiedMemoryManager : Nat)
    (allocs : List Nat) : CpuPageFaultManager :=
  { m with
    nonGpuDomainAllocs := Function.update m.nonGpuDomainAllocs unifiedMemoryManager allocs }

/-- An entry that is already there is kept, as `unordered_map::insert` does. -/
def insertAllocation (m : CpuPageFaultManager) (usmInitialPlacement : Int) (ptr size : Nat)
    (unifiedMemoryManager : Nat) (memoryProperties : MemoryAllocFlags) : CpuPageFaultManager :=
  let initialPlacement :=
    MemoryPropertiesHelper.getUSMInitialPlacement usmInitialPlacement memoryProperties
  let domain := if initialPlacement = .cpu then AllocationDomain.cpu else .none
  let m :=
    match m.memoryData ptr with
    | some _ => m
    | none => m.setData ptr (some ⟨domain, size, unifiedMemoryManager⟩)
  let m := m.setNonGpuDomainAllocs unifiedMemoryManager
    (m.nonGpuDomainAllocs unifiedMemoryManager ++ [ptr])
  if initialPlacement ≠ .cpu then m.protectCPUMemoryAccess ptr size else m

def removeAllocation (m : CpuPageFaultManager) (ptr : Nat) : CpuPageFaultManager :=
  match m.memoryData ptr with
  | none => m
  | some pageFaultData =>
    let m :=
      if pageFaultData.domain = .gpu then m.allowCPUMemoryAccess ptr pageFaultData.size
      else m.setNonGpuDomainAllocs pageFaultData.unifiedMemoryManager
        ((m.nonGpuDomainAllocs pageFaultData.unifiedMemoryManager).erase ptr)
    m.setData ptr none

def migrateStorageToGpuDomain (m : CpuPageFaultManager) (ptr : Nat)
    (pageFaultData : PageFaultData) : CpuPageFaultManager :=
  let m :=
    if pageFaultData.domain = .cpu then
      (m.transferToGpu ptr pageFaultData.size).protectCPUMemoryAccess ptr pageFaultData.size
    else m
  m.setData ptr (some { pageFaultData with domain := .gpu })

def moveAllocationToGpuDomain (m : CpuPageFaultManager) (ptr : Nat) : CpuPageFaultManager :=
  match m.memoryData ptr with
  | none => m
  | some pageFaultData =>
    if pageFaultData.domain = .cpu ∨ pageFaultData.domain = .none then
      let m := m.migrateStorageToGpuDomain ptr pageFaultData
      m.setNonGpuDomainAllocs pageFaultData.unifiedMemoryManager
        ((m.nonGpuDomainAllocs pageFaultData.unifiedMemoryManager).erase ptr)
    else m

/-- One round of the loop, in which `memoryData[allocPtr]` makes a default entry if there is
none. -/
def migrateListed (m : CpuPageFaultManager) (allocPtr : Nat) : CpuPageFaultManager :=
  m.migrateStorageToGpuDomain allocPtr ((m.memoryData allocPtr).getD ⟨.none, 0, 0⟩)

def moveAllocationsWithinUMAllocsManagerToGpuDomain (m : CpuPageFaultManager)
    (unifiedMemoryManager : Nat) : CpuPageFaultManager :=
  ((m.nonGpuDomainAllocs unifiedMemoryManager).foldl migrateListed m).setNonGpuDomainAllocs
    unifiedMemoryManager []

def migrateStorageToCpuDomain (m : CpuPageFaultManager) (ptr : Nat)
    (pageFaultData : PageFaultData) : CpuPageFaultManager :=
  let m :=
    if pageFaultData.domain = .gpu then
      let m := m.transferToCpu ptr pageFaultData.size
      m.setNonGpuDomainAllocs pageFaultData.unifiedMemoryManager
        (m.nonGpuDomainAllocs pageFaultData.unifiedMemoryManager ++ [ptr])
    else m
  m.setData ptr (some { pageFaultData with domain := .cpu })

/-- Both handlers; what the first one says about eviction is left out. -/
def handlePageFault (m : CpuPageFaultManager) (gpuDomainHandler : GpuDomainHandler)
    (ptr : Nat) (faultData : PageFaultData) : CpuPageFaultManager :=
  match gpuDomainHandler with
  | .transferAndUnprotectMemory =>
    (m.migrateStorageToCpuDomain ptr faultData).allowCPUMemoryAccess ptr faultData.size
  | .unprotectAndTransferMemory =>
    (m.allowCPUMemoryAccess ptr faultData.size).migrateStorageToCpuDomain ptr faultData

/-- The search for the allocation of an address; `order` is the order in which the map lists its
keys. -/
def getFaultData (m : CpuPageFaultManager) (order : List Nat) (ptr : Nat) : Option Nat :=
  order.find? fun allocPtr =>
    match m.memoryData allocPtr with
    | some pageFaultData => inRange allocPtr pageFaultData.size ptr
    | none => false

/-- Nothing for an address of no allocation, which is the previous handler's business. -/
def verifyAndHandlePageFault (m : CpuPageFaultManager) (gpuDomainHandler : GpuDomainHandler)
    (order : List Nat) (ptr : Nat) : Option CpuPageFaultManager :=
  match m.getFaultData order ptr with
  | none => none
  | some allocPtr =>
    match m.memoryData allocPtr with
    | some faultData => some (m.handlePageFault gpuDomainHandler allocPtr faultData)
    | none => none

/-- What a CPU access to an address does first: a protected one faults. -/
def cpuAccess (m : CpuPageFaultManager) (gpuDomainHandler : GpuDomainHandler)
    (order : List Nat) (address : Nat) : Option CpuPageFaultManager :=
  if m.cpuProtected address then m.verifyAndHandlePageFault gpuDomainHandler order address
  else some m

end CpuPageFaultManager

end ComputeRuntime
