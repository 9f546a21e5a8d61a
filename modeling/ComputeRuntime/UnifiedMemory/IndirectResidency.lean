import Mathlib.Logic.Function.Basic
import ComputeRuntime.Helpers.AlignedMemory
import ComputeRuntime.Helpers.DebugHelpers
import ComputeRuntime.UnifiedMemory.AllocationCache

/-! Indirect residency of unified memory: a kernel that may follow pointers needs every
allocation resident, so each command stream receiver remembers the last allocation id it has
made resident and only walks through the newer ones. -/
namespace ComputeRuntime

open GraphicsAllocation

/-- What an allocation records about its use in one OS context. -/
structure UsageInfo where
  taskCount : Nat := objectNotUsed
  residencyTaskCount : Nat := objectNotResident
  deriving DecidableEq

/-- An allocation that is always resident stays so until it is made not resident. -/
def UsageInfo.updateResidencyTaskCount (info : UsageInfo) (newTaskCount : Nat) : UsageInfo :=
  if info.residencyTaskCount ≠ objectAlwaysResident ∨ newTaskCount = objectNotResident then
    { info with residencyTaskCount := newTaskCount }
  else info

def UsageInfo.isResident (info : UsageInfo) : Bool :=
  info.residencyTaskCount ≠ objectNotResident

def UsageInfo.isAlwaysResident (info : UsageInfo) : Bool :=
  info.residencyTaskCount = objectAlwaysResident

def UsageInfo.isResidencyTaskCountBelow (info : UsageInfo) (taskCount : Nat) : Bool :=
  !info.isResident || info.residencyTaskCount < taskCount

/-- A command stream receiver by its identity, with the parts that never change. -/
structure CommandStreamReceiver where
  handle : Nat
  rootDeviceIndex : Nat
  contextId : Nat
  deriving DecidableEq

/-- The mutable parts of all allocations and receivers. -/
structure Residency where
  usageInfos : GraphicsAllocation → Nat → UsageInfo := fun _ _ => {}
  taskCount : CommandStreamReceiver → Nat := fun _ => 0
  residencyAllocations : CommandStreamReceiver → List GraphicsAllocation := fun _ => []

namespace Residency

def setUsage (r : Residency) (a : GraphicsAllocation) (contextId : Nat) (info : UsageInfo) :
    Residency :=
  { r with
    usageInfos := Function.update r.usageInfos a (Function.update (r.usageInfos a) contextId info) }

def updateTaskCount (r : Residency) (a : GraphicsAllocation) (newTaskCount contextId : Nat) :
    Residency :=
  r.setUsage a contextId { r.usageInfos a contextId with taskCount := newTaskCount }

def updateResidencyTaskCount (r : Residency) (a : GraphicsAllocation)
    (newTaskCount contextId : Nat) : Residency :=
  r.setUsage a contextId ((r.usageInfos a contextId).updateResidencyTaskCount newTaskCount)

/-- `CommandStreamReceiver::makeResident`. -/
def makeResident (r : Residency) (csr : CommandStreamReceiver) (a : GraphicsAllocation) :
    Residency :=
  let submissionTaskCount := add64 (r.taskCount csr) 1
  let r := r.updateTaskCount a submissionTaskCount csr.contextId
  let r :=
    if (r.usageInfos a csr.contextId).isResidencyTaskCountBelow submissionTaskCount then
      { r with
        residencyAllocations := Function.update r.residencyAllocations csr
          (r.residencyAllocations csr ++ [a]) }
    else r
  r.updateResidencyTaskCount a submissionTaskCount csr.contextId

/-- The allocation counts as resident in the context until it is released. -/
def Always (r : Residency) (a : GraphicsAllocation) (contextId : Nat) : Prop :=
  (r.usageInfos a contextId).residencyTaskCount = objectAlwaysResident

end Residency

structure InternalAllocationsTracker where
  latestSentTaskCount : Nat := 0
  latestResidentObjectId : Nat := 0
  deriving DecidableEq

/-- `allocationsCounter` is an atomic 32-bit counter; `internalAllocationsMap` is a multimap
from allocation ids. -/
structure SVMAllocsManager where
  allocationsCounter : Nat := 0
  internalAllocationsMap : List (Nat × GraphicsAllocation) := []
  indirectAllocationsResidency : List (CommandStreamReceiver × InternalAllocationsTracker) := []
  deriving DecidableEq

namespace SVMAllocsManager

def tracker? (m : SVMAllocsManager) (csr : CommandStreamReceiver) :
    Option InternalAllocationsTracker :=
  m.indirectAllocationsResidency.lookup csr

/-- The first half of a creation, `setAllocId(++allocationsCounter)`, which takes no lock. -/
def reserveId (m : SVMAllocsManager) : SVMAllocsManager × Nat :=
  let id := Word.add 32 m.allocationsCounter 1
  ({ m with allocationsCounter := id }, id)

/-- The second half of a creation. -/
def insertSVMAlloc (m : SVMAllocsManager) (allocData : SvmAllocationData) :
    Result SVMAllocsManager :=
  if (m.internalAllocationsMap.filter fun e => e.1 = allocData.allocId).length > 0 then
    .error .unrecoverable
  else
    .ok { m with
      internalAllocationsMap := m.internalAllocationsMap ++
        allocData.gpuAllocations.map fun alloc => (allocData.allocId, alloc) }

/-- One round of the loop of `makeResidentForAllocationsWithId`. -/
def makeResidentEntry (csr : CommandStreamReceiver) (r : Residency)
    (entry : Nat × GraphicsAllocation) : Residency :=
  if entry.2.rootDeviceIndex ≠ csr.rootDeviceIndex then r
  else (r.makeResident csr entry.2).updateResidencyTaskCount entry.2 objectAlwaysResident
    csr.contextId

def makeResidentForAllocationsWithId (m : SVMAllocsManager) (allocationId : Nat)
    (csr : CommandStreamReceiver) (r : Residency) : Residency :=
  (m.internalAllocationsMap.filter fun e => e.1 = allocationId).foldl (makeResidentEntry csr) r

/-- The loop over the ids of `makeIndirectAllocationsResident`; its counter is 32 bits wide. -/
def makeResidentLoop (m : SVMAllocsManager) (csr : CommandStreamReceiver) (currentCounter : Nat) :
    Nat → Nat → Residency → Result Residency
  | 0, _, _ => .error .outOfFuel
  | fuel + 1, allocationId, r =>
    if allocationId ≤ currentCounter then
      makeResidentLoop m csr currentCounter fuel (Word.add 32 allocationId 1)
        (m.makeResidentForAllocationsWithId allocationId csr r)
    else .ok r

/-- The receiver's tracker after the call, and the counter to walk on from if there is anything
new to make resident. -/
def advanceTracker (m : SVMAllocsManager) (csr : CommandStreamReceiver) (taskCount : Nat) :
    SVMAllocsManager × Option Nat :=
  match m.tracker? csr with
  | none =>
    ({ m with
      indirectAllocationsResidency :=
        (csr, ⟨taskCount, m.allocationsCounter⟩) :: m.indirectAllocationsResidency }, some 0)
  | some entry =>
    let newer := m.allocationsCounter > entry.latestResidentObjectId
    let latest := if newer then m.allocationsCounter else entry.latestResidentObjectId
    ({ m with
      indirectAllocationsResidency := m.indirectAllocationsResidency.map fun e =>
        if e.1 = csr then (csr, ⟨taskCount, latest⟩) else e },
      if newer then some entry.latestResidentObjectId else none)

def makeIndirectAllocationsResident (fuel : Nat) (m : SVMAllocsManager) (r : Residency)
    (csr : CommandStreamReceiver) (taskCount : Nat) : Result (SVMAllocsManager × Residency) :=
  let (m, parseAllAllocations) := m.advanceTracker csr taskCount
  match parseAllAllocations with
  | none => .ok (m, r)
  | some previousCounter =>
    (m.makeResidentLoop csr m.allocationsCounter fuel (add64 previousCounter 1 % 2 ^ 32) r).map
      fun r => (m, r)

/-- One round of the loop of `prepareIndirectAllocationForDestruction`. -/
def prepareEntry (allocationData : SvmAllocationData) (isNonBlockingFree : Bool) (r : Residency)
    (entry : CommandStreamReceiver × InternalAllocationsTracker) : Residency :=
  match allocationData.gpuAllocations.find? fun a => a.rootDeviceIndex = entry.1.rootDeviceIndex with
  | none => r
  | some gpuAllocation =>
    let contextId := entry.1.contextId
    let used := (r.usageInfos gpuAllocation contextId).taskCount
    let desiredTaskCount :=
      if isNonBlockingFree then used else max entry.2.latestSentTaskCount used
    if (r.usageInfos gpuAllocation contextId).isAlwaysResident then
      let r := r.updateResidencyTaskCount gpuAllocation objectNotResident contextId
      let r := r.updateResidencyTaskCount gpuAllocation desiredTaskCount contextId
      r.updateTaskCount gpuAllocation desiredTaskCount contextId
    else r

def prepareIndirectAllocationForDestruction (m : SVMAllocsManager)
    (allocationData : SvmAllocationData) (isNonBlockingFree : Bool) (r : Residency) : Residency :=
  m.indirectAllocationsResidency.foldl (prepareEntry allocationData isNonBlockingFree) r

def freeSVMData (m : SVMAllocsManager) (svmData : SvmAllocationData) : SVMAllocsManager :=
  { m with
    internalAllocationsMap := m.internalAllocationsMap.filter fun e => e.1 ≠ svmData.allocId }

end SVMAllocsManager

end ComputeRuntime
