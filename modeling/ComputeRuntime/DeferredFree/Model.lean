import ComputeRuntime.Library.Transition
import ComputeRuntime.UnifiedMemory.AllocationCache
import Mathlib.Data.List.Basic

/-! Frees of unified memory that wait until the allocation is idle: the calls of all threads, each
taking one step on a map or on one graphics allocation at a time. -/
namespace ComputeRuntime.DeferredFree

/-- A tracked allocation at its address, with the number of its graphics allocations, the one of the
CPU first. An allocation that is returned again has another id. -/
structure SvmAllocation where
  allocId : Nat
  ptr : Nat
  graphicsAllocations : Nat
  deriving DecidableEq

/-- Where `freeSVMAllocImpl` and the look-up before it are called from: for the pointer of the call
itself, or in the loop over the deferred frees with what it has freed so far. -/
inductive Site where
  | own
  | deferImpl (freedPtr : List Nat)
  deriving DecidableEq

inductive Step where
  | checkPending
  | next (last : Option Nat) (freedPtr : List Nat)
  | getSVMAlloc (ptr : Nat) (site : Site)
  | insertCache (data : SvmAllocation)
  | allocInUse (data : SvmAllocation) (index : Nat) (site : Site)
  | insertDeferred (data : SvmAllocation) (site : Site)
  | release (data : SvmAllocation) (site : Site)
  | check (ptr : Nat) (freedPtr : List Nat)
  | erase (freedPtr : List Nat)
  deriving DecidableEq

/-- A call of `freeSVMAlloc` or `freeSVMAllocDefer`, or of `freeSVMAllocDeferImpl` alone. -/
structure Call where
  policy : FreePolicyType
  target : Option SvmAllocation
  step : Step
  deriving DecidableEq

/-- An allocation was freed, and whether it was in use. -/
structure Freed where
  allocId : Nat
  policy : FreePolicyType
  inUse : Bool
  deriving DecidableEq

structure State where
  svmAllocs : List SvmAllocation := []
  svmDeferFreeAllocs : List Nat := []
  /-- The graphics allocations in use, by allocation and index. -/
  inUse : List (Nat × Nat) := []
  calls : List Call := []
  nextId : Nat := 0
  /-- What waits in the reuse caches. -/
  cache : List Nat := []
  passed : List Nat := []
  freed : List Freed := []
  cached : List Nat := []
  /-- `freeSVMAllocImpl` was called without data. -/
  nullFree : Bool := false
  deriving DecidableEq

/-- The entry of an ordered map after the one that was visited last. -/
def nextKey (keys : List Nat) (last : Option Nat) : Option Nat :=
  (keys.filter fun key => last.all (· < key)).min?

namespace State

def find (s : State) (ptr : Nat) : Option SvmAllocation :=
  s.svmAllocs.find? (·.ptr = ptr)

def isInUse (s : State) (data : SvmAllocation) : Bool :=
  s.inUse.any (·.1 = data.allocId)

def finish (s : State) (i : Nat) : State :=
  { s with calls := s.calls.eraseIdx i }

def goTo (s : State) (i : Nat) (call : Call) (step : Step) : State :=
  { s with calls := s.calls.set i { call with step := step } }

/-- The call goes on with its own pointer. -/
def leaveDeferImpl (s : State) (i : Nat) (call : Call) : State :=
  match call.target with
  | none => s.finish i
  | some data => s.goTo i call (.getSVMAlloc data.ptr .own)

/-- `freeSVMAllocImpl` returns to where it was called. -/
def returnTo (s : State) (i : Nat) (call : Call) (ptr : Nat) : Site → State
  | .own => s.finish i
  | .deferImpl freedPtr => s.goTo i call (.check ptr freedPtr)

def policyAt (call : Call) : Site → FreePolicyType
  | .own => call.policy
  | .deferImpl _ => .defer

/-- One step of a call; whether a cache takes the allocation is up to its limits. -/
def stepCall (s : State) (i : Nat) (call : Call) (caches : Bool) : State :=
  match call.step with
  | .checkPending =>
    if s.svmDeferFreeAllocs.isEmpty then s.leaveDeferImpl i call else s.goTo i call (.next none [])
  | .next last freedPtr =>
    match nextKey s.svmDeferFreeAllocs last with
    | none => s.goTo i call (.erase freedPtr)
    | some ptr => s.goTo i call (.getSVMAlloc ptr (.deferImpl freedPtr))
  | .getSVMAlloc ptr .own =>
    match s.find ptr with
    | none => s.finish i
    | some data => s.goTo i call (.insertCache data)
  | .getSVMAlloc ptr (.deferImpl freedPtr) =>
    match s.find ptr with
    -- The data is passed on without a test.
    | none => { s.finish i with nullFree := true }
    | some data => s.goTo i call (.allocInUse data 0 (.deferImpl freedPtr))
  | .insertCache data =>
    if caches then
      { s.finish i with cache := s.cache ++ [data.allocId], cached := s.cached ++ [data.allocId] }
    else if call.policy = .defer then s.goTo i call (.allocInUse data 0 .own)
    else s.goTo i call (.release data .own)
  | .allocInUse data index site =>
    if index < data.graphicsAllocations then
      if (data.allocId, index) ∈ s.inUse then s.goTo i call (.insertDeferred data site)
      else s.goTo i call (.allocInUse data (index + 1) site)
    else s.goTo i call (.release data site)
  | .insertDeferred data site =>
    { s.returnTo i call data.ptr site with
      svmDeferFreeAllocs :=
        if data.ptr ∈ s.svmDeferFreeAllocs then s.svmDeferFreeAllocs
        else s.svmDeferFreeAllocs ++ [data.ptr] }
  | .release data site =>
    -- A blocking free waits for the engines first.
    if policyAt call site = .blocking ∧ s.isInUse data then s
    else
      { s.returnTo i call data.ptr site with
        svmAllocs := s.svmAllocs.eraseP (·.ptr = data.ptr)
        freed := s.freed ++ [⟨data.allocId, policyAt call site, s.isInUse data⟩] }
  | .check ptr freedPtr =>
    s.goTo i call (.next (some ptr) (if (s.find ptr).isNone then freedPtr ++ [ptr] else freedPtr))
  | .erase [] => s.leaveDeferImpl i call
  | .erase (ptr :: freedPtr) =>
    { s.goTo i call (.erase freedPtr) with svmDeferFreeAllocs := s.svmDeferFreeAllocs.erase ptr }

end State

inductive Action where
  | allocate (ptr graphicsAllocations : Nat)
  | reuse (ptr : Nat)
  | use (ptr index : Nat)
  | complete (allocId index : Nat)
  | free (policy : FreePolicyType) (ptr : Nat)
  | freeSVMAllocDeferImpl
  | stepCall (i : Nat) (caches : Bool)
  deriving DecidableEq

/-- Memory is returned at addresses that are free, an allocation is passed to a free once, and work
uses an allocation only before that. -/
def State.step (s : State) : Action → Option State
  | .allocate ptr graphicsAllocations =>
    if s.find ptr = none then
      some { s with
        svmAllocs := s.svmAllocs ++ [⟨s.nextId, ptr, graphicsAllocations⟩]
        nextId := s.nextId + 1 }
    else none
  | .reuse ptr =>
    (s.find ptr).bind fun data =>
      if data.allocId ∈ s.cache ∧ s.isInUse data = false then
        some { s with
          svmAllocs := s.svmAllocs.eraseP (·.ptr = ptr) ++ [{ data with allocId := s.nextId }]
          nextId := s.nextId + 1
          cache := s.cache.erase data.allocId }
      else none
  | .use ptr index =>
    (s.find ptr).bind fun data =>
      if data.allocId ∉ s.passed ∧ index < data.graphicsAllocations then
        some { s with inUse := s.inUse ++ [(data.allocId, index)] }
      else none
  | .complete allocId index =>
    some { s with inUse := s.inUse.filter (· ≠ (allocId, index)) }
  | .free policy ptr =>
    (s.find ptr).bind fun data =>
      if data.allocId ∉ s.passed then
        some { s with
          calls := s.calls ++ [⟨policy, some data, .checkPending⟩]
          passed := s.passed ++ [data.allocId] }
      else none
  | .freeSVMAllocDeferImpl =>
    some { s with calls := s.calls ++ [⟨.defer, none, .next none []⟩] }
  | .stepCall i caches => s.calls[i]?.map fun call => s.stepCall i call caches

def system : Transition.System State Action where
  init s := s = {}
  step s action s' := s.step action = some s'

end ComputeRuntime.DeferredFree
