import ComputeRuntime.Library.Transition
import ComputeRuntime.Library.Word
import Mathlib.Logic.Function.Basic

/-! The tag allocator: nodes for timestamps and other small tags, handed out to any number of
threads from a list of free nodes that grows on demand. Every operation on one of its lists is
atomic; between two of them the other threads run. -/
namespace ComputeRuntime.TagAllocator

/-- What a thread does once it has looked through the deferred nodes. -/
inductive After where
  | getTag
  | nothing
  deriving DecidableEq

/-- Where a thread is: the next operation of the call it executes, with the nodes that only this
thread can reach. Nodes are numbered in the order of their creation. -/
inductive Stage where
  | idle
  /-- `freeTags.peekIsEmpty()` -/
  | peek
  /-- `deferredTags.detachNodes()` -/
  | detach (after : After)
  /-- the loop over the detached nodes -/
  | classify (after : After) (nodes pendingFreeTags pendingDeferredTags : List Nat)
  | spliceFree (after : After) (pendingFreeTags pendingDeferredTags : List Nat)
  | spliceDeferred (after : After) (pendingDeferredTags : List Nat)
  /-- the first `freeTags.removeFrontOne()` -/
  | takeFront
  /-- waits for `allocatorMutex` -/
  | lock
  /-- the loop of `populateFreeTags` -/
  | populate (nodes : List Nat)
  /-- the second `freeTags.removeFrontOne()` -/
  | takeRefilled
  /-- leaves `allocatorMutex`; `none` is the null pointer -/
  | unlock (node : Option Nat)
  /-- `usedTags.pushFrontOne(*node)` -/
  | pushUsed (node : Option Nat)
  /-- `node->incRefCount()`, after which the call returns -/
  | incRefCount (node : Nat)
  /-- `node->refCountFetchSub(1)` -/
  | refCountFetchSub (node : Nat)
  /-- `node->canBeReleased()` -/
  | canBeReleased (node : Nat)
  /-- `usedTags.removeOne` of `returnTagToFreePool` -/
  | removeToFree (node : Nat)
  /-- `freeTags.pushFrontOne` -/
  | pushFree (node : Nat)
  /-- `usedTags.removeOne` of `returnTagToDeferredPool` -/
  | removeToDeferred (node : Nat)
  /-- `deferredTags.pushFrontOne` -/
  | pushDeferred (node : Nat)
  deriving DecidableEq

def After.stage : After → Stage
  | .getTag => .takeFront
  | .nothing => .idle

inductive Event where
  /-- a call of `getTag` has returned the node -/
  | got (node : Nat)
  /-- a `returnTag` has given the last reference back -/
  | final (node : Nat)
  deriving DecidableEq

/-- The allocator with its threads. The references are those that callers hold: they come from
`getTag` and `incRefCount` and are given up with `returnTag`. The log starts with the latest
event. -/
structure State where
  freeTags : List Nat
  usedTags : List Nat := []
  deferredTags : List Nat := []
  refCount : Nat → Nat := fun _ => 0
  allocatorMutex : Bool := false
  created : Nat
  references : Nat → Nat := fun _ => 0
  threads : List Stage
  log : List Event := []

/-- What a thread does next: start a call, or make the next step of the one it is in. A step may
need to know whether a node can be released. -/
inductive Action where
  | getTag
  | releaseDeferredTags
  | returnTag (node : Nat)
  | incRefCount (node : Nat)
  | proceed (canBeReleased : Bool)

namespace State

variable (s : State)

def goto (t : Nat) (stage : Stage) : State := { s with threads := s.threads.set t stage }

def setRefCount (node count : Nat) : State :=
  { s with refCount := Function.update s.refCount node count }

def setReferences (node count : Nat) : State :=
  { s with references := Function.update s.references node count }

/-- The next step of a thread at a stage; `none` if it has to wait or has nothing to do. -/
def proceed (tagCount t : Nat) (canBeReleased : Bool) : Stage → Option State
  | .idle => none
  | .peek => if s.freeTags = [] then s.goto t (.detach .getTag) else s.goto t .takeFront
  | .detach after =>
    { s with deferredTags := [] }.goto t (.classify after s.deferredTags [] [])
  | .classify after nodes pendingFreeTags pendingDeferredTags =>
    match nodes with
    | [] => s.goto t (.spliceFree after pendingFreeTags pendingDeferredTags)
    | currentNode :: nodes =>
      if canBeReleased then
        s.goto t (.classify after nodes (currentNode :: pendingFreeTags) pendingDeferredTags)
      else s.goto t (.classify after nodes pendingFreeTags (currentNode :: pendingDeferredTags))
  | .spliceFree after pendingFreeTags pendingDeferredTags =>
    { s with freeTags := s.freeTags ++ pendingFreeTags }.goto t
      (.spliceDeferred after pendingDeferredTags)
  | .spliceDeferred after pendingDeferredTags =>
    { s with deferredTags := s.deferredTags ++ pendingDeferredTags }.goto t after.stage
  | .takeFront =>
    match s.freeTags with
    | [] => s.goto t .lock
    | node :: freeTags => { s with freeTags }.goto t (.pushUsed (some node))
  | .lock =>
    if s.allocatorMutex then none
    else
      { s with allocatorMutex := true, created := s.created + tagCount }.goto t
        (.populate (List.range' s.created tagCount))
  | .populate nodes =>
    match nodes with
    | [] => s.goto t .takeRefilled
    | node :: nodes => { s with freeTags := s.freeTags ++ [node] }.goto t (.populate nodes)
  | .takeRefilled =>
    match s.freeTags with
    | [] => s.goto t (.unlock none)
    | node :: freeTags => { s with freeTags }.goto t (.unlock (some node))
  | .unlock node => { s with allocatorMutex := false }.goto t (.pushUsed node)
  -- the list is given a reference to no node
  | .pushUsed none => none
  | .pushUsed (some node) =>
    { s with usedTags := node :: s.usedTags }.goto t (.incRefCount node)
  | .incRefCount node =>
    ({ s with log := .got node :: s.log }.setRefCount node (Word.add 32 (s.refCount node) 1)
      |>.setReferences node (s.references node + 1)).goto t .idle
  | .refCountFetchSub node =>
    if s.refCount node = 1 then
      ({ s with log := .final node :: s.log }.setRefCount node 0).goto t (.canBeReleased node)
    else (s.setRefCount node (Word.sub 32 (s.refCount node) 1)).goto t .idle
  | .canBeReleased node =>
    if canBeReleased then s.goto t (.removeToFree node) else s.goto t (.removeToDeferred node)
  | .removeToFree node => { s with usedTags := s.usedTags.erase node }.goto t (.pushFree node)
  | .pushFree node => { s with freeTags := node :: s.freeTags }.goto t .idle
  | .removeToDeferred node =>
    { s with usedTags := s.usedTags.erase node }.goto t (.pushDeferred node)
  | .pushDeferred node => { s with deferredTags := node :: s.deferredTags }.goto t .idle

/-- A step of a thread. Only who holds a reference gives it back or takes another one. -/
def step (tagCount t : Nat) (a : Action) : Option State :=
  match s.threads[t]?, a with
  | none, _ => none
  | some .idle, .getTag => s.goto t .peek
  | some .idle, .releaseDeferredTags => s.goto t (.detach .nothing)
  | some .idle, .returnTag node =>
    if 0 < s.references node then
      (s.setReferences node (s.references node - 1)).goto t (.refCountFetchSub node)
    else none
  | some .idle, .incRefCount node =>
    if 0 < s.references node then
      ((s.setRefCount node (Word.add 32 (s.refCount node) 1)).setReferences node
        (s.references node + 1)).goto t .idle
    else none
  | some stage, .proceed canBeReleased => s.proceed tagCount t canBeReleased stage
  | some _, _ => none

end State

/-- An allocator is created with its first `tagCount` nodes; any number of threads use it. -/
def State.initial (tagCount threads : Nat) : State where
  freeTags := List.range tagCount
  created := tagCount
  threads := .replicate threads .idle

def system (tagCount : Nat) : Transition.System State (Nat × Action) where
  init := fun s => ∃ threads, s = .initial tagCount threads
  step := fun s action s' => s.step tagCount action.1 action.2 = some s'

end ComputeRuntime.TagAllocator
