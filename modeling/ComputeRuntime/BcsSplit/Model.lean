import ComputeRuntime.Library.Transition
import ComputeRuntime.Library.Layout

/-! Copies that are split over several copy engines: how the bytes are divided, and the internal
events with which the parts report that they are done. -/
namespace ComputeRuntime

inductive TransferDirection where
  | hostToHost
  | hostToLocal
  | localToHost
  | localToLocal
  deriving DecidableEq

/-- The queues of a split, by their numbers, and the events mode. -/
structure BcsSplit where
  cmdQs : List Nat
  h2dCmdQs : List Nat
  d2hCmdQs : List Nat
  aggregatedEventsMode : Bool
  deriving DecidableEq

namespace BcsSplit

def getCmdQsForSplit (bcsSplit : BcsSplit) : TransferDirection → List Nat
  | .hostToLocal => bcsSplit.h2dCmdQs
  | .localToHost => bcsSplit.d2hCmdQs
  | _ => bcsSplit.cmdQs

/-- A marker event: its packet, or the split whose in-order signal it stands for, and what it
reports before it has been given one. -/
structure Marker where
  signalled : Bool := false
  inOrderSplit : Option Nat := none
  reportEmptyCbEventAsReady : Bool := true
  deriving DecidableEq

/-- What one call is asked for; `isBarrierRequired` is the answer of the command list. -/
structure Call where
  direction : TransferDirection
  size : Nat
  isInOrderExecutionEnabled : Bool
  isBarrierRequired : Bool
  deriving DecidableEq

def Call.barrierRequired (call : Call) : Bool :=
  !call.isInOrderExecutionEnabled && call.isBarrierRequired

/-- A part of the copy that an engine was given. -/
structure Chunk where
  cmdQ : Nat
  offset : Nat
  localSize : Nat
  copyEventIndex : Nat
  copied : Bool := false
  deriving DecidableEq

/-- A call on its way: the variables of its loop, what the engines were given, the events to wait
for, whether the rest of the call was appended, and whether its signal was executed. -/
structure Split where
  call : Call
  markerEventIndex : Nat
  i : Nat := 0
  totalSize : Nat
  engineCount : Nat
  chunks : List Chunk := []
  eventHandles : List Nat := []
  appended : Bool := false
  signalled : Bool := false
  deriving DecidableEq

/-- The events, by the values in their memory, and all calls so far. `valid` says that no access to
the vectors was out of range and no absent in-order counter was used. -/
structure State where
  barrier : List Nat := []
  subcopy : List Nat := []
  marker : List Marker := []
  splits : List Split := []
  valid : Bool := true
  deriving DecidableEq

variable (bcsSplit : BcsSplit)

/-- From which value on a sub-copy event is complete. -/
def completionValue : Nat := if bcsSplit.aggregatedEventsMode then bcsSplit.cmdQs.length else 1

def State.queryStatus (s : State) (marker : Marker) : Bool :=
  if bcsSplit.aggregatedEventsMode then
    match marker.inOrderSplit with
    | none => marker.reportEmptyCbEventAsReady
    | some split => (s.splits[split]?.map Split.signalled).getD false
  else marker.signalled

def State.resetEventPackage (s : State) (index : Nat) : State :=
  { s with
    marker := s.marker.set index {}
    barrier := s.barrier.set index 0
    subcopy := (List.range bcsSplit.cmdQs.length).foldl
      (fun subcopy j => subcopy.set (index * bcsSplit.cmdQs.length + j) 0) s.subcopy }

def State.resetAggregatedEventState (s : State) (index : Nat) (markerCompleted : Bool) : State :=
  { s with
    subcopy := s.subcopy.set index 0
    marker := s.marker.set index { reportEmptyCbEventAsReady := markerCompleted } }

def State.createAggregatedEvent (s : State) : Nat × State :=
  let preallocationCount := 8
  let returnIndex := s.subcopy.length
  (returnIndex, (List.range preallocationCount).foldl (fun s i =>
    State.resetAggregatedEventState
      { s with subcopy := s.subcopy ++ [0], marker := s.marker ++ [{}] }
      s.subcopy.length (i ≠ 0)) s)

def State.obtainAggregatedEventsForSplit (s : State) : Nat × State :=
  match s.marker.findIdx? (s.queryStatus bcsSplit) with
  | some i => (i, s.resetAggregatedEventState i false)
  | none => s.createAggregatedEvent

def State.createFromPool (s : State) : Nat × State :=
  let neededEvents := bcsSplit.cmdQs.length + 2
  let s := (List.range neededEvents).foldl (fun s i =>
    if i = neededEvents - 1 then { s with marker := s.marker ++ [{}] }
    else if i = neededEvents - 2 then { s with barrier := s.barrier ++ [0] }
    else { s with subcopy := s.subcopy ++ [0] }) s
  (s.marker.length - 1, s)

/-- `poolAvailable` is whether a pool can be allocated where one is needed. Without one, the call
waits for the first package, or fails when there is none. -/
def State.obtainForSplit (s : State) (poolAvailable : Bool) : Option (Nat × State) :=
  if bcsSplit.aggregatedEventsMode then some (s.obtainAggregatedEventsForSplit bcsSplit)
  else
    match s.marker.findIdx? (s.queryStatus bcsSplit) with
    | some i => some (i, s.resetEventPackage bcsSplit i)
    | none => if poolAvailable then some (s.createFromPool bcsSplit) else none

/-- The beginning of a call: its package, and the barrier. -/
def State.beginSplit (s : State) (call : Call) (poolAvailable : Bool) : Option State :=
  match s.obtainForSplit bcsSplit poolAvailable with
  | none => none
  | some (markerEventIndex, s) =>
    some { s with
      splits := s.splits ++ [{
        call := call
        markerEventIndex := markerEventIndex
        totalSize := call.size
        engineCount := (bcsSplit.getCmdQsForSplit call.direction).length }]
      valid := s.valid && (!call.barrierRequired || markerEventIndex < s.barrier.length) }

/-- One round of the loop. An aggregated event is refused by a list that is not in order. -/
def State.appendNext (s : State) (index : Nat) : Option State :=
  match s.splits[index]? with
  | none => none
  | some split =>
    match (bcsSplit.getCmdQsForSplit split.call.direction)[split.i]? with
    | none => none
    | some cmdQ =>
      let localSize := split.totalSize / split.engineCount
      let subcopyEventIndex := split.markerEventIndex * bcsSplit.cmdQs.length
      let copyEventIndex :=
        if bcsSplit.aggregatedEventsMode then split.markerEventIndex
        else subcopyEventIndex + split.i
      let accepted := !bcsSplit.aggregatedEventsMode || split.call.isInOrderExecutionEnabled
      let chunk : Chunk :=
        { cmdQ := cmdQ
          offset := split.call.size - split.totalSize
          localSize := localSize
          copyEventIndex := copyEventIndex }
      some { s with
        splits := s.splits.set index { split with
          i := split.i + 1
          totalSize := split.totalSize - localSize
          engineCount := split.engineCount - 1
          chunks := if accepted then split.chunks ++ [chunk] else split.chunks
          eventHandles :=
            if !bcsSplit.aggregatedEventsMode || split.i = 0 then
              split.eventHandles ++ [copyEventIndex]
            else split.eventHandles }
        valid := s.valid && (!split.call.barrierRequired ||
          split.markerEventIndex < s.barrier.length) && copyEventIndex < s.subcopy.length }

/-- The rest of the call: the wait for the sub-copies and the signals behind it. In the aggregated
mode the marker is given the in-order counter of the list. -/
def State.appendRest (s : State) (index : Nat) : Option State :=
  match s.splits[index]? with
  | none => none
  | some split =>
    if split.i = (bcsSplit.getCmdQsForSplit split.call.direction).length ∧ split.appended = false then
      some { s with
        splits := s.splits.set index { split with appended := true }
        marker :=
          if bcsSplit.aggregatedEventsMode then
            s.marker.modify split.markerEventIndex fun marker =>
              { marker with inOrderSplit := some index }
          else s.marker
        valid := s.valid && split.markerEventIndex < s.marker.length &&
          (!bcsSplit.aggregatedEventsMode || split.call.isInOrderExecutionEnabled) }
    else none

/-- An engine finishes a part and signals its event. -/
def State.copyChunk (s : State) (index part : Nat) : Option State :=
  match s.splits[index]? with
  | none => none
  | some split =>
    match split.chunks[part]? with
    | none => none
    | some chunk =>
      if chunk.copied then none
      else
        some { s with
          splits := s.splits.set index { split with
            chunks := split.chunks.set part { chunk with copied := true } }
          subcopy := s.subcopy.modify chunk.copyEventIndex fun value =>
            if bcsSplit.aggregatedEventsMode then value + 1 else 1 }

/-- Whether the wait of a call is satisfied. -/
def State.waitSatisfied (s : State) (split : Split) : Bool :=
  split.eventHandles.all fun event =>
    bcsSplit.completionValue ≤ s.subcopy[event]?.getD 0

/-- The list executes the end of a call: the wait, the user's event and the marker. -/
def State.signal (s : State) (index : Nat) : Option State :=
  match s.splits[index]? with
  | none => none
  | some split =>
    if split.appended ∧ split.signalled = false ∧ s.waitSatisfied bcsSplit split then
      some { s with
        splits := s.splits.set index { split with signalled := true }
        marker :=
          if bcsSplit.aggregatedEventsMode then s.marker
          else s.marker.modify split.markerEventIndex fun marker =>
            { marker with signalled := true } }
    else none

/-- What threads and engines can do next. -/
inductive Action where
  | beginSplit (call : Call) (poolAvailable : Bool)
  | appendNext (index : Nat)
  | appendRest (index : Nat)
  | copyChunk (index part : Nat)
  | signal (index : Nat)
  deriving DecidableEq

def State.step (s : State) : Action → Option State
  | .beginSplit call poolAvailable => s.beginSplit bcsSplit call poolAvailable
  | .appendNext index => s.appendNext bcsSplit index
  | .appendRest index => s.appendRest bcsSplit index
  | .copyChunk index part => s.copyChunk bcsSplit index part
  | .signal index => s.signal bcsSplit index

def system : Transition.System State Action where
  init s := s = {}
  step s action s' := s.step bcsSplit action = some s'

end BcsSplit

end ComputeRuntime
