import ComputeRuntime.Library.Transition
import Mathlib.Logic.Function.Basic
import Mathlib.Algebra.Group.Nat.Defs

/-! In-order command lists that are recorded once and executed many times: their counters, the
commands that wait on counters and signal them, and the patches that each execution begins with. -/
namespace ComputeRuntime.InOrder

/-! ### Counters and commands -/

structure InOrderExecInfo where
  counterValue : Nat := 0
  regularCmdListSubmissionCounter : Nat := 0
  allocationOffset : Nat := 0
  regularCmdList : Bool := true
  deriving DecidableEq

def getAppendCounterValue (info : InOrderExecInfo) : Nat :=
  if info.regularCmdList && 1 < info.regularCmdListSubmissionCounter then
    info.counterValue * (info.regularCmdListSubmissionCounter - 1) % 2 ^ 64
  else 0

def getLowPart (value : Nat) : Nat := value % 2 ^ 32

def getHighPart (value : Nat) : Nat := value / 2 ^ 32 % 2 ^ 32

/-- What a wait is for: an operation of a list, that is its own one for an implicit dependency. -/
structure Dependency where
  commandList : Nat
  operation : Nat
  implicit : Bool
  deriving DecidableEq

/-- What stands in the stream of a list. A wait on a counter of 64 bits takes its value from two
registers. -/
inductive Command where
  | noop
  | barrier
  | loadRegisterImm (second : Bool) (data : Nat)
  | semaphoreWait (dependency : Dependency) (offset partition data : Nat) (indirect : Bool)
  | signal (operation offset data : Nat)
  deriving DecidableEq

inductive PatchCmdType where
  | lri64b
  | sdi
  | semaphore
  | walker
  | pipeControl
  deriving DecidableEq

/-- A command to be patched. It names the counter that it depends on, unless that is its list's
own. -/
structure PatchCmd where
  inOrderExecInfo : Option Nat
  cmd1 : Nat
  cmd2 : Nat := 0
  baseCounterValue : Nat
  patchCmdType : PatchCmdType
  skipPatching : Bool := false
  deriving DecidableEq

def PatchCmd.isExternalDependency (cmd : PatchCmd) : Bool := cmd.inOrderExecInfo.isSome

/-- New data of a command. -/
def Command.setData (data : Nat) : Command → Command
  | .loadRegisterImm second _ => .loadRegisterImm second data
  | .semaphoreWait dependency offset partition _ indirect =>
    .semaphoreWait dependency offset partition data indirect
  | .signal operation offset _ => .signal operation offset data
  | command => command

section Patching

variable (infos : Nat → InOrderExecInfo)

/-- The value that a wait is patched with. Without a second submission of the list that it depends
on, the wait stays as it is. -/
def PatchCmd.waitValue (cmd : PatchCmd) (appendCounterValue : Nat) : Option Nat :=
  match cmd.inOrderExecInfo with
  | some info =>
    if getAppendCounterValue (infos info) = 0 then none
    else some ((cmd.baseCounterValue + getAppendCounterValue (infos info)) % 2 ^ 64)
  | none => some ((cmd.baseCounterValue + appendCounterValue) % 2 ^ 64)

def PatchCmd.patch (cmd : PatchCmd) (appendCounterValue : Nat) (commands : List Command) :
    List Command :=
  if cmd.skipPatching then commands
  else
    match cmd.patchCmdType with
    | .sdi | .walker | .pipeControl =>
      commands.modify cmd.cmd1
        (Command.setData ((cmd.baseCounterValue + appendCounterValue) % 2 ^ 64))
    | .semaphore =>
      match cmd.waitValue infos appendCounterValue with
      | some value => commands.modify cmd.cmd1 (Command.setData (value % 2 ^ 32))
      | none => commands
    | .lri64b =>
      match cmd.waitValue infos appendCounterValue with
      | some value =>
        (commands.modify cmd.cmd1 (Command.setData (getLowPart value))).modify cmd.cmd2
          (Command.setData (getHighPart value))
      | none => commands

/-- The patches of a list whose own counter is `own`. -/
def patchInOrderCmds (own : InOrderExecInfo) (cmds : List PatchCmd) (commands : List Command) :
    List Command :=
  cmds.foldl (fun commands cmd =>
    if cmd.isExternalDependency || 1 < own.regularCmdListSubmissionCounter then
      cmd.patch infos (getAppendCounterValue own) commands
    else commands) commands

end Patching

/-! ### Recording -/

structure Device where
  isQwordInOrderCounter : Bool := false
  heaplessModeEnabled : Bool := false
  dcFlushSupport : Bool := false
  partitionCount : Nat := 1
  immediateWritePostSyncOffset : Nat := 64
  deriving DecidableEq

/-- How an operation signals the counter. Behind a kernel with an optimized counter based event
nothing does. -/
inductive Signalling where
  | storeDataImm
  | walker
  | pipeControl
  | optimizedCbEvent
  deriving DecidableEq

/-- A counter based event, with the operation that it stands for. -/
structure Event where
  commandList : Nat
  operation : Nat
  inOrderExecSignalValue : Nat
  inOrderAllocationOffset : Nat
  hasInOrderTimestampNode : Bool
  deriving DecidableEq

structure CommandList where
  info : InOrderExecInfo := {}
  commands : List Command := []
  inOrderPatchCmds : List PatchCmd := []
  operations : Nat := 0
  copyOnly : Bool := false
  closedCmdList : Bool := false
  latestOperationHasOptimizedCbEvent : Bool := false
  latestOperationRequiredNonWalkerInOrderCmdsChaining : Bool := false
  deriving DecidableEq

variable (device : Device)

/-- The commands of one wait, with their patch. -/
def CommandList.addWait (commandList : CommandList) (dependency : Dependency)
    (offset partition waitValue : Nat) : CommandList :=
  let info := if dependency.implicit then none else some dependency.commandList
  let position := commandList.commands.length
  if device.isQwordInOrderCounter then
    { commandList with
      commands := commandList.commands ++
        [.loadRegisterImm false (getLowPart waitValue), .loadRegisterImm true (getHighPart waitValue),
          .semaphoreWait dependency offset partition 0 true]
      inOrderPatchCmds := commandList.inOrderPatchCmds ++
        [{ inOrderExecInfo := info, cmd1 := position, cmd2 := position + 1,
           baseCounterValue := waitValue, patchCmdType := .lri64b }] }
  else
    { commandList with
      commands := commandList.commands ++
        [.semaphoreWait dependency offset partition (waitValue % 2 ^ 32) false]
      inOrderPatchCmds := commandList.inOrderPatchCmds ++
        [{ inOrderExecInfo := info, cmd1 := position, baseCounterValue := waitValue,
           patchCmdType := .semaphore }] }

/-- A wait whose value does not fit into the counter is not recorded: the process aborts. -/
def CommandList.appendWaitOnInOrderDependency (commandList : CommandList)
    (dependency : Dependency) (waitValue offset : Nat) : Option CommandList :=
  if 2 ^ 32 ≤ waitValue && !device.isQwordInOrderCounter then none
  else if dependency.implicit && !commandList.copyOnly && (device.dcFlushSupport ||
      (!device.heaplessModeEnabled && commandList.latestOperationHasOptimizedCbEvent)) then
    -- The dependency is resolved by a pipe control.
    some { commandList with commands := commandList.commands ++ [.barrier] }
  else
    some ((List.range device.partitionCount).foldl
      (fun commandList partition => commandList.addWait device dependency offset partition waitValue)
      commandList)

def CommandList.hasInOrderDependencies (commandList : CommandList) : Bool :=
  0 < commandList.info.counterValue

def CommandList.handleInOrderImplicitDependencies (commandList : CommandList) (id : Nat) :
    Option CommandList :=
  if commandList.hasInOrderDependencies then
    commandList.appendWaitOnInOrderDependency device
      { commandList := id, operation := commandList.operations - 1, implicit := true }
      commandList.info.counterValue commandList.info.allocationOffset
  else some commandList

/-- Events of the list itself are skipped; other kinds of events have no counter to wait on. -/
def CommandList.appendWaitOnEvents (commandList : CommandList) (id : Nat) :
    List Event → Option CommandList
  | [] => some commandList
  | event :: events =>
    if event.commandList = id then commandList.appendWaitOnEvents id events
    else if device.heaplessModeEnabled || !event.hasInOrderTimestampNode then
      match commandList.appendWaitOnInOrderDependency device
        { commandList := event.commandList, operation := event.operation, implicit := false }
        event.inOrderExecSignalValue event.inOrderAllocationOffset with
      | some commandList => commandList.appendWaitOnEvents id events
      | none => none
    else
      { commandList with
        commands := commandList.commands ++ [Command.barrier] }.appendWaitOnEvents id events

def CommandList.addSignal (commandList : CommandList) (signalValue : Nat) (type : PatchCmdType) :
    CommandList :=
  { commandList with
    commands := commandList.commands ++
      [.signal commandList.operations commandList.info.allocationOffset signalValue]
    inOrderPatchCmds := commandList.inOrderPatchCmds ++
      [{ inOrderExecInfo := none, cmd1 := commandList.commands.length,
         baseCounterValue := signalValue, patchCmdType := type }] }

def CommandList.signal (commandList : CommandList) : Signalling → CommandList
  | .storeDataImm => commandList.addSignal (commandList.info.counterValue + 1) .sdi
  | .walker => commandList.addSignal (commandList.info.counterValue + 1) .walker
  | .pipeControl => commandList.addSignal (commandList.info.counterValue + 1) .pipeControl
  | .optimizedCbEvent => { commandList with latestOperationHasOptimizedCbEvent := true }

/-- The counter starts again at its second offset, or at the first. -/
def CommandList.handleInOrderCounterOverflow (commandList : CommandList) (id : Nat) :
    Option CommandList :=
  if !device.isQwordInOrderCounter && commandList.info.counterValue + 1 = 2 ^ 32 - 1 then
    (commandList.appendWaitOnInOrderDependency device
      { commandList := id, operation := commandList.operations, implicit := true }
      (commandList.info.counterValue + 1) commandList.info.allocationOffset).map fun commandList =>
        let newOffset :=
          if commandList.info.allocationOffset = 0 then
            device.partitionCount * device.immediateWritePostSyncOffset
          else 0
        { commandList with
          info := { commandList.info with
            counterValue := 0, allocationOffset := newOffset } }.signal .storeDataImm
  else some commandList

/-- An operation that is appended: the events it waits for, whether it is a request to wait for
them, how it signals, whether it takes part in the chain without its walker, and the event that it
signals, which may have timestamps. -/
structure Operation where
  waitEvents : List Nat := []
  apiRequest : Bool := false
  signalling : Signalling := .storeDataImm
  nonWalkerInOrderCmdsChaining : Bool := false
  signalEvent : Option Nat := none
  inOrderTimestampNode : Bool := false
  deriving DecidableEq

/-- Behind an operation that is chained without its walker there is no implicit dependency. -/
def CommandList.addEventsToCmdList (commandList : CommandList) (id : Nat)
    (waitEvents : List Event) : Option CommandList :=
  if commandList.latestOperationRequiredNonWalkerInOrderCmdsChaining then
    commandList.appendWaitOnEvents device id waitEvents
  else
    match commandList.handleInOrderImplicitDependencies device id with
    | some commandList =>
      { commandList with
        latestOperationHasOptimizedCbEvent := false }.appendWaitOnEvents device id waitEvents
    | none => none

/-- A request to wait for events comes behind the operation before, chained or not, and the flag
stays as it is. Signalling and resetting an event, waiting on memory and writing to it have the same
dependencies, without events. -/
def CommandList.appendWaitOnEventsRequest (commandList : CommandList) (id : Nat)
    (waitEvents : List Event) : Option CommandList := do
  let commandList ← commandList.handleInOrderImplicitDependencies device id
  commandList.appendWaitOnEvents device id waitEvents

def CommandList.addDependencies (commandList : CommandList) (id : Nat) (apiRequest : Bool)
    (waitEvents : List Event) : Option CommandList :=
  if apiRequest then commandList.appendWaitOnEventsRequest device id waitEvents
  else commandList.addEventsToCmdList device id waitEvents

/-- The operation itself, behind its dependencies. -/
def CommandList.appendOperation (commandList : CommandList) (id : Nat) (operation : Operation)
    (waitEvents : List Event) : Option CommandList := do
  let commandList ← commandList.addDependencies device id operation.apiRequest waitEvents
  let commandList ←
    (commandList.signal operation.signalling).handleInOrderCounterOverflow device id
  return { commandList with
    info := { commandList.info with counterValue := commandList.info.counterValue + 1 }
    operations := commandList.operations + 1
    latestOperationRequiredNonWalkerInOrderCmdsChaining :=
      operation.nonWalkerInOrderCmdsChaining }

/-! ### Execution -/

/-- What the GPU does with a counter. -/
inductive Access where
  | wait (dependency : Dependency) (value : Nat)
  | signal (operation value : Nat)
  deriving DecidableEq

/-- The accesses of a stream, with the two registers. A counter of 32 bits is compared as one. -/
def accesses : Nat × Nat → List Command → List Access
  | _, [] => []
  | registers, .loadRegisterImm second data :: commands =>
    accesses (if second then (registers.1, data) else (data, registers.2)) commands
  | registers, .semaphoreWait dependency _ _ data indirect :: commands =>
    .wait dependency (if indirect then registers.2 * 2 ^ 32 + registers.1 else data) ::
      accesses registers commands
  | registers, .signal operation _ data :: commands =>
    .signal operation (if device.isQwordInOrderCounter then data else data % 2 ^ 32) ::
      accesses registers commands
  | registers, .noop :: commands => accesses registers commands
  | registers, .barrier :: commands => accesses registers commands

def CommandList.accesses (commandList : CommandList) : List Access :=
  InOrder.accesses device (0, 0) commandList.commands

/-- The values that are signalled. -/
def signals : List Access → List Nat
  | [] => []
  | .signal _ value :: rest => value :: signals rest
  | .wait _ _ :: rest => signals rest

/-! ### Command lists together -/

/-- The command lists and the events, and all values that were signalled on the counters. -/
structure State where
  lists : Nat → CommandList
  events : Nat → Option Event := fun _ => none
  signalled : Nat → List Nat := fun _ => []

inductive Action where
  | append (commandList : Nat) (operation : Operation)
  | close (commandList : Nat)
  | execute (commandList : Nat)
  deriving DecidableEq

/-- An event that was not signalled yet is refused. -/
def State.append (s : State) (id : Nat) (operation : Operation) : Option State := do
  let waitEvents ← operation.waitEvents.mapM s.events
  if (s.lists id).closedCmdList then none
  else
    let commandList ← (s.lists id).appendOperation device id operation waitEvents
    return { s with
      lists := Function.update s.lists id commandList
      events := match operation.signalEvent with
        | some event => Function.update s.events event (some {
            commandList := id
            operation := (s.lists id).operations
            inOrderExecSignalValue := commandList.info.counterValue
            inOrderAllocationOffset := commandList.info.allocationOffset
            hasInOrderTimestampNode :=
              operation.inOrderTimestampNode || operation.signalling = .optimizedCbEvent })
        | none => s.events }

/-- The submission is counted, the commands are patched, and the GPU executes them. -/
def State.execute (s : State) (id : Nat) : State :=
  let info := { (s.lists id).info with
    regularCmdListSubmissionCounter := (s.lists id).info.regularCmdListSubmissionCounter + 1 }
  let infos := Function.update (fun id => (s.lists id).info) id info
  let commandList := { s.lists id with
    info := info
    commands := patchInOrderCmds infos info (s.lists id).inOrderPatchCmds (s.lists id).commands }
  { s with
    lists := Function.update s.lists id commandList
    signalled := Function.update s.signalled id
      (s.signalled id ++ signals (commandList.accesses device)) }

def State.step (s : State) : Action → Option State
  | .append id operation => s.append device id operation
  | .close id =>
    if (s.lists id).closedCmdList then none
    else
      some { s with
        lists := Function.update s.lists id { s.lists id with closedCmdList := true } }
  | .execute id => if (s.lists id).closedCmdList then some (s.execute device id) else none

/-- Every list is new; some are for copies only. -/
def system : Transition.System State Action where
  init s := ∃ copyOnly : Nat → Bool, s = { lists := fun id => { copyOnly := copyOnly id } }
  step s action s' := s.step device action = some s'

end ComputeRuntime.InOrder
