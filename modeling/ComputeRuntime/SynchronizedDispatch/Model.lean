import ComputeRuntime.Library.Transition
import ComputeRuntime.Library.Word
import Mathlib.Data.Fintype.Card
import Mathlib.Logic.Function.Basic

/-! Synchronized dispatch: a token that the tiles of one immediate command list take together, so
that the walkers of two lists are never spread over the tiles at the same time. -/
namespace ComputeRuntime.SynchronizedDispatch

/-- The dwords that are compared: the high one of the token, and the partition of the tile. -/
inductive Location where
  | syncTokenOwner
  | workPartition
  deriving DecidableEq

inductive CompareOperation where
  | equal
  | notEqual
  deriving DecidableEq

def CompareOperation.holds (value compareData : Nat) : CompareOperation → Bool
  | .equal => value = compareData
  | .notEqual => value ≠ compareData

/-- The commands of a dispatch. The atomics are on the token; positions in the stream are counted in
commands. A conditional start turns predication off behind itself, and every place it may lead to
begins by turning it off. -/
inductive Command where
  | noop
  | miPredicateDisable
  | atomicCmpWr (operand1Data operand2Data : Nat)
  | atomicDecrement
  | conditionalBatchBufferStart (startPosition : Nat) (compareAddress : Location)
      (compareData : Nat) (compareOperation : CompareOperation)
  | batchBufferStart (startPosition : Nat)
  | miSemaphoreWait (address : Location) (data : Nat)
  | work
  | signalInOrderCounter
  deriving DecidableEq

def queueId (syncDispatchQueueId : Nat) : Nat := Word.add 32 syncDispatchQueueId 1

def queueIdToken (syncDispatchQueueId : Nat) : Nat := queueId syncDispatchQueueId <<< 32

/-- Space that is reserved is `noop` until it is patched. -/
def appendFullSynchronizedDispatchInit (syncDispatchQueueId partitionCount : Nat)
    (cmdStream : List Command) : List Command :=
  let queueId := queueId syncDispatchQueueId
  let tokenInitialValue := Word.add 64 (queueIdToken syncDispatchQueueId) partitionCount
  let skipPrimaryTileSection := cmdStream.length
  let cmdStream := cmdStream ++ [.noop]
  -- The primary tile tries to acquire the token, and leaves the section when it has.
  let acquireTokenPosition := cmdStream.length
  let cmdStream := cmdStream ++ [.miPredicateDisable, .atomicCmpWr 0 tokenInitialValue]
  let jumpToEndSectionFromPrimaryTile := cmdStream.length
  let cmdStream := cmdStream ++ [.noop]
  let cmdStream := cmdStream ++
    [.miSemaphoreWait .syncTokenOwner 0, .batchBufferStart acquireTokenPosition]
  let cmdStream := cmdStream.set skipPrimaryTileSection
    (.conditionalBatchBufferStart cmdStream.length .workPartition 0 .notEqual)
  -- The other tiles wait until the primary one has acquired it.
  let cmdStream := cmdStream ++ [.miPredicateDisable, .miSemaphoreWait .syncTokenOwner queueId]
  let cmdStream := cmdStream.set jumpToEndSectionFromPrimaryTile
    (.conditionalBatchBufferStart cmdStream.length .syncTokenOwner queueId .equal)
  cmdStream ++ [.miPredicateDisable]

def appendSynchronizedDispatchCleanupSection (syncDispatchQueueId : Nat)
    (cmdStream : List Command) : List Command :=
  cmdStream ++ [.atomicDecrement, .atomicCmpWr (queueIdToken syncDispatchQueueId) 0]

/-- The commands of one dispatch, from the initialization section to the end of the cleanup. -/
def dispatchCommands (syncDispatchQueueId partitionCount : Nat) : List Command :=
  appendSynchronizedDispatchCleanupSection syncDispatchQueueId
    (appendFullSynchronizedDispatchInit syncDispatchQueueId partitionCount [] ++
      [.work, .signalInOrderCounter])

/-! ### Execution -/

/-- How far a tile is: in which dispatch of its list, at which command of it, and how often it has
signalled the in-order counter. -/
structure Tile where
  dispatch : Nat := 0
  position : Nat := 0
  signalled : Nat := 0
  deriving DecidableEq

/-- The command lists that share the token. -/
structure Setup (Queue : Type) where
  syncDispatchQueueId : Queue → Nat
  dispatches : Queue → Nat

/-- `acquired` records how often the primary tile of a list has written the token. -/
structure State (Queue : Type) (tileCount : Nat) where
  token : Nat
  acquired : Queue → Nat
  tiles : Queue → Fin tileCount → Tile

section Execution

variable {Queue : Type} [DecidableEq Queue] {tileCount : Nat} (setup : Setup Queue)

def Setup.commands (queue : Queue) (partitionCount : Nat) : List Command :=
  dispatchCommands (setup.syncDispatchQueueId queue) partitionCount

def State.owner (s : State Queue tileCount) : Nat := s.token / 2 ^ 32

def State.count (s : State Queue tileCount) : Nat := s.token % 2 ^ 32

/-- What a tile reads. -/
def State.read (s : State Queue tileCount) (tile : Fin tileCount) : Location → Nat
  | .syncTokenOwner => s.owner
  | .workPartition => tile.val

def State.setTile (s : State Queue tileCount) (queue : Queue) (tile : Fin tileCount)
    (value : Tile) : State Queue tileCount :=
  { s with
    tiles := Function.update s.tiles queue (Function.update (s.tiles queue) tile value) }

/-- To the next command, or to the next dispatch behind the last one. -/
def Tile.advance (length : Nat) (tile : Tile) : Tile :=
  if tile.position + 1 < length then { tile with position := tile.position + 1 }
  else { tile with dispatch := tile.dispatch + 1, position := 0 }

/-- One command of a tile; a semaphore that does not find its value keeps the tile waiting. -/
def State.execute (s : State Queue tileCount) (length : Nat) (queue : Queue)
    (tile : Fin tileCount) : Command → Option (State Queue tileCount)
  | .noop | .miPredicateDisable | .work =>
    some (s.setTile queue tile ((s.tiles queue tile).advance length))
  | .atomicCmpWr operand1Data operand2Data =>
    let next := s.setTile queue tile ((s.tiles queue tile).advance length)
    if s.token = operand1Data then
      some { next with
        token := operand2Data
        acquired :=
          if operand1Data = 0 then Function.update s.acquired queue (s.acquired queue + 1)
          else s.acquired }
    else some next
  | .atomicDecrement =>
    let next := s.setTile queue tile ((s.tiles queue tile).advance length)
    some { next with token := Word.sub 64 s.token 1 }
  | .conditionalBatchBufferStart startPosition compareAddress compareData compareOperation =>
    if compareOperation.holds (s.read tile compareAddress) compareData then
      some (s.setTile queue tile { s.tiles queue tile with position := startPosition })
    else some (s.setTile queue tile ((s.tiles queue tile).advance length))
  | .batchBufferStart startPosition =>
    some (s.setTile queue tile { s.tiles queue tile with position := startPosition })
  | .miSemaphoreWait address data =>
    if s.read tile address = data then
      some (s.setTile queue tile ((s.tiles queue tile).advance length))
    else none
  | .signalInOrderCounter =>
    let next := (s.tiles queue tile).advance length
    some (s.setTile queue tile { next with signalled := next.signalled + 1 })

/-- A tile goes on with a dispatch of its list, and starts one only when all tiles of the list have
signalled those before it. -/
def State.step (s : State Queue tileCount) (queue : Queue) (tile : Fin tileCount) :
    Option (State Queue tileCount) :=
  let current := s.tiles queue tile
  if current.dispatch < setup.dispatches queue ∧
      (current.position = 0 → ∀ other, current.dispatch ≤ (s.tiles queue other).signalled) then
    (setup.commands queue tileCount)[current.position]? >>=
      s.execute (setup.commands queue tileCount).length queue tile
  else none

/-- All interleavings of the tiles of all lists. -/
def system (tileCount : Nat) : Transition.System (State Queue tileCount) (Queue × Fin tileCount) where
  init s := s = { token := 0, acquired := fun _ => 0, tiles := fun _ _ => {} }
  step s actor s' := s.step setup actor.1 actor.2 = some s'

end Execution

end ComputeRuntime.SynchronizedDispatch
