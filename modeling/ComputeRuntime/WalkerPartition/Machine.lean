import ComputeRuntime.WalkerPartition.LaidOut
import ComputeRuntime.Library.Transition

/-! The command streamers of the tiles of a device, which execute one command buffer side by side.

Memory consists of counters of 32 bits by their addresses. A streamer that has come to the end of the
buffer executes it again. Under predication, commands are skipped while the partition of the
streamer, masked, is not 0; a jump is only skipped when it asks for that. -/
namespace ComputeRuntime.WalkerPartition

open Layout Transition

structure Streamer where
  position : Nat
  execution : Nat
  registers : Nat → Nat
  predication : Bool

structure Device (tileCount : Nat) where
  streamers : Fin tileCount → Streamer
  memory : Nat → Nat
  /-- The walkers executed so far: in which execution, and for which partition. -/
  walked : List (Nat × Nat)

namespace Streamer

def off (s : Streamer) : Bool :=
  s.predication && s.registers wparidCCSOffset &&& s.registers predicationMaskCCSOffset != 0

def skips (s : Streamer) : Command → Bool
  | .miSetPredicate _ => false
  | .batchBufferStart _ predicationEnabled _ => predicationEnabled && s.off
  | _ => s.off

def next (s : Streamer) : Streamer := { s with position := s.position + 1 }

def load (s : Streamer) (registerOffset value : Nat) : Streamer :=
  { s.next with registers := Function.update s.registers registerOffset value }

theorem load_self (s : Streamer) (registerOffset value : Nat) :
    (s.load registerOffset value).registers registerOffset = value := by
  simp [load]

end Streamer

def AtomicOpcode.run (old : Nat) : AtomicOpcode → Nat
  | .increment4B => Word.add 32 old 1
  | .move4B => 0

def CompareOperation.Holds (value compareValue : Nat) : CompareOperation → Prop
  | .sadGreaterThanOrEqualSdd => compareValue ≤ value
  | .sadNotEqualSdd => value ≠ compareValue

instance (value compareValue : Nat) : DecidablePred (CompareOperation.Holds value compareValue)
  | .sadGreaterThanOrEqualSdd => inferInstanceAs (Decidable (compareValue ≤ value))
  | .sadNotEqualSdd => inferInstanceAs (Decidable (value ≠ compareValue))

/-- The command at an address. -/
def landing? (gpuAddressOfAllocation : Nat) (e : Emission) (gpuAddress : Nat) : Option Nat :=
  e.items.findIdx? fun placed => add64 gpuAddressOfAllocation placed.1 = gpuAddress

namespace Device

variable {tileCount : Nat}

def put (d : Device tileCount) (tile : Fin tileCount) (s : Streamer) : Device tileCount :=
  { d with streamers := Function.update d.streamers tile s }

def store (d : Device tileCount) (gpuAddress value : Nat) : Device tileCount :=
  { d with memory := Function.update d.memory gpuAddress value }

/-- Executes a command. A wait that does not hold and a jump out of the buffer go nowhere, and a
control section cannot be executed. -/
def execute? (gpuAddressOfAllocation : Nat) (e : Emission) (d : Device tileCount)
    (tile : Fin tileCount) : Command → Option (Device tileCount)
  | .loadRegisterImm registerOffset value =>
    some (d.put tile ((d.streamers tile).load registerOffset value))
  | .loadRegisterMem gpuAddress registerOffset =>
    some (d.put tile ((d.streamers tile).load registerOffset (d.memory gpuAddress)))
  | .loadRegisterReg source destination =>
    some (d.put tile ((d.streamers tile).load destination ((d.streamers tile).registers source)))
  | .miAtomic gpuAddress requireReturnValue atomicOpcode =>
    let old := d.memory gpuAddress
    some ((d.store gpuAddress (atomicOpcode.run old)).put tile
      (if requireReturnValue then (d.streamers tile).load generalPurposeRegister4 old
      else (d.streamers tile).next))
  | .miSemaphoreWait gpuAddress semaphoreCompareValue compareOperation =>
    if compareOperation.Holds (d.memory gpuAddress) semaphoreCompareValue then
      some (d.put tile (d.streamers tile).next)
    else none
  | .miSetPredicate enableWparid =>
    some (d.put tile { (d.streamers tile).next with predication := enableWparid })
  | .batchBufferStart gpuAddress _ _ =>
    (landing? gpuAddressOfAllocation e gpuAddress).map fun position =>
      d.put tile { d.streamers tile with position := position }
  | .batchBufferEnd => some (d.put tile { d.streamers tile with position := e.items.length })
  | .miStoreDataImm gpuAddress data =>
    some ((d.store gpuAddress data).put tile (d.streamers tile).next)
  | .miMemFence => some (d.put tile (d.streamers tile).next)
  | .pipeControl _ none => some (d.put tile (d.streamers tile).next)
  | .pipeControl _ (some (gpuAddress, immediateData)) =>
    some ((d.store gpuAddress immediateData).put tile (d.streamers tile).next)
  | .computeWalker =>
    let s := d.streamers tile
    some { d.put tile s.next with
      walked := (s.execution, s.registers wparidCCSOffset) :: d.walked }
  | .controlSection _ => none

def step? (gpuAddressOfAllocation : Nat) (e : Emission) (d : Device tileCount)
    (tile : Fin tileCount) : Option (Device tileCount) :=
  let s := d.streamers tile
  match e.items[s.position]? with
  | none => some (d.put tile { s with position := 0, execution := s.execution + 1 })
  | some (_, command) =>
    if s.skips command then some (d.put tile s.next)
    else d.execute? gpuAddressOfAllocation e tile command

end Device

/-- The streamers take their steps in any order, from the start of the buffer and with the given
counters at 0; others write memory outside of the counters. -/
def device (tileCount gpuAddressOfAllocation : Nat) (e : Emission) (counters : List Nat) :
    System (Device tileCount) (Option (Fin tileCount)) where
  init := fun d => (∀ tile, (d.streamers tile).position = 0 ∧ (d.streamers tile).execution = 0 ∧
      (d.streamers tile).predication = false) ∧
    (∀ counter ∈ counters, d.memory counter = 0) ∧ d.walked = []
  step := fun d label d' => match label with
    | some tile => d.step? gpuAddressOfAllocation e tile = some d'
    | none => ∃ memory : Nat → Nat, (∀ counter ∈ counters, memory counter = d.memory counter) ∧
      d' = { d with memory := memory }

end ComputeRuntime.WalkerPartition
