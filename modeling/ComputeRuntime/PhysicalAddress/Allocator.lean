import ComputeRuntime.Helpers.AlignedMemory
import ComputeRuntime.Helpers.DebugHelpers
import Mathlib.Logic.Function.Basic

/-! The allocator of physical pages for dumps and simulations: a bump pointer for system memory
and one for each bank of local memory. -/
namespace ComputeRuntime

namespace MemoryBanks

def mainBank : Nat := 0
def getBankForLocalMemory (deviceOrdinal : Nat) : Nat := deviceOrdinal + 1

end MemoryBanks

/-- `bankAllocators` are read below `numberOfBanks` only. -/
structure PhysicalAddressAllocatorHw where
  mainAllocator : Nat
  memoryBankSize : Nat
  numberOfBanks : Nat
  bankAllocators : Nat → Nat

namespace PhysicalAddressAllocatorHw

def initialPageAddress : Nat := 0x1000

def create (bankSize numOfBanks : Nat) : PhysicalAddressAllocatorHw where
  mainAllocator := initialPageAddress
  memoryBankSize := bankSize
  numberOfBanks := numOfBanks
  bankAllocators := fun i => if i = 0 then initialPageAddress else mul64 i bankSize

/-- Moves a bump pointer to the alignment and past a page; the page's address comes first. -/
def bump (currentAddress pageSize alignement : Nat) : Nat × Nat :=
  let alignmentSize := sub64 (alignUp currentAddress alignement) currentAddress
  let address := add64 currentAddress alignmentSize
  (address, add64 address pageSize)

def reservePage (p : PhysicalAddressAllocatorHw) (memoryBank pageSize alignement : Nat) :
    Result (PhysicalAddressAllocatorHw × Nat) :=
  if memoryBank = MemoryBanks.mainBank ∨ p.numberOfBanks = 0 then
    let (address, next) := bump p.mainAllocator pageSize alignement
    .ok ({ p with mainAllocator := next }, address)
  else if memoryBank > p.numberOfBanks then .error .unrecoverable
  else
    let index := memoryBank - MemoryBanks.getBankForLocalMemory 0
    let (address, next) := bump (p.bankAllocators index) pageSize alignement
    if address > mul64 (index + 1) p.memoryBankSize then .error .unrecoverable
    else .ok ({ p with bankAllocators := Function.update p.bankAllocators index next }, address)

def reserve4kPage (p : PhysicalAddressAllocatorHw) (memoryBank : Nat) :
    Result (PhysicalAddressAllocatorHw × Nat) :=
  p.reservePage memoryBank MemoryConstants.pageSize MemoryConstants.pageSize

def reserve64kPage (p : PhysicalAddressAllocatorHw) (memoryBank : Nat) :
    Result (PhysicalAddressAllocatorHw × Nat) :=
  p.reservePage memoryBank MemoryConstants.pageSize64k MemoryConstants.pageSize64k

end PhysicalAddressAllocatorHw

end ComputeRuntime
