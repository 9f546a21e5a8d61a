import ComputeRuntime.HeapAllocator.Runs
import Mathlib.Logic.Function.Basic

/-! The partition of a GPU address space into heaps: how its range is chosen, how it is cut, and
to which heap a freed range is given back. -/
namespace ComputeRuntime

inductive HeapIndex where
  | heapInternalDeviceMemory
  | heapInternal
  | heapExternalDeviceMemory
  | heapExternal
  | heapStandard
  | heapStandard64KB
  | heapStandard2MB
  | heapSvm
  | heapExtended
  | heapExternalFrontWindow
  | heapExternalDeviceFrontWindow
  | heapInternalFrontWindow
  | heapInternalDeviceFrontWindow
  | heapExtendedHost
  deriving DecidableEq

namespace HeapAssigner

def heapTypeExternalWithFrontWindowPool : HeapIndex → Bool
  | .heapExternalDeviceMemory | .heapExternal => true
  | _ => false

def isInternalHeap : HeapIndex → Bool
  | .heapInternalDeviceMemory | .heapInternal => true
  | _ => false

def mapExternalWindowIndex : HeapIndex → Result HeapIndex
  | .heapExternal => .ok .heapExternalFrontWindow
  | .heapExternalDeviceMemory => .ok .heapExternalDeviceFrontWindow
  | _ => .error .unrecoverable

def mapInternalWindowIndex : HeapIndex → Result HeapIndex
  | .heapInternal => .ok .heapInternalFrontWindow
  | .heapInternalDeviceMemory => .ok .heapInternalDeviceFrontWindow
  | _ => .error .unrecoverable

end HeapAssigner

def maxNBitValue (n : Nat) : Nat := 2 ^ n - 1

/-- The result of `OSMemory::reserveCpuAddressRange`; a null `originalPtr` is a failure. -/
structure ReservedCpuAddressRange where
  originalPtr : Nat
  alignedPtr : Nat
  sizeToReserve : Nat
  actualReservedSize : Nat
  deriving DecidableEq

/-- A line of the process's memory map, up to the address `stop`. -/
structure MappedRegion where
  start : Nat
  stop : Nat
  deriving DecidableEq

/-- The places the operating system is asked for a range from; one initialisation asks at most
once at each. -/
inductive ReserveCall where
  | svm
  | high48
  | high48AfterMaps
  | low48 (attempt : Nat)
  | extended
  | extendedAfterMaps
  deriving DecidableEq

/-- The answers of the operating system: where it puts a range of some size with a wanted base,
and the memory map it shows before the second try of a range. -/
structure OsMemory where
  osReserveCpuAddressRange : ReserveCall → Nat → Nat → Nat
  getMemoryMaps : ReserveCall → List MappedRegion

/-- What the machine and the build are. -/
structure Platform where
  is32bit : Bool
  cpuVirtualAddressSize : Nat
  la57 : Bool
  deriving DecidableEq

structure GfxHeap where
  base : Nat
  size : Nat
  alloc : Option HeapAllocator
  deriving DecidableEq

structure GfxPartition where
  heaps : HeapIndex → GfxHeap
  reservedCpuAddressRangeForHeapSvm : ReservedCpuAddressRange
  reservedCpuAddressRangeForHeapExtended : ReservedCpuAddressRange

/-- The arguments of `GfxPartition::init`. -/
structure InitArgs where
  gpuAddressSpace : Nat
  cpuAddressRangeSizeToReserve : Nat
  rootDeviceIndex : Nat
  numRootDevices : Nat
  useExternalFrontWindowPool : Bool
  systemMemorySize : Nat
  gfxTop : Nat
  deriving DecidableEq

namespace OsMemory

/-- The alignments asked for are powers of two, so the check of the source never fires. -/
def reserveCpuAddressRange (os : OsMemory) (call : ReserveCall)
    (baseAddress sizeToReserve alignment : Nat) : ReservedCpuAddressRange :=
  let actualReservedSize := add64 sizeToReserve alignment
  let originalPtr := os.osReserveCpuAddressRange call baseAddress actualReservedSize
  ⟨originalPtr, alignUp originalPtr alignment, sizeToReserve, actualReservedSize⟩

/-- The loop over ever smaller sizes from `reservationSize` on. The sizes are multiples of 64 KB
below 2^39, for which the product with the double 0.9 is cut to nine tenths. -/
def reserveLow48BitRangeWithRetry (os : OsMemory) (attempt reservationSize : Nat)
    (range : ReservedCpuAddressRange) : ReservedCpuAddressRange :=
  if reservationSize ≥ 32 * MemoryConstants.gigaByte then
    let range := os.reserveCpuAddressRange (.low48 attempt) 0 reservationSize
      MemoryConstants.pageSize64k
    if range.alignedPtr ≠ 0 then range
    else
      os.reserveLow48BitRangeWithRetry (attempt + 1)
        (alignDown (reservationSize * 9 / 10) MemoryConstants.pageSize64k) range
  else range
termination_by reservationSize
decreasing_by
  have less := Nat.and_le_left (n := reservationSize * 9 / 10)
    (m := Word.not 64 (sub64 MemoryConstants.pageSize64k 1))
  have large : 0 < 32 * MemoryConstants.gigaByte := by decide
  simp only [alignDown]
  omega

/-- The first gap of the memory map, from `reservationBase` on, that is large enough. -/
def findGap (areaBase areaTop reservationSize : Nat) : List MappedRegion → Nat → Nat
  | [], reservationBase => reservationBase
  | map :: rest, reservationBase =>
    if reservationBase < areaTop then
      if map.stop < areaBase then findGap areaBase areaTop reservationSize rest reservationBase
      else if sub64 map.start reservationBase ≥ reservationSize then reservationBase
      else findGap areaBase areaTop reservationSize rest map.stop
    else reservationBase

/-- A first try at the base of the area; one that lands outside is given back, and a second one
goes to a gap of the memory map. -/
def reserveRangeWithMemoryMapsParse (os : OsMemory) (first second : ReserveCall)
    (areaBase areaTop reservationSize : Nat) : ReservedCpuAddressRange :=
  let range := os.reserveCpuAddressRange first areaBase reservationSize MemoryConstants.pageSize64k
  if range.alignedPtr ≠ 0 ∧ range.alignedPtr ≥ areaBase ∧
      add64 range.alignedPtr reservationSize < areaTop then range
  else
    let reservationBase := findGap areaBase areaTop reservationSize (os.getMemoryMaps second)
      areaBase
    if add64 reservationBase reservationSize < areaTop then
      os.reserveCpuAddressRange second reservationBase reservationSize MemoryConstants.pageSize64k
    else { range with alignedPtr := 0 }

def reserveHigh48BitRangeWithMemoryMapsParse (os : OsMemory) : ReservedCpuAddressRange :=
  os.reserveRangeWithMemoryMapsParse .high48 .high48AfterMaps (maxNBitValue 47 + 1)
    (maxNBitValue 48) MemoryConstants.teraByte

def reserve57BitRangeWithMemoryMapsParse (os : OsMemory) (reservationSize : Nat) :
    ReservedCpuAddressRange :=
  os.reserveRangeWithMemoryMapsParse .extended .extendedAfterMaps (maxNBitValue 48 + 1)
    (maxNBitValue 56) reservationSize

end OsMemory

namespace GfxPartition

def heapGranularity : Nat := MemoryConstants.pageSize64k
def heapGranularity2MB : Nat := 2 * MemoryConstants.megaByte
def externalFrontWindowPoolSize : Nat := 2 * MemoryConstants.pageSize64k
def internalFrontWindowPoolSize : Nat := 1 * MemoryConstants.megaByte
def gfxHeap32Size : Nat := 4 * MemoryConstants.gigaByte

end GfxPartition

namespace GfxHeap

open GfxPartition

/-- A heap as its default constructor leaves it. -/
def empty : GfxHeap := ⟨0, 0, none⟩

def init (base size allocationAlignment : Nat) : GfxHeap :=
  let granularity :=
    if allocationAlignment > heapGranularity then heapGranularity2MB else heapGranularity
  let managed := if size > 2 * granularity then sub64 size (2 * granularity) else size
  ⟨base, size, some (.create (add64 base granularity) managed allocationAlignment
    HeapAllocator.defaultThreshold)⟩

def initExternalWithFrontWindow (base size : Nat) : GfxHeap :=
  ⟨base, size, some (.create base (sub64 size heapGranularity) MemoryConstants.pageSize 0)⟩

def initWithFrontWindow (base size frontWindowSize : Nat) : GfxHeap :=
  ⟨base, size, some (.create (add64 base frontWindowSize)
    (sub64 (sub64 size heapGranularity) frontWindowSize) MemoryConstants.pageSize
    HeapAllocator.defaultThreshold)⟩

def initFrontWindow (base size : Nat) : GfxHeap :=
  ⟨base, size, some (.create base size MemoryConstants.pageSize 0)⟩

def getLimit (heap : GfxHeap) : Nat :=
  if heap.size ≠ 0 then sub64 (add64 heap.base heap.size) 1 else 0

/-- An alignment of 0 is `allocate`. -/
def allocateWithCustomAlignment (fuel : Nat) (heap : GfxHeap) (sizeToAllocate alignment : Nat) :
    Result (GfxHeap × Nat × Nat) :=
  match heap.alloc with
  | none => .error .nullAccess
  | some alloc => do
    let r ← alloc.allocateWithCustomAlignment fuel sizeToAllocate alignment
    .ok ({ heap with alloc := some r.heap }, r.ptr, r.sizeToAllocate)

/-- A heap that was not initialised has limit 0, so no range is given to its null allocator. -/
def free (heap : GfxHeap) (ptr size : Nat) : GfxHeap :=
  { heap with alloc := heap.alloc.map fun alloc => alloc.free ptr size }

end GfxHeap

namespace GfxPartition

def heap32Names : List HeapIndex :=
  [.heapInternalDeviceMemory, .heapInternal, .heapExternalDeviceMemory, .heapExternal]

def heapNonSvmNames : List HeapIndex :=
  [.heapInternalDeviceMemory, .heapInternal, .heapExternalDeviceMemory, .heapExternal,
    .heapStandard, .heapStandard64KB, .heapStandard2MB, .heapExtended]

def setHeap (p : GfxPartition) (heapIndex : HeapIndex) (heap : GfxHeap) : GfxPartition :=
  { p with heaps := Function.update p.heaps heapIndex heap }

def heapInitWithAllocationAlignment (p : GfxPartition) (heapIndex : HeapIndex)
    (base size allocationAlignment : Nat) : GfxPartition :=
  p.setHeap heapIndex (.init base size allocationAlignment)

def heapInit (p : GfxPartition) (heapIndex : HeapIndex) (base size : Nat) : GfxPartition :=
  p.heapInitWithAllocationAlignment heapIndex base size MemoryConstants.pageSize

def heapAllocateWithCustomAlignment (fuel : Nat) (p : GfxPartition) (heapIndex : HeapIndex)
    (size alignment : Nat) : Result (GfxPartition × Nat × Nat) := do
  let (heap, ptr, size) ← (p.heaps heapIndex).allocateWithCustomAlignment fuel size alignment
  .ok (p.setHeap heapIndex heap, ptr, size)

def heapAllocate (fuel : Nat) (p : GfxPartition) (heapIndex : HeapIndex) (size : Nat) :
    Result (GfxPartition × Nat × Nat) :=
  p.heapAllocateWithCustomAlignment fuel heapIndex size 0

def heapFree (p : GfxPartition) (heapIndex : HeapIndex) (ptr size : Nat) : GfxPartition :=
  p.setHeap heapIndex ((p.heaps heapIndex).free ptr size)

/-- The heap `freeGpuAddressRange` takes for the owner of a range: the first of `names` that has
the range strictly inside. -/
def ownerOf (p : GfxPartition) (ptr size : Nat) (names : List HeapIndex) : Option HeapIndex :=
  names.find? fun heapName =>
    ptr > (p.heaps heapName).base ∧ add64 ptr size < (p.heaps heapName).getLimit

def freeGpuAddressRange (p : GfxPartition) (ptr size : Nat) : GfxPartition :=
  match p.ownerOf ptr size heapNonSvmNames with
  | some heapName => p.heapFree heapName ptr size
  | none => p

/-- The range of the layout for 47-bit GPUs, reserved by the first device that needs it. -/
def reserveSvmRange (p : GfxPartition) (os : OsMemory) (cpuAddressRangeSizeToReserve : Nat) :
    GfxPartition × Bool :=
  if p.reservedCpuAddressRangeForHeapSvm.alignedPtr = 0 then
    if cpuAddressRangeSizeToReserve = 0 then (p, false)
    else
      let range := os.reserveCpuAddressRange .svm 0 cpuAddressRangeSizeToReserve heapGranularity
      ({ p with reservedCpuAddressRangeForHeapSvm := range },
        range.originalPtr ≠ 0 && isAligned range.alignedPtr heapGranularity)
  else (p, true)

/-- The range that a 57-bit processor always reserves below 2^48, at first in its upper half. -/
def reserve48BitRange (p : GfxPartition) (os : OsMemory) : GfxPartition :=
  if p.reservedCpuAddressRangeForHeapSvm.alignedPtr = 0 then
    let range := os.reserveHigh48BitRangeWithMemoryMapsParse
    let range :=
      if range.alignedPtr = 0 then
        os.reserveLow48BitRangeWithRetry 0 (256 * MemoryConstants.gigaByte) range
      else range
    { p with reservedCpuAddressRangeForHeapSvm := range }
  else p

/-- `heapExtendedHost`, for which a 57-bit processor reserves memory above 2^48. -/
def initExtendedHost (p : GfxPartition) (os : OsMemory) (systemMemorySize : Nat) : GfxPartition :=
  let heapExtendedSize := mul64 4 systemMemorySize
  let range := os.reserve57BitRangeWithMemoryMapsParse heapExtendedSize
  let p := { p with reservedCpuAddressRangeForHeapExtended := range }
  if range.alignedPtr ≠ 0 then p.heapInit .heapExtendedHost range.alignedPtr heapExtendedSize
  else p

/-- `heapExtended`, for 57-bit GPUs only. -/
def initExtended (p : GfxPartition) (args : InitArgs) : GfxPartition :=
  if args.gpuAddressSpace = maxNBitValue 57 then
    let heapExtendedSize := alignDown (maxNBitValue 48 + 1) heapGranularity
    p.heapInit .heapExtended
      (add64 (maxNBitValue 56 + 1) (mul64 args.rootDeviceIndex heapExtendedSize)) heapExtendedSize
  else p

/-- The layouts with a 57-bit processor or GPU. Gives `gfxBase` and `gfxTop`, or nothing when the
initialisation fails. -/
def initAdditionalRange (platform : Platform) (os : OsMemory) (args : InitArgs)
    (p : GfxPartition) : GfxPartition × Option (Nat × Nat) :=
  if platform.cpuVirtualAddressSize ≠ 57 ∧ platform.cpuVirtualAddressSize ≠ 48 then (p, none)
  else if args.gpuAddressSpace ≠ maxNBitValue 57 ∧ args.gpuAddressSpace ≠ maxNBitValue 48 then
    (p, none)
  else if platform.cpuVirtualAddressSize = 57 ∧ platform.la57 then
    let p := p.reserve48BitRange os
    let range := p.reservedCpuAddressRangeForHeapSvm
    if range.alignedPtr = 0 then (p, none)
    else
      let p :=
        if args.gpuAddressSpace = maxNBitValue 57 then
          (p.heapInit .heapSvm 0 (maxNBitValue 56 + 1)).initExtendedHost os args.systemMemorySize
        else p.heapInit .heapSvm 0 (maxNBitValue 48 + 1)
      (p.initExtended args, some (range.alignedPtr, add64 range.alignedPtr range.sizeToReserve))
  else
    let gfxBase := maxNBitValue 47 + 1
    ((p.heapInit .heapSvm 0 gfxBase).initExtended args, some (gfxBase, maxNBitValue 48 + 1))

/-- The first part of `init`: the range of the heaps by address-space layout, and `heapSvm`. -/
def initRange (platform : Platform) (os : OsMemory) (args : InitArgs) (p : GfxPartition) :
    GfxPartition × Option (Nat × Nat) :=
  if platform.is32bit then
    let gfxBase := maxNBitValue 32 + 1
    (p.heapInit .heapSvm 0 gfxBase, some (gfxBase, args.gfxTop))
  else if platform.cpuVirtualAddressSize = 48 ∧ args.gpuAddressSpace = maxNBitValue 48 then
    let gfxBase := maxNBitValue 47 + 1
    (p.heapInit .heapSvm 0 gfxBase, some (gfxBase, args.gfxTop))
  else if args.gpuAddressSpace = maxNBitValue 47 then
    let (p, reserved) := p.reserveSvmRange os args.cpuAddressRangeSizeToReserve
    if reserved then
      let gfxBase := p.reservedCpuAddressRangeForHeapSvm.alignedPtr
      (p.heapInit .heapSvm 0 (args.gpuAddressSpace + 1),
        some (gfxBase, add64 gfxBase args.cpuAddressRangeSizeToReserve))
    else (p, none)
  else if args.gpuAddressSpace < maxNBitValue 47 then
    (p.heapInit .heapSvm 0 0, some (0, args.gfxTop))
  else p.initAdditionalRange platform os args

/-- One of the four 32-bit heaps, with its front window. -/
def initHeap32 (useExternalFrontWindowPool : Bool) (gfxBase : Nat) (p : GfxPartition)
    (heap : HeapIndex) : Result GfxPartition :=
  if useExternalFrontWindowPool && HeapAssigner.heapTypeExternalWithFrontWindowPool heap then do
    let p := p.setHeap heap (.initExternalWithFrontWindow gfxBase gfxHeap32Size)
    let (p, allocation, externalFrontWindowSize) ←
      p.heapAllocate 2 heap externalFrontWindowPoolSize
    let window ← HeapAssigner.mapExternalWindowIndex heap
    .ok (p.setHeap window (.initExternalWithFrontWindow allocation externalFrontWindowSize))
  else if HeapAssigner.isInternalHeap heap then do
    let p := p.setHeap heap
      (.initWithFrontWindow gfxBase gfxHeap32Size internalFrontWindowPoolSize)
    let window ← HeapAssigner.mapInternalWindowIndex heap
    .ok (p.setHeap window (.initFrontWindow gfxBase internalFrontWindowPoolSize))
  else .ok (p.heapInit heap gfxBase gfxHeap32Size)

/-- The 32-bit heaps one after the other. -/
def initHeaps32 (useExternalFrontWindowPool : Bool) :
    List HeapIndex → GfxPartition → Nat → Result (GfxPartition × Nat)
  | [], p, gfxBase => .ok (p, gfxBase)
  | heap :: rest, p, gfxBase => do
    let p ← p.initHeap32 useExternalFrontWindowPool gfxBase heap
    initHeaps32 useExternalFrontWindowPool rest p (add64 gfxBase gfxHeap32Size)

/-- What is left of the range, in three parts of which 57-bit GPUs move the borders. -/
structure StandardSizes where
  maxStandardHeapSize : Nat
  maxStandard64HeapSize : Nat
  maxStandard2MBHeapSize : Nat
  deriving DecidableEq

def standardSizes (gpuAddressSpace gfxBase gfxTop : Nat) : StandardSizes :=
  let maxStandardHeapSize := alignDown (sub64 gfxTop gfxBase / 3) heapGranularity2MB
  if gpuAddressSpace = maxNBitValue 57 then
    ⟨mul64 maxStandardHeapSize 2, maxStandardHeapSize / 2, maxStandardHeapSize / 2⟩
  else ⟨maxStandardHeapSize, maxStandardHeapSize, maxStandardHeapSize⟩

/-- The heaps after the 32-bit ones; two of them are split among the root devices. -/
def initStandardHeaps (args : InitArgs) (gfxTop : Nat) (p : GfxPartition) (gfxBase : Nat) :
    Result GfxPartition := do
  let gfxBase := alignUp gfxBase heapGranularity2MB
  let sizes := standardSizes args.gpuAddressSpace gfxBase gfxTop
  let p := p.heapInit .heapStandard gfxBase sizes.maxStandardHeapSize
  let gfxBase := add64 gfxBase sizes.maxStandardHeapSize
  let share ← checkedDiv sizes.maxStandard64HeapSize args.numRootDevices
  let gfxStandard64KBSize := alignDown share heapGranularity
  let p := p.heapInitWithAllocationAlignment .heapStandard64KB
    (add64 gfxBase (mul64 args.rootDeviceIndex gfxStandard64KBSize)) gfxStandard64KBSize
    MemoryConstants.pageSize64k
  let gfxBase := add64 gfxBase sizes.maxStandard64HeapSize
  let share ← checkedDiv sizes.maxStandard2MBHeapSize args.numRootDevices
  let gfxStandard2MBSize := alignDown share heapGranularity2MB
  .ok (p.heapInitWithAllocationAlignment .heapStandard2MB
    (add64 gfxBase (mul64 args.rootDeviceIndex gfxStandard2MBSize)) gfxStandard2MBSize
    (2 * MemoryConstants.megaByte))

/-- The second part of `init`: the heaps in the range. -/
def initHeaps (args : InitArgs) (gfxBase gfxTop : Nat) (p : GfxPartition) :
    Result GfxPartition := do
  let (p, gfxBase) ← initHeaps32 args.useExternalFrontWindowPool heap32Names p gfxBase
  p.initStandardHeaps args gfxTop gfxBase

def init (platform : Platform) (os : OsMemory) (args : InitArgs) (p : GfxPartition) :
    Result (GfxPartition × Bool) :=
  match p.initRange platform os args with
  | (p, none) => .ok (p, false)
  | (p, some (gfxBase, gfxTop)) => do
    let p ← p.initHeaps args gfxBase gfxTop
    .ok (p, true)

/-- A partition as its constructor leaves it, with the range other devices may have reserved. -/
def create (reserved : ReservedCpuAddressRange) : GfxPartition where
  heaps := fun _ => .empty
  reservedCpuAddressRangeForHeapSvm := reserved
  reservedCpuAddressRangeForHeapExtended := ⟨0, 0, 0, 0⟩

end GfxPartition

end ComputeRuntime
