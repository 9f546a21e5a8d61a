import ComputeRuntime.Helpers.AlignedMemory
import ComputeRuntime.Library.WrappingClock

/-! What an event reports about the time its kernels took: the start and the end over all packets
that the kernels wrote, and the durations that are derived from timestamps. -/
namespace ComputeRuntime.Profiling

/-- One timestamp packet. -/
structure Packet where
  contextStart : ℕ
  globalStart : ℕ
  contextEnd : ℕ
  globalEnd : ℕ
  deriving DecidableEq

namespace Packet

def global (p : Packet) : ℕ × ℕ := (p.globalStart, p.globalEnd)

def context (p : Packet) : ℕ × ℕ := (p.contextStart, p.contextEnd)

/-- What a counter of `w` bits shows at the times of a packet. -/
def read (w : ℕ) (p : Packet) : Packet where
  contextStart := p.contextStart % 2 ^ w
  globalStart := p.globalStart % 2 ^ w
  contextEnd := p.contextEnd % 2 ^ w
  globalEnd := p.globalEnd % 2 ^ w

end Packet

/-- The size of the packet array of a kernel. -/
def preferredPacketCount : ℕ := 16

structure KernelEventCompletionData where
  packetsUsed : ℕ := 1
  packets : ℕ → Packet
  l3FlushApplied : Bool := false

/-- What the profiling of an event reads: the data of its kernels, of which there is at least
one, and how many timestamp nodes it has. -/
structure Event where
  firstKernel : KernelEventCompletionData
  otherKernels : List KernelEventCompletionData := []
  inOrderIncrementValue : ℕ := 0
  inOrderTimestampNodes : ℕ := 0
  additionalTimestampNodes : ℕ := 0

/-- A running start and end, with the latch that is set once a packet was seen to wrap. -/
structure Track where
  startTS : ℕ
  endTS : ℕ
  isOverflowed : Bool
  deriving DecidableEq

/-- `getEndTS`: the latch and the running end after one more packet. -/
def getEndTS (isOverflowed : Bool) (currTs : ℕ × ℕ) (last : ℕ) : Bool × ℕ :=
  let (currStartTs, currEndTs) := currTs
  if isOverflowed = false then
    if currEndTs < currStartTs then (true, currEndTs) else (false, max last currEndTs)
  -- once a packet has wrapped, only the ends of packets that wrap are followed
  else if currEndTs < currStartTs then (true, max last currEndTs)
  else (true, last)

def Track.visit (t : Track) (currTs : ℕ × ℕ) : Track :=
  let (isOverflowed, endTS) := getEndTS t.isOverflowed currTs t.endTS
  { startTS := min t.startTS currTs.1, endTS := endTS, isOverflowed := isOverflowed }

def Track.begin (currTs : ℕ × ℕ) : Track := ⟨currTs.1, currTs.2, false⟩

structure ProfilingData where
  global : Track
  context : Track
  deriving DecidableEq

namespace Event

def kernels (e : Event) : List KernelEventCompletionData := e.firstKernel :: e.otherKernels

def numPackets (e : Event) (eventCompletion : KernelEventCompletionData) : ℕ :=
  let numPackets := eventCompletion.packetsUsed
  let numPackets :=
    if e.inOrderIncrementValue > 0 then Word.mul 32 numPackets e.inOrderTimestampNodes
    else numPackets
  if e.additionalTimestampNodes > 0 then Word.add 32 numPackets e.additionalTimestampNodes
  else numPackets

def skipL3EventPacketIndex : ℕ := 2

def visitPacket (eventCompletion : KernelEventCompletionData) (data : ProfilingData)
    (packetId : ℕ) : ProfilingData :=
  if eventCompletion.l3FlushApplied ∧ packetId % skipL3EventPacketIndex ≠ 0 then data
  else
    { global := data.global.visit (eventCompletion.packets packetId).global
      context := data.context.visit (eventCompletion.packets packetId).context }

def calculateProfilingData (e : Event) : ProfilingData :=
  let start : ProfilingData :=
    { global := .begin (e.firstKernel.packets 0).global
      context := .begin (e.firstKernel.packets 0).context }
  e.kernels.foldl (fun data eventCompletion =>
    (List.range (e.numPackets eventCompletion)).foldl (visitPacket eventCompletion) data) start

/-- The timestamp nodes that the packets of an event lie in: one for every increment, or the one of
the event, and the additional ones. -/
def nodes (e : Event) : ℕ :=
  (if e.inOrderIncrementValue > 0 then e.inOrderTimestampNodes else 1) + e.additionalTimestampNodes

/-- The packets that a kernel wrote, as many in each node. When the L3 is flushed behind it, every
second one is of the flush. -/
def written (e : Event) (k : KernelEventCompletionData) : List Packet :=
  ((List.range (k.packetsUsed * e.nodes)).filter fun packetId =>
    ¬ (k.l3FlushApplied = true ∧ packetId % 2 = 1)).map k.packets

/-- All packets that the kernels of an event wrote. -/
def packets (e : Event) : List Packet := e.kernels.flatMap e.written

/-- The events there are: the packets of a kernel fit its array, the first kernel has one, and
where there are additional nodes, every kernel has one packet in a node. -/
structure Recorded (e : Event) : Prop where
  used : 0 < e.firstKernel.packetsUsed * e.nodes
  inArray : ∀ k ∈ e.kernels, k.packetsUsed * e.nodes ≤ preferredPacketCount
  additional : e.additionalTimestampNodes = 0 ∨ ∀ k ∈ e.kernels, k.packetsUsed = 1

/-- The event as its packets read, when their times are real. -/
def read (w : ℕ) (e : Event) : Event :=
  let readKernel (k : KernelEventCompletionData) : KernelEventCompletionData :=
    { k with packets := fun packetId => (k.packets packetId).read w }
  { e with firstKernel := readKernel e.firstKernel, otherKernels := e.otherKernels.map readKernel }

end Event

section Durations

/-- The timer of a device: how many bits its timestamps have, how many bits its resolution takes
from a product, and the product of a number of ticks with the resolution, in nanoseconds. -/
structure Timer where
  kernelTimestampValidBits : ℕ
  numBitsForResolution : ℕ
  toNanoseconds : ℕ → ℕ

structure KernelTimestamp where
  kernelStart : ℕ
  kernelEnd : ℕ
  deriving DecidableEq

structure KernelTimestampResult where
  global : KernelTimestamp
  context : KernelTimestamp
  deriving DecidableEq

/-- The timestamps of the device and of the host that were taken together. -/
structure TimeStampData where
  gpuTimeStamp : ℕ
  cpuTimeinNS : ℕ
  deriving DecidableEq

def Timer.maxKernelTsValue (timer : Timer) : ℕ := 2 ^ timer.kernelTimestampValidBits - 1

def Timer.convertDeviceTsToNanoseconds (timer : Timer) (deviceTs : ℕ) : ℕ :=
  let clampedBitsCount := min timer.kernelTimestampValidBits (64 - timer.numBitsForResolution)
  timer.toNanoseconds (deviceTs &&& 2 ^ clampedBitsCount - 1)

def Timer.getDuration (timer : Timer) (startTs endTs : ℕ) : ℕ :=
  let startTs := startTs &&& timer.maxKernelTsValue
  let endTs := endTs &&& timer.maxKernelTsValue
  if startTs > endTs then add64 endTs (sub64 timer.maxKernelTsValue startTs)
  else sub64 endTs startTs

def Timer.calculateSynchronizedTs (timer : Timer) (referenceTs : TimeStampData)
    (deviceTs : KernelTimestamp) : KernelTimestamp :=
  let deviceTsInNs := timer.convertDeviceTsToNanoseconds referenceTs.gpuTimeStamp
  let offset := sub64 referenceTs.cpuTimeinNS deviceTsInNs
  let startTimeStampInNs := add64 (timer.toNanoseconds deviceTs.kernelStart) offset
  let startTimeStampInNs :=
    if startTimeStampInNs < referenceTs.cpuTimeinNS then
      let offset := add64 offset (timer.convertDeviceTsToNanoseconds timer.maxKernelTsValue)
      add64 (timer.convertDeviceTsToNanoseconds deviceTs.kernelStart) offset
    else startTimeStampInNs
  let deviceDuration := timer.getDuration deviceTs.kernelStart deviceTs.kernelEnd
  ⟨startTimeStampInNs, add64 startTimeStampInNs (timer.toNanoseconds deviceDuration)⟩

def Timer.getSynchronizedKernelTimestamps (timer : Timer) (referenceTs : TimeStampData)
    (kernelTimestamps : List KernelTimestampResult) : List KernelTimestampResult :=
  kernelTimestamps.map fun timestamps =>
    let global := timer.calculateSynchronizedTs referenceTs timestamps.global
    let deviceDuration :=
      timer.getDuration timestamps.context.kernelStart timestamps.context.kernelEnd
    { global := global
      context :=
        ⟨global.kernelStart, add64 global.kernelStart (timer.toNanoseconds deviceDuration)⟩ }

end Durations

end ComputeRuntime.Profiling
