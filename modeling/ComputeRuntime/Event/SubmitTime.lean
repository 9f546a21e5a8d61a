import ComputeRuntime.Event.Wraps
import ComputeRuntime.Helpers.DebugHelpers

/-! The profiling of a command: its start and end are read from a counter that wraps, and the upper
bits of the start are borrowed from the time of the submission. -/
namespace ComputeRuntime.Profiling

/-- What the calculation asks the device. Packets hold words of `timestampPacketBits` bits. The two
conversions to nanoseconds are those of timestamps and of durations. -/
structure DeviceClock where
  timestampPacketBits : ℕ
  globalTimeStampBits : ℕ
  kernelTimestampValidBits : ℕ
  timestampRefreshTimeout : ℕ
  useOnlyGlobalTimestamps : Bool
  getGpuTimeStampInNS : ℕ → ℕ
  durationInNS : ℕ → ℕ

structure ProfilingInfo where
  cpuTimeInNs : ℕ
  gpuTimeInNs : ℕ
  gpuTimeStamp : ℕ
  deriving DecidableEq

/-- A node of a timestamp packet container. -/
structure TimestampNode where
  profilingCapable : Bool := true
  packetsUsed : ℕ := 1
  packets : ℕ → Packet

structure HwTimeStamps where
  globalStartTS : ℕ
  contextStartTS : ℕ
  globalEndTS : ℕ
  contextEndTS : ℕ
  contextCompleteTS : ℕ
  deriving DecidableEq

/-- The profiling state of a command's event. -/
structure CommandEvent where
  timestampPackets : List TimestampNode
  timeStampNode : Option HwTimeStamps
  dataCalculated : Bool
  profilingCpuPath : Bool
  queueTimeStamp : ProfilingInfo
  submitTimeStamp : ProfilingInfo
  startTimeStamp : ProfilingInfo
  endTimeStamp : ProfilingInfo
  completeTimeStamp : ProfilingInfo
  /-- Set when the times of the host and of the device have to be taken together again. -/
  refreshTimestamps : Bool

namespace DeviceClock

def maxNBitValue (n : ℕ) : ℕ := 2 ^ n - 1

def getDelta (d : DeviceClock) (startTime endTime : ℕ) : ℕ :=
  let max := maxNBitValue d.kernelTimestampValidBits
  let startTime := startTime &&& max
  let endTime := endTime &&& max
  if startTime > endTime then Word.add 64 (Word.sub 64 max startTime) endTime
  else Word.sub 64 endTime startTime

/-- The upper bits of the second timestamp are put into the first one. -/
def addOverflowToTimestamp (d : DeviceClock) (timestamp timestampWithOverflow : ℕ) : ℕ :=
  timestamp |||
    timestampWithOverflow &&& Word.sub 64 (maxNBitValue 64) (maxNBitValue d.globalTimeStampBits)

def updateTimestamp (d : DeviceClock) (newGpuTimestamp : ℕ) : ProfilingInfo where
  gpuTimeStamp := newGpuTimestamp
  gpuTimeInNs := d.getGpuTimeStampInNS newGpuTimestamp
  cpuTimeInNs := d.getGpuTimeStampInNS newGpuTimestamp

end DeviceClock

namespace CommandEvent

def setStart (e : CommandEvent) (gpuTimeStamp : ℕ) : CommandEvent :=
  { e with startTimeStamp.gpuTimeStamp := gpuTimeStamp }

/-- The submission and the queueing are moved before a start that was read too early. -/
def moveSubmit (d : DeviceClock) (e : CommandEvent) : CommandEvent :=
  let start := e.startTimeStamp.gpuTimeStamp
  let alignedSubmitTimestamp := if start ≤ 2 then 0 else Word.sub 64 start 1
  let alignedQueueTimestamp := if start ≤ 2 then 0 else Word.sub 64 start 2
  { e with
    submitTimeStamp := d.updateTimestamp alignedSubmitTimestamp
    queueTimeStamp := d.updateTimestamp alignedQueueTimestamp
    refreshTimestamps := true }

/-- The start, if it was not already set on the host. -/
def calculateStart (d : DeviceClock) (e : CommandEvent) (globalStartTS : ℕ) : CommandEvent :=
  if e.startTimeStamp.cpuTimeInNs = 0 then
    let submit := e.submitTimeStamp.gpuTimeStamp
    let start := d.addOverflowToTimestamp globalStartTS submit
    if start < submit then
      if d.getGpuTimeStampInNS (Word.sub 64 submit start) < d.timestampRefreshTimeout then
        moveSubmit d (e.setStart start)
      else e.setStart (Word.add 64 start (2 ^ d.globalTimeStampBits))
    else e.setStart start
  else e

/-- The durations are added to the start; `contextCompleteTS` is zero until the device has written
it. Returns the completion timestamp as well. -/
def calculateDurations (d : DeviceClock) (e : CommandEvent)
    (contextStartTS contextEndTS contextCompleteTS : ℕ) : CommandEvent × ℕ :=
  let submit := e.submitTimeStamp
  let gpuStart := e.startTimeStamp.gpuTimeStamp
  let timeDiff := d.durationInNS (Word.sub 64 gpuStart submit.gpuTimeStamp)
  let start : ProfilingInfo :=
    ⟨Word.add 64 submit.cpuTimeInNs timeDiff, d.getGpuTimeStampInNS gpuStart, gpuStart⟩
  let gpuDuration := d.getDelta contextStartTS contextEndTS
  let (complete, gpuCompleteDuration) :=
    if contextCompleteTS = 0 then (contextEndTS, gpuDuration)
    else (contextCompleteTS, d.getDelta contextStartTS contextCompleteTS)
  let after (gpuDuration : ℕ) : ProfilingInfo :=
    let cpuDuration := d.durationInNS gpuDuration
    ⟨Word.add 64 start.cpuTimeInNs cpuDuration, Word.add 64 start.gpuTimeInNs cpuDuration,
      Word.add 64 start.gpuTimeStamp gpuDuration⟩
  ({ e with
      startTimeStamp := start
      endTimeStamp := after gpuDuration
      completeTimeStamp := after gpuCompleteDuration
      dataCalculated := true }, complete)

def calculateProfilingDataInternal (d : DeviceClock) (e : CommandEvent)
    (contextStartTS contextEndTS contextCompleteTS globalStartTS : ℕ) :
    Result (CommandEvent × ℕ) :=
  let e := e.calculateStart d globalStartTS
  if e.startTimeStamp.gpuTimeStamp < e.submitTimeStamp.gpuTimeStamp then .error .unrecoverable
  else .ok (e.calculateDurations d contextStartTS contextEndTS contextCompleteTS)

/-- The boundary moves to what a packet has read before or after it. -/
def widen (boundary : ℕ × ℕ) (p : Packet) : ℕ × ℕ :=
  (if boundary.1 > p.globalStart then p.globalStart else boundary.1,
    if boundary.2 < p.globalEnd then p.globalEnd else boundary.2)

def getBoundaryTimestampValues (first : TimestampNode) (others : List TimestampNode) : ℕ × ℕ :=
  (first :: others).foldl (fun boundary timestamp =>
    if timestamp.profilingCapable = false then boundary
    else (List.range timestamp.packetsUsed).foldl
      (fun boundary i => widen boundary (timestamp.packets i)) boundary)
    (first.packets 0).global

/-- A completion timestamp that is passed by reference is written back to the node. -/
def calcProfilingData (d : DeviceClock) (e : CommandEvent) : Result CommandEvent :=
  if e.dataCalculated = false ∧ e.profilingCpuPath = false then
    match e.timestampPackets, e.timeStampNode with
    | first :: others, _ => do
      let (globalStartTS, globalEndTS) := getBoundaryTimestampValues first others
      let (e, _) ← e.calculateProfilingDataInternal d globalStartTS globalEndTS globalEndTS
        globalStartTS
      return e
    | [], some node =>
      if d.useOnlyGlobalTimestamps then do
        let (e, globalEndTS) ← e.calculateProfilingDataInternal d node.globalStartTS
          node.globalEndTS node.globalEndTS node.globalStartTS
        return { e with timeStampNode := some { node with globalEndTS := globalEndTS } }
      else do
        let (e, contextCompleteTS) ← e.calculateProfilingDataInternal d node.contextStartTS
          node.contextEndTS node.contextCompleteTS node.globalStartTS
        return { e with timeStampNode := some { node with contextCompleteTS := contextCompleteTS } }
    | [], none => return e
  else return e

end CommandEvent

end ComputeRuntime.Profiling
