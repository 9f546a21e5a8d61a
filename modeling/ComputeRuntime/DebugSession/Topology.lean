import ComputeRuntime.Helpers.DebugHelpers
import ComputeRuntime.Library.Word

/-! The names of hardware threads: the debug interface numbers the slices of all tiles through,
while the hardware names a thread by its tile and by the physical slice on it. -/
namespace ComputeRuntime.DebugSession

/-- The physical ids of a tile's slices and, if it has a single one, of that slice's subslices. -/
structure TopologyMapping where
  sliceIndices : List ℕ
  subsliceIndices : List ℕ
  deriving DecidableEq

/-- One entry for each tile. -/
abbrev TopologyMap := List TopologyMapping

structure ThreadId where
  tileIndex : BitVec 2
  slice : BitVec 10
  subslice : BitVec 10
  eu : BitVec 5
  thread : BitVec 4
  deriving DecidableEq

/-- A thread as the interface names it, in four 32-bit words. -/
structure ApiThread where
  slice : ℕ
  subslice : ℕ
  eu : ℕ
  thread : ℕ
  deriving DecidableEq

structure Device where
  topologyMap : TopologyMap
  deviceBitfield : BitVec 4
  isSubdevice : Bool
  subDeviceCount : ℕ
  combinedHierarchyMode : Bool := false
  deriving DecidableEq

def log2 (value : ℕ) : ℕ := if value = 0 then 32 else value.log2

namespace TopologyMapping

/-- The subslice of a name, which only a tile with a single slice translates. -/
def toPhysicalSubslice (tile : TopologyMapping) (subslice : ℕ) : Result ℕ :=
  if tile.sliceIndices.length = 1 then
    match tile.subsliceIndices[subslice]? with
    | some physical => .ok physical
    | none => .error .outOfBounds
  else .ok subslice

/-- The search for a subslice: it is not left when the subslice has been found, and what was found
is compared with the ids that follow. -/
def searchSubslice : (subsliceIndices : List ℕ) → (subsliceApiId subslice : ℕ) → ℕ
  | [], _, subslice => subslice
  | id :: rest, subsliceApiId, subslice =>
    searchSubslice rest (subsliceApiId + 1) (if id = subslice then subsliceApiId else subslice)

def toApiSubslice (tile : TopologyMapping) (subslice : ℕ) : ℕ :=
  if tile.sliceIndices.length = 1 then searchSubslice tile.subsliceIndices 0 subslice
  else subslice

end TopologyMapping

/-- The tile and the physical slice that a slice number of the device stands for. -/
def findSlice (deviceBitfield : BitVec 4) : TopologyMap → (i sliceId : ℕ) → Option (ℕ × ℕ)
  | [], _, _ => none
  | tile :: rest, i, sliceId =>
    if deviceBitfield.getLsbD i then
      match tile.sliceIndices[sliceId]? with
      | some slice => some (i, slice)
      | none => findSlice deviceBitfield rest (i + 1)
          (Word.sub 32 sliceId tile.sliceIndices.length)
    else findSlice deviceBitfield rest (i + 1) sliceId

/-- The loop over the tiles that goes on behind the match, with a slice number that then has
wrapped around. -/
def findDeviceIndex (deviceBitfield : BitVec 4) :
    TopologyMap → (i sliceId deviceIndex : ℕ) → ℕ
  | [], _, _, deviceIndex => deviceIndex
  | tile :: rest, i, sliceId, deviceIndex =>
    if deviceBitfield.getLsbD i then
      findDeviceIndex deviceBitfield rest (i + 1) (Word.sub 32 sliceId tile.sliceIndices.length)
        (if sliceId < tile.sliceIndices.length then i else deviceIndex)
    else findDeviceIndex deviceBitfield rest (i + 1) sliceId deviceIndex

namespace Device

def numSubDevices (d : Device) : ℕ :=
  let count := (List.range 4).countP d.deviceBitfield.getLsbD
  if count = 1 ∧ (d.combinedHierarchyMode = false ∨ d.subDeviceCount = 1) then 0 else count

def bitfieldIndex (d : Device) : ℕ := log2 d.deviceBitfield.toNat

/-- What `toPhysicalSliceId` leaves in its arguments, and what it returns. -/
structure PhysicalIds where
  found : Bool
  slice : ℕ
  subslice : ℕ
  deviceIndex : ℕ
  deriving DecidableEq

def toPhysicalSliceId (d : Device) (slice subslice deviceIndex : ℕ) : Result PhysicalIds :=
  let failed : PhysicalIds := ⟨false, slice, subslice, deviceIndex⟩
  if d.topologyMap.length = d.subDeviceCount ∧ d.isSubdevice = false then
    match findSlice d.deviceBitfield d.topologyMap 0 slice with
    | some (i, physicalSlice) => do
      let physicalSubslice ← (d.topologyMap.getD i ⟨[], []⟩).toPhysicalSubslice subslice
      return ⟨true, physicalSlice, physicalSubslice, i⟩
    | none => .ok failed
  else if d.isSubdevice then
    if d.deviceBitfield = 0 then .error .unrecoverable
    else
      match d.topologyMap[d.bitfieldIndex]? with
      | some tile =>
        match tile.sliceIndices[slice]? with
        | some physicalSlice => do
          let physicalSubslice ← tile.toPhysicalSubslice subslice
          return ⟨true, physicalSlice, physicalSubslice, d.bitfieldIndex⟩
        | none => .ok failed
      | none => .ok failed
  else .ok failed

/-- The slices of the tiles before one. -/
def slicesBefore (d : Device) (deviceIndex : ℕ) : ℕ :=
  (List.range deviceIndex).foldl (fun apiSliceId devId =>
    if d.deviceBitfield.getLsbD devId then
      Word.add 32 apiSliceId (d.topologyMap.getD devId ⟨[], []⟩).sliceIndices.length
    else apiSliceId) 0

/-- Whether a name was found, the slice and the subslice. -/
def toApiSliceId (d : Device) (slice subslice deviceIndex : ℕ) : Result (Bool × ℕ × ℕ) :=
  if d.isSubdevice ∧ d.deviceBitfield = 0 then .error .unrecoverable
  else
    let deviceIndex := if d.isSubdevice then d.bitfieldIndex else deviceIndex
    match d.topologyMap[deviceIndex]? with
    | some tile =>
      let apiSliceId := if d.isSubdevice then 0 else d.slicesBefore deviceIndex
      match tile.sliceIndices.findIdx? (· = slice) with
      | some i => .ok (true, Word.add 32 apiSliceId i, tile.toApiSubslice subslice)
      | none => .ok (false, slice, subslice)
    | none => .ok (false, slice, subslice)

def isSingleThread (thread : ApiThread) : Bool :=
  thread.slice ≠ 2 ^ 32 - 1 ∧ thread.subslice ≠ 2 ^ 32 - 1 ∧ thread.eu ≠ 2 ^ 32 - 1 ∧
    thread.thread ≠ 2 ^ 32 - 1

/-- The fields of a thread id hold the lower bits of what they are given. -/
def convertToThreadId (d : Device) (thread : ApiThread) : Result ThreadId :=
  if isSingleThread thread = false then .error .unrecoverable
  else do
    let ids ← d.toPhysicalSliceId thread.slice thread.subslice 0
    return ⟨.ofNat 2 ids.deviceIndex, .ofNat 10 ids.slice, .ofNat 10 ids.subslice,
      .ofNat 5 thread.eu, .ofNat 4 thread.thread⟩

def convertToApi (d : Device) (threadId : ThreadId) : Result ApiThread := do
  let (_, slice, subslice) ←
    d.toApiSliceId threadId.slice.toNat threadId.subslice.toNat threadId.tileIndex.toNat
  return ⟨slice, subslice, threadId.eu.toNat, threadId.thread.toNat⟩

def getDeviceIndexFromApiThread (d : Device) (thread : ApiThread) : ℕ :=
  if d.isSubdevice then d.bitfieldIndex
  else if max 1 d.numSubDevices > 1 then
    if thread.slice = 2 ^ 32 - 1 then 2 ^ 32 - 1
    else findDeviceIndex d.deviceBitfield d.topologyMap 0 thread.slice d.bitfieldIndex
  else d.bitfieldIndex

end Device

end ComputeRuntime.DebugSession
