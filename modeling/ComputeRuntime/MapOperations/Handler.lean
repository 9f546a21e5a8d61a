import ComputeRuntime.Helpers.AlignedMemory
import ComputeRuntime.Library.SwapRemove

/-! The handler of a memory object's mappings: which host ranges are mapped, and which mapping is
refused because it could be written through together with another one. -/
namespace ComputeRuntime.MapOperations

open SwapRemove

def clMapRead : ℕ := 1

structure MapInfo where
  size : ℕ × ℕ × ℕ := (0, 0, 0)
  offset : ℕ × ℕ × ℕ := (0, 0, 0)
  ptrLength : ℕ
  ptr : ℕ
  mipLevel : ℕ := 0
  readOnly : Bool := false
  graphicsAllocation : ℕ := 0
  deriving DecidableEq

namespace MapInfo

/-- The address behind the mapped range. -/
def endPtr (info : MapInfo) : ℕ := add64 info.ptr info.ptrLength

/-- The mapping contains a range. -/
def Contains (info : MapInfo) (ptr size : ℕ) : Prop :=
  info.ptr ≤ ptr ∧ ptr + size ≤ info.ptr + info.ptrLength

/-- Two mappings share a byte. -/
def Shares (a b : MapInfo) : Prop :=
  ∃ address, (a.ptr ≤ address ∧ address < a.ptr + a.ptrLength) ∧
    b.ptr ≤ address ∧ address < b.ptr + b.ptrLength

/-- A mapping that is not empty and does not wrap around the address space. -/
structure Valid (info : MapInfo) : Prop where
  some : 0 < info.ptrLength
  fits : info.ptr + info.ptrLength < 2 ^ 64

end MapInfo

structure AddArguments where
  ptr : ℕ
  ptrLength : ℕ
  mapFlags : ℕ
  size : ℕ × ℕ × ℕ := (0, 0, 0)
  offset : ℕ × ℕ × ℕ := (0, 0, 0)
  mipLevel : ℕ := 0
  graphicsAllocation : ℕ := 0
  deriving DecidableEq

/-- The mapping that a call of `add` asks for. -/
def AddArguments.mapInfo (arguments : AddArguments) : MapInfo where
  size := arguments.size
  offset := arguments.offset
  ptrLength := arguments.ptrLength
  ptr := arguments.ptr
  mipLevel := arguments.mipLevel
  readOnly := arguments.mapFlags == clMapRead
  graphicsAllocation := arguments.graphicsAllocation

/-- The mappings in the order of the vector. -/
structure MapOperationsHandler where
  mappedPointers : List MapInfo := []
  deriving DecidableEq

namespace MapOperationsHandler

def isOverlapping (handler : MapOperationsHandler) (inputMapInfo : MapInfo) : Bool :=
  if inputMapInfo.readOnly then false
  else
    handler.mappedPointers.any fun mapInfo =>
      -- requested ptr starts before or inside existing ptr range and overlapping end
      decide (inputMapInfo.ptr < mapInfo.endPtr) && decide (inputMapInfo.endPtr ≥ mapInfo.ptr)

def add (handler : MapOperationsHandler) (arguments : AddArguments) :
    Bool × MapOperationsHandler :=
  if handler.isOverlapping arguments.mapInfo then (false, handler)
  else (true, ⟨handler.mappedPointers ++ [arguments.mapInfo]⟩)

def find (handler : MapOperationsHandler) (mappedPtr : ℕ) : Option MapInfo :=
  handler.mappedPointers.find? fun mapInfo => mapInfo.ptr == mappedPtr

def findInfoForHostPtr (handler : MapOperationsHandler) (ptr size : ℕ) : Option MapInfo :=
  handler.mappedPointers.find? fun mapInfo =>
    decide (mapInfo.ptr ≤ ptr) && decide (add64 ptr size ≤ mapInfo.endPtr)

def remove (handler : MapOperationsHandler) (mappedPtr : ℕ) : MapOperationsHandler :=
  ⟨swapRemove (fun mapInfo => mapInfo.ptr == mappedPtr) handler.mappedPointers⟩

end MapOperationsHandler

section Ranges

variable {a b info : MapInfo} {ptr size : ℕ}

theorem MapInfo.Valid.endPtr (valid : info.Valid) : info.endPtr = info.ptr + info.ptrLength :=
  Word.add_eq valid.fits

theorem MapInfo.shares_comm : a.Shares b ↔ b.Shares a :=
  exists_congr fun _ => and_comm

/-- Ranges share a byte when each of them starts before the other one ends. -/
theorem MapInfo.shares_iff (first : a.Valid) (second : b.Valid) : a.Shares b ↔
    a.ptr < b.ptr + b.ptrLength ∧ b.ptr < a.ptr + a.ptrLength := by
  have someA := first.some
  have someB := second.some
  constructor
  · rintro ⟨address, inA, inB⟩
    omega
  · rintro ⟨low, high⟩
    refine ⟨max a.ptr b.ptr, ⟨le_max_left _ _, ?_⟩, le_max_right _ _, ?_⟩
    · exact max_lt (by omega) high
    · exact max_lt low (by omega)

end Ranges

section Handler

variable {handler : MapOperationsHandler} {input : MapInfo}

/-- The mapping only touches another one, which starts where it ends. -/
def MapOperationsHandler.Touches (handler : MapOperationsHandler) (input : MapInfo) : Prop :=
  ∃ mapInfo ∈ handler.mappedPointers, input.ptr + input.ptrLength = mapInfo.ptr

def MapOperationsHandler.Conflicts (handler : MapOperationsHandler) (input : MapInfo) : Prop :=
  input.readOnly = false ∧ ∃ mapInfo ∈ handler.mappedPointers, input.Shares mapInfo

/-- The test refuses what shares a byte, and also what ends where another mapping starts. -/
theorem isOverlapping_iff (valid : input.Valid)
    (live : ∀ mapInfo ∈ handler.mappedPointers, mapInfo.Valid) :
    handler.isOverlapping input = true ↔
      handler.Conflicts input ∨ input.readOnly = false ∧ handler.Touches input := by
  rw [MapOperationsHandler.isOverlapping, MapOperationsHandler.Conflicts, ← and_or_left]
  cases input.readOnly with
  | true => simp
  | false =>
    simp only [Bool.false_eq_true, if_false, List.any_eq_true, Bool.and_eq_true,
      decide_eq_true_eq, true_and, valid.endPtr, MapOperationsHandler.Touches, ← exists_or,
      ← and_or_left]
    apply exists_congr
    intro mapInfo
    apply and_congr_right
    intro member
    have other := live mapInfo member
    have some := other.some
    rw [other.endPtr, MapInfo.shares_iff valid other]
    omega

/-- A live mapping is found for a range exactly when one contains it. -/
theorem findInfoForHostPtr_isSome_iff {ptr size : ℕ} (fits : ptr + size < 2 ^ 64)
    (live : ∀ mapInfo ∈ handler.mappedPointers, mapInfo.Valid) :
    (handler.findInfoForHostPtr ptr size).isSome ↔
      ∃ mapInfo ∈ handler.mappedPointers, mapInfo.Contains ptr size := by
  rw [MapOperationsHandler.findInfoForHostPtr, List.find?_isSome]
  apply exists_congr
  intro mapInfo
  apply and_congr_right
  intro member
  rw [Bool.and_eq_true, decide_eq_true_eq, decide_eq_true_eq, (live mapInfo member).endPtr, add64,
    Word.add_eq fits, MapInfo.Contains]

theorem findInfoForHostPtr_contains {ptr size : ℕ} {found : MapInfo} (fits : ptr + size < 2 ^ 64)
    (live : ∀ mapInfo ∈ handler.mappedPointers, mapInfo.Valid)
    (result : handler.findInfoForHostPtr ptr size = some found) :
    found ∈ handler.mappedPointers ∧ found.Contains ptr size := by
  have member := List.mem_of_find?_eq_some result
  have holds := List.find?_some result
  rw [Bool.and_eq_true, decide_eq_true_eq, decide_eq_true_eq, (live found member).endPtr, add64,
    Word.add_eq fits] at holds
  exact ⟨member, holds⟩

end Handler

end ComputeRuntime.MapOperations
