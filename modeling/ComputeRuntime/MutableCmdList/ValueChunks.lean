import ComputeRuntime.Library.Memory
import ComputeRuntime.Library.Word

/-! Immediate arguments of a mutable command in chunks: where the elements of a value argument are
patched, and the copies that an update of the argument makes. -/
namespace ComputeRuntime.MutableCmdList.Immediate

open Memory

/-- A piece of a value argument and where it lies in the payload of the kernel. -/
structure Element where
  offset : UInt16
  size : UInt16
  sourceOffset : UInt16
  deriving DecidableEq

namespace Element

def start (e : Element) : ℕ := e.offset.toNat
def length (e : Element) : ℕ := e.size.toNat
def source (e : Element) : ℕ := e.sourceOffset.toNat

theorem length_lt (e : Element) : e.length < 2 ^ 16 := e.size.toNat_lt

end Element

/-- Where the payload of the command is: its first bytes are in the walker if the kernel takes
inline data, and the others in the heap. -/
structure Payload where
  inlineData : Bool
  inlineDataSize : ℕ
  inlineDataPointer : ℕ
  /-- Where the walker's inline data is in the command buffer. -/
  walkerInlineOffset : ℕ
  iohOffset : ℕ
  iohFullOffset : ℕ
  deriving DecidableEq

/-- A patch of the update is found by its index, if the chunk has one of its kind. -/
structure ImmediateValueChunkProperties where
  size : ℕ
  sourceOffset : ℕ
  heapStatelessUsageIndex : Option ℕ
  commandBufferUsageIndex : Option ℕ
  deriving DecidableEq

structure ValueUsages where
  statelessIndirect : List ℕ
  statelessWithoutOffset : List ℕ
  statelessIndirectPatchSize : List ℕ
  commandBufferOffsets : List ℕ
  commandBufferWithoutOffset : List ℕ
  commandBufferPatchSize : List ℕ
  deriving DecidableEq

structure Variable where
  immediateValueChunks : List ImmediateValueChunkProperties
  valueUsages : ValueUsages
  /-- The offsets of buffer arguments in the command buffer. -/
  bufferUsagesCommandBufferOffsets : List ℕ
  size : ℕ
  deriving DecidableEq

/-- A variable that is not used yet. -/
def Variable.unused : Variable := ⟨[], ⟨[], [], [], [], [], []⟩, [], 0⟩

def ValueUsages.pushHeap (u : ValueUsages) (withoutOffset indirect size : ℕ) : ValueUsages :=
  { u with
    statelessWithoutOffset := u.statelessWithoutOffset ++ [withoutOffset]
    statelessIndirect := u.statelessIndirect ++ [indirect]
    statelessIndirectPatchSize := u.statelessIndirectPatchSize ++ [size] }

def ValueUsages.pushCommandBuffer (u : ValueUsages) (withoutOffset offset size : ℕ) :
    ValueUsages :=
  { u with
    commandBufferWithoutOffset := u.commandBufferWithoutOffset ++ [withoutOffset]
    commandBufferOffsets := u.commandBufferOffsets ++ [offset]
    commandBufferPatchSize := u.commandBufferPatchSize ++ [size] }

/-- The indices of an element's patches and the usages with these. -/
def Payload.patchesOf (p : Payload) (e : Element) (u : ValueUsages) :
    Option ℕ × Option ℕ × ValueUsages :=
  if p.inlineData then
    if e.start < p.inlineDataSize then
      let commandBufferIndex := u.commandBufferWithoutOffset.length
      let full := Word.add 64 p.inlineDataPointer e.start
      let offset := Word.add 64 p.walkerInlineOffset e.start
      if e.start + e.length ≤ p.inlineDataSize then
        (none, some commandBufferIndex, u.pushCommandBuffer full offset e.length)
      else
        -- what does not fit in the inline data continues at the start of the heap's part
        (some u.statelessWithoutOffset.length, some commandBufferIndex,
          (u.pushCommandBuffer full offset (p.inlineDataSize - e.start)).pushHeap p.iohFullOffset
            p.iohOffset (e.start + e.length - p.inlineDataSize))
    else
      let startOffset := e.start - p.inlineDataSize
      (some u.statelessWithoutOffset.length, none,
        u.pushHeap (Word.add 64 p.iohFullOffset startOffset) (Word.add 64 p.iohOffset startOffset)
          e.length)
  else
    (some u.statelessWithoutOffset.length, none,
      u.pushHeap (Word.add 64 p.iohFullOffset e.start) (Word.add 64 p.iohOffset e.start) e.length)

def Variable.addElement (p : Payload) (v : Variable) (e : Element) : Variable :=
  let (heap, commandBuffer, usages) := p.patchesOf e v.valueUsages
  { v with
    immediateValueChunks :=
      v.immediateValueChunks ++ [⟨e.length, e.source, heap, commandBuffer⟩]
    valueUsages := usages
    size := e.source + e.length }

/-- The usage of a value argument with its elements, as far as it is captured in chunks. -/
def Variable.addKernelArgUsageImmediateAsChunk (p : Payload) (v : Variable)
    (elements : List Element) : Variable :=
  elements.foldl (Variable.addElement p) { v with size := 0 }

/-- The memory the patches are in, should they have to be found by their offsets. -/
structure Bases where
  iohCpuBase : ℕ
  csCpuBase : ℕ
  deriving DecidableEq

inductive ZeResult where
  | success
  | errorInvalidArgument
  deriving DecidableEq

section SetValue

variable (bases : Bases) (v : Variable)

def Variable.heapDestination (i : ℕ) : ℕ :=
  if 0 < v.valueUsages.statelessWithoutOffset.length then
    v.valueUsages.statelessWithoutOffset.getD i 0
  else Word.add 64 bases.iohCpuBase (v.valueUsages.statelessIndirect.getD i 0)

def Variable.commandBufferDestination (i : ℕ) : ℕ :=
  if 0 < v.valueUsages.commandBufferWithoutOffset.length then
    v.valueUsages.commandBufferWithoutOffset.getD i 0
  else Word.add 64 bases.csCpuBase (v.bufferUsagesCommandBufferOffsets.getD i 0)

/-- The copy into the heap. Of a value that is split its last bytes are meant. -/
def Variable.heapCopy (chunk : ImmediateValueChunkProperties) (newValue bytesToCopy : ℕ) :
    List Piece :=
  match chunk.heapStatelessUsageIndex with
  | none => []
  | some i =>
    let statelessSize := v.valueUsages.statelessIndirectPatchSize.getD i 0
    if chunk.commandBufferUsageIndex.isSome then
      [⟨v.heapDestination bases i,
        Word.add 64 newValue (Word.sub 64 bytesToCopy statelessSize), statelessSize⟩]
    else [⟨v.heapDestination bases i, newValue, min statelessSize bytesToCopy⟩]

def Variable.commandBufferCopy (chunk : ImmediateValueChunkProperties)
    (newValue bytesToCopy : ℕ) : List Piece :=
  match chunk.commandBufferUsageIndex with
  | none => []
  | some i =>
    [⟨v.commandBufferDestination bases i, newValue,
      min (v.valueUsages.commandBufferPatchSize.getD i 0) bytesToCopy⟩]

def Variable.chunkCopies (chunk : ImmediateValueChunkProperties) (size argVal : ℕ) :
    List Piece :=
  let bytesToCopy := min chunk.size (size - chunk.sourceOffset)
  let newValue := Word.add 64 argVal chunk.sourceOffset
  v.heapCopy bases chunk newValue bytesToCopy ++ v.commandBufferCopy bases chunk newValue bytesToCopy

/-- What the loop over some chunks returns, and the copies that it has made until then. -/
def Variable.setChunks (size argVal : ℕ) :
    List ImmediateValueChunkProperties → ZeResult × List Piece
  | [] => (.success, [])
  | chunk :: chunks =>
    if size ≤ chunk.sourceOffset then (.errorInvalidArgument, [])
    else
      let rest := Variable.setChunks size argVal chunks
      (rest.1, v.chunkCopies bases chunk size argVal ++ rest.2)

def Variable.setValueVariableInChunks (size argVal : ℕ) : ZeResult × List Piece :=
  v.setChunks bases size argVal v.immediateValueChunks

end SetValue

end ComputeRuntime.MutableCmdList.Immediate
