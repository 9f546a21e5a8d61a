import ComputeRuntime.HeapAllocator.Model
import ComputeRuntime.Library.Transition

/-! Pools of memory that are handed out in chunks, with their two clients: the instructions of
kernels and small buffers. Freed chunks wait in their pool until a drain finds it unused. -/
namespace ComputeRuntime.PoolAllocator

open Transition

structure SmallBuffersParams where
  aggregatedSmallBuffersPoolSize : ℕ
  smallBufferThreshold : ℕ
  chunkAlignment : ℕ
  startingOffset : ℕ
  deriving DecidableEq

namespace SmallBuffersParams

def getDefaultParams : SmallBuffersParams :=
  ⟨2 * MemoryConstants.megaByte, 1 * MemoryConstants.megaByte, MemoryConstants.pageSize64k,
    MemoryConstants.pageSize64k⟩

def getLargePagesParams : SmallBuffersParams :=
  ⟨16 * MemoryConstants.megaByte, 2 * MemoryConstants.megaByte, MemoryConstants.pageSize64k,
    MemoryConstants.pageSize64k⟩

def getPreferredBufferPoolParams (is2MBLocalMemAlignmentEnabled : Bool) : SmallBuffersParams :=
  if is2MBLocalMemAlignmentEnabled then getLargePagesParams else getDefaultParams

end SmallBuffersParams

/-- A chunk of a pool: its offset and its size. -/
abbrev Chunk := ℕ × ℕ

/-- A pool. Its main storage consists of allocations, one for each device it is for. -/
structure Pool where
  params : SmallBuffersParams
  isBuiltin : Bool
  storageSize : ℕ
  allocations : List ℕ
  chunkAllocator : HeapAllocator
  chunksToFree : List Chunk
  deriving DecidableEq

/-- What a memory manager gives for a pool. -/
structure Storage where
  size : ℕ
  allocations : List ℕ
  deriving DecidableEq

namespace Pool

/-- `ISAPool::ISAPool`. -/
def createIsa (isBuiltin : Bool) (storage : Storage) : Pool where
  params := .getDefaultParams
  isBuiltin := isBuiltin
  storageSize := storage.size
  allocations := storage.allocations
  chunkAllocator := .create SmallBuffersParams.getDefaultParams.startingOffset storage.size
    MemoryConstants.pageSize 0
  chunksToFree := []

/-- `Context::BufferPool::BufferPool`. -/
def createBuffers (params : SmallBuffersParams) (storage : Storage) : Pool where
  params := params
  isBuiltin := false
  storageSize := storage.size
  allocations := storage.allocations
  chunkAllocator := .create params.startingOffset params.aggregatedSmallBuffersPoolSize
    params.chunkAlignment HeapAllocator.defaultThreshold
  chunksToFree := []

/-- `ISAPool::allocateISA` and `Context::BufferPool::allocate`: the chunk has the size that the
allocator has written back. A pool's alignment is small, so that two rounds always end the call. -/
def allocate (p : Pool) (requestedSize : ℕ) : Option Chunk × Pool :=
  match p.chunkAllocator.allocate 2 requestedSize with
  | .error _ => (none, p)
  | .ok r =>
    if r.ptr = 0 then (none, { p with chunkAllocator := r.heap })
    else
      (some (Word.sub 64 r.ptr p.params.startingOffset, r.sizeToAllocate),
        { p with chunkAllocator := r.heap })

/-- What a pool keeps when the vector moves it. -/
def moved (p : Pool) : Pool := { p with chunksToFree := [] }

def drain (allocInUse : ℕ → Bool) (p : Pool) : Pool :=
  if p.allocations.any allocInUse then p
  else
    { p with
      chunkAllocator := p.chunksToFree.foldl
        (fun h chunk => h.free (Word.add 64 chunk.1 p.params.startingOffset) chunk.2)
        p.chunkAllocator
      chunksToFree := [] }

end Pool

/-- The vector of pools, with the number of pools it has memory for. -/
structure Pools where
  bufferPools : List Pool
  capacity : ℕ
  deriving DecidableEq

/-- The first pool of a kind that has a chunk for the request. -/
def allocateFromPools (eligible : Pool → Bool) (size : ℕ) :
    List Pool → Option (ℕ × Chunk) × List Pool
  | [] => (none, [])
  | p :: ps =>
    if eligible p then
      match p.allocate size with
      | (some chunk, p) => (some (0, chunk), p :: ps)
      | (none, p) =>
        let rest := allocateFromPools eligible size ps
        (rest.1.map fun found => (found.1 + 1, found.2), p :: rest.2)
    else
      let rest := allocateFromPools eligible size ps
      (rest.1.map fun found => (found.1 + 1, found.2), p :: rest.2)

namespace Pools

def allocate (s : Pools) (eligible : Pool → Bool) (size : ℕ) : Option (ℕ × Chunk) × Pools :=
  let result := allocateFromPools eligible size s.bufferPools
  (result.1, { s with bufferPools := result.2 })

def drain (s : Pools) (allocInUse : ℕ → Bool) : Pools :=
  { s with bufferPools := s.bufferPools.map (Pool.drain allocInUse) }

/-- A pool that has storage is added. A vector that is full moves its pools to new memory; how much
that is for is up to the standard library. -/
def addNewBufferPool (s : Pools) (grow : ℕ → ℕ) : Option Pool → Pools
  | none => s
  | some p =>
    if s.bufferPools.length < s.capacity then { s with bufferPools := s.bufferPools ++ [p.moved] }
    else
      { bufferPools := s.bufferPools.map Pool.moved ++ [p.moved]
        capacity := grow s.capacity }

/-- A pool is found by its storage, which is its place in the vector here. -/
def tryFreeFromPoolBuffer (s : Pools) (pool : ℕ) (chunk : Chunk) : Pools :=
  { s with
    bufferPools := s.bufferPools.modify pool fun p =>
      { p with chunksToFree := p.chunksToFree ++ [chunk] } }

/-- The two attempts that both clients make, with a drain in between. -/
def allocateOrDrain (s : Pools) (allocInUse : ℕ → Bool) (eligible : Pool → Bool) (size : ℕ) :
    Option (ℕ × Chunk) × Pools :=
  let first := s.allocate eligible size
  if first.1.isSome then first else (first.2.drain allocInUse).allocate eligible size

end Pools

/-- A pool of instructions serves one kind of kernels. -/
def sameKind (isBuiltin : Bool) (p : Pool) : Bool := p.isBuiltin == isBuiltin

/-- A pool of buffers serves all. -/
def anyKind (_ : Pool) : Bool := true

/-- What a request meets: the storage for a pool of an oversized request and for one more pool,
whether one more is allowed, and which allocations are in use. -/
structure Outcome where
  oversized : Option Storage
  requestPoolCreate : Bool
  added : Option Storage
  allocInUse : ℕ → Bool

def getAllocationSize (isBuiltin : Bool) : ℕ :=
  if isBuiltin then MemoryConstants.pageSize64k else MemoryConstants.pageSize2M * 2

/-- The pools when the first attempts are made. -/
def Pools.withOversized (s : Pools) (grow : ℕ → ℕ) (o : Outcome) (isBuiltin : Bool)
    (sizeWithPadding : ℕ) : Pools :=
  if sizeWithPadding > getAllocationSize isBuiltin then
    s.addNewBufferPool grow (o.oversized.map (Pool.createIsa isBuiltin))
  else s

def Pools.requestGraphicsAllocationForIsa (s : Pools) (grow : ℕ → ℕ) (o : Outcome)
    (isBuiltin : Bool) (sizeWithPadding : ℕ) : Option (ℕ × Chunk) × Pools :=
  let result := (s.withOversized grow o isBuiltin sizeWithPadding).allocateOrDrain o.allocInUse
    (sameKind isBuiltin) sizeWithPadding
  if result.1.isSome then result
  else
    (result.2.addNewBufferPool grow (o.added.map (Pool.createIsa isBuiltin))).allocate
      (sameKind isBuiltin) sizeWithPadding

def Pools.allocateBufferFromPool (s : Pools) (grow : ℕ → ℕ) (o : Outcome)
    (params : SmallBuffersParams) (flagsAllowBufferFromPool : Bool) (requestedSize : ℕ) :
    Option (ℕ × Chunk) × Pools :=
  if s.bufferPools = [] ∨ params.smallBufferThreshold < requestedSize ∨
      flagsAllowBufferFromPool = false then (none, s)
  else
    let result := s.allocateOrDrain o.allocInUse anyKind requestedSize
    if result.1.isSome then result
    else if o.requestPoolCreate then
      (result.2.addNewBufferPool grow (o.added.map (Pool.createBuffers params))).allocate
        anyKind requestedSize
    else (none, result.2)

/-- A chunk that a client has: a `SharedIsaAllocation`, or a buffer. -/
structure Handed where
  pool : ℕ
  chunk : Chunk
  isBuiltin : Bool
  requested : ℕ
  deriving DecidableEq

inductive Client where
  | isa
  | buffers (is2MBLocalMemAlignmentEnabled : Bool)
  deriving DecidableEq

inductive Call where
  | requestGraphicsAllocationForIsa (isBuiltin : Bool) (size : ℕ) (o : Outcome)
  | allocateBufferFromPool (flagsAllow : Bool) (size : ℕ) (o : Outcome)
  | free (handed : Handed)

structure World where
  pools : Pools
  live : List Handed
  deriving DecidableEq

def World.after (w : World) (isBuiltin : Bool) (requested : ℕ)
    (result : Option (ℕ × Chunk) × Pools) : World where
  pools := result.2
  live :=
    match result.1 with
    | none => w.live
    | some (pool, chunk) => ⟨pool, chunk, isBuiltin, requested⟩ :: w.live

/-- `initAggregatedSmallBuffers` makes the first pool of a context. -/
def Client.start (grow : ℕ → ℕ) (first : Option Storage) : Client → World
  | .isa => ⟨⟨[], 0⟩, []⟩
  | .buffers is2MB =>
    ⟨(Pools.mk [] 0).addNewBufferPool grow
      (first.map (Pool.createBuffers (.getPreferredBufferPoolParams is2MB))), []⟩

inductive Step (grow : ℕ → ℕ) : Client → World → Call → World → Prop where
  | isa {w : World} {isBuiltin : Bool} {size : ℕ} {o : Outcome} :
    Step grow .isa w (.requestGraphicsAllocationForIsa isBuiltin size o)
      (w.after isBuiltin size (w.pools.requestGraphicsAllocationForIsa grow o isBuiltin size))
  | buffers {w : World} {is2MB flagsAllow : Bool} {size : ℕ} {o : Outcome} :
    Step grow (.buffers is2MB) w (.allocateBufferFromPool flagsAllow size o)
      (w.after false size (w.pools.allocateBufferFromPool grow o
        (.getPreferredBufferPoolParams is2MB) flagsAllow size))
  | free {client : Client} {w : World} {handed : Handed} (held : handed ∈ w.live) :
    Step grow client w (.free handed)
      ⟨w.pools.tryFreeFromPoolBuffer handed.pool handed.chunk, w.live.erase handed⟩

end ComputeRuntime.PoolAllocator
