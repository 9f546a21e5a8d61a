import ComputeRuntime.Helpers.AlignedMemory
import Mathlib.Algebra.BigOperators.Group.Finset.Basic
import Mathlib.Algebra.Order.BigOperators.Group.Finset
import Mathlib.Data.Nat.ModEq
import Mathlib.Logic.Function.Basic

/-! The aggregator of recorded command buffers: how many of them are submitted as one batch with
the first one, and which allocations that batch needs. Allocations carry a stamp that says in
which inspection they were last seen. -/
namespace ComputeRuntime.Submissions

inductive QueueThrottle where
  | low
  | medium
  | high
  deriving DecidableEq

/-- What the aggregator reads of a batch buffer. -/
structure BatchBuffer (α : Type*) where
  commandBufferAllocation : Option α
  lowPriority : Bool := false
  throttle : QueueThrottle := .medium
  sliceCount : ℕ := 0
  deriving DecidableEq

structure CommandBuffer (α : Type*) where
  surfaces : List α
  batchBuffer : BatchBuffer α
  inspectionId : ℕ := 0
  deriving DecidableEq

structure SubmissionAggregator (α : Type*) where
  cmdBuffers : List (CommandBuffer α) := []
  inspectionId : ℕ := 1

variable {α : Type*}

def recordCommandBuffer (aggregator : SubmissionAggregator α) (commandBuffer : CommandBuffer α) :
    SubmissionAggregator α :=
  { aggregator with cmdBuffers := aggregator.cmdBuffers ++ [commandBuffer] }

/-- Allocations that are collected into a list with their total size, and the stamps. -/
structure Collection (α : Type*) where
  ids : α → ℕ
  resources : List α
  size : ℕ

/-- What a call has gathered so far; `newResources` is its temporary list. -/
structure Aggregation (α : Type*) where
  ids : α → ℕ
  resourcePackage : List α
  totalUsedSize : ℕ
  newResources : List α

section Model

variable [DecidableEq α] (size : α → ℕ) (currentInspection : ℕ)

def inspect (c : Collection α) (graphicsAllocation : α) : Collection α :=
  if c.ids graphicsAllocation < currentInspection then
    { ids := Function.update c.ids graphicsAllocation currentInspection
      resources := c.resources ++ [graphicsAllocation]
      size := add64 c.size (size graphicsAllocation) }
  else c

/-- What a later buffer names: its surfaces and its command buffer, without the allocation that
holds the commands of the primary one. -/
def CommandBuffer.named (primaryBatch : Option α) (b : CommandBuffer α) : List α :=
  b.surfaces.filter (fun a => some a ≠ primaryBatch) ++
    if b.batchBuffer.commandBufferAllocation ≠ primaryBatch then
      b.batchBuffer.commandBufferAllocation.toList
    else []

/-- The loop over the buffers behind the primary one. -/
def aggregateLoop (totalMemoryBudget : ℕ) (primaryBatch : Option α) :
    List (CommandBuffer α) → Aggregation α → List (CommandBuffer α) × Aggregation α
  | [], s => ([], s)
  | nextCommandBuffer :: rest, s =>
    let evaluated := (nextCommandBuffer.named primaryBatch).foldl (inspect size currentInspection)
      ⟨s.ids, s.newResources, 0⟩
    if add64 evaluated.size s.totalUsedSize ≤ totalMemoryBudget then
      let (later, s) := aggregateLoop totalMemoryBudget primaryBatch rest
        { ids := evaluated.ids
          resourcePackage := s.resourcePackage ++ evaluated.resources
          totalUsedSize := add64 s.totalUsedSize evaluated.size
          newResources := [] }
      ({ nextCommandBuffer with inspectionId := currentInspection } :: later, s)
    else
      (nextCommandBuffer :: rest,
        { s with ids := evaluated.ids, newResources := evaluated.resources })

end Model

/-- Buffers that may be submitted with one another. -/
def BatchBuffer.Compatible (b primary : BatchBuffer α) : Prop :=
  b.lowPriority = primary.lowPriority ∧ b.throttle = primary.throttle ∧
    b.sliceCount = primary.sliceCount

instance (b primary : BatchBuffer α) : Decidable (b.Compatible primary) :=
  inferInstanceAs (Decidable (_ ∧ _ ∧ _))

/-- What a call leaves behind. -/
structure Aggregated (α : Type*) where
  aggregator : SubmissionAggregator α
  ids : α → ℕ
  resourcePackage : List α
  totalUsedSize : ℕ

def aggregateCommandBuffers [DecidableEq α] (size : α → ℕ) (aggregator : SubmissionAggregator α)
    (ids : α → ℕ) (resourcePackage : List α) (totalUsedSize totalMemoryBudget : ℕ) :
    Aggregated α :=
  match aggregator.cmdBuffers with
  | [] => ⟨aggregator, ids, resourcePackage, totalUsedSize⟩
  | primary :: others =>
    let currentInspection := aggregator.inspectionId
    let inspectionId := Word.add 32 aggregator.inspectionId 1
    let marked := { primary with inspectionId := currentInspection }
    -- the primary buffer must fit the budget
    let own := primary.surfaces.foldl (inspect size currentInspection)
      ⟨ids, resourcePackage, totalUsedSize⟩
    let alone : Aggregated α :=
      ⟨⟨marked :: others, inspectionId⟩, own.ids, own.resources, own.size⟩
    match others with
    | [] => alone
    | next :: _ =>
      if next.batchBuffer.lowPriority ≠ primary.batchBuffer.lowPriority then alone
      else if next.batchBuffer.throttle ≠ primary.batchBuffer.throttle then alone
      else if next.batchBuffer.sliceCount ≠ primary.batchBuffer.sliceCount then alone
      else
        let (later, s) := aggregateLoop size currentInspection totalMemoryBudget
          primary.batchBuffer.commandBufferAllocation others ⟨own.ids, own.resources, own.size, []⟩
        ⟨⟨marked :: later, inspectionId⟩, s.ids, s.resourcePackage, s.totalUsedSize⟩

end ComputeRuntime.Submissions
