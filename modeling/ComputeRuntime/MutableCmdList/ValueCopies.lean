import ComputeRuntime.MutableCmdList.ValueChunks
import Mathlib.Data.List.Forall2
import Mathlib.Data.List.TakeWhile

/-! The copies of an update of an immediate argument, element by element: the chunks describe the
elements they were captured from, and which bytes of an element are copied from where. -/
namespace ComputeRuntime.MutableCmdList.Immediate

open Memory

namespace Payload

variable (p : Payload)

/-- How much of the payload is in the walker. -/
def inlineSize : ℕ := if p.inlineData then p.inlineDataSize else 0

/-- Where a byte of an element lies. -/
def place (e : Element) (i : ℕ) : ℕ :=
  if e.start + i < p.inlineSize then p.inlineDataPointer + (e.start + i)
  else p.iohFullOffset + (e.start + i - p.inlineSize)

/-- The element lies across the end of the inline data. -/
def Split (e : Element) : Prop := e.start < p.inlineSize ∧ p.inlineSize < e.start + e.length

instance (e : Element) : Decidable (p.Split e) := inferInstanceAs (Decidable (_ ∧ _))

/-- An element's bytes in the heap: where they are and how many. -/
def heapPart (e : Element) : Option (ℕ × ℕ) :=
  if e.start < p.inlineSize then
    if e.start + e.length ≤ p.inlineSize then none
    else some (p.iohFullOffset, e.start + e.length - p.inlineSize)
  else some (p.iohFullOffset + (e.start - p.inlineSize), e.length)

def inlinePart (e : Element) : Option (ℕ × ℕ) :=
  if e.start < p.inlineSize then
    some (p.inlineDataPointer + e.start, min e.length (p.inlineSize - e.start))
  else none

end Payload

/-- A value argument and an update of it: the addresses do not wrap around, a payload byte does not
stand for two bytes of the argument, and the argument is not in the payload. -/
structure Valid (p : Payload) (elements : List Element) (size argVal : ℕ) : Prop where
  argument : argVal + size ≤ 2 ^ 64
  inlineFits : p.inlineDataPointer + p.inlineDataSize ≤ 2 ^ 64
  heapFits : ∀ e ∈ elements, p.iohFullOffset + (e.start + e.length - p.inlineSize) < 2 ^ 64
  one : ∀ e ∈ elements, ∀ i < e.length, ∀ f ∈ elements, ∀ j < f.length,
    p.place e i = p.place f j → e.source + i = f.source + j
  apart : ∀ e ∈ elements, ∀ i < e.length,
    ¬(argVal ≤ p.place e i ∧ p.place e i < argVal + size)

section Capture

variable {p : Payload} {u : ValueUsages} {v : Variable} {e : Element}
  {chunk : ImmediateValueChunkProperties} {elements more : List Element}

/-- An index finds the patch that is meant, or there is none and no index. -/
def Finds (destinations sizes : List ℕ) : Option ℕ → Option (ℕ × ℕ) → Prop
  | none, none => True
  | some i, some part => destinations[i]? = some part.1 ∧ sizes[i]? = some part.2
  | _, _ => False

theorem Finds.append {destinations sizes : List ℕ} {index : Option ℕ} {part : Option (ℕ × ℕ)}
    (finds : Finds destinations sizes index part) (ds ss : List ℕ) :
    Finds (destinations ++ ds) (sizes ++ ss) index part := by
  cases index with
  | none => cases part with
    | none => trivial
    | some part => exact finds.elim
  | some i => cases part with
    | none => exact finds.elim
    | some part =>
      obtain ⟨destination, size⟩ := finds
      constructor
      · rw [List.getElem?_append_left (List.getElem?_eq_some_iff.mp destination).1, destination]
      · rw [List.getElem?_append_left (List.getElem?_eq_some_iff.mp size).1, size]

theorem finds_last {destinations sizes : List ℕ} (same : destinations.length = sizes.length)
    (d s : ℕ) : Finds (destinations ++ [d]) (sizes ++ [s]) (some destinations.length)
      (some (d, s)) := by
  constructor
  · simp
  · simp [same]

/-- A chunk with the usages describes the element it was made for. -/
structure Describes (p : Payload) (u : ValueUsages) (chunk : ImmediateValueChunkProperties)
    (e : Element) : Prop where
  size : chunk.size = e.length
  sourceOffset : chunk.sourceOffset = e.source
  heap : Finds u.statelessWithoutOffset u.statelessIndirectPatchSize
    chunk.heapStatelessUsageIndex (p.heapPart e)
  commandBuffer : Finds u.commandBufferWithoutOffset u.commandBufferPatchSize
    chunk.commandBufferUsageIndex (p.inlinePart e)

/-- The usages have grown. -/
structure Extends (before after : ValueUsages) : Prop where
  heap : ∃ ds ss, after.statelessWithoutOffset = before.statelessWithoutOffset ++ ds ∧
    after.statelessIndirectPatchSize = before.statelessIndirectPatchSize ++ ss
  commandBuffer : ∃ ds ss,
    after.commandBufferWithoutOffset = before.commandBufferWithoutOffset ++ ds ∧
    after.commandBufferPatchSize = before.commandBufferPatchSize ++ ss

theorem Describes.mono {after : ValueUsages} (describes : Describes p u chunk e)
    (grown : Extends u after) : Describes p after chunk e where
  size := describes.size
  sourceOffset := describes.sourceOffset
  heap := by
    obtain ⟨ds, ss, destinations, sizes⟩ := grown.heap
    rw [destinations, sizes]
    exact describes.heap.append ds ss
  commandBuffer := by
    obtain ⟨ds, ss, destinations, sizes⟩ := grown.commandBuffer
    rw [destinations, sizes]
    exact describes.commandBuffer.append ds ss

structure Matched (u : ValueUsages) : Prop where
  heap : u.statelessWithoutOffset.length = u.statelessIndirectPatchSize.length
  commandBuffer : u.commandBufferWithoutOffset.length = u.commandBufferPatchSize.length

/-- One element is captured: the usages grow by its patches. -/
theorem patchesOf_spec (matched : Matched u)
    (inlineFits : p.inlineDataPointer + p.inlineDataSize ≤ 2 ^ 64)
    (heapFits : p.iohFullOffset + (e.start + e.length - p.inlineSize) < 2 ^ 64) :
    Matched (p.patchesOf e u).2.2 ∧ Extends u (p.patchesOf e u).2.2 ∧
      Describes p (p.patchesOf e u).2.2
        ⟨e.length, e.source, (p.patchesOf e u).1, (p.patchesOf e u).2.1⟩ e := by
  have unchanged (xs : List ℕ) : xs = xs ++ [] := (List.append_nil xs).symm
  unfold Payload.patchesOf
  split
  next inlineData =>
    have inlineSize : p.inlineSize = p.inlineDataSize := if_pos inlineData
    rw [inlineSize] at heapFits
    split
    next inside =>
      have full : Word.add 64 p.inlineDataPointer e.start = p.inlineDataPointer + e.start :=
        Word.add_eq (by omega)
      split
      next fits =>
        refine ⟨⟨matched.heap, by simp [ValueUsages.pushCommandBuffer, matched.commandBuffer]⟩,
          ⟨⟨[], [], unchanged _, unchanged _⟩, ⟨_, _, rfl, rfl⟩⟩, rfl, rfl, ?_, ?_⟩
        · rw [Payload.heapPart, inlineSize, if_pos inside, if_pos fits]
          trivial
        · rw [Payload.inlinePart, inlineSize, if_pos inside, Nat.min_eq_left (by omega), ← full]
          exact finds_last matched.commandBuffer _ _
      next splits =>
        refine ⟨⟨by simp [ValueUsages.pushCommandBuffer, ValueUsages.pushHeap, matched.heap],
            by simp [ValueUsages.pushCommandBuffer, ValueUsages.pushHeap, matched.commandBuffer]⟩,
          ⟨⟨_, _, rfl, rfl⟩, ⟨_, _, rfl, rfl⟩⟩, rfl, rfl, ?_, ?_⟩
        · rw [Payload.heapPart, inlineSize, if_pos inside, if_neg splits]
          exact finds_last matched.heap _ _
        · rw [Payload.inlinePart, inlineSize, if_pos inside, Nat.min_eq_right (by omega), ← full]
          exact finds_last matched.commandBuffer _ _
    next outside =>
      have full : Word.add 64 p.iohFullOffset (e.start - p.inlineDataSize) =
          p.iohFullOffset + (e.start - p.inlineDataSize) := Word.add_eq (by omega)
      refine ⟨⟨by simp [ValueUsages.pushHeap, matched.heap], matched.commandBuffer⟩,
        ⟨⟨_, _, rfl, rfl⟩, ⟨[], [], unchanged _, unchanged _⟩⟩, rfl, rfl, ?_, ?_⟩
      · rw [Payload.heapPart, inlineSize, if_neg outside, ← full]
        exact finds_last matched.heap _ _
      · rw [Payload.inlinePart, inlineSize, if_neg outside]
        trivial
  next heapOnly =>
    have inlineSize : p.inlineSize = 0 := if_neg heapOnly
    rw [inlineSize] at heapFits
    have full : Word.add 64 p.iohFullOffset e.start = p.iohFullOffset + (e.start - 0) :=
      Word.add_eq (by omega)
    refine ⟨⟨by simp [ValueUsages.pushHeap, matched.heap], matched.commandBuffer⟩,
      ⟨⟨_, _, rfl, rfl⟩, ⟨[], [], unchanged _, unchanged _⟩⟩, rfl, rfl, ?_, ?_⟩
    · rw [Payload.heapPart, inlineSize, if_neg (Nat.not_lt_zero _), ← full]
      exact finds_last matched.heap _ _
    · rw [Payload.inlinePart, inlineSize, if_neg (Nat.not_lt_zero _)]
      trivial

/-- The variable has a chunk for each of the elements. -/
structure Captured (p : Payload) (v : Variable) (elements : List Element) : Prop where
  matched : Matched v.valueUsages
  chunks : List.Forall₂ (Describes p v.valueUsages) v.immediateValueChunks elements

theorem Captured.addElement (captured : Captured p v elements)
    (inlineFits : p.inlineDataPointer + p.inlineDataSize ≤ 2 ^ 64)
    (heapFits : p.iohFullOffset + (e.start + e.length - p.inlineSize) < 2 ^ 64) :
    Captured p (v.addElement p e) (elements ++ [e]) := by
  obtain ⟨matched, grown, describes⟩ := patchesOf_spec captured.matched inlineFits heapFits
  refine ⟨matched, List.rel_append ?_ (List.Forall₂.cons describes .nil)⟩
  exact captured.chunks.imp fun _ _ described => described.mono grown

theorem Captured.addElements (captured : Captured p v elements)
    (inlineFits : p.inlineDataPointer + p.inlineDataSize ≤ 2 ^ 64)
    (heapFits : ∀ e ∈ more, p.iohFullOffset + (e.start + e.length - p.inlineSize) < 2 ^ 64) :
    Captured p (more.foldl (Variable.addElement p) v) (elements ++ more) := by
  induction more generalizing v elements with
  | nil => simpa using captured
  | cons e more ih =>
    have heapFits := List.forall_mem_cons.mp heapFits
    have all := ih (captured.addElement inlineFits heapFits.1) heapFits.2
    simpa using all

end Capture

section Copies

variable (p : Payload) (size argVal : ℕ)

/-- The copies for an element. -/
def Payload.elementCopies (e : Element) : List Piece :=
  let bytesToCopy := min e.length (size - e.source)
  if e.start < p.inlineSize then
    if e.start + e.length ≤ p.inlineSize then
      [⟨p.inlineDataPointer + e.start, argVal + e.source, bytesToCopy⟩]
    else
      let statelessSize := e.start + e.length - p.inlineSize
      [⟨p.iohFullOffset,
          Word.add 64 (argVal + e.source) (Word.sub 64 bytesToCopy statelessSize), statelessSize⟩,
        ⟨p.inlineDataPointer + e.start, argVal + e.source,
          min (p.inlineSize - e.start) bytesToCopy⟩]
  else [⟨p.iohFullOffset + (e.start - p.inlineSize), argVal + e.source, bytesToCopy⟩]

/-- The elements that are updated before one is found that the caller gives nothing of. -/
def updated (elements : List Element) : List Element :=
  elements.takeWhile fun e => decide (e.source < size)

variable {p size argVal} {bases : Bases} {v : Variable} {e : Element}
  {chunk : ImmediateValueChunkProperties} {elements : List Element}

theorem mem_updated (member : e ∈ updated size elements) : e ∈ elements ∧ e.source < size :=
  ⟨List.takeWhile_subset _ member, by simpa using List.mem_takeWhile_imp member⟩

theorem heapDestination_eq {i d : ℕ}
    (found : v.valueUsages.statelessWithoutOffset[i]? = some d) :
    v.heapDestination bases i = d := by
  have inside := (List.getElem?_eq_some_iff.mp found).1
  rw [Variable.heapDestination, if_pos (Nat.zero_lt_of_lt inside), List.getD_eq_getElem?_getD,
    found, Option.getD_some]

theorem commandBufferDestination_eq {i d : ℕ}
    (found : v.valueUsages.commandBufferWithoutOffset[i]? = some d) :
    v.commandBufferDestination bases i = d := by
  have inside := (List.getElem?_eq_some_iff.mp found).1
  rw [Variable.commandBufferDestination, if_pos (Nat.zero_lt_of_lt inside),
    List.getD_eq_getElem?_getD, found, Option.getD_some]

/-- The copies for a chunk are those for the element that it describes. -/
theorem chunkCopies_eq (describes : Describes p v.valueUsages chunk e)
    (fits : argVal + e.source < 2 ^ 64) :
    v.chunkCopies bases chunk size argVal = p.elementCopies size argVal e := by
  obtain ⟨chunkSize, sourceOffset, heap, commandBuffer⟩ := describes
  have newValue : Word.add 64 argVal e.source = argVal + e.source := Word.add_eq fits
  rw [Variable.chunkCopies, chunkSize, sourceOffset, newValue]
  unfold Payload.heapPart at heap
  unfold Payload.inlinePart at commandBuffer
  unfold Payload.elementCopies Variable.heapCopy Variable.commandBufferCopy
  split at heap
  next inside =>
    rw [if_pos inside] at commandBuffer
    split at heap
    next fits =>
      rw [if_pos inside, if_pos fits]
      cases heapIndex : chunk.heapStatelessUsageIndex with
      | some i => rw [heapIndex] at heap; exact heap.elim
      | none =>
        cases index : chunk.commandBufferUsageIndex with
        | none => rw [index] at commandBuffer; exact commandBuffer.elim
        | some i =>
          rw [index] at commandBuffer
          simp only [List.nil_append, List.getD_eq_getElem?_getD, commandBuffer.2,
            Option.getD_some, commandBufferDestination_eq commandBuffer.1]
          congr 2
          omega
    next splits =>
      rw [if_pos inside, if_neg splits]
      cases heapIndex : chunk.heapStatelessUsageIndex with
      | none => rw [heapIndex] at heap; exact heap.elim
      | some i =>
        cases index : chunk.commandBufferUsageIndex with
        | none => rw [index] at commandBuffer; exact commandBuffer.elim
        | some j =>
          rw [heapIndex] at heap
          rw [index] at commandBuffer
          simp only [Option.isSome_some, ite_true, List.getD_eq_getElem?_getD, heap.2,
            commandBuffer.2, Option.getD_some, heapDestination_eq heap.1,
            commandBufferDestination_eq commandBuffer.1, List.cons_append, List.nil_append]
          congr 3
          omega
  next outside =>
    rw [if_neg outside] at commandBuffer ⊢
    cases heapIndex : chunk.heapStatelessUsageIndex with
    | none => rw [heapIndex] at heap; exact heap.elim
    | some i =>
      cases index : chunk.commandBufferUsageIndex with
      | some j => rw [index] at commandBuffer; exact commandBuffer.elim
      | none =>
        rw [heapIndex] at heap
        simp only [Option.isSome_none, Bool.false_eq_true, ite_false,
          List.getD_eq_getElem?_getD, heap.2, Option.getD_some, heapDestination_eq heap.1,
          List.append_nil]
        congr 2
        omega

/-- The loop over the chunks, said of the elements. -/
theorem setChunks_eq {chunks : List ImmediateValueChunkProperties}
    (describe : List.Forall₂ (Describes p v.valueUsages) chunks elements)
    (argument : argVal + size ≤ 2 ^ 64) :
    (v.setChunks bases size argVal chunks).2 =
        (updated size elements).flatMap (p.elementCopies size argVal) ∧
      ((v.setChunks bases size argVal chunks).1 = .success ↔ ∀ e ∈ elements, e.source < size) := by
  induction describe with
  | nil => simp [Variable.setChunks, updated]
  | @cons chunk e _ _ describes _ ih =>
    rw [Variable.setChunks, describes.sourceOffset]
    by_cases given : e.source < size
    · rw [if_neg (Nat.not_le.mpr given)]
      constructor
      · rw [updated, List.takeWhile_cons_of_pos (by simpa using given), List.flatMap_cons]
        exact congrArg₂ _ (chunkCopies_eq describes (by omega)) ih.1
      · rw [List.forall_mem_cons]
        simp only [given, true_and]
        exact ih.2
    · rw [if_pos (Nat.not_lt.mp given)]
      constructor
      · rw [updated, List.takeWhile_cons_of_neg (by simpa using given), List.flatMap_nil]
      · simp [given]

/-- What an update of a captured argument does. -/
theorem setValueVariableInChunks_spec (bases : Bases) (valid : Valid p elements size argVal) :
    let set := (Variable.unused.addKernelArgUsageImmediateAsChunk p elements
      ).setValueVariableInChunks bases size argVal
    set.2 = (updated size elements).flatMap (p.elementCopies size argVal) ∧
      (set.1 = .success ↔ ∀ e ∈ elements, e.source < size) := by
  have nothing : Captured p Variable.unused [] := ⟨⟨rfl, rfl⟩, .nil⟩
  have captured := nothing.addElements valid.inlineFits valid.heapFits
  exact setChunks_eq captured.chunks valid.argument

end Copies

section Elements

variable {p : Payload} {size argVal : ℕ} {e : Element} {q : Piece} {a s : ℕ}

theorem mem_two {q r s : Piece} (member : q ∈ [r, s]) : q = r ∨ q = s := by
  simpa using member

/-- What is copied for an element goes to bytes of the element. -/
theorem elementCopies_target (copied : q ∈ p.elementCopies size argVal e) (takes : q.Takes a s) :
    ∃ i < e.length, a = p.place e i := by
  obtain ⟨j, small, rfl, -⟩ := takes
  unfold Payload.elementCopies at copied
  unfold Payload.place
  split at copied
  next inside =>
    split at copied
    next fits =>
      obtain rfl := List.mem_singleton.mp copied
      dsimp only at small ⊢
      exact ⟨j, by omega, by rw [if_pos (by omega), Nat.add_assoc]⟩
    next splits =>
      rcases mem_two copied with rfl | rfl
      · dsimp only at small ⊢
        exact ⟨p.inlineSize - e.start + j, by omega, by rw [if_neg (by omega)]; omega⟩
      · dsimp only at small ⊢
        exact ⟨j, by omega, by rw [if_pos (by omega), Nat.add_assoc]⟩
  next outside =>
    obtain rfl := List.mem_singleton.mp copied
    dsimp only at small ⊢
    exact ⟨j, by omega, by rw [if_neg (by omega)]; omega⟩

/-- Unless the element is split and given in part, its bytes are copied as they should be. -/
theorem elementCopies_takes (argument : argVal + size ≤ 2 ^ 64) (given : e.source < size)
    (whole : p.Split e → e.source + e.length ≤ size) :
    (∃ q ∈ p.elementCopies size argVal e, q.Takes a s) ↔
      ∃ i < e.length, e.source + i < size ∧ a = p.place e i ∧ s = argVal + (e.source + i) := by
  unfold Payload.elementCopies Payload.place
  by_cases inside : e.start < p.inlineSize
  · rw [if_pos inside]
    by_cases fits : e.start + e.length ≤ p.inlineSize
    · rw [if_pos fits]
      constructor
      · rintro ⟨q, copied, j, small, rfl, rfl⟩
        obtain rfl := List.mem_singleton.mp copied
        dsimp only at small ⊢
        exact ⟨j, by omega, by omega, by rw [if_pos (by omega), Nat.add_assoc], by omega⟩
      · rintro ⟨i, small, below, rfl, rfl⟩
        exact ⟨_, List.mem_singleton_self _, i, by dsimp only; omega,
          by rw [if_pos (by omega)]; dsimp only; omega, by dsimp only; omega⟩
    · have whole := whole ⟨inside, by omega⟩
      have all : min e.length (size - e.source) = e.length := by omega
      have behind : Word.add 64 (argVal + e.source)
          (Word.sub 64 e.length (e.start + e.length - p.inlineSize)) =
          argVal + e.source + (p.inlineSize - e.start) := by
        have word := e.length_lt
        rw [Word.sub_eq (by omega) (by omega), Word.add_eq (by omega)]
        omega
      dsimp only
      rw [if_neg fits, all, behind, Nat.min_eq_left (show p.inlineSize - e.start ≤ e.length by omega)]
      constructor
      · rintro ⟨q, copied, j, small, rfl, rfl⟩
        rcases mem_two copied with rfl | rfl
        · dsimp only at small ⊢
          exact ⟨p.inlineSize - e.start + j, by omega, by omega, by rw [if_neg (by omega)]; omega,
            by omega⟩
        · dsimp only at small ⊢
          exact ⟨j, by omega, by omega, by rw [if_pos (by omega), Nat.add_assoc], by omega⟩
      · rintro ⟨i, small, below, rfl, rfl⟩
        by_cases first : e.start + i < p.inlineSize
        · rw [if_pos first]
          exact ⟨_, List.mem_cons_of_mem _ List.mem_cons_self, i, by dsimp only; omega,
            by dsimp only; omega, by dsimp only; omega⟩
        · rw [if_neg first]
          exact ⟨_, List.mem_cons_self, e.start + i - p.inlineSize, by dsimp only; omega,
            by dsimp only, by dsimp only; omega⟩
  · rw [if_neg inside]
    constructor
    · rintro ⟨q, copied, j, small, rfl, rfl⟩
      obtain rfl := List.mem_singleton.mp copied
      dsimp only at small ⊢
      exact ⟨j, by omega, by omega, by rw [if_neg (by omega)]; omega, by omega⟩
    · rintro ⟨i, small, below, rfl, rfl⟩
      exact ⟨_, List.mem_singleton_self _, i, by dsimp only; omega,
        by rw [if_neg (by omega)]; dsimp only; omega, by dsimp only; omega⟩

/-- The last copy for an element begins with its first byte. -/
theorem elementCopies_last (p : Payload) (argVal : ℕ) (some : 0 < e.length) (given : e.source < size) :
    ∃ before q, p.elementCopies size argVal e = before ++ [q] ∧
      q.Takes (p.place e 0) (argVal + e.source) := by
  unfold Payload.elementCopies Payload.place
  by_cases inside : e.start < p.inlineSize
  · rw [if_pos inside, if_pos (by omega : e.start + 0 < p.inlineSize)]
    by_cases fits : e.start + e.length ≤ p.inlineSize
    · rw [if_pos fits]
      exact ⟨[], _, rfl, 0, by dsimp only; omega, rfl, rfl⟩
    · rw [if_neg fits]
      exact ⟨[_], _, rfl, 0, by dsimp only; omega, rfl, rfl⟩
  · rw [if_neg inside, if_neg (by omega : ¬e.start + 0 < p.inlineSize)]
    exact ⟨[], _, rfl, 0, by dsimp only; omega, rfl, rfl⟩

/-- A split element is written to its end, however much of it is given. -/
theorem elementCopies_split (size argVal : ℕ) (split : p.Split e) :
    ∃ q ∈ p.elementCopies size argVal e, ∃ s, q.Takes (p.place e (e.length - 1)) s := by
  obtain ⟨inside, across⟩ := split
  unfold Payload.elementCopies Payload.place
  rw [if_pos inside, if_neg (by omega), if_neg (by omega)]
  exact ⟨_, List.mem_cons_self, _, e.start + e.length - p.inlineSize - 1, by dsimp only; omega,
    by dsimp only; omega, rfl⟩

theorem elementCopies_empty (empty : e.length = 0) (copied : q ∈ p.elementCopies size argVal e) :
    ¬q.Takes a s := by
  intro takes
  obtain ⟨i, small, -⟩ := elementCopies_target copied takes
  omega

end Elements

end ComputeRuntime.MutableCmdList.Immediate
