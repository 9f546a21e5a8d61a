import Mathlib.Data.List.Perm.Basic
import ComputeRuntime.HeapAllocator.FreeChunks

/-! The search through a free list hands out the tail of one aligned chunk and keeps the rest. -/
namespace ComputeRuntime

open Tiling

/-- The search stops at a chunk of exactly the size, or remembers a larger aligned chunk. -/
theorem findFit_spec (size requiredAlignment : Nat) (rest : List HeapChunk)
    (i bestFitIndex bestFitSize : Nat) :
    match findFit size requiredAlignment rest i bestFitIndex bestFitSize with
    | .exact found => ∃ k c, found = i + k ∧ rest[k]? = some c ∧ c.size = size ∧
        isAligned c.ptr requiredAlignment = true
    | .best found foundSize => (found = bestFitIndex ∧ foundSize = bestFitSize) ∨
        ∃ k c, found = i + k ∧ rest[k]? = some c ∧ c.size = foundSize ∧ size < foundSize ∧
          isAligned c.ptr requiredAlignment = true := by
  induction rest generalizing i bestFitIndex bestFitSize with
  | nil => exact Or.inl ⟨rfl, rfl⟩
  | cons c rest ih =>
    have skip : ∀ bi bs, (findFit size requiredAlignment (c :: rest) i bestFitIndex bestFitSize =
        findFit size requiredAlignment rest (i + 1) bi bs) →
        ((bi = bestFitIndex ∧ bs = bestFitSize) ∨ (bi = i ∧ bs = c.size ∧ size < c.size ∧
          isAligned c.ptr requiredAlignment = true)) →
        match findFit size requiredAlignment (c :: rest) i bestFitIndex bestFitSize with
        | .exact found => ∃ k d, found = i + k ∧ (c :: rest)[k]? = some d ∧ d.size = size ∧
            isAligned d.ptr requiredAlignment = true
        | .best found foundSize => (found = bestFitIndex ∧ foundSize = bestFitSize) ∨
            ∃ k d, found = i + k ∧ (c :: rest)[k]? = some d ∧ d.size = foundSize ∧
              size < foundSize ∧ isAligned d.ptr requiredAlignment = true := by
      intro bi bs same origin
      have tail := ih (i + 1) bi bs
      rw [same]
      split at tail <;> simp_all only
      · obtain ⟨k, d, rfl, at_k, facts⟩ := tail
        exact ⟨k + 1, d, by omega, by simpa using at_k, facts⟩
      · rcases tail with ⟨rfl, rfl⟩ | ⟨k, d, rfl, at_k, facts⟩
        · rcases origin with ⟨rfl, rfl⟩ | ⟨rfl, rfl, larger, aligned⟩
          · exact Or.inl ⟨rfl, rfl⟩
          · exact Or.inr ⟨0, c, rfl, rfl, rfl, larger, aligned⟩
        · exact Or.inr ⟨k + 1, d, by omega, by simpa using at_k, facts⟩
    by_cases misaligned : isAligned c.ptr requiredAlignment = false
    · exact skip _ _ (by rw [findFit, if_pos misaligned]) (Or.inl ⟨rfl, rfl⟩)
    · have aligned : isAligned c.ptr requiredAlignment = true := by simpa using misaligned
      by_cases same : c.size = size
      · rw [findFit, if_neg misaligned, if_pos same]
        exact ⟨0, c, rfl, rfl, same, aligned⟩
      · by_cases better : c.size > size ∧ (c.size < bestFitSize ∨ bestFitSize = 0)
        · exact skip _ _ (by rw [findFit, if_neg misaligned, if_neg same, if_pos better])
            (Or.inr ⟨rfl, rfl, better.1, aligned⟩)
        · exact skip _ _ (by rw [findFit, if_neg misaligned, if_neg same, if_neg better])
            (Or.inl ⟨rfl, rfl⟩)

/-- How a request is served from a free list: the block `[ptr, ptr + taken)` is the tail of
one chunk, whose first `kept` bytes stay free. -/
structure Served (size requiredAlignment : Nat) (chunks : List HeapChunk) (fit : FreedFit)
    (taken : Nat) : Prop where
  tail : ∃ c rest kept, chunks.Perm (c :: rest) ∧ fit.ptr = c.ptr + kept ∧
    kept + taken = c.size ∧
    (fit.freedChunks.Perm rest ∧ kept = 0 ∨
      fit.freedChunks.Perm (⟨c.ptr, kept⟩ :: rest) ∧ 0 < kept)
  enough : size ≤ taken
  aligned : requiredAlignment ∣ fit.ptr

/-- The size a served request is charged. -/
def FreedFit.taken (fit : FreedFit) (size : Nat) : Nat :=
  if fit.sizeOfFreedChunk > 0 then fit.sizeOfFreedChunk else size

section Serve

variable {lo hi size requiredAlignment : Nat} {chunks : List HeapChunk}

theorem splitChunk_served {c : HeapChunk} {i : Nat} (pow2 : IsPow2 requiredAlignment)
    (fits : hi < 2 ^ 64) (within : c.Within lo hi) (at_i : chunks[i]? = some c)
    (larger : size < c.size) (aligned : requiredAlignment ∣ c.ptr) :
    Served size requiredAlignment chunks (splitChunk size requiredAlignment chunks i c)
      ((splitChunk size requiredAlignment chunks i c).taken size) := by
  obtain ⟨inside, rfl⟩ := List.getElem?_eq_some_iff.mp at_i
  have perm := (List.getElem_cons_eraseIdx_perm inside).symm
  have replaced : ∀ d, (chunks.set i d).Perm (d :: chunks.eraseIdx i) :=
    fun d => List.set_perm_cons_eraseIdx inside d
  generalize chunks[i] = c at within larger aligned perm
  simp only [HeapChunk.Within] at within
  have delta : sub64 c.size size = c.size - size := Word.sub_eq (by omega) (by omega)
  have start : add64 c.ptr (c.size - size) = c.ptr + (c.size - size) := Word.add_eq (by omega)
  unfold splitChunk FreedFit.taken
  split
  next whole =>
    -- less than twice the request: the whole chunk goes out
    simp only [show c.size > 0 by omega, if_true]
    exact ⟨⟨c, _, 0, perm, rfl, by omega, Or.inl ⟨.refl _, rfl⟩⟩, by omega, aligned⟩
  next =>
    simp only [delta, start]
    split
    next misaligned =>
      have low := le_alignDown (x := c.ptr + (c.size - size)) pow2 (by omega) aligned (by omega)
      have high := alignDown_le (x := c.ptr + (c.size - size)) pow2 (by omega)
      have down := alignDown_dvd (x := c.ptr + (c.size - size)) pow2 (by omega)
      have moved : alignDown (c.ptr + (c.size - size)) requiredAlignment ≠
          c.ptr + (c.size - size) := by
        intro same
        rw [same, ← isAligned_iff pow2, misaligned] at down
        cases down
      generalize alignDown (c.ptr + (c.size - size)) requiredAlignment = alignedPtr at *
      have shift : sub64 (c.ptr + (c.size - size)) alignedPtr =
          c.ptr + (c.size - size) - alignedPtr := Word.sub_eq high (by omega)
      have rest : sub64 (c.size - size) (c.ptr + (c.size - size) - alignedPtr) =
          alignedPtr - c.ptr := by rw [sub64, Word.sub_eq (by omega) (by omega)]; omega
      have charge : add64 size (c.ptr + (c.size - size) - alignedPtr) =
          c.ptr + c.size - alignedPtr := by rw [add64, Word.add_eq (by omega)]; omega
      rw [shift, rest, charge]
      simp only [show c.ptr + c.size - alignedPtr > 0 by omega, if_true]
      refine ⟨⟨c, _, alignedPtr - c.ptr, perm, by simp only; omega, by omega, ?_⟩, by omega, down⟩
      split
      next empty => exact Or.inl ⟨.refl _, empty⟩
      next rest => exact Or.inr ⟨replaced _, by omega⟩
    next onBoundary =>
      have boundary : requiredAlignment ∣ c.ptr + (c.size - size) :=
        (isAligned_iff pow2).mp (by simpa using onBoundary)
      simp only [gt_iff_lt, Nat.lt_irrefl, if_false]
      exact ⟨⟨c, _, c.size - size, perm, rfl, by omega, Or.inr ⟨replaced _, by omega⟩⟩,
        Nat.le_refl _, boundary⟩

/-- A search that remembers no chunk has seen no aligned chunk that is large enough. -/
theorem findFit_none {rest : List HeapChunk} {i bestFitIndex bestFitSize found : Nat}
    (search : findFit size requiredAlignment rest i bestFitIndex bestFitSize = .best found 0) :
    bestFitSize = 0 ∧
      ∀ c ∈ rest, isAligned c.ptr requiredAlignment = true → c.size < size := by
  induction rest generalizing i bestFitIndex bestFitSize with
  | nil =>
    cases search
    exact ⟨rfl, fun c member => by cases member⟩
  | cons c rest ih =>
    unfold findFit at search
    split at search
    next misaligned =>
      obtain ⟨zero, none⟩ := ih search
      refine ⟨zero, List.forall_mem_cons.mpr ⟨fun aligned => ?_, none⟩⟩
      rw [misaligned] at aligned
      cases aligned
    next =>
      split at search
      next => cases search
      next other =>
        split at search
        next better =>
          obtain ⟨zero, -⟩ := ih search
          omega
        next worse =>
          obtain ⟨zero, none⟩ := ih search
          exact ⟨zero, List.forall_mem_cons.mpr ⟨fun _ => by omega, none⟩⟩

/-- A search over chunks away from address 0 either serves the request or fails and leaves
the list alone, when no aligned chunk is large enough. -/
theorem getFromFreedChunks_spec (size : Nat) (pow2 : IsPow2 requiredAlignment) (fits : hi < 2 ^ 64)
    (base : 0 < lo) (within : ∀ c ∈ chunks, c.Within lo hi) :
    let fit := getFromFreedChunks size chunks requiredAlignment
    (fit.ptr = 0 ∧ fit.freedChunks = chunks ∧
      ∀ c ∈ chunks, requiredAlignment ∣ c.ptr → c.size < size) ∨
    (fit.ptr ≠ 0 ∧ Served size requiredAlignment chunks fit (fit.taken size) ∧
      ∃ c ∈ chunks, requiredAlignment ∣ c.ptr ∧ size ≤ c.size) := by
  have spec := findFit_spec size requiredAlignment chunks 0 (2 ^ 64 - 1) 0
  intro fit
  have fit_eq : fit = getFromFreedChunks size chunks requiredAlignment := rfl
  unfold getFromFreedChunks at fit_eq
  have nonzero : ∀ taken, Served size requiredAlignment chunks fit taken → fit.ptr ≠ 0 := by
    rintro taken ⟨⟨c, rest, kept, perm, start, _⟩, _, _⟩
    have low := (within c (perm.mem_iff.mpr (by simp))).1
    omega
  split at spec
  next found search =>
    obtain ⟨k, c, rfl, at_k, rfl, aligned⟩ := spec
    rw [Nat.zero_add] at search
    simp only [search, at_k] at fit_eq
    obtain ⟨inside, rfl⟩ := List.getElem?_eq_some_iff.mp at_k
    have served : Served chunks[k].size requiredAlignment chunks fit
        (fit.taken chunks[k].size) := by
      rw [fit_eq]
      exact ⟨⟨_, _, 0, (List.getElem_cons_eraseIdx_perm inside).symm, rfl,
        by simp [FreedFit.taken], Or.inl ⟨.refl _, rfl⟩⟩, by simp [FreedFit.taken],
        (isAligned_iff pow2).mp aligned⟩
    exact Or.inr ⟨nonzero _ served, served, chunks[k], List.getElem_mem inside,
      (isAligned_iff pow2).mp aligned, Nat.le_refl _⟩
  next found foundSize search =>
    simp only [search] at fit_eq
    rcases spec with ⟨rfl, rfl⟩ | ⟨k, c, rfl, at_k, rfl, larger, aligned⟩
    · simp only [ne_eq, not_true_eq_false, if_false] at fit_eq
      refine Or.inl ⟨by simp [fit_eq], by simp [fit_eq], fun c member aligned => ?_⟩
      exact (findFit_none search).2 c member ((isAligned_iff pow2).mpr aligned)
    · rw [Nat.zero_add] at fit_eq
      simp only [show c.size ≠ 0 by omega, ne_eq, not_false_eq_true, if_true, at_k] at fit_eq
      have served := splitChunk_served pow2 fits (within c (List.mem_of_getElem? at_k)) at_k
        larger ((isAligned_iff pow2).mp aligned)
      rw [← fit_eq] at served
      exact Or.inr ⟨nonzero _ served, served, c, List.mem_of_getElem? at_k,
        (isAligned_iff pow2).mp aligned, Nat.le_of_lt larger⟩

end Serve

namespace Served

variable {lo hi size requiredAlignment taken : Nat} {chunks : List HeapChunk} {fit : FreedFit}

theorem total {f : Nat → Nat → Nat} (additive : Additive f)
    (served : Served size requiredAlignment chunks fit taken) :
    total f (spans chunks) =
      total f (spans fit.freedChunks) + f fit.ptr (fit.ptr + taken) := by
  obtain ⟨c, rest, kept, perm, start, sizes, cases⟩ := served.tail
  have before := total_perm f (spans_perm perm)
  have cut := additive.cut (show c.ptr ≤ c.ptr + kept by omega)
    (show c.ptr + kept ≤ c.ptr + c.size by omega)
  rw [before, spans_cons, total_cons, start, Nat.add_assoc, sizes]
  rcases cases with ⟨after, rfl⟩ | ⟨after, _⟩
  · rw [total_perm f (spans_perm after)]
    simp only [Nat.add_zero] at cut ⊢
    omega
  · rw [total_perm f (spans_perm after), spans_cons, total_cons]
    simp only at cut ⊢
    omega

/-- A property that passes to the front part of a chunk holds of what stays free. -/
theorem keeps {P : HeapChunk → Prop}
    (front : ∀ {c : HeapChunk} {kept : Nat}, P c → 0 < kept → kept ≤ c.size → P ⟨c.ptr, kept⟩)
    (served : Served size requiredAlignment chunks fit taken) (all : ∀ c ∈ chunks, P c) :
    ∀ c ∈ fit.freedChunks, P c := by
  obtain ⟨c, rest, kept, perm, start, sizes, cases⟩ := served.tail
  intro d member
  have others : ∀ e ∈ rest, P e := fun e h => all e (perm.mem_iff.mpr (by simp [h]))
  rcases cases with ⟨after, _⟩ | ⟨after, pos⟩
  · exact others d (after.mem_iff.mp member)
  · rcases List.mem_cons.mp (after.mem_iff.mp member) with rfl | old
    · exact front (all c (perm.mem_iff.mpr (by simp))) pos (by omega)
    · exact others d old

/-- A property that passes to the back part of a chunk holds of the block handed out. -/
theorem handed {P : HeapChunk → Prop}
    (back : ∀ {c : HeapChunk} {kept size : Nat}, P c → kept + size = c.size → P ⟨c.ptr + kept, size⟩)
    (served : Served size requiredAlignment chunks fit taken) (all : ∀ c ∈ chunks, P c) :
    P ⟨fit.ptr, taken⟩ := by
  obtain ⟨c, rest, kept, perm, start, sizes, _⟩ := served.tail
  rw [start]
  exact back (all c (perm.mem_iff.mpr (by simp))) sizes

end Served

end ComputeRuntime
