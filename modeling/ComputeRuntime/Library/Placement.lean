import Mathlib.Order.Interval.Set.Basic
import Mathlib.Data.Set.Lattice
import Mathlib.Order.Interval.Finset.Nat
import Mathlib.Order.CompletePartialOrder

/-! Named sets laid out one after the other along a linear order: every set lies inside the
stretch laid out so far, and no two of them meet. -/
namespace Placement

variable {ι α : Type*} [LinearOrder α]

/-- The sets of the given names lie in `[lo, hi)` and are pairwise disjoint. -/
structure Placed (place : ι → Set α) (names : List ι) (lo hi : α) : Prop where
  ordered : lo ≤ hi
  inside : ∀ name ∈ names, place name ⊆ Set.Ico lo hi
  apart : names.Pairwise fun m n => Disjoint (place m) (place n)

section Rules

variable {place after : ι → Set α} {names : List ι} {name : ι} {lo mid hi : α}

theorem Placed.nil (ordered : lo ≤ hi) : Placed place [] lo hi where
  ordered := ordered
  inside := by simp
  apart := .nil

theorem Placed.congr (placed : Placed place names lo hi)
    (kept : ∀ n ∈ names, after n = place n) : Placed after names lo hi where
  ordered := placed.ordered
  inside := fun n member => kept n member ▸ placed.inside n member
  apart := placed.apart.imp_of_mem fun first second apart =>
    kept _ first ▸ kept _ second ▸ apart

theorem Placed.widen (placed : Placed place names lo mid) (above : mid ≤ hi) :
    Placed place names lo hi where
  ordered := placed.ordered.trans above
  inside := fun n member => (placed.inside n member).trans (Set.Ico_subset_Ico_right above)
  apart := placed.apart

/-- Two stretches one after the other keep their sets apart. -/
theorem apart_of_stretches {s t : Set α} {a b c d : α} (first : s ⊆ Set.Ico a b)
    (second : t ⊆ Set.Ico c d) (ordered : b ≤ c) : Disjoint s t :=
  Set.disjoint_left.mpr fun _ inFirst inSecond =>
    not_le.mpr (first inFirst).2 (ordered.trans (second inSecond).1)

/-- The next set goes behind everything laid out so far. -/
theorem Placed.next (placed : Placed place names lo mid) (inside : place name ⊆ Set.Ico mid hi)
    (above : mid ≤ hi) : Placed place (name :: names) lo hi where
  ordered := placed.ordered.trans above
  inside := List.forall_mem_cons.mpr
    ⟨inside.trans (Set.Ico_subset_Ico_left placed.ordered), (placed.widen above).inside⟩
  apart := .cons (fun n member =>
    (apart_of_stretches (placed.inside n member) inside le_rfl).symm) placed.apart

end Rules

/-- Two different shares of equal size keep their sets apart. -/
theorem apart_of_shares {s t : Set ℕ} {start size i j : ℕ}
    (first : s ⊆ Set.Ico (start + i * size) (start + (i + 1) * size))
    (second : t ⊆ Set.Ico (start + j * size) (start + (j + 1) * size)) (different : i ≠ j) :
    Disjoint s t := by
  rcases Nat.lt_or_gt_of_ne different with less | more
  · exact apart_of_stretches first second
      (Nat.add_le_add_left (Nat.mul_le_mul_right size less) start)
  · exact (apart_of_stretches second first
      (Nat.add_le_add_left (Nat.mul_le_mul_right size more) start)).symm

end Placement
