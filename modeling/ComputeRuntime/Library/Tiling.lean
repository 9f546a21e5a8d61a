import Mathlib.Algebra.BigOperators.Group.Finset.Piecewise
import Mathlib.Algebra.Order.BigOperators.Group.Finset
import Mathlib.Algebra.BigOperators.Group.List.Basic
import Mathlib.Order.Interval.Finset.Nat
import Mathlib.Order.Interval.Set.Basic
import Mathlib.Data.Set.Lattice
import Mathlib.Order.CompletePartialOrder

/-! Lists of half-open spans of a linear order, measured by functions that add up when
a span is cut. A list of spans tiles a range when every point of the range is hit by
exactly one of them; counting hits turns disjointness and covering into sums. -/
namespace Tiling

variable {α M : Type*} [LinearOrder α] [AddCommMonoid M]

/-- A measure of spans that adds up when a span is cut at a point inside it. -/
structure Additive (f : α → α → M) : Prop where
  cut : ∀ {a b c : α}, a ≤ b → b ≤ c → f a c = f a b + f b c

/-- The measure of a list of spans. -/
def total (f : α → α → M) (spans : List (α × α)) : M := (spans.map fun s => f s.1 s.2).sum

omit [LinearOrder α] in
@[simp] theorem total_nil (f : α → α → M) : total f [] = 0 := rfl

omit [LinearOrder α] in
@[simp] theorem total_cons (f : α → α → M) (s : α × α) (spans : List (α × α)) :
    total f (s :: spans) = f s.1 s.2 + total f spans := List.sum_cons

omit [LinearOrder α] in
@[simp] theorem total_append (f : α → α → M) (xs ys : List (α × α)) :
    total f (xs ++ ys) = total f xs + total f ys :=
  (congrArg List.sum List.map_append).trans List.sum_append

omit [LinearOrder α] in
theorem total_perm (f : α → α → M) {xs ys : List (α × α)} (perm : xs.Perm ys) :
    total f xs = total f ys := (perm.map _).sum_eq

/-- Whether the span `[a, b)` contains the point `x`, as a count. -/
def hits (x a b : α) : ℕ := if a ≤ x ∧ x < b then 1 else 0

theorem hits_of_mem {x a b : α} (inside : x ∈ Set.Ico a b) : hits x a b = 1 := if_pos inside

theorem hits_of_notMem {x a b : α} (outside : x ∉ Set.Ico a b) : hits x a b = 0 := if_neg outside

theorem hits_additive (x : α) : Additive (hits x) where
  cut := by
    intro a b c ab bc
    unfold hits
    rcases lt_or_ge x b with left | right
    · have inside : x < c := lt_of_lt_of_le left bc
      simp [left, inside, not_le.mpr left]
    · have above : a ≤ x := le_trans ab right
      simp [above, right, not_lt.mpr right]

theorem length_additive : Additive fun a b : ℕ => b - a where
  cut := by intro a b c ab bc; omega

theorem hits_eq_one {x a b : α} : hits x a b = 1 ↔ x ∈ Set.Ico a b := by
  by_cases inside : x ∈ Set.Ico a b
  · simp [hits_of_mem inside, inside]
  · simp [hits_of_notMem inside, inside]

theorem hits_eq_zero {x a b : α} : hits x a b = 0 ↔ x ∉ Set.Ico a b := by
  by_cases inside : x ∈ Set.Ico a b
  · simp [hits_of_mem inside, inside]
  · simp [hits_of_notMem inside, inside]

theorem hits_le_one (x a b : α) : hits x a b ≤ 1 := by
  by_cases inside : x ∈ Set.Ico a b
  · rw [hits_of_mem inside]
  · rw [hits_of_notMem inside]
    exact Nat.zero_le 1

@[simp] theorem hits_empty (x a : α) : hits x a a = 0 :=
  hits_eq_zero.mpr (by simp)

theorem total_hits_pos {x : α} {spans : List (α × α)} :
    0 < total (hits x) spans ↔ ∃ s ∈ spans, x ∈ Set.Ico s.1 s.2 := by
  induction spans with
  | nil => simp
  | cons s spans ih =>
    rw [total_cons, List.exists_mem_cons_iff, ← ih, ← hits_eq_one]
    have := hits_le_one x s.1 s.2
    omega

/-- A point hit at most once lies in at most one span of the list. -/
theorem pairwise_disjoint {spans : List (α × α)} (once : ∀ x, total (hits x) spans ≤ 1) :
    spans.Pairwise fun s t => Disjoint (Set.Ico s.1 s.2) (Set.Ico t.1 t.2) := by
  induction spans with
  | nil => exact .nil
  | cons s spans ih =>
    refine .cons ?_ (ih fun x => ?_)
    · intro t member
      rw [Set.disjoint_left]
      intro x inS inT
      have first := hits_eq_one.mpr inS
      have rest := total_hits_pos.mpr ⟨t, member, inT⟩
      have bound := once x
      rw [total_cons] at bound
      omega
    · have bound := once x
      rw [total_cons] at bound
      omega

/-- The spans cover every point of `[lo, hi)` exactly once and no other point. -/
def Tiles (spans : List (α × α)) (lo hi : α) : Prop := ∀ x, total (hits x) spans = hits x lo hi

theorem Tiles.disjoint {spans : List (α × α)} {lo hi : α} (tiles : Tiles spans lo hi) :
    spans.Pairwise fun s t => Disjoint (Set.Ico s.1 s.2) (Set.Ico t.1 t.2) :=
  pairwise_disjoint fun x => tiles x ▸ hits_le_one x lo hi

theorem Tiles.union {spans : List (α × α)} {lo hi : α} (tiles : Tiles spans lo hi) :
    ⋃ s ∈ spans, Set.Ico s.1 s.2 = Set.Ico lo hi := by
  ext x
  simp only [Set.mem_iUnion, exists_prop]
  rw [← total_hits_pos, tiles x, ← hits_eq_one]
  have := hits_le_one x lo hi
  omega

theorem Tiles.perm {xs ys : List (α × α)} {lo hi : α} (tiles : Tiles xs lo hi)
    (perm : xs.Perm ys) : Tiles ys lo hi := fun x => (total_perm (hits x) perm).symm.trans (tiles x)

/-- The spans lead from `lo` to `hi`, each from where the one before it ends. -/
def Links : List (α × α) → α → α → Prop
  | [], lo, hi => lo = hi
  | s :: spans, lo, hi => s.1 = lo ∧ Links spans s.2 hi

omit [LinearOrder α] in
theorem links_append {xs ys : List (α × α)} {lo hi : α} :
    Links (xs ++ ys) lo hi ↔ ∃ mid, Links xs lo mid ∧ Links ys mid hi := by
  induction xs generalizing lo with
  | nil => simp [Links]
  | cons s xs ih => simp [Links, ih, and_assoc]

omit [AddCommMonoid M] in
theorem Links.le {spans : List (α × α)} {lo hi : α} (links : Links spans lo hi)
    (rising : ∀ s ∈ spans, s.1 ≤ s.2) : lo ≤ hi := by
  induction spans generalizing lo with
  | nil => exact (show lo = hi from links).le
  | cons s spans ih =>
    obtain ⟨first, rising⟩ := List.forall_mem_cons.mp rising
    exact links.1 ▸ first.trans (ih links.2 rising)

/-- Spans that lead from one end of a range to the other tile it. -/
theorem Links.tiles {spans : List (α × α)} {lo hi : α} (links : Links spans lo hi)
    (rising : ∀ s ∈ spans, s.1 ≤ s.2) : Tiles spans lo hi := by
  intro x
  induction spans generalizing lo with
  | nil =>
    obtain rfl : lo = hi := links
    rw [total_nil, hits_empty]
  | cons s spans ih =>
    obtain ⟨rfl, rest⟩ := links
    obtain ⟨first, rising⟩ := List.forall_mem_cons.mp rising
    rw [total_cons, ih rest rising, (hits_additive x).cut first (rest.le rising)]

/-- Each of the spans ends before the ones behind it begin. -/
theorem Links.ascending {spans : List (α × α)} {lo hi : α} (links : Links spans lo hi)
    (rising : ∀ s ∈ spans, s.1 ≤ s.2) : spans.Pairwise fun s t => s.2 ≤ t.1 := by
  induction spans generalizing lo with
  | nil => exact .nil
  | cons s spans ih =>
    obtain ⟨_, rising⟩ := List.forall_mem_cons.mp rising
    have rest := ih links.2 rising
    refine .cons ?_ rest
    intro t member
    cases spans with
    | nil => cases member
    | cons u spans =>
      -- the next span begins where `s` ends, and the others begin behind it
      have next : u.1 = s.2 := links.2.1
      rcases List.mem_cons.mp member with rfl | later
      · exact next.ge
      · calc s.2 = u.1 := next.symm
          _ ≤ u.2 := rising u (by simp)
          _ ≤ t.1 := (List.pairwise_cons.mp rest).1 t later

/-- In rising order, the spans that tile a range lead from one end of it to the other. -/
theorem Tiles.links {spans : List (α × α)} {lo hi : α} (tiles : Tiles spans lo hi)
    (sorted : spans.Pairwise fun s t => s.1 ≤ t.1) (filled : ∀ s ∈ spans, s.1 < s.2)
    (le : lo ≤ hi) : Links spans lo hi := by
  induction spans generalizing lo with
  | nil =>
    refine le.eq_or_lt.resolve_right fun lt => ?_
    have once := tiles lo
    rw [total_nil, eq_comm, hits_eq_zero] at once
    exact once ⟨le_rfl, lt⟩
  | cons s spans ih =>
    obtain ⟨first, sorted⟩ := List.pairwise_cons.mp sorted
    obtain ⟨full, filled⟩ := List.forall_mem_cons.mp filled
    have inside {x : α} (inS : x ∈ Set.Ico s.1 s.2) : x ∈ Set.Ico lo hi := by
      have hit := tiles x
      rw [total_cons, hits_eq_one.mpr inS] at hit
      have once := hits_le_one x lo hi
      exact hits_eq_one.mp (by omega)
    have start := inside ⟨le_rfl, full⟩
    -- the point `lo` is in some span, and no span begins before the first one
    have begins : s.1 = lo := by
      have hit : 0 < total (hits lo) (s :: spans) := by
        rw [tiles lo, hits_eq_one.mpr ⟨le_rfl, start.1.trans_lt start.2⟩]
        exact Nat.one_pos
      obtain ⟨t, member, inT⟩ := total_hits_pos.mp hit
      refine le_antisymm ?_ start.1
      rcases List.mem_cons.mp member with rfl | later
      · exact inT.1
      · exact (first t later).trans inT.1
    have stop : s.2 ≤ hi := by
      by_contra past
      rw [not_le] at past
      exact lt_irrefl hi (inside ⟨start.2.le, past⟩).2
    refine ⟨begins, ih (fun x => ?_) sorted filled stop⟩
    have hit := tiles x
    rw [total_cons, (hits_additive x).cut (begins ▸ full.le) stop, begins] at hit
    exact Nat.add_left_cancel hit

/-- Summing the hits over a range that contains the spans gives their total length. -/
theorem sum_hits {spans : List (ℕ × ℕ)} {lo hi : ℕ}
    (inside : ∀ s ∈ spans, lo ≤ s.1 ∧ s.2 ≤ hi) :
    ∑ x ∈ Finset.Ico lo hi, total (hits x) spans = total (fun a b => b - a) spans := by
  induction spans with
  | nil => simp
  | cons s spans ih =>
    have bound := inside s (by simp)
    have span : ∑ x ∈ Finset.Ico lo hi, hits x s.1 s.2 = s.2 - s.1 := by
      have filtered : (Finset.Ico lo hi).filter (fun x => s.1 ≤ x ∧ x < s.2) =
          Finset.Ico s.1 s.2 := by
        ext x
        simp only [Finset.mem_filter, Finset.mem_Ico]
        omega
      simp only [hits]
      rw [← Finset.card_filter, filtered, Nat.card_Ico]
    simp only [total_cons, Finset.sum_add_distrib, span]
    rw [ih fun t member => inside t (by simp [member])]

/-- Spans of a range that overlap nowhere are together at most as long as the range. -/
theorem total_length_le {spans : List (ℕ × ℕ)} {lo hi : ℕ}
    (inside : ∀ s ∈ spans, lo ≤ s.1 ∧ s.2 ≤ hi) (once : ∀ x, total (hits x) spans ≤ 1) :
    total (fun a b => b - a) spans ≤ hi - lo := by
  rw [← sum_hits inside]
  calc ∑ x ∈ Finset.Ico lo hi, total (hits x) spans
      ≤ ∑ _x ∈ Finset.Ico lo hi, 1 := Finset.sum_le_sum fun x _ => once x
    _ = hi - lo := by simp

end Tiling
