import ComputeRuntime.Library.Search
import Mathlib.Data.List.Count
import Mathlib.Data.List.Pairwise

/-! Lists of items with distinct keys: finding an item by its key, adding one and erasing one. -/
namespace Keyed

variable {α β : Type*} {key : α → β} {items : List α} {k : β}

def Distinct (key : α → β) (items : List α) : Prop :=
  items.Pairwise fun a b => key a ≠ key b

theorem Distinct.eq (distinct : Distinct key items) {a b : α} (left : a ∈ items) (right : b ∈ items)
    (same : key a = key b) : a = b := by
  induction items with
  | nil => cases left
  | cons head items ih =>
    obtain ⟨apart, rest⟩ := List.pairwise_cons.mp distinct
    rcases List.mem_cons.mp left with rfl | early
    · rcases List.mem_cons.mp right with rfl | late
      · rfl
      · exact absurd same (apart b late)
    · rcases List.mem_cons.mp right with rfl | late
      · exact absurd same.symm (apart a early)
      · exact ih rest early late

theorem mem_of_find? [DecidableEq β] {a : α} (found : items.find? (fun a => key a = k) = some a) :
    a ∈ items ∧ key a = k := by
  constructor
  · exact List.mem_of_find?_eq_some found
  · simpa using List.find?_some found

theorem Distinct.find? [DecidableEq β] (distinct : Distinct key items) {a : α} (member : a ∈ items) :
    items.find? (fun b => key b = key a) = some a := by
  cases found : items.find? (fun b => key b = key a) with
  | none =>
    have absent := List.find?_eq_none.mp found a member
    simp at absent
  | some b =>
    obtain ⟨inside, same⟩ := mem_of_find? found
    rw [distinct.eq inside member same]

theorem ne_of_find? [DecidableEq β] (none : items.find? (fun a => key a = k) = none) {a : α} (member : a ∈ items) :
    key a ≠ k := by
  simpa using List.find?_eq_none.mp none a member

theorem Distinct.concat (distinct : Distinct key items) {a : α}
    (fresh : ∀ b ∈ items, key b ≠ key a) : Distinct key (items ++ [a]) := by
  apply List.pairwise_append.mpr
  refine ⟨distinct, List.pairwise_singleton _ _, ?_⟩
  intro b member c last
  rw [List.mem_singleton.mp last]
  exact fresh b member

theorem Distinct.eraseP (distinct : Distinct key items) (p : α → Bool) :
    Distinct key (items.eraseP p) :=
  List.Pairwise.sublist List.eraseP_sublist distinct

/-- An item that is erased by its key is gone, and the others stay. -/
theorem Distinct.mem_eraseP [DecidableEq β] (distinct : Distinct key items) {a : α} :
    a ∈ items.eraseP (fun a => key a = k) ↔ a ∈ items ∧ key a ≠ k := by
  constructor
  · intro stays
    have member := List.mem_of_mem_eraseP stays
    refine ⟨member, ?_⟩
    intro same
    obtain ⟨b, before, after, none, hit, split, erased⟩ :=
      List.exists_of_eraseP (p := fun a => key a = k) member (by simpa using same)
    rw [erased] at stays
    rw [split] at distinct member
    have hit : key b = k := by simpa using hit
    obtain ⟨_, tail, across⟩ := List.pairwise_append.mp distinct
    rcases List.mem_append.mp stays with early | late
    · exact across a early b List.mem_cons_self (same.trans hit.symm)
    · exact (List.pairwise_cons.mp tail).1 a late (hit.trans same.symm)
  · rintro ⟨member, other⟩
    exact (List.mem_eraseP_of_neg (by simpa using other)).mpr member

theorem countP_eraseP [DecidableEq β] {a : α} (found : items.find? (fun a => key a = k) = some a) (p : α → Bool) :
    (items.eraseP fun a => key a = k).countP p + (if p a then 1 else 0) = items.countP p := by
  induction items with
  | nil => cases found
  | cons head items ih =>
    by_cases hit : key head = k
    · rw [List.find?_cons_of_pos (by simpa using hit)] at found
      cases found
      rw [List.eraseP_cons_of_pos (by simpa using hit), List.countP_cons]
    · rw [List.find?_cons_of_neg (by simpa using hit)] at found
      rw [List.eraseP_cons_of_neg (by simpa using hit), List.countP_cons, List.countP_cons]
      have rest := ih found
      omega

/-- An item is the only one with its key. -/
theorem Distinct.countP_key [DecidableEq β] (distinct : Distinct key items) {a : α}
    (member : a ∈ items) (p : α → Bool) :
    items.countP (fun b => p b && key b = key a) = if p a then 1 else 0 := by
  have found := distinct.find? member
  have erased := countP_eraseP found fun b => p b && key b = key a
  have none : (items.eraseP fun b => key b = key a).countP (fun b => p b && key b = key a) = 0 := by
    apply List.countP_eq_zero.mpr
    intro b stays
    simp [(distinct.mem_eraseP.mp stays).2]
  rw [none] at erased
  simpa using erased.symm

end Keyed
