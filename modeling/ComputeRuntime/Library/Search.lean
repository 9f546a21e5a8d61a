import Mathlib.Data.List.Basic

/-! Searches through a list for the one element that has a property. -/
namespace Search

/-- The first element with a property that only one element has. -/
theorem find?_unique {α : Type*} {test : α → Bool} {xs : List α} {x : α} (member : x ∈ xs)
    (passes : test x = true) (unique : ∀ y ∈ xs, test y = true → y = x) :
    xs.find? test = some x := by
  obtain ⟨found, search⟩ := Option.isSome_iff_exists.mp
    (List.find?_isSome.mpr ⟨x, member, passes⟩)
  rw [search, unique found (List.mem_of_find?_eq_some search) (List.find?_some search)]

section Set

variable {α : Type*} {xs : List α} {i : Nat} {current other : α}

/-- An element is still there after another one is replaced. -/
theorem mem_set_or (found : xs[i]? = some current) (new : α) (member : other ∈ xs) :
    other ∈ xs.set i new ∨ other = current := by
  obtain ⟨j, at_j⟩ := List.mem_iff_getElem?.mp member
  by_cases same : i = j
  · subst same
    exact .inr (Option.some.inj (at_j.symm.trans found))
  · left
    apply List.mem_iff_getElem?.mpr
    exact ⟨j, (List.getElem?_set_ne same).trans at_j⟩

theorem mem_eraseIdx_or (found : xs[i]? = some current) (member : other ∈ xs) :
    other ∈ xs.eraseIdx i ∨ other = current := by
  obtain ⟨j, at_j⟩ := List.mem_iff_getElem?.mp member
  by_cases same : j = i
  · subst same
    exact .inr (Option.some.inj (at_j.symm.trans found))
  · exact .inl (List.mem_eraseIdx_iff_getElem?.mpr ⟨j, same, at_j⟩)

/-- An element after a replacement is the new one or one of the others. -/
theorem mem_set_cases {new : α} (member : other ∈ xs.set i new) :
    other = new ∨ other ∈ xs.eraseIdx i := by
  obtain ⟨j, at_j⟩ := List.mem_iff_getElem?.mp member
  by_cases same : i = j
  · subst same
    rw [List.getElem?_set_self'] at at_j
    obtain ⟨_, _, rfl⟩ := Option.map_eq_some_iff.mp at_j
    exact .inl rfl
  · rw [List.getElem?_set_ne same] at at_j
    exact .inr (List.mem_eraseIdx_iff_getElem?.mpr ⟨j, Ne.symm same, at_j⟩)

theorem mem_set_self (found : xs[i]? = some current) (new : α) : new ∈ xs.set i new :=
  List.mem_set (List.getElem?_eq_some_iff.mp found).1 new

end Set

end Search
