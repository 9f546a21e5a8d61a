import Mathlib.Data.List.Perm.Basic

/-! Removal from a vector whose order does not matter: the first element that fits changes places
with the last one and is dropped. -/
namespace SwapRemove

variable {α β : Type*}

def swapRemove (fits : α → Bool) (xs : List α) : List α :=
  match xs.findIdx? fits, xs.getLast? with
  | some i, some last => (xs.set i last).dropLast
  | _, _ => xs

variable {fits : α → Bool} {xs : List α}

/-- An element changes places with the last one. -/
theorem set_last_perm (xs : List α) (last : α) {i : ℕ} (inside : i < xs.length) :
    (xs ++ [last]).Perm (xs[i] :: xs.set i last) := by
  induction xs generalizing i with
  | nil => cases inside
  | cons x xs ih =>
    cases i with
    | zero =>
      simp only [List.cons_append, List.getElem_cons_zero, List.set_cons_zero]
      have swapped : (xs ++ [last]).Perm (last :: xs) := List.perm_append_comm
      exact swapped.cons x
    | succ i =>
      have rest := ih (Nat.lt_of_succ_lt_succ inside)
      simp only [List.cons_append, List.getElem_cons_succ, List.set_cons_succ]
      exact (rest.cons x).trans (List.Perm.swap _ _ _)

/-- Either no element fits and nothing happens, or one that fits is removed. -/
theorem swapRemove_cases (fits : α → Bool) (xs : List α) :
    ((∀ x ∈ xs, fits x = false) ∧ swapRemove fits xs = xs) ∨
      ∃ x ∈ xs, fits x = true ∧ xs.Perm (x :: swapRemove fits xs) := by
  rw [swapRemove]
  cases found : xs.findIdx? fits with
  | none => exact Or.inl ⟨List.findIdx?_eq_none_iff.mp found, rfl⟩
  | some i =>
    obtain ⟨inside, here, _⟩ := List.findIdx?_eq_some_iff_getElem.mp found
    refine Or.inr ⟨xs[i], List.getElem_mem inside, here, ?_⟩
    rcases List.eq_nil_or_concat' xs with rfl | ⟨front, last, rfl⟩
    · cases inside
    · rw [List.length_append, List.length_singleton] at inside
      simp only [List.getLast?_append, List.getLast?_singleton, Option.some_or]
      by_cases end_ : i < front.length
      · rw [List.set_append_left _ _ end_, List.dropLast_concat, List.getElem_append_left end_]
        exact set_last_perm front last end_
      · obtain rfl : i = front.length := by omega
        rw [List.set_append_right _ _ (Nat.le_refl _), Nat.sub_self, List.set_cons_zero,
          List.dropLast_concat, List.getElem_append_right (Nat.le_refl _)]
        simp

theorem swapRemove_map (f : β → α) (xs : List β) :
    (swapRemove (fits ∘ f) xs).map f = swapRemove fits (xs.map f) := by
  rw [swapRemove, swapRemove, List.findIdx?_map, List.getLast?_map]
  cases xs.findIdx? (fits ∘ f) with
  | none => rfl
  | some i =>
    cases xs.getLast? with
    | none => rfl
    | some last => simp only [Option.map_some, List.map_dropLast, List.map_set]

end SwapRemove
