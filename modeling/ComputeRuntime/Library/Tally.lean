import Mathlib.Data.List.Count

/-! Values that parties hold, each in a list of its own, and how often a value occurs in all of
them. -/
namespace Tally

variable {α β : Type*} [DecidableEq β]

/-- How often a value occurs in the lists of all parties. -/
def tally (part : α → List β) (parties : List α) (b : β) : Nat := (parties.flatMap part).count b

@[simp] theorem tally_nil (part : α → List β) (b : β) : tally part [] b = 0 := rfl

@[simp] theorem tally_cons (part : α → List β) (a : α) (parties : List α) (b : β) :
    tally part (a :: parties) b = (part a).count b + tally part parties b := by
  simp [tally, List.count_append]

@[simp] theorem tally_append (part : α → List β) (first second : List α) (b : β) :
    tally part (first ++ second) b = tally part first b + tally part second b := by
  simp [tally, List.count_append]

/-- One party exchanges what it holds. -/
theorem tally_set (part : α → List β) {parties : List α} {i : Nat} {old : α}
    (current : parties[i]? = some old) (new : α) (b : β) :
    tally part (parties.set i new) b + (part old).count b =
      tally part parties b + (part new).count b := by
  induction parties generalizing i with
  | nil => cases current
  | cons a parties ih =>
    cases i with
    | zero =>
      cases current
      simp only [List.set_cons_zero, tally_cons]
      omega
    | succ i =>
      have rest := @ih i current
      simp only [List.set_cons_succ, tally_cons]
      omega

/-- One party leaves. -/
theorem tally_eraseIdx (part : α → List β) {parties : List α} {i : Nat} {old : α}
    (current : parties[i]? = some old) (b : β) :
    tally part (parties.eraseIdx i) b + (part old).count b = tally part parties b := by
  induction parties generalizing i with
  | nil => cases current
  | cons a parties ih =>
    cases i with
    | zero =>
      cases current
      simp only [List.eraseIdx_cons_zero, tally_cons]
      omega
    | succ i =>
      have rest := @ih i current
      simp only [List.eraseIdx_cons_succ, tally_cons]
      omega

theorem le_tally (part : α → List β) {parties : List α} {a : α} (member : a ∈ parties) (b : β) :
    (part a).count b ≤ tally part parties b := by
  obtain ⟨front, back, rfl⟩ := List.append_of_mem member
  simp only [tally_append, tally_cons]
  omega

/-- A value that no party holds. -/
theorem tally_eq_zero (part : α → List β) {parties : List α} (empty : ∀ a ∈ parties, part a = [])
    (b : β) : tally part parties b = 0 := by
  rw [tally, List.flatMap_eq_nil_iff.mpr empty]
  rfl

end Tally
