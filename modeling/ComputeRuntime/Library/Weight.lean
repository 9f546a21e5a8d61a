import Mathlib.Algebra.Order.BigOperators.Group.List
import Mathlib.Algebra.GroupWithZero.Nat

/-! What the items of a list weigh together, and how that changes with one of them. -/
namespace Weight

variable {α : Type*} (w : α → Nat)

def weight (items : List α) : Nat := (items.map w).sum

@[simp] theorem weight_nil : weight w [] = 0 := rfl

@[simp] theorem weight_cons (a : α) (items : List α) :
    weight w (a :: items) = w a + weight w items := by
  simp [weight]

@[simp] theorem weight_append (first second : List α) :
    weight w (first ++ second) = weight w first + weight w second := by
  simp [weight]

/-- One item is exchanged. -/
theorem weight_set {items : List α} {i : Nat} {old : α} (current : items[i]? = some old) (new : α) :
    weight w (items.set i new) + w old = weight w items + w new := by
  induction items generalizing i with
  | nil => cases current
  | cons a items ih =>
    cases i with
    | zero =>
      cases current
      simp only [List.set_cons_zero, weight_cons]
      omega
    | succ i =>
      have rest := @ih i current
      simp only [List.set_cons_succ, weight_cons]
      omega

/-- One item is removed. -/
theorem weight_eraseIdx {items : List α} {i : Nat} {old : α} (current : items[i]? = some old) :
    weight w (items.eraseIdx i) + w old = weight w items := by
  induction items generalizing i with
  | nil => cases current
  | cons a items ih =>
    cases i with
    | zero =>
      cases current
      simp only [List.eraseIdx_cons_zero, weight_cons]
      exact Nat.add_comm _ _
    | succ i =>
      have rest := @ih i current
      simp only [List.eraseIdx_cons_succ, weight_cons]
      omega

variable {w}

theorem weight_mono {w' : α → Nat} (le : ∀ a, w a ≤ w' a) (items : List α) :
    weight w items ≤ weight w' items := by
  induction items with
  | nil => exact Nat.le_refl _
  | cons a items ih =>
    simp only [weight_cons]
    exact Nat.add_le_add (le a) ih

theorem weight_eq_zero {items : List α} (zero : ∀ a ∈ items, w a = 0) : weight w items = 0 := by
  induction items with
  | nil => rfl
  | cons a items ih =>
    rw [weight_cons, zero a List.mem_cons_self]
    simpa using ih fun b member => zero b (List.mem_cons_of_mem _ member)

theorem weight_perm {first second : List α} (perm : first.Perm second) :
    weight w first = weight w second :=
  (perm.map w).sum_eq

/-- Items that weigh one each are counted. -/
theorem weight_one (items : List α) : weight (fun _ => 1) items = items.length := by
  induction items with
  | nil => rfl
  | cons a items ih =>
    rw [weight_cons, ih, List.length_cons]
    exact Nat.add_comm _ _

theorem weight_indicator (p : α → Bool) (items : List α) :
    weight (fun a => if p a then 1 else 0) items = items.countP p := by
  induction items with
  | nil => rfl
  | cons a items ih =>
    rw [weight_cons, ih, List.countP_cons]
    exact Nat.add_comm _ _

/-- One item is exchanged. -/
theorem countP_set (p : α → Bool) {items : List α} {i : Nat} {old : α}
    (current : items[i]? = some old) (new : α) :
    (items.set i new).countP p + (if p old then 1 else 0) =
      items.countP p + (if p new then 1 else 0) := by
  have exchanged := weight_set (fun a => if p a then 1 else 0) current new
  rwa [weight_indicator, weight_indicator] at exchanged

theorem countP_eraseIdx (p : α → Bool) {items : List α} {i : Nat} {old : α}
    (current : items[i]? = some old) :
    (items.eraseIdx i).countP p + (if p old then 1 else 0) = items.countP p := by
  have removed := weight_eraseIdx (fun a => if p a then 1 else 0) current
  rwa [weight_indicator, weight_indicator] at removed

/-- Two tests that no item passes both of. -/
theorem countP_or {p q : α → Bool} {items : List α}
    (apart : ∀ a ∈ items, p a = true → q a = false) :
    items.countP (fun a => p a || q a) = items.countP p + items.countP q := by
  induction items with
  | nil => rfl
  | cons a items ih =>
    have rest := ih fun b member => apart b (List.mem_cons_of_mem a member)
    have head := apart a List.mem_cons_self
    simp only [List.countP_cons]
    cases passes : p a with
    | false =>
      simp only [Bool.false_or, Bool.false_eq_true, if_false]
      omega
    | true =>
      simp only [head passes, Bool.true_or, Bool.false_eq_true, if_true, if_false]
      omega

end Weight
