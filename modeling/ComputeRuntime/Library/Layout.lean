import Mathlib.Algebra.Order.BigOperators.Group.List
import Mathlib.Data.List.Basic
import Mathlib.Algebra.GroupWithZero.Nat

/-! Items of known sizes laid one behind the other, with or without alignments: where each of them
starts, and that a position found by adding up sizes is the start of the item one means. -/
namespace Layout

variable {α : Type*} (size : α → Nat)

/-- The room of some items. -/
def extent (items : List α) : Nat := (items.map size).sum

/-- The items with their starts, from a position on. -/
def place : Nat → List α → List (Nat × α)
  | _, [] => []
  | start, item :: rest => (start, item) :: place (start + size item) rest

theorem place_nil (start : Nat) : place size start [] = [] := rfl

theorem place_cons (start : Nat) (item : α) (rest : List α) :
    place size start (item :: rest) = (start, item) :: place size (start + size item) rest := rfl

@[simp] theorem extent_nil : extent size [] = 0 := rfl

@[simp] theorem extent_cons (item : α) (rest : List α) :
    extent size (item :: rest) = size item + extent size rest := by
  simp [extent]

@[simp] theorem extent_append (first second : List α) :
    extent size (first ++ second) = extent size first + extent size second := by
  simp [extent]

theorem place_append (start : Nat) (first second : List α) :
    place size start (first ++ second) =
      place size start first ++ place size (start + extent size first) second := by
  induction first generalizing start with
  | nil => simp [place_nil]
  | cons item rest ih => simp [place_cons, ih, Nat.add_assoc]

@[simp] theorem place_map_snd (start : Nat) (items : List α) :
    (place size start items).map Prod.snd = items := by
  induction items generalizing start with
  | nil => rfl
  | cons item rest ih => simp [place_cons, ih]

/-- What is found in the items does not depend on where they lie. -/
theorem place_filterMap {β : Type*} (f : α → Option β) (start : Nat) (items : List α) :
    (place size start items).filterMap (fun placed => f placed.2) = items.filterMap f := by
  induction items generalizing start with
  | nil => rfl
  | cons item rest ih => simp only [place_cons, List.filterMap_cons, ih]

/-- Every item starts where the one in front of it ends, from `first` to `last`. -/
def Consecutive : List (Nat × α) → Nat → Nat → Prop
  | [], first, last => first = last
  | placed :: rest, first, last =>
    placed.1 = first ∧ Consecutive rest (first + size placed.2) last

theorem place_consecutive (start : Nat) (items : List α) :
    Consecutive size (place size start items) start (start + extent size items) := by
  induction items generalizing start with
  | nil => rfl
  | cons item rest ih =>
    refine ⟨rfl, ?_⟩
    rw [extent_cons, ← Nat.add_assoc]
    exact ih _

/-- One more item, where the others end. -/
theorem consecutive_concat {placed : List (Nat × α)} {first last : Nat}
    (consecutive : Consecutive size placed first last) (item : α) :
    Consecutive size (placed ++ [(last, item)]) first (last + size item) := by
  induction placed generalizing first with
  | nil =>
    cases consecutive
    exact ⟨rfl, rfl⟩
  | cons head rest ih => exact ⟨consecutive.1, ih consecutive.2⟩

/-- Items of the same sizes in the same places. -/
theorem consecutive_map {f : α → α} (same : ∀ item, size (f item) = size item)
    {placed : List (Nat × α)} {first last : Nat} (consecutive : Consecutive size placed first last) :
    Consecutive size (placed.map fun item => (item.1, f item.2)) first last := by
  induction placed generalizing first with
  | nil => exact consecutive
  | cons head rest ih =>
    refine ⟨consecutive.1, ?_⟩
    simp only [same]
    exact ih consecutive.2

section Positions

variable {size}

/-- The item behind the first ones starts where they end. -/
theorem mem_place {start : Nat} {before after : List α} {item : α} :
    (start + extent size before, item) ∈ place size start (before ++ item :: after) := by
  rw [place_append]
  exact List.mem_append_right _ List.mem_cons_self

theorem le_of_mem_place {start : Nat} {items : List α} {placed : Nat × α}
    (member : placed ∈ place size start items) :
    start ≤ placed.1 ∧ placed.1 + size placed.2 ≤ start + extent size items := by
  induction items generalizing start with
  | nil => cases member
  | cons item rest ih =>
    rw [extent_cons]
    rcases List.mem_cons.mp member with rfl | later
    · exact ⟨Nat.le_refl _, by simp⟩
    · have bound := ih later
      omega

/-- Items of so many units each take whole units. -/
theorem dvd_extent {unit : Nat} (units : ∀ item, unit ∣ size item) (items : List α) :
    unit ∣ extent size items := by
  induction items with
  | nil => exact Nat.dvd_zero _
  | cons item rest ih =>
    rw [extent_cons]
    exact Nat.dvd_add (units item) ih

/-- Items that take room are found by where they start, also by the addresses of their starts. -/
theorem findIdx?_place {β : Type*} [DecidableEq β] {address : Nat → β} {limit start : Nat}
    {before after : List α} {item : α}
    (injective : ∀ a b, a < limit → b < limit → address a = address b → a = b)
    (positive : ∀ other ∈ before ++ [item], 0 < size other)
    (fits : start + extent size (before ++ item :: after) ≤ limit) :
    (place size start (before ++ item :: after)).findIdx?
      (fun placed => address placed.1 = address (start + extent size before)) =
        some before.length := by
  induction before generalizing start with
  | nil => simp [place_cons, List.findIdx?_cons]
  | cons head rest ih =>
    have first := positive head (by simp)
    have last := positive item (by simp)
    simp only [List.cons_append, extent_cons, extent_append] at fits
    -- The first item starts earlier than the one that is looked for.
    have differs : address start ≠ address (start + (size head + extent size rest)) :=
      fun same => absurd (injective _ _ (by omega) (by omega) same) (by omega)
    have found := @ih (start + size head)
      (fun other member => positive other (List.mem_cons_of_mem head member))
      (by simp only [extent_append, extent_cons]; omega)
    rw [Nat.add_assoc] at found
    simp only [List.cons_append, place_cons, List.findIdx?_cons, extent_cons, differs, decide_false,
      Bool.false_eq_true, if_false, found, Option.map_some, List.length_cons]

@[simp] theorem place_length (start : Nat) (items : List α) :
    (place size start items).length = items.length := by
  rw [← List.length_map (f := Prod.snd), place_map_snd]

theorem place_getElem? (start : Nat) (items : List α) (i : Nat) :
    (place size start items)[i]? = items[i]?.map fun item =>
      (start + extent size (items.take i), item) := by
  induction items generalizing start i with
  | nil => simp [place_nil]
  | cons item rest ih =>
    cases i with
    | zero => simp [place_cons]
    | succ i => simp [place_cons, ih, Nat.add_assoc]

end Positions

section Packing

/-- The next multiple of an alignment. -/
def roundUp (next alignment : Nat) : Nat := (next + alignment - 1) / alignment * alignment

theorem le_roundUp {alignment : Nat} (some : 0 < alignment) (next : Nat) :
    next ≤ roundUp next alignment := by
  have split := Nat.div_add_mod (next + alignment - 1) alignment
  have below := Nat.mod_lt (next + alignment - 1) some
  rw [roundUp, Nat.mul_comm]
  omega

theorem dvd_roundUp (next alignment : Nat) : alignment ∣ roundUp next alignment :=
  Nat.dvd_mul_left _ _

/-- No multiple is skipped. -/
theorem roundUp_le {next alignment bound : Nat} (multiple : alignment ∣ bound)
    (above : next ≤ bound) : roundUp next alignment ≤ bound := by
  obtain ⟨count, rfl⟩ := multiple
  rcases Nat.eq_zero_or_pos alignment with rfl | some
  · simp [roundUp]
  · rw [roundUp, Nat.mul_comm alignment]
    apply Nat.mul_le_mul_right
    apply Nat.le_of_lt_succ
    apply (Nat.div_lt_iff_lt_mul some).mpr
    rw [Nat.succ_mul, Nat.mul_comm count]
    omega

variable (align : α → Nat)

/-- The items with their starts, each at the next multiple of its alignment. -/
def pack : Nat → List α → List (Nat × α)
  | _, [] => []
  | next, item :: rest =>
    (roundUp next (align item), item) :: pack (roundUp next (align item) + size item) rest

/-- The end of the last item that is packed. -/
def packEnd : Nat → List α → Nat
  | next, [] => next
  | next, item :: rest => packEnd (roundUp next (align item) + size item) rest

variable {size align} {next : Nat} {items : List α}

theorem le_packEnd (aligned : ∀ item ∈ items, 0 < align item) (next : Nat) :
    next ≤ packEnd size align next items := by
  induction items generalizing next with
  | nil => exact Nat.le_refl _
  | cons item rest ih =>
    have aligned := List.forall_mem_cons.mp aligned
    have start := le_roundUp aligned.1 next
    have bound := ih aligned.2 (roundUp next (align item) + size item)
    rw [packEnd]
    omega

theorem mem_pack (aligned : ∀ item ∈ items, 0 < align item) {packed : Nat × α}
    (member : packed ∈ pack size align next items) :
    next ≤ packed.1 ∧ packed.1 + size packed.2 ≤ packEnd size align next items := by
  induction items generalizing next with
  | nil => cases member
  | cons item rest ih =>
    have aligned := List.forall_mem_cons.mp aligned
    have start := le_roundUp aligned.1 next
    rw [packEnd]
    rcases List.mem_cons.mp member with rfl | later
    · exact ⟨start, le_packEnd aligned.2 _⟩
    · have bound := ih aligned.2 later
      omega

/-- Packed items do not overlap. -/
theorem pack_pairwise (aligned : ∀ item ∈ items, 0 < align item) :
    (pack size align next items).Pairwise fun x y => x.1 + size x.2 ≤ y.1 := by
  induction items generalizing next with
  | nil => exact List.Pairwise.nil
  | cons item rest ih =>
    have aligned := List.forall_mem_cons.mp aligned
    exact List.pairwise_cons.mpr ⟨fun y later => (mem_pack aligned.2 later).1, ih aligned.2⟩

end Packing

end Layout
