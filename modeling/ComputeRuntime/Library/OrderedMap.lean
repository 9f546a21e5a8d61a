import Mathlib.Data.List.Nodup
import Mathlib.Order.Defs.LinearOrder
import Mathlib.Order.Lattice

/-! Maps kept in the order of their keys, with the two places a search in that order looks at:
the first entry whose key is not below the given one, and the entry in front of it. -/

/-- A map as the list of its entries; no key occurs twice. -/
structure OrderedMap (κ α : Type*) [LinearOrder κ] where
  entries : List (κ × α)
  sorted : entries.Pairwise fun e f => e.1 < f.1

namespace OrderedMap

variable {κ α : Type*} [LinearOrder κ] (m : OrderedMap κ α) (k : κ)

def empty : OrderedMap κ α where
  entries := []
  sorted := .nil

/-- The first entry with a key that is not below `k`. -/
def lowerBound : Option (κ × α) := m.entries.find? fun e => k ≤ e.1

/-- The entry in front of the lower bound, if the lower bound is not the first entry. -/
def before : Option (κ × α) := (m.entries.filter fun e => e.1 < k).getLast?

/-- A new entry; an entry that has the key already stays as it is. -/
def insert (v : α) : OrderedMap κ α where
  entries :=
    if m.entries.any fun e => e.1 = k then m.entries
    else (m.entries.filter fun e => e.1 < k) ++ (k, v) :: m.entries.filter fun e => k < e.1
  sorted := by
    split
    next => exact m.sorted
    next =>
      apply List.pairwise_append.mpr
      refine ⟨m.sorted.filter _, ?_, ?_⟩
      · apply List.pairwise_cons.mpr
        exact ⟨by simp, m.sorted.filter _⟩
      · intro e low f high
        have left : e.1 < k := by simpa using (List.mem_filter.mp low).2
        rcases List.mem_cons.mp high with rfl | later
        · exact left
        · exact lt_trans left (by simpa using (List.mem_filter.mp later).2)

/-- The entry of a key with its value changed. -/
def modify (f : α → α) : OrderedMap κ α where
  entries := m.entries.map fun e => if e.1 = k then (e.1, f e.2) else e
  sorted := by
    apply m.sorted.map
    intro e g lt
    split <;> split <;> exact lt

def erase : OrderedMap κ α where
  entries := m.entries.filter fun e => e.1 ≠ k
  sorted := m.sorted.filter _

section Entries

variable {m k}

theorem eq_of_key {e f : κ × α} (first : e ∈ m.entries) (second : f ∈ m.entries)
    (key : e.1 = f.1) : e = f := by
  have keys : (m.entries.map Prod.fst).Nodup :=
    List.pairwise_map.mpr (m.sorted.imp fun lt => ne_of_lt lt)
  exact List.inj_on_of_nodup_map keys first second key

theorem lowerBound_mem {e : κ × α} (found : m.lowerBound k = some e) :
    e ∈ m.entries ∧ k ≤ e.1 := by
  constructor
  · exact List.mem_of_find?_eq_some found
  · simpa using List.find?_some found

/-- Every key that is not below `k` is at the lower bound or behind it. -/
theorem lowerBound_le {e f : κ × α} (found : m.lowerBound k = some e) (member : f ∈ m.entries)
    (le : k ≤ f.1) : e.1 ≤ f.1 := by
  obtain ⟨-, front, back, whole, below⟩ := List.find?_eq_some_iff_append.mp found
  have sorted := m.sorted
  rw [whole] at sorted member
  rcases List.mem_append.mp member with early | late
  · have above := below f early
    simp [le] at above
  · rcases List.mem_cons.mp late with rfl | later
    · exact le_refl _
    · have tail := (List.pairwise_append.mp sorted).2.1
      exact le_of_lt ((List.pairwise_cons.mp tail).1 f later)

theorem lowerBound_eq_none (absent : m.lowerBound k = none) {e : κ × α} (member : e ∈ m.entries) :
    e.1 < k := by
  simpa using List.find?_eq_none.mp absent e member

theorem lowerBound_isSome {e : κ × α} (member : e ∈ m.entries) (le : k ≤ e.1) :
    ∃ f, m.lowerBound k = some f := by
  apply Option.isSome_iff_exists.mp
  exact List.find?_isSome.mpr ⟨e, member, by simpa using le⟩

/-- The lower bound of a key of the map is the entry of that key. -/
theorem lowerBound_self {e : κ × α} (member : e ∈ m.entries) : m.lowerBound e.1 = some e := by
  obtain ⟨f, found⟩ := lowerBound_isSome member (le_refl _)
  have key : f.1 = e.1 :=
    le_antisymm (lowerBound_le found member (le_refl _)) (lowerBound_mem found).2
  rw [found, eq_of_key (lowerBound_mem found).1 member key]

theorem before_mem {e : κ × α} (found : m.before k = some e) : e ∈ m.entries ∧ e.1 < k := by
  have inside := List.mem_filter.mp (List.mem_of_getLast? found)
  exact ⟨inside.1, by simpa using inside.2⟩

/-- Every key below `k` is at the entry before `k` or in front of it. -/
theorem le_before {e f : κ × α} (found : m.before k = some e) (member : f ∈ m.entries)
    (lt : f.1 < k) : f.1 ≤ e.1 := by
  obtain ⟨front, whole⟩ := List.getLast?_eq_some_iff.mp found
  have sorted := m.sorted.filter fun e => decide (e.1 < k)
  have inside : f ∈ m.entries.filter fun e => decide (e.1 < k) :=
    List.mem_filter.mpr ⟨member, by simpa using lt⟩
  rw [whole] at sorted inside
  rcases List.mem_append.mp inside with early | last
  · exact le_of_lt ((List.pairwise_append.mp sorted).2.2 f early e (by simp))
  · rw [List.mem_singleton.mp last]

theorem before_isSome {e : κ × α} (member : e ∈ m.entries) (lt : e.1 < k) :
    ∃ f, m.before k = some f := by
  cases found : m.before k with
  | some f => exact ⟨f, rfl⟩
  | none =>
    have none := List.getLast?_eq_none_iff.mp found
    have inside : e ∈ m.entries.filter fun e => decide (e.1 < k) :=
      List.mem_filter.mpr ⟨member, by simpa using lt⟩
    rw [none] at inside
    cases inside

theorem mem_insert {v : α} (absent : ∀ e ∈ m.entries, e.1 ≠ k) {e : κ × α} :
    e ∈ (m.insert k v).entries ↔ e = (k, v) ∨ e ∈ m.entries := by
  have fresh : ¬ m.entries.any fun e => e.1 = k := by
    simpa using fun v inside => absent (k, v) inside rfl
  simp only [insert, if_neg fresh, List.mem_append, List.mem_cons, List.mem_filter,
    decide_eq_true_eq]
  constructor
  · rintro (⟨member, -⟩ | new | ⟨member, -⟩)
    · exact .inr member
    · exact .inl new
    · exact .inr member
  · rintro (new | member)
    · exact .inr (.inl new)
    · rcases lt_or_gt_of_ne (absent e member) with low | high
      · exact .inl ⟨member, low⟩
      · exact .inr (.inr ⟨member, high⟩)

theorem mem_modify {f : α → α} {e : κ × α} (member : e ∈ m.entries) {g : κ × α} :
    g ∈ (m.modify e.1 f).entries ↔ g = (e.1, f e.2) ∨ g ∈ m.entries ∧ g ≠ e := by
  simp only [modify, List.mem_map]
  constructor
  · rintro ⟨h, inside, rfl⟩
    split
    next key =>
      rw [eq_of_key inside member key]
      exact .inl rfl
    next key => exact .inr ⟨inside, fun same => key (by rw [same])⟩
  · rintro (rfl | ⟨inside, differ⟩)
    · exact ⟨e, member, by simp⟩
    · refine ⟨g, inside, if_neg fun key => ?_⟩
      exact differ (eq_of_key inside member key)

theorem mem_erase {e : κ × α} (member : e ∈ m.entries) {g : κ × α} :
    g ∈ (m.erase e.1).entries ↔ g ∈ m.entries ∧ g ≠ e := by
  simp only [erase, List.mem_filter, decide_eq_true_eq, and_congr_right_iff]
  intro inside
  constructor
  · exact fun key same => key (by rw [same])
  · exact fun differ key => differ (eq_of_key inside member key)

end Entries

end OrderedMap
