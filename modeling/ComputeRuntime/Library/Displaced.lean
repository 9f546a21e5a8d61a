import ComputeRuntime.Library.Memory
import Mathlib.Algebra.Group.Defs
import Mathlib.Data.List.Induction
import Mathlib.Data.List.Pairwise

/-! Stores that may go to a higher place than the one they belong to. Where the places they belong
to are disjoint and the memory is blank around the displaced ones, the memory ends up as if no
store were displaced exactly when the displaced ones store zeros only, and over zeros only. -/
namespace Displaced

variable {β : Type*} [Zero β]

/-- `size` cells that belong at `own` and are stored at `actual`. -/
structure Store (β : Type*) where
  own : ℕ
  actual : ℕ
  size : ℕ
  cells : ℕ → β

def Store.Owns (s : Store β) (a : ℕ) : Prop := s.own ≤ a ∧ a < s.own + s.size

def Store.Hits (s : Store β) (a : ℕ) : Prop := s.actual ≤ a ∧ a < s.actual + s.size

def Store.run (memory : ℕ → β) (s : Store β) : ℕ → β :=
  Memory.copy s.cells 0 s.size s.actual memory

def runAll (stores : List (Store β)) (memory : ℕ → β) : ℕ → β := stores.foldl Store.run memory

/-- What the stores may assume of each other and of the memory before them. -/
structure Placed (stores : List (Store β)) (memory : ℕ → β) : Prop where
  disjoint : stores.Pairwise fun s t => ∀ a, s.Owns a → ¬ t.Owns a
  upward : ∀ s ∈ stores, s.own ≤ s.actual
  blank : ∀ s ∈ stores, s.own < s.actual → ∀ a, s.Owns a ∨ s.Hits a → memory a = 0

/-- Each store's cells are where they belong, and nothing else changed. -/
structure AsIntended (stores : List (Store β)) (memory final : ℕ → β) : Prop where
  stored : ∀ s ∈ stores, ∀ k < s.size, final (s.own + k) = s.cells k
  kept : ∀ a, (∀ s ∈ stores, ¬ s.Owns a) → final a = memory a

/-- The displaced stores store zeros, and no earlier store's cell that they hit is another. -/
def Harmless (stores : List (Store β)) : Prop :=
  ∀ before s after, stores = before ++ s :: after → s.own < s.actual →
    (∀ k < s.size, s.cells k = 0) ∧
    ∀ t ∈ before, ∀ a, s.Hits a → t.Owns a → t.cells (a - t.own) = 0

variable {stores : List (Store β)} {s t : Store β} {memory : ℕ → β} {a : ℕ}

omit [Zero β] in
theorem Store.run_hits (hits : s.Hits a) : s.run memory a = s.cells (a - s.actual) := by
  rw [Store.run, Memory.copy_eq hits, Nat.zero_add]

omit [Zero β] in
theorem Store.run_misses (misses : ¬ s.Hits a) : s.run memory a = memory a := by
  unfold Store.Hits at misses
  exact Memory.copy_kept (by omega)

omit [Zero β] in
theorem runAll_concat (stores : List (Store β)) (s : Store β) (memory : ℕ → β) :
    runAll (stores ++ [s]) memory = s.run (runAll stores memory) := by
  rw [runAll, List.foldl_append]
  rfl

/-- A store in its place hits what it owns. -/
theorem Placed.in_place (placed : Placed stores memory) (member : s ∈ stores)
    (inPlace : ¬ s.own < s.actual) (hits : s.Hits a) : s.Owns a := by
  have same : s.actual = s.own := Nat.le_antisymm (by omega) (placed.upward s member)
  unfold Store.Hits at hits
  rw [same] at hits
  exact hits

/-- One address has one owner. -/
theorem Placed.owner (placed : Placed stores memory) (first : s ∈ stores) (second : t ∈ stores)
    (ownsFirst : s.Owns a) (ownsSecond : t.Owns a) : s = t := by
  by_contra different
  have symm : Std.Symm fun s t : Store β => ∀ a, s.Owns a → ¬ t.Owns a :=
    ⟨fun s t apart a ownsT ownsS => apart a ownsS ownsT⟩
  exact placed.disjoint.forall first second different a ownsFirst ownsSecond

theorem Placed.front {front : List (Store β)} (placed : Placed (front ++ [s]) memory) :
    Placed front memory where
  disjoint := (List.pairwise_append.mp placed.disjoint).1
  upward := fun t member => placed.upward t (List.mem_append_left _ member)
  blank := fun t member => placed.blank t (List.mem_append_left _ member)

/-- What is not blank in the end comes from a store. -/
theorem runAll_source (blank : memory a = 0) (stored : runAll stores memory a ≠ 0) :
    ∃ s ∈ stores, s.Hits a ∧ s.cells (a - s.actual) = runAll stores memory a := by
  induction stores using List.reverseRecOn with
  | nil => exact absurd blank stored
  | append_singleton front last ih =>
    rw [runAll_concat] at stored ⊢
    by_cases hits : last.Hits a
    · exact ⟨last, by simp, hits, (Store.run_hits hits).symm⟩
    · rw [Store.run_misses hits] at stored ⊢
      obtain ⟨s, member, rest⟩ := ih stored
      exact ⟨s, List.mem_append_left _ member, rest⟩

/-- Harmless displaced stores leave no trace. -/
theorem Placed.asIntended (placed : Placed stores memory) (harmless : Harmless stores) :
    AsIntended stores memory (runAll stores memory) := by
  induction stores using List.reverseRecOn with
  | nil => exact ⟨by simp, fun _ _ => rfl⟩
  | append_singleton front last ih =>
    have lastMember : last ∈ front ++ [last] := by simp
    have harmlessFront : Harmless front := by
      intro before s after split displaced
      exact harmless before s (after ++ [last]) (by simp [split]) displaced
    have intended := ih placed.front harmlessFront
    have apart : ∀ s ∈ front, ∀ a, s.Owns a → ¬ last.Owns a := fun s member =>
      (List.pairwise_append.mp placed.disjoint).2.2 s member last (by simp)
    rw [runAll_concat]
    by_cases displaced : last.own < last.actual
    · obtain ⟨zeros, covers⟩ := harmless front last [] rfl displaced
      have zero : ∀ a, last.Hits a → last.run (runAll front memory) a = 0 := by
        intro a hits
        rw [Store.run_hits hits]
        obtain ⟨low, high⟩ := hits
        exact zeros _ (by omega)
      constructor
      · intro s member k inside
        have owns : s.Owns (s.own + k) := ⟨by omega, by omega⟩
        by_cases hits : last.Hits (s.own + k)
        · rw [zero _ hits]
          rcases List.mem_append.mp member with inFront | isLast
          · have covered := covers s inFront _ hits owns
            rw [Nat.add_sub_cancel_left] at covered
            exact covered.symm
          · obtain rfl := List.mem_singleton.mp isLast
            exact (zeros k inside).symm
        · rw [Store.run_misses hits]
          rcases List.mem_append.mp member with inFront | isLast
          · exact intended.stored s inFront k inside
          · obtain rfl := List.mem_singleton.mp isLast
            rw [intended.kept _ fun t inFront ownsT => apart t inFront _ ownsT owns,
              placed.blank _ lastMember displaced _ (.inl owns), zeros k inside]
      · intro a unowned
        by_cases hits : last.Hits a
        · rw [zero a hits, placed.blank _ lastMember displaced a (.inr hits)]
        · rw [Store.run_misses hits]
          exact intended.kept a fun t inFront => unowned t (List.mem_append_left _ inFront)
    · have same : last.actual = last.own :=
        Nat.le_antisymm (by omega) (placed.upward _ lastMember)
      constructor
      · intro s member k inside
        have owns : s.Owns (s.own + k) := ⟨by omega, by omega⟩
        rcases List.mem_append.mp member with inFront | isLast
        · have misses : ¬ last.Hits (s.own + k) := fun hits =>
            apart s inFront _ owns (placed.in_place lastMember displaced hits)
          rw [Store.run_misses misses]
          exact intended.stored s inFront k inside
        · obtain rfl := List.mem_singleton.mp isLast
          have hits : s.Hits (s.own + k) := by
            unfold Store.Hits
            rw [same]
            exact owns
          rw [Store.run_hits hits, same, Nat.add_sub_cancel_left]
      · intro a unowned
        have misses : ¬ last.Hits a := fun hits =>
          unowned last lastMember (placed.in_place lastMember displaced hits)
        rw [Store.run_misses misses]
        exact intended.kept a fun t inFront => unowned t (List.mem_append_left _ inFront)

/-- If every cell ends up where it belongs, the displaced stores hold zeros: the lowest one that
does not would be missed in its own place. -/
theorem Placed.zeros (placed : Placed stores memory)
    (stored : ∀ s ∈ stores, ∀ k < s.size, runAll stores memory (s.own + k) = s.cells k)
    (member : s ∈ stores) (displaced : s.own < s.actual) : ∀ k < s.size, s.cells k = 0 := by
  induction place : s.own using Nat.strongRecOn generalizing s with
  | ind place lower =>
    subst place
    intro k
    induction k using Nat.strongRecOn with
    | ind k earlier =>
      intro inside
      by_contra nonzero
      have owns : s.Owns (s.own + k) := ⟨by omega, by omega⟩
      have here := stored s member k inside
      have blank := placed.blank s member displaced _ (.inl owns)
      obtain ⟨t, tMember, hits, source⟩ := runAll_source blank (by rw [here]; exact nonzero)
      rw [here] at source
      have hitsBounds := hits
      obtain ⟨low, high⟩ := hitsBounds
      by_cases tDisplaced : t.own < t.actual
      · by_cases same : t = s
        · subst same
          -- the store hits its own place with its earlier cells, which are zero
          exact nonzero (source ▸ earlier (t.own + k - t.actual) (by omega) (by omega))
        · rcases Nat.lt_or_ge t.own s.own with below | above
          · exact nonzero (source ▸ lower t.own below tMember tDisplaced rfl _ (by omega))
          · -- a store that belongs higher up is displaced even higher
            have notOwned : ¬ s.Owns t.own := fun ownsS =>
              same (placed.owner tMember member ⟨Nat.le_refl _, by omega⟩ ownsS)
            unfold Store.Owns at notOwned
            omega
      · have ownsT := placed.in_place tMember tDisplaced hits
        obtain rfl := placed.owner tMember member ownsT owns
        exact tDisplaced displaced

theorem Placed.harmless (placed : Placed stores memory)
    (stored : ∀ s ∈ stores, ∀ k < s.size, runAll stores memory (s.own + k) = s.cells k) :
    Harmless stores := by
  intro before s after split displaced
  have member : s ∈ stores := by simp [split]
  have zeros := placed.zeros stored member displaced
  refine ⟨zeros, ?_⟩
  intro t tBefore a hits owns
  by_contra nonzero
  have tMember : t ∈ stores := by simp [split, tBefore]
  obtain ⟨low, high⟩ := owns
  have final := stored t tMember (a - t.own) (by omega)
  have restore : t.own + (a - t.own) = a := by omega
  rw [restore] at final
  -- after the displaced store the cell is zero, so a later one must restore it
  have blank : runAll (before ++ [s]) memory a = 0 := by
    rw [runAll_concat, Store.run_hits hits]
    exact zeros _ (by have := hits.2; have := hits.1; omega)
  have rest : runAll stores memory = runAll after (runAll (before ++ [s]) memory) := by
    rw [split]
    simp [runAll, List.foldl_append]
  rw [rest] at final
  obtain ⟨u, uAfter, uHits, source⟩ := runAll_source blank (by rw [final]; exact nonzero)
  have uMember : u ∈ stores := by simp [split, uAfter]
  rw [final] at source
  obtain ⟨uLow, uHigh⟩ := uHits
  by_cases uDisplaced : u.own < u.actual
  · exact nonzero (source ▸ placed.zeros stored uMember uDisplaced _ (by omega))
  · have ownsU := placed.in_place uMember uDisplaced ⟨uLow, uHigh⟩
    have disjoint := placed.disjoint
    rw [split] at disjoint
    exact (List.pairwise_append.mp disjoint).2.2 t tBefore u (by simp [uAfter]) a ⟨low, high⟩ ownsU

end Displaced
