import ComputeRuntime.Library.Tiling
import Mathlib.Algebra.Ring.Nat
import Mathlib.Tactic.Ring

/-! Copies that are made up of transfers of contiguous bytes. A list of transfers is an exact copy
of a range when it writes every byte of the range once and no other byte, and each byte from the
one at the same distance. -/
namespace Transfers

structure Transfer where
  dst : ℕ
  src : ℕ
  length : ℕ
  deriving DecidableEq

def Transfer.span (t : Transfer) : ℕ × ℕ := (t.dst, t.dst + t.length)

structure Exact (transfers : List Transfer) (dst src size : ℕ) : Prop where
  once : Tiling.Tiles (transfers.map Transfer.span) dst (dst + size)
  distance : ∀ t ∈ transfers, t.dst + src = t.src + dst

/-- Transfers of `count` elements of one length, one behind the other on either side. -/
def elements (dst src length count : ℕ) : List Transfer :=
  (List.range count).map fun i => ⟨dst + i * length, src + i * length, length⟩

variable {dst src length count : ℕ} {transfers : List Transfer}

theorem elements_succ : elements dst src length (count + 1) =
    elements dst src length count ++ [⟨dst + count * length, src + count * length, length⟩] := by
  rw [elements, elements, List.range_succ, List.map_append, List.map_singleton]

theorem elements_links :
    Tiling.Links ((elements dst src length count).map Transfer.span) dst (dst + count * length) := by
  induction count with
  | zero => simp [elements, Tiling.Links]
  | succ count ih =>
    rw [elements_succ, List.map_append]
    apply Tiling.links_append.mpr
    refine ⟨_, ih, rfl, ?_⟩
    change dst + count * length + length = dst + (count + 1) * length
    ring

theorem elements_distance : ∀ t ∈ elements dst src length count, t.dst + src = t.src + dst := by
  intro t member
  obtain ⟨i, _, rfl⟩ := List.mem_map.mp member
  dsimp only
  omega

/-- Work items that copy one element each, as far as there are elements left. -/
theorem elements_guarded (bound items : ℕ) :
    (List.range items).filterMap (fun i =>
      if i < bound then some (Transfer.mk (dst + i * length) (src + i * length) length) else none) =
      elements dst src length (min bound items) := by
  induction items with
  | zero => simp [elements]
  | succ items ih =>
    rw [List.range_succ, List.filterMap_append, ih]
    by_cases inside : items < bound
    · rw [Nat.min_eq_right (Nat.le_of_lt inside), Nat.min_eq_right inside, elements_succ]
      simp [inside]
    · rw [Nat.min_eq_left (by omega), Nat.min_eq_left (by omega)]
      simp [inside]

theorem rising (transfers : List Transfer) : ∀ s ∈ transfers.map Transfer.span, s.1 ≤ s.2 := by
  intro s member
  obtain ⟨t, _, rfl⟩ := List.mem_map.mp member
  exact Nat.le_add_right _ _

/-- How many bytes are transferred. -/
def bytes (transfers : List Transfer) : ℕ := (transfers.map Transfer.length).sum

@[simp] theorem bytes_nil : bytes [] = 0 := rfl

@[simp] theorem bytes_append (first second : List Transfer) :
    bytes (first ++ second) = bytes first + bytes second := by simp [bytes]

@[simp] theorem bytes_elements : bytes (elements dst src length count) = count * length := by
  simp [bytes, elements, Function.comp_def]

theorem bytes_flatMap {α : Type*} (parts : List α) (transfersOf : α → List Transfer) :
    bytes (parts.flatMap transfersOf) = (parts.map fun p => bytes (transfersOf p)).sum := by
  induction parts with
  | nil => rfl
  | cons p parts ih =>
    rw [List.flatMap_cons, bytes_append, ih, List.map_cons, List.sum_cons]

/-- The first of at least one element. -/
theorem first_element (some : 0 < count) :
    Transfer.mk dst src length ∈ elements dst src length count :=
  List.mem_map.mpr ⟨0, List.mem_range.mpr some, by simp⟩

theorem elements_length : ∀ t ∈ elements dst src length count, t.length = length := by
  intro t member
  obtain ⟨i, _, rfl⟩ := List.mem_map.mp member
  rfl

theorem bytes_eq_total :
    bytes transfers = Tiling.total (fun a b => b - a) (transfers.map Transfer.span) := by
  induction transfers with
  | nil => rfl
  | cons t transfers ih =>
    have sum : bytes (t :: transfers) = t.length + bytes transfers := by simp [bytes]
    rw [sum, ih, List.map_cons, Tiling.total_cons]
    simp [Transfer.span]

variable {size : ℕ}

/-- A transfer of at least one byte lies in the range of an exact copy. -/
theorem Exact.inside (exact : Exact transfers dst src size) {t : Transfer} (member : t ∈ transfers)
    (some : 0 < t.length) : dst ≤ t.dst ∧ t.dst + t.length ≤ dst + size := by
  have hit (x : ℕ) (inside : x ∈ Set.Ico t.span.1 t.span.2) : x ∈ Set.Ico dst (dst + size) := by
    have positive := Tiling.total_hits_pos.mpr ⟨t.span, List.mem_map_of_mem member, inside⟩
    rw [exact.once x] at positive
    have once := Tiling.hits_le_one x dst (dst + size)
    exact Tiling.hits_eq_one.mp (by omega)
  have first := hit t.dst ⟨Nat.le_refl _, Nat.lt_add_of_pos_right some⟩
  have last := hit (t.dst + t.length - 1)
    ⟨show t.dst ≤ _ by omega, show _ < t.dst + t.length by omega⟩
  refine ⟨first.1, ?_⟩
  have := last.2
  omega

/-- An exact copy transfers as many bytes as its range has. -/
theorem Exact.bytes_eq (exact : Exact transfers dst src size) (some : ∀ t ∈ transfers, 0 < t.length) :
    bytes transfers = size := by
  have inside : ∀ s ∈ transfers.map Transfer.span, dst ≤ s.1 ∧ s.2 ≤ dst + size := by
    intro s member
    obtain ⟨t, inside, rfl⟩ := List.mem_map.mp member
    exact exact.inside inside (some t inside)
  rw [bytes_eq_total, ← Tiling.sum_hits inside]
  calc ∑ x ∈ Finset.Ico dst (dst + size), Tiling.total (Tiling.hits x)
        (transfers.map Transfer.span)
      = ∑ _x ∈ Finset.Ico dst (dst + size), 1 := by
        apply Finset.sum_congr rfl
        intro x member
        rw [exact.once x, Tiling.hits_eq_one]
        exact Finset.mem_Ico.mp member
    _ = size := by simp

/-- Transfers that lead through the range from one end to the other copy it exactly. -/
theorem exact_of_links
    (links : Tiling.Links (transfers.map Transfer.span) dst (dst + size))
    (distance : ∀ t ∈ transfers, t.dst + src = t.src + dst) : Exact transfers dst src size :=
  ⟨links.tiles (rising transfers), distance⟩

end Transfers
