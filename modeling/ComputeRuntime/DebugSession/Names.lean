import ComputeRuntime.DebugSession.Topology
import Mathlib.Data.List.Nodup
import Mathlib.Data.List.Perm.Subperm

/-! When the names of threads map one to one: the slice numbers of a device are the positions of
its physical slices in the list of all of them. -/
namespace ComputeRuntime.DebugSession

section Slices

variable {bits : BitVec 4} {tiles : TopologyMap} {tile : TopologyMapping}

/-- The physical slices of the tiles that belong to the device, each with its tile. -/
def slicesFrom (bits : BitVec 4) : (i : ℕ) → TopologyMap → List (ℕ × ℕ)
  | _, [] => []
  | i, tile :: rest =>
    (if bits.getLsbD i then tile.sliceIndices.map (i, ·) else []) ++ slicesFrom bits (i + 1) rest

theorem slicesFrom_nil (i : ℕ) : slicesFrom bits i [] = [] := rfl

theorem slicesFrom_cons (i : ℕ) (tile : TopologyMapping) (rest : TopologyMap) :
    slicesFrom bits i (tile :: rest) =
      (if bits.getLsbD i then tile.sliceIndices.map (i, ·) else []) ++ slicesFrom bits (i + 1) rest :=
  rfl

theorem slicesFrom_append (i : ℕ) (first second : TopologyMap) :
    slicesFrom bits i (first ++ second) =
      slicesFrom bits i first ++ slicesFrom bits (i + first.length) second := by
  induction first generalizing i with
  | nil => rfl
  | cons tile rest ih =>
    rw [List.cons_append, slicesFrom_cons, slicesFrom_cons, ih, List.append_assoc, List.length_cons,
      Nat.add_assoc, Nat.add_comm 1]

theorem mem_slicesFrom {i k s : ℕ} : (k, s) ∈ slicesFrom bits i tiles ↔
    ∃ j tile, k = i + j ∧ tiles[j]? = some tile ∧ bits.getLsbD k ∧ s ∈ tile.sliceIndices := by
  induction tiles generalizing i with
  | nil => simp [slicesFrom_nil]
  | cons first rest ih =>
    rw [slicesFrom_cons, List.mem_append, ih]
    constructor
    · rintro (here | ⟨j, tile, rfl, found, present, member⟩)
      · by_cases present : bits.getLsbD i
        · simp only [present, if_true, List.mem_map, Prod.mk.injEq] at here
          obtain ⟨_, member, rfl, rfl⟩ := here
          exact ⟨0, first, rfl, rfl, present, member⟩
        · simp [present] at here
      · exact ⟨j + 1, tile, by omega, found, present, member⟩
    · rintro ⟨_ | j, tile, rfl, found, present, member⟩
      · cases found
        exact Or.inl (by simpa [present] using member)
      · exact Or.inr ⟨j, tile, by omega, found, present, member⟩

theorem slicesFrom_nodup {i : ℕ} (each : ∀ tile ∈ tiles, tile.sliceIndices.Nodup) :
    (slicesFrom bits i tiles).Nodup := by
  induction tiles generalizing i with
  | nil => exact List.nodup_nil
  | cons first rest ih =>
    rw [slicesFrom_cons]
    have rest := ih (i := i + 1) fun tile member => each tile (List.mem_cons_of_mem _ member)
    refine List.Nodup.append ?_ rest ?_
    · split
      · exact (each first List.mem_cons_self).map fun _ _ same => (Prod.mk.inj same).2
      · exact List.nodup_nil
    · -- the slices of later tiles have a greater tile index
      rintro ⟨k, s⟩ here later
      obtain ⟨j, _, rfl, _⟩ := mem_slicesFrom.mp later
      split at here
      · simp at here
        omega
      · cases here

theorem findSlice_eq {i a : ℕ} (word : a < 2 ^ 32) :
    findSlice bits tiles i a = (slicesFrom bits i tiles)[a]? := by
  induction tiles generalizing i a with
  | nil => rfl
  | cons tile rest ih =>
    rw [findSlice, slicesFrom_cons]
    by_cases present : bits.getLsbD i
    · rw [if_pos present, if_pos present]
      by_cases here : a < tile.sliceIndices.length
      · rw [List.getElem?_eq_getElem here, List.getElem?_append_left (by simpa using here),
          List.getElem?_map, List.getElem?_eq_getElem here]
        rfl
      · have behind : tile.sliceIndices.length ≤ a := Nat.le_of_not_lt here
        rw [List.getElem?_eq_none behind, List.getElem?_append_right (by simpa using behind),
          Word.sub_eq behind word, List.length_map]
        exact ih (by omega)
    · rw [if_neg present, if_neg present]
      exact ih word

theorem findDeviceIndex_cons (i a deviceIndex : ℕ) (tile : TopologyMapping) (rest : TopologyMap) :
    findDeviceIndex bits (tile :: rest) i a deviceIndex =
      if bits.getLsbD i then
        findDeviceIndex bits rest (i + 1) (Word.sub 32 a tile.sliceIndices.length)
          (if a < tile.sliceIndices.length then i else deviceIndex)
      else findDeviceIndex bits rest (i + 1) a deviceIndex :=
  rfl

/-- Behind the match the slice number is too large to match again. -/
theorem findDeviceIndex_none {i a deviceIndex : ℕ} (word : a < 2 ^ 32)
    (behind : (slicesFrom bits i tiles).length ≤ a) :
    findDeviceIndex bits tiles i a deviceIndex = deviceIndex := by
  induction tiles generalizing i a with
  | nil => rfl
  | cons tile rest ih =>
    rw [slicesFrom_cons, List.length_append] at behind
    rw [findDeviceIndex_cons]
    by_cases present : bits.getLsbD i
    · rw [if_pos present, List.length_map] at behind
      rw [if_pos present, if_neg (by omega), Word.sub_eq (by omega) word]
      exact ih (by omega) (by omega)
    · rw [if_neg present]
      exact ih word (by omega)

theorem findDeviceIndex_eq {i a k s deviceIndex : ℕ} (few : (slicesFrom bits i tiles).length < 2 ^ 32)
    (found : (slicesFrom bits i tiles)[a]? = some (k, s)) :
    findDeviceIndex bits tiles i a deviceIndex = k := by
  have below : a < (slicesFrom bits i tiles).length := (List.getElem?_eq_some_iff.mp found).1
  induction tiles generalizing i a deviceIndex with
  | nil => cases found
  | cons tile rest ih =>
    rw [slicesFrom_cons] at found few below
    rw [findDeviceIndex_cons]
    by_cases present : bits.getLsbD i
    · simp only [if_pos present, List.length_append, List.length_map] at found few below ⊢
      by_cases here : a < tile.sliceIndices.length
      · rw [List.getElem?_append_left (by simpa using here), List.getElem?_map,
          List.getElem?_eq_getElem here] at found
        cases found
        rw [if_pos here, Word.sub_borrow here (by omega)]
        exact findDeviceIndex_none (by omega) (by omega)
      · have behind : tile.sliceIndices.length ≤ a := Nat.le_of_not_lt here
        rw [List.getElem?_append_right (by simpa using behind), List.length_map] at found
        rw [Word.sub_eq behind (by omega)]
        exact ih (by omega) found (by omega)
    · simp only [if_neg present, List.nil_append] at found few below ⊢
      exact ih few found below

end Slices

section Subslices

open TopologyMapping

variable {ids first second : List ℕ} {k id : ℕ}

/-- No id is the position of an earlier one. -/
def Unshadowed (ids : List ℕ) : Prop := ∀ j m : ℕ, j < m → ids[m]? ≠ some j

theorem searchSubslice_cons (x : ℕ) (rest : List ℕ) (k id : ℕ) : searchSubslice (x :: rest) k id =
    searchSubslice rest (k + 1) (if x = id then k else id) :=
  rfl

theorem searchSubslice_append (k id : ℕ) : searchSubslice (first ++ second) k id =
    searchSubslice second (k + first.length) (searchSubslice first k id) := by
  induction first generalizing k id with
  | nil => rfl
  | cons x rest ih =>
    rw [List.cons_append, searchSubslice_cons, searchSubslice_cons, ih, List.length_cons, Nat.add_assoc,
      Nat.add_comm 1]

theorem searchSubslice_absent (absent : id ∉ ids) : searchSubslice ids k id = id := by
  induction ids generalizing k with
  | nil => rfl
  | cons x rest ih =>
    rw [List.mem_cons, not_or] at absent
    rw [searchSubslice_cons, if_neg (Ne.symm absent.1)]
    exact ih absent.2

/-- A match replaces the id by a position of the list. -/
theorem searchSubslice_moves (k id : ℕ) :
    searchSubslice ids k id = id ∨ k ≤ searchSubslice ids k id := by
  induction ids generalizing k id with
  | nil => exact Or.inl rfl
  | cons x rest ih =>
    rw [searchSubslice_cons]
    split
    · rcases ih (k + 1) k with same | behind <;> omega
    · rcases ih (k + 1) id with same | behind
      · exact Or.inl same
      · omega

theorem searchSubslice_present (present : id ∈ ids) : k ≤ searchSubslice ids k id := by
  induction ids generalizing k with
  | nil => cases present
  | cons x rest ih =>
    rw [searchSubslice_cons]
    by_cases here : x = id
    · rw [if_pos here]
      rcases @searchSubslice_moves rest (k + 1) k with same | behind <;> omega
    · rw [if_neg here]
      have later := @ih (k + 1) ((List.mem_cons.mp present).resolve_left (Ne.symm here))
      omega

/-- An id is found at its position exactly when that is not an id that follows. -/
theorem searchSubslice_iff {j : ℕ} (distinct : ids.Nodup) (found : ids[j]? = some id) :
    searchSubslice ids 0 id = j ↔ ∀ m, j < m → ids[m]? ≠ some j := by
  obtain ⟨below, at_j⟩ := List.getElem?_eq_some_iff.mp found
  have parts : ids.take j ++ id :: ids.drop (j + 1) = ids := by
    rw [← at_j, ← List.drop_eq_getElem_cons below, List.take_append_drop]
  have before : id ∉ ids.take j := by
    rw [← parts] at distinct
    intro member
    exact (List.nodup_append.mp distinct).2.2 _ member _ List.mem_cons_self rfl
  have search : searchSubslice (ids.take j ++ id :: ids.drop (j + 1)) 0 id =
      searchSubslice (ids.drop (j + 1)) (j + 1) j := by
    rw [searchSubslice_append, searchSubslice_absent before, searchSubslice_cons, if_pos rfl,
      List.length_take_of_le below.le, Nat.zero_add]
  rw [parts] at search
  have later : (∀ m, j < m → ids[m]? ≠ some j) ↔ j ∉ ids.drop (j + 1) := by
    rw [List.mem_iff_getElem?, not_exists]
    constructor
    · intro none m at_m
      rw [List.getElem?_drop] at at_m
      exact none _ (by omega) at_m
    · intro none m behind at_m
      apply none (m - (j + 1))
      rwa [List.getElem?_drop, Nat.add_sub_cancel' behind]
  rw [search, later]
  constructor
  · intro same present
    have moved := @searchSubslice_present _ (j + 1) _ present
    omega
  · exact searchSubslice_absent

/-- Ascending ids are not shadowed: each is at least its position. -/
theorem unshadowed_of_ascending (ascending : ids.Pairwise (· < ·)) : Unshadowed ids := by
  have atLeast : ∀ m x : ℕ, ids[m]? = some x → m ≤ x := by
    intro m
    induction m with
    | zero => exact fun _ _ => Nat.zero_le _
    | succ m ih =>
      intro x found
      obtain ⟨below, rfl⟩ := List.getElem?_eq_some_iff.mp found
      have step := List.pairwise_iff_getElem.mp ascending m (m + 1) (by omega) below (by omega)
      have low := ih ids[m] (List.getElem?_eq_getElem _)
      omega
  intro j m order found
  have low := atLeast m j found
  omega

end Subslices

section Threads

/-- Distinct ids that fit the fields of a thread id. -/
structure DistinctIds (ids : List ℕ) : Prop where
  distinct : ids.Nodup
  fits : ∀ id ∈ ids, id < 2 ^ 10

theorem DistinctIds.length_le {ids : List ℕ} (each : DistinctIds ids) : ids.length ≤ 2 ^ 10 := by
  have inside : ids ⊆ List.range (2 ^ 10) := fun id member => List.mem_range.mpr (each.fits id member)
  have bound := (each.distinct.subperm inside).length_le
  rwa [List.length_range] at bound

structure TopologyMapping.WellFormed (tile : TopologyMapping) : Prop where
  slices : DistinctIds tile.sliceIndices
  subslices : tile.sliceIndices.length = 1 → DistinctIds tile.subsliceIndices

theorem slicesFrom_length_le {bits : BitVec 4} {i : ℕ} {tiles : TopologyMap}
    (each : ∀ tile ∈ tiles, tile.WellFormed) :
    (slicesFrom bits i tiles).length ≤ 2 ^ 10 * tiles.length := by
  induction tiles generalizing i with
  | nil => exact Nat.le_refl 0
  | cons tile rest ih =>
    have here := (each tile List.mem_cons_self).slices.length_le
    have later := ih (i := i + 1) fun tile member => each tile (List.mem_cons_of_mem _ member)
    rw [slicesFrom_cons, List.length_append, List.length_cons]
    split
    · rw [List.length_map]
      omega
    · rw [List.length_nil]
      omega

namespace Device

/-- A device that is not a subdevice, with an entry for each of its tiles. -/
structure Root (d : Device) : Prop where
  root : d.isSubdevice = false
  tiles : d.topologyMap.length = d.subDeviceCount
  few : d.topologyMap.length ≤ 4
  wellFormed : ∀ tile ∈ d.topologyMap, tile.WellFormed

/-- All physical slices of the device: a slice number of the interface is a position here. -/
def slices (d : Device) : List (ℕ × ℕ) := slicesFrom d.deviceBitfield 0 d.topologyMap

/-- A tile of the device. -/
def HasTile (d : Device) (i : ℕ) (tile : TopologyMapping) : Prop :=
  d.topologyMap[i]? = some tile ∧ d.deviceBitfield.getLsbD i = true

/-- A thread of the topology. A tile with more than one slice does not list its subslices. -/
def Physical (d : Device) (t : ThreadId) : Prop :=
  ∃ tile, d.HasTile t.tileIndex.toNat tile ∧ t.slice.toNat ∈ tile.sliceIndices ∧
    (tile.sliceIndices.length = 1 → t.subslice.toNat ∈ tile.subsliceIndices)

/-- A name of a thread: its slice and subslice exist, and the rest fits a thread id. -/
structure Named (d : Device) (a : ApiThread) : Prop where
  slice : a.slice < d.slices.length
  subslice : ∀ i s tile, d.slices[a.slice]? = some (i, s) → d.topologyMap[i]? = some tile →
    if tile.sliceIndices.length = 1 then a.subslice < tile.subsliceIndices.length
    else a.subslice < 2 ^ 10
  eu : a.eu < 2 ^ 5
  thread : a.thread < 2 ^ 4

structure OneToOne (d : Device) : Prop where
  injective : ∀ t t', d.Physical t → d.Physical t' → d.convertToApi t = d.convertToApi t' → t = t'
  back : ∀ t, d.Physical t → ∃ a, d.convertToApi t = .ok a ∧ d.convertToThreadId a = .ok t
  forth : ∀ a, d.Named a → ∃ t, d.convertToThreadId a = .ok t ∧ d.convertToApi t = .ok a ∧
    d.getDeviceIndexFromApiThread a = t.tileIndex.toNat

variable {d : Device} {i p s a : ℕ} {tile : TopologyMapping}

theorem Root.length_lt (root : d.Root) : d.slices.length ≤ 2 ^ 12 := by
  have bound := @slicesFrom_length_le d.deviceBitfield 0 _ root.wellFormed
  have few := root.few
  rw [slices]
  omega

theorem Root.nodup (root : d.Root) : d.slices.Nodup :=
  slicesFrom_nodup fun tile member => (root.wellFormed tile member).slices.distinct

theorem Root.slices_inj (root : d.Root) {x : ℕ × ℕ} {b : ℕ} (first : d.slices[a]? = some x)
    (second : d.slices[b]? = some x) : a = b :=
  (List.getElem?_inj (List.getElem?_eq_some_iff.mp first).1 root.nodup).mp (first.trans second.symm)

theorem HasTile.wellFormed (has : d.HasTile i tile) (root : d.Root) : tile.WellFormed :=
  root.wellFormed tile (List.mem_of_getElem? has.1)

theorem HasTile.lt (has : d.HasTile i tile) (root : d.Root) : i < 4 :=
  (List.getElem?_eq_some_iff.mp has.1).1.trans_le root.few

/-- The slices of the tiles before one are a first part of all of them. -/
theorem slicesBefore_eq (root : d.Root) (inside : i ≤ d.topologyMap.length) :
    d.slicesBefore i = (slicesFrom d.deviceBitfield 0 (d.topologyMap.take i)).length := by
  induction i with
  | zero => rfl
  | succ i ih =>
    have before := ih (by omega)
    have at_i : d.topologyMap[i]? = some d.topologyMap[i] := List.getElem?_eq_getElem _
    have small := @slicesFrom_length_le d.deviceBitfield 0 (d.topologyMap.take (i + 1))
      fun tile member => root.wellFormed tile (List.mem_of_mem_take member)
    have few := root.few
    rw [List.length_take_of_le inside] at small
    rw [slicesBefore] at before
    rw [List.take_add_one, at_i, Option.toList_some, slicesFrom_append, List.length_take_of_le (by omega),
      Nat.zero_add, slicesFrom_cons, slicesFrom_nil, List.append_nil, List.length_append] at small ⊢
    rw [slicesBefore, List.range_succ, List.foldl_append, List.foldl_cons, List.foldl_nil, before,
      List.getD_eq_getElem?_getD, at_i, Option.getD_some]
    by_cases present : d.deviceBitfield.getLsbD i
    · simp only [if_pos present, List.length_map] at small ⊢
      exact Word.add_eq (by omega)
    · simp only [if_neg present]
      rfl

theorem slices_at (root : d.Root) (has : d.HasTile i tile) (found : tile.sliceIndices[p]? = some s) :
    d.slices[d.slicesBefore i + p]? = some (i, s) := by
  obtain ⟨below, rfl⟩ := List.getElem?_eq_some_iff.mp has.1
  obtain ⟨inside, rfl⟩ := List.getElem?_eq_some_iff.mp found
  have whole : d.slices = slicesFrom d.deviceBitfield 0 (d.topologyMap.take i) ++
      slicesFrom d.deviceBitfield i (d.topologyMap[i] :: d.topologyMap.drop (i + 1)) := by
    have parts := @slicesFrom_append d.deviceBitfield 0 (d.topologyMap.take i)
      (d.topologyMap.drop i)
    rwa [List.take_append_drop, List.drop_eq_getElem_cons below, List.length_take_of_le below.le,
      Nat.zero_add] at parts
  rw [whole, slicesBefore_eq root below.le, List.getElem?_append_right (by omega),
    Nat.add_sub_cancel_left, slicesFrom_cons, if_pos has.2,
    List.getElem?_append_left (by simpa using inside), List.getElem?_map,
    List.getElem?_eq_getElem inside]
  rfl

theorem HasTile.of_slice (found : d.slices[a]? = some (i, s)) :
    ∃ tile, d.HasTile i tile ∧ s ∈ tile.sliceIndices := by
  obtain ⟨j, tile, rfl, at_j, present, member⟩ := mem_slicesFrom.mp (List.mem_of_getElem? found)
  rw [Nat.zero_add] at present ⊢
  exact ⟨tile, ⟨at_j, present⟩, member⟩

/-- The name of a thread: its slice number is the position of its slice. -/
theorem convertToApi_eq (root : d.Root) {t : ThreadId} (has : d.HasTile t.tileIndex.toNat tile)
    (member : t.slice.toNat ∈ tile.sliceIndices) :
    ∃ n, d.slices[n]? = some (t.tileIndex.toNat, t.slice.toNat) ∧
      d.convertToApi t = .ok ⟨n, tile.toApiSubslice t.subslice.toNat, t.eu.toNat, t.thread.toNat⟩ := by
  obtain ⟨p, searched⟩ : ∃ p, tile.sliceIndices.findIdx? (· = t.slice.toNat) = some p := by
    rw [← Option.isSome_iff_exists, List.findIdx?_isSome, List.any_eq_true]
    exact ⟨_, member, by simp⟩
  have found : tile.sliceIndices[p]? = some t.slice.toNat := by
    obtain ⟨inside, same, _⟩ := List.findIdx?_eq_some_iff_getElem.mp searched
    rw [List.getElem?_eq_getElem inside]
    exact congrArg some (by simpa using same)
  have at_n := slices_at root has found
  have below := (List.getElem?_eq_some_iff.mp at_n).1
  have few := root.length_lt
  refine ⟨_, at_n, ?_⟩
  have ids : d.toApiSliceId t.slice.toNat t.subslice.toNat t.tileIndex.toNat =
      .ok (true, d.slicesBefore t.tileIndex.toNat + p, tile.toApiSubslice t.subslice.toNat) := by
    simp only [toApiSliceId, root.root, has.1, searched, Bool.false_eq_true, false_and, if_false]
    rw [Word.add_eq (by omega)]
  rw [convertToApi, ids]
  rfl

/-- The thread of a name, if its subslice exists. -/
theorem convertToThreadId_eq (root : d.Root) {a : ApiThread} (single : isSingleThread a = true)
    (found : d.slices[a.slice]? = some (i, s)) (has : d.HasTile i tile) :
    d.convertToThreadId a = (do
      let subslice ← tile.toPhysicalSubslice a.subslice
      return ⟨.ofNat 2 i, .ofNat 10 s, .ofNat 10 subslice, .ofNat 5 a.eu, .ofNat 4 a.thread⟩) := by
  have below := (List.getElem?_eq_some_iff.mp found).1
  have few := root.length_lt
  have slice : findSlice d.deviceBitfield d.topologyMap 0 a.slice = some (i, s) :=
    (findSlice_eq (by omega)).trans found
  rw [convertToThreadId, if_neg (by simp [single]), toPhysicalSliceId]
  rw [if_pos ⟨root.tiles, root.root⟩, slice]
  simp only [List.getD_eq_getElem?_getD, has.1, Option.getD_some]
  cases tile.toPhysicalSubslice a.subslice with
  | error abort => rfl
  | ok subslice => rfl

/-- A bitfield with a single tile has the index of that tile. -/
theorem single_tile : ∀ bits : BitVec 4, ∀ i < 4, bits.getLsbD i = true →
    (List.range 4).countP bits.getLsbD ≤ 1 → log2 bits.toNat = i := by
  decide +kernel

theorem getDeviceIndexFromApiThread_eq (root : d.Root) {a : ApiThread}
    (found : d.slices[a.slice]? = some (i, s)) (has : d.HasTile i tile) :
    d.getDeviceIndexFromApiThread a = i := by
  have below := (List.getElem?_eq_some_iff.mp found).1
  have few := root.length_lt
  rw [getDeviceIndexFromApiThread, if_neg (by simp [root.root])]
  by_cases several : max 1 d.numSubDevices > 1
  · rw [if_pos several, if_neg (by omega)]
    exact findDeviceIndex_eq (few.trans_lt (by decide)) found
  · rw [if_neg several]
    apply single_tile _ _ (has.lt root) has.2
    rw [numSubDevices] at several
    split at several <;> omega

/-- The subslice of a thread of the topology is found again, unless it is shadowed. -/
theorem toPhysicalSubslice_toApiSubslice {subslice : ℕ} (wellFormed : tile.WellFormed)
    (clear : tile.sliceIndices.length = 1 → Unshadowed tile.subsliceIndices)
    (member : tile.sliceIndices.length = 1 → subslice ∈ tile.subsliceIndices)
    (fits : subslice < 2 ^ 10) :
    tile.toPhysicalSubslice (tile.toApiSubslice subslice) = .ok subslice ∧
      tile.toApiSubslice subslice < 2 ^ 10 := by
  rw [TopologyMapping.toPhysicalSubslice, TopologyMapping.toApiSubslice]
  by_cases single : tile.sliceIndices.length = 1
  · simp only [if_pos single]
    have ids := wellFormed.subslices single
    obtain ⟨j, found⟩ := List.mem_iff_getElem?.mp (member single)
    have below := (List.getElem?_eq_some_iff.mp found).1
    have bound := ids.length_le
    rw [(searchSubslice_iff ids.distinct found).mpr (clear single j), found]
    exact ⟨rfl, by omega⟩
  · simp only [if_neg single]
    exact ⟨trivial, fits⟩

/-- The other way round, for a subslice that exists. -/
theorem toApiSubslice_toPhysicalSubslice {subslice : ℕ} (wellFormed : tile.WellFormed)
    (clear : tile.sliceIndices.length = 1 → Unshadowed tile.subsliceIndices)
    (inside : if tile.sliceIndices.length = 1 then subslice < tile.subsliceIndices.length
      else subslice < 2 ^ 10) :
    ∃ physical < 2 ^ 10, tile.toPhysicalSubslice subslice = .ok physical ∧
      tile.toApiSubslice physical = subslice ∧ subslice < 2 ^ 10 := by
  simp only [TopologyMapping.toPhysicalSubslice, TopologyMapping.toApiSubslice]
  by_cases single : tile.sliceIndices.length = 1
  · simp only [if_pos single] at inside ⊢
    have ids := wellFormed.subslices single
    have found := List.getElem?_eq_getElem inside
    have bound := ids.length_le
    refine ⟨_, ids.fits _ (List.getElem_mem inside), ?_,
      (searchSubslice_iff ids.distinct found).mpr (clear single subslice), by omega⟩
    rw [found]
  · simp only [if_neg single] at inside ⊢
    exact ⟨subslice, inside, rfl, rfl, inside⟩

theorem isSingleThread_of_lt {a : ApiThread} (slice : a.slice < 2 ^ 12) (subslice : a.subslice < 2 ^ 10)
    (eu : a.eu < 2 ^ 5) (thread : a.thread < 2 ^ 4) : isSingleThread a = true := by
  rw [isSingleThread, decide_eq_true_iff]
  omega

/-- The names of threads are one to one exactly when no subslice id of a tile with a single slice
is the position of an earlier one. -/
theorem oneToOne_iff (root : d.Root) : d.OneToOne ↔
    ∀ i tile, d.HasTile i tile → tile.sliceIndices.length = 1 → Unshadowed tile.subsliceIndices := by
  constructor
  · intro oneToOne i tile has single j m order shadow
    have wellFormed := has.wellFormed root
    have ids := wellFormed.subslices single
    have below : j < tile.subsliceIndices.length :=
      order.trans (List.getElem?_eq_some_iff.mp shadow).1
    have found := List.getElem?_eq_getElem below
    obtain ⟨slice, slices⟩ := List.length_eq_one_iff.mp single
    -- the thread with the subslice at position `j` gets another subslice in its name
    let t : ThreadId := ⟨.ofNat 2 i, .ofNat 10 slice, .ofNat 10 tile.subsliceIndices[j], 0, 0⟩
    have tileIndex : t.tileIndex.toNat = i := Nat.mod_eq_of_lt (has.lt root)
    have sliceId : t.slice.toNat = slice :=
      Nat.mod_eq_of_lt (wellFormed.slices.fits slice (by simp [slices]))
    have subsliceId : t.subslice.toNat = tile.subsliceIndices[j] :=
      Nat.mod_eq_of_lt (ids.fits _ (List.getElem_mem below))
    have member : t.slice.toNat ∈ tile.sliceIndices := by simp [sliceId, slices]
    have has' : d.HasTile t.tileIndex.toNat tile := tileIndex.symm ▸ has
    have physical : d.Physical t :=
      ⟨tile, has', member, fun _ => subsliceId ▸ List.getElem_mem below⟩
    obtain ⟨a, named, thread⟩ := oneToOne.back t physical
    obtain ⟨n, at_n, named'⟩ := convertToApi_eq root has' member
    obtain rfl := Except.ok.inj (named.symm.trans named')
    rw [subsliceId] at thread
    have oneThread : isSingleThread ⟨n, tile.toApiSubslice tile.subsliceIndices[j], t.eu.toNat,
        t.thread.toNat⟩ = true := by
      by_contra several
      rw [convertToThreadId, if_pos (Bool.not_eq_true _ ▸ several)] at thread
      cases thread
    rw [convertToThreadId_eq root oneThread at_n has', bind_eq_ok] at thread
    obtain ⟨x, searched, returned⟩ := thread
    have same : BitVec.ofNat 10 x = t.subslice := congrArg ThreadId.subslice (Except.ok.inj returned)
    simp only [TopologyMapping.toPhysicalSubslice, TopologyMapping.toApiSubslice, if_pos single]
      at searched
    split at searched
    next physical at_x =>
      cases searched
      have inside := ids.fits x (List.mem_of_getElem? at_x)
      have equal : x = tile.subsliceIndices[j] := by
        rw [← subsliceId, ← same, BitVec.toNat_ofNat, Nat.mod_eq_of_lt inside]
      rw [equal, ← found] at at_x
      have position := (List.getElem?_inj (List.getElem?_eq_some_iff.mp (at_x.trans found)).1
        ids.distinct).mp at_x
      exact (searchSubslice_iff ids.distinct found).mp position m order shadow
    next => cases searched
  · intro clear
    have back (t : ThreadId) (physical : d.Physical t) :
        ∃ a, d.convertToApi t = .ok a ∧ d.convertToThreadId a = .ok t := by
      obtain ⟨tile, has, slice, subslice⟩ := physical
      obtain ⟨n, at_n, named⟩ := convertToApi_eq root has slice
      have below := (List.getElem?_eq_some_iff.mp at_n).1
      have few := root.length_lt
      obtain ⟨same, small⟩ := toPhysicalSubslice_toApiSubslice (has.wellFormed root)
        (clear _ tile has) subslice t.subslice.isLt
      refine ⟨_, named, ?_⟩
      rw [convertToThreadId_eq root (isSingleThread_of_lt (below.trans_le few) small t.eu.isLt t.thread.isLt)
        at_n has, same]
      simp [bind, Except.bind, pure, Except.pure]
    refine ⟨fun t t' physical physical' same => ?_, back, fun a named => ?_⟩
    · obtain ⟨a, name, thread⟩ := back t physical
      obtain ⟨a', name', thread'⟩ := back t' physical'
      obtain rfl : a = a' := Except.ok.inj (name.symm.trans (same.trans name'))
      exact Except.ok.inj (thread.symm.trans thread')
    · obtain ⟨⟨i, s⟩, found⟩ : ∃ x, d.slices[a.slice]? = some x :=
        ⟨_, List.getElem?_eq_getElem named.slice⟩
      obtain ⟨tile, has, member⟩ := HasTile.of_slice found
      have wellFormed := has.wellFormed root
      obtain ⟨x, small, physical, api, inside⟩ := toApiSubslice_toPhysicalSubslice wellFormed
        (clear i tile has) (named.subslice i s tile found has.1)
      have few := root.length_lt
      let t : ThreadId := ⟨.ofNat 2 i, .ofNat 10 s, .ofNat 10 x, .ofNat 5 a.eu, .ofNat 4 a.thread⟩
      have tileIndex : t.tileIndex.toNat = i := Nat.mod_eq_of_lt (has.lt root)
      have sliceId : t.slice.toNat = s := Nat.mod_eq_of_lt (wellFormed.slices.fits s member)
      have subsliceId : t.subslice.toNat = x := Nat.mod_eq_of_lt small
      obtain ⟨n, at_n, name⟩ := convertToApi_eq root (t := t) (tileIndex.symm ▸ has)
        (sliceId.symm ▸ member)
      rw [tileIndex, sliceId] at at_n
      obtain rfl := root.slices_inj at_n found
      refine ⟨t, ?_, ?_, ?_⟩
      · rw [convertToThreadId_eq root (isSingleThread_of_lt (named.slice.trans_le few) inside
          named.eu named.thread) found has, physical]
        rfl
      · rw [name, subsliceId, api, show t.eu.toNat = a.eu from Nat.mod_eq_of_lt named.eu,
          show t.thread.toNat = a.thread from Nat.mod_eq_of_lt named.thread]
      · rw [tileIndex]
        exact getDeviceIndexFromApiThread_eq root found has

/-- A tile with two of its slices, and one with a single slice that lacks subslices. -/
def harvested : Device where
  topologyMap := [⟨[1, 3], []⟩, ⟨[2], [0, 4, 7]⟩]
  deviceBitfield := 3
  isSubdevice := false
  subDeviceCount := 2

theorem oneToOne_harvested : harvested.OneToOne := by
  have root : harvested.Root := by
    refine ⟨rfl, rfl, by decide, fun tile member => ?_⟩
    rw [harvested, List.mem_cons, List.mem_singleton] at member
    rcases member with rfl | rfl
    · exact ⟨⟨by decide, by decide⟩, fun single => absurd single (by decide)⟩
    · exact ⟨⟨by decide, by decide⟩, fun _ => ⟨by decide, by decide⟩⟩
  refine (oneToOne_iff root).mpr fun i tile has single => ?_
  have member := List.mem_of_getElem? has.1
  rw [harvested, List.mem_cons, List.mem_singleton] at member
  rcases member with rfl | rfl
  · exact absurd single (by decide)
  · exact unshadowed_of_ascending (by decide)

/-- Two subslices that are listed in descending order get one name. An eu or a slice that does not
fit a thread id comes back as another one. -/
theorem names_collide :
    ¬OneToOne ⟨[⟨[0], [1, 0]⟩], 1, false, 1, false⟩ ∧
    (convertToThreadId ⟨[⟨[0], [0]⟩], 1, false, 1, false⟩ ⟨0, 0, 32, 0⟩ = .ok ⟨0, 0, 0, 0, 0⟩ ∧
      convertToApi ⟨[⟨[0], [0]⟩], 1, false, 1, false⟩ ⟨0, 0, 0, 0, 0⟩ = .ok ⟨0, 0, 0, 0⟩) ∧
    convertToThreadId ⟨[⟨[1, 1025], []⟩], 1, false, 1, false⟩ ⟨1, 0, 0, 0⟩ = .ok ⟨0, 1, 0, 0, 0⟩ ∧
      convertToApi ⟨[⟨[1, 1025], []⟩], 1, false, 1, false⟩ ⟨0, 1, 0, 0, 0⟩ = .ok ⟨0, 0, 0, 0⟩ := by
  refine ⟨fun oneToOne => ?_, by decide +kernel, by decide +kernel⟩
  have same := oneToOne.injective ⟨0, 0, 0, 0, 0⟩ ⟨0, 0, 1, 0, 0⟩
    ⟨⟨[0], [1, 0]⟩, ⟨rfl, rfl⟩, by decide, by decide⟩
    ⟨⟨[0], [1, 0]⟩, ⟨rfl, rfl⟩, by decide, by decide⟩ (by decide +kernel)
  exact absurd same (by decide)

end Device

end Threads

end ComputeRuntime.DebugSession
