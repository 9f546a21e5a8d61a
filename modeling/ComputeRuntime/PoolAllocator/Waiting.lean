import ComputeRuntime.PoolAllocator.Pools

/-! A vector of pools: what allocations and drains do to all of its pools, and to the chunks that
wait in them. -/
namespace ComputeRuntime.PoolAllocator

/-! ### All pools of a vector -/

/-- A chunk that was found in a pool is handed out from it. -/
def handedAfter (handed : ℕ → List Chunk) : Option (ℕ × Chunk) → ℕ → List Chunk
  | none => handed
  | some (i, chunk) => Function.update handed i (chunk :: handed i)

/-- Every pool keeps the chunks that are handed out from it, and no others are handed out. -/
structure AllKeep (handed : ℕ → List Chunk) (ps : List Pool) : Prop where
  keeps : ∀ (i : ℕ) (p : Pool), ps[i]? = some p → p.Keeps (handed i)
  beyond : ∀ i, ps.length ≤ i → handed i = []

section AllKeep

variable {handed : ℕ → List Chunk} {p : Pool} {ps : List Pool}

theorem allKeep_cons : AllKeep handed (p :: ps) ↔
    p.Keeps (handed 0) ∧ AllKeep (fun i => handed (i + 1)) ps := by
  constructor
  · intro keep
    refine ⟨keep.keeps 0 p rfl, fun i q found => keep.keeps (i + 1) q found, fun i high => ?_⟩
    exact keep.beyond (i + 1) (by simpa using high)
  · rintro ⟨first, rest⟩
    constructor
    · intro i q found
      cases i with
      | zero =>
        cases found
        exact first
      | succ i => exact rest.keeps i q found
    · intro i high
      cases i with
      | zero => simp at high
      | succ i => exact rest.beyond i (by simpa using high)

/-- The order in which chunks were handed out does not matter. -/
theorem AllKeep.perm (keep : AllKeep handed ps) {now : ℕ → List Chunk}
    (perm : ∀ i, (handed i).Perm (now i)) : AllKeep now ps where
  keeps i p found := (keep.keeps i p found).perm ((perm i).append_right _)
  beyond i high := by
    have empty := perm i
    rw [keep.beyond i high] at empty
    exact empty.symm.eq_nil

/-- A chunk that the pools behind the first one handed out. -/
theorem handedAfter_later (found : Option (ℕ × Chunk)) (i : ℕ) :
    handedAfter handed (found.map fun found => (found.1 + 1, found.2)) (i + 1) =
      handedAfter (fun i => handed (i + 1)) found i := by
  cases found with
  | none => rfl
  | some found =>
    simp only [Option.map_some, handedAfter, Function.update_apply, Nat.add_right_cancel_iff]

theorem handedAfter_first (found : Option (ℕ × Chunk)) :
    handedAfter handed (found.map fun found => (found.1 + 1, found.2)) 0 = handed 0 := by
  cases found with
  | none => rfl
  | some found => simp [handedAfter]

/-- An allocation from pools: what it hands out comes from an eligible pool and is large enough. -/
structure Serves (eligible : Pool → Bool) (size : ℕ) (handed : ℕ → List Chunk) (ps : List Pool)
    (result : Option (ℕ × Chunk) × List Pool) : Prop where
  keep : AllKeep (handedAfter handed result.1) result.2
  enough : ∀ found ∈ result.1, size ≤ found.2.2
  eligible : ∀ found ∈ result.1, ∃ p, ps[found.1]? = some p ∧ eligible p = true

/-- The search went past the first pool. -/
theorem Serves.later {eligible : Pool → Bool} {size : ℕ} {p' : Pool}
    {result : Option (ℕ × Chunk) × List Pool} (keeps : p'.Keeps (handed 0))
    (serves : Serves eligible size (fun i => handed (i + 1)) ps result) :
    Serves eligible size handed (p :: ps)
      (result.1.map fun found => (found.1 + 1, found.2), p' :: result.2) where
  keep := by
    apply allKeep_cons.mpr
    dsimp only
    rw [handedAfter_first]
    exact ⟨keeps, by simpa only [handedAfter_later] using serves.keep⟩
  enough := by
    intro found member
    obtain ⟨inner, held, rfl⟩ := Option.map_eq_some_iff.mp member
    exact serves.enough inner held
  eligible := by
    intro found member
    obtain ⟨inner, held, rfl⟩ := Option.map_eq_some_iff.mp member
    exact serves.eligible inner held

theorem allocateFromPools_serves (eligible : Pool → Bool) {size : ℕ} (asks : Asks size)
    (keep : AllKeep handed ps) :
    Serves eligible size handed ps (allocateFromPools eligible size ps) := by
  induction ps generalizing handed with
  | nil => exact ⟨keep, by simp [allocateFromPools], by simp [allocateFromPools]⟩
  | cons p ps ih =>
    obtain ⟨first, rest⟩ := allKeep_cons.mp keep
    rw [allocateFromPools]
    by_cases chosen : eligible p = true
    · rw [if_pos chosen]
      obtain ⟨h, -, ⟨failed, kept⟩ | ⟨chunk, served, enough, kept⟩⟩ := first.allocate asks
      · rw [failed]
        exact (ih rest).later kept
      · rw [served]
        refine ⟨allKeep_cons.mpr ⟨?_, ?_⟩, ?_, ?_⟩
        · simpa [handedAfter] using kept
        · simpa [handedAfter, Function.update_apply] using rest
        · rintro found ⟨⟩
          exact enough
        · rintro found ⟨⟩
          exact ⟨p, rfl, chosen⟩
    · rw [if_neg chosen]
      exact (ih rest).later first

/-- A pool behind the others that handed out nothing yet. -/
theorem AllKeep.append (keep : AllKeep handed ps) {added : List Pool}
    (fresh : ∀ q ∈ added, q.Keeps []) : AllKeep handed (ps ++ added) where
  keeps i q found := by
    by_cases old : i < ps.length
    · rw [List.getElem?_append_left old] at found
      exact keep.keeps i q found
    · rw [List.getElem?_append_right (Nat.le_of_not_lt old)] at found
      rw [keep.beyond i (Nat.le_of_not_lt old)]
      exact fresh q (List.mem_of_getElem? found)
  beyond i high := keep.beyond i (by
    rw [List.length_append] at high
    omega)

theorem AllKeep.drain (keep : AllKeep handed ps) (allocInUse : ℕ → Bool) :
    AllKeep handed (ps.map (Pool.drain allocInUse)) where
  keeps i q found := by
    rw [List.getElem?_map] at found
    obtain ⟨p, held, rfl⟩ := Option.map_eq_some_iff.mp found
    exact (keep.keeps i p held).drain allocInUse
  beyond i high := keep.beyond i (by simpa using high)

end AllKeep

/-! ### Chunks that wait -/

/-- What an allocation from a pool leaves as it is. -/
def Pool.key (p : Pool) : Bool × List ℕ × List Chunk := (p.isBuiltin, p.allocations, p.chunksToFree)

/-- What a drain makes of it. -/
def drainKey (allocInUse : ℕ → Bool) (key : Bool × List ℕ × List Chunk) :
    Bool × List ℕ × List Chunk :=
  (key.1, key.2.1, if key.2.1.any allocInUse then key.2.2 else [])

theorem Pool.allocate_key (p : Pool) (requestedSize : ℕ) :
    (p.allocate requestedSize).2.key = p.key := by
  simp only [Pool.allocate]
  split
  next => rfl
  next => split <;> rfl

theorem Pool.drain_key (p : Pool) (allocInUse : ℕ → Bool) :
    (p.drain allocInUse).key = drainKey allocInUse p.key := by
  simp only [Pool.drain, drainKey, Pool.key]
  split <;> simp_all

theorem Pool.drain_chunksToFree (p : Pool) (allocInUse : ℕ → Bool) :
    (p.drain allocInUse).chunksToFree =
      if p.allocations.any allocInUse then p.chunksToFree else [] :=
  congrArg (fun key => key.2.2) (p.drain_key allocInUse)

theorem allocateFromPools_key (eligible : Pool → Bool) (size : ℕ) (ps : List Pool) :
    (allocateFromPools eligible size ps).2.map Pool.key = ps.map Pool.key := by
  induction ps with
  | nil => rfl
  | cons p ps ih =>
    have same := p.allocate_key size
    simp only [allocateFromPools]
    split
    next =>
      split
      next served =>
        rw [served] at same
        rw [List.map_cons, List.map_cons, same]
      next failed =>
        rw [failed] at same
        rw [List.map_cons, List.map_cons, same, ih]
    next => rw [List.map_cons, List.map_cons, ih]

/-- What is left when both attempts failed. -/
theorem Pools.allocateOrDrain_key {s : Pools} {allocInUse : ℕ → Bool} {eligible : Pool → Bool}
    {size : ℕ} (failed : (s.allocateOrDrain allocInUse eligible size).1 = none) :
    (s.allocateOrDrain allocInUse eligible size).2.bufferPools.map Pool.key =
      s.bufferPools.map fun p => drainKey allocInUse p.key := by
  simp only [Pools.allocateOrDrain] at failed ⊢
  split at failed
  next served => simp [failed] at served
  next refused =>
    rw [if_neg refused]
    simp only [Pools.allocate, Pools.drain, allocateFromPools_key, List.map_map]
    have drained : (Pool.key ∘ Pool.drain allocInUse) = drainKey allocInUse ∘ Pool.key :=
      funext fun p => p.drain_key allocInUse
    rw [drained, ← List.map_map, allocateFromPools_key, List.map_map]
    rfl

theorem Pools.allocateOrDrain_capacity (s : Pools) (allocInUse : ℕ → Bool)
    (eligible : Pool → Bool) (size : ℕ) :
    (s.allocateOrDrain allocInUse eligible size).2.capacity = s.capacity := by
  simp only [Pools.allocateOrDrain]
  split <;> rfl

/-- A pool later on: what waits in it still waits, unless the pool was released. -/
structure Pool.Follows (released : List ℕ → Prop) (p p' : Pool) : Prop where
  isBuiltin : p'.isBuiltin = p.isBuiltin
  allocations : p'.allocations = p.allocations
  waits : ∀ chunk ∈ p.chunksToFree, chunk ∈ p'.chunksToFree ∨ released p.allocations

/-- The pools of a vector stay where they are, and others may come behind them. -/
def Follow (released : List ℕ → Prop) (before after : List Pool) : Prop :=
  ∀ (i : ℕ) (p : Pool), before[i]? = some p → ∃ p', after[i]? = some p' ∧ p.Follows released p'

section Follow

variable {released : List ℕ → Prop} {before middle after : List Pool}

theorem Follow.refl (released : List ℕ → Prop) (ps : List Pool) : Follow released ps ps :=
  fun _ p found => ⟨p, found, rfl, rfl, fun _ waiting => Or.inl waiting⟩

theorem Follow.trans (first : Follow released before middle)
    (second : Follow released middle after) : Follow released before after := by
  intro i p found
  obtain ⟨q, held, follows⟩ := first i p found
  obtain ⟨r, last, again⟩ := second i q held
  refine ⟨r, last, again.isBuiltin.trans follows.isBuiltin,
    again.allocations.trans follows.allocations, fun chunk waiting => ?_⟩
  rcases follows.waits chunk waiting with still | freed
  · exact follows.allocations ▸ again.waits chunk still
  · exact Or.inr freed

theorem Follow.append (ps added : List Pool) : Follow released ps (ps ++ added) := fun i p found =>
  ⟨p, by rw [List.getElem?_append_left (List.getElem?_eq_some_iff.mp found).1, found], rfl, rfl,
    fun _ waiting => Or.inl waiting⟩

/-- An allocation lets everything wait. -/
theorem Follow.of_key (key : after.map Pool.key = before.map Pool.key) :
    Follow released before after := by
  intro i p found
  have same : (after[i]?).map Pool.key = some p.key := by
    rw [← List.getElem?_map, key, List.getElem?_map, found, Option.map_some]
  obtain ⟨q, held, equal⟩ := Option.map_eq_some_iff.mp same
  simp only [Pool.key, Prod.mk.injEq] at equal
  obtain ⟨isBuiltin, allocations, waiting⟩ := equal
  exact ⟨q, held, isBuiltin, allocations, fun chunk member => Or.inl (waiting ▸ member)⟩

/-- A drain releases the pools whose allocations are not in use, and no others. -/
theorem Follow.drain (ps : List Pool) (allocInUse : ℕ → Bool)
    (idle : ∀ allocations : List ℕ, allocations.any allocInUse = false → released allocations) :
    Follow released ps (ps.map (Pool.drain allocInUse)) := by
  intro i p found
  refine ⟨p.drain allocInUse, by rw [List.getElem?_map, found, Option.map_some],
    congrArg (fun key => key.1) (p.drain_key allocInUse),
    congrArg (fun key => key.2.1) (p.drain_key allocInUse), fun chunk waiting => ?_⟩
  rw [p.drain_chunksToFree]
  by_cases used : p.allocations.any allocInUse = true
  · rw [if_pos used]
    exact Or.inl waiting
  · exact Or.inr (idle _ (Bool.eq_false_of_not_eq_true used))

end Follow

end ComputeRuntime.PoolAllocator
