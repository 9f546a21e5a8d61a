import ComputeRuntime.PoolAllocator.Waiting

/-! Runs of the two clients of the pools. Every pool keeps its chunks through every call, as long as
no pool is added to a full vector in which freed chunks wait: the move of a pool forgets them. -/
namespace ComputeRuntime.PoolAllocator

open HeapAllocator Transition

/-! ### The promises of the callers and of the memory manager -/

/-- The storage is as large as asked, in whole pages, and lies within half of the address space. -/
def Storage.Meets (s : Storage) (asked : ℕ) : Prop :=
  asked ≤ s.size ∧ MemoryConstants.pageSize ∣ s.size ∧
    s.size + MemoryConstants.pageSize64k ≤ 2 ^ 63

/-- The size that a client asks a new pool of buffers to have. -/
def Client.poolSize : Client → ℕ
  | .isa => 0
  | .buffers is2MB =>
    (SmallBuffersParams.getPreferredBufferPoolParams is2MB).aggregatedSmallBuffersPoolSize

def Call.Proper (client : Client) : Call → Prop
  | .requestGraphicsAllocationForIsa isBuiltin size o =>
    Asks size ∧ (∀ s ∈ o.oversized, s.Meets size) ∧
      ∀ s ∈ o.added, s.Meets (getAllocationSize isBuiltin)
  | .allocateBufferFromPool _ size o => 0 < size ∧ ∀ s ∈ o.added, s.Meets client.poolSize
  | .free _ => True

def system (grow : ℕ → ℕ) (client : Client) : System World Call where
  init := fun w => ∃ first : Option Storage, (∀ s ∈ first, s.Meets client.poolSize) ∧
    w = client.start grow first
  step := fun w call w' => call.Proper client ∧ Step grow client w call w'

/-! ### Vectors that lose no chunk -/

/-- Pushing one more pool moves the pools. -/
def Pools.Full (s : Pools) : Prop := s.capacity ≤ s.bufferPools.length

/-- A pool that is added once both attempts failed moves no pool in which chunks still wait. The
drain emptied those whose allocations were not in use. -/
def Pools.KeepsWaiting (s : Pools) (o : Outcome) (eligible : Pool → Bool) (size : ℕ) : Prop :=
  (s.allocateOrDrain o.allocInUse eligible size).1 = none → o.added.isSome → s.Full →
    ∀ p ∈ s.bufferPools, p.allocations.any o.allocInUse = true → p.chunksToFree = []

/-- The call moves no pool in which chunks wait. -/
def Call.Lossless (grow : ℕ → ℕ) (w : World) : Call → Prop
  | .requestGraphicsAllocationForIsa isBuiltin size o =>
    (getAllocationSize isBuiltin < size → o.oversized.isSome → w.pools.Full →
      ∀ p ∈ w.pools.bufferPools, p.chunksToFree = []) ∧
    (w.pools.withOversized grow o isBuiltin size).KeepsWaiting o (sameKind isBuiltin) size
  | .allocateBufferFromPool _ size o =>
    o.requestPoolCreate = true → w.pools.KeepsWaiting o anyKind size
  | .free _ => True

/-! ### What a call releases -/

/-- The call comes to its drain: its first attempt found no room. -/
def Call.Drains (grow : ℕ → ℕ) (w : World) : Call → Prop
  | .requestGraphicsAllocationForIsa isBuiltin size o =>
    ((w.pools.withOversized grow o isBuiltin size).allocate (sameKind isBuiltin) size).1 = none
  | .allocateBufferFromPool _ size _ => (w.pools.allocate anyKind size).1 = none
  | .free _ => False

def Call.allocInUse : Call → ℕ → Bool
  | .requestGraphicsAllocationForIsa _ _ o => o.allocInUse
  | .allocateBufferFromPool _ _ o => o.allocInUse
  | .free _ => fun _ => false

/-- The call drains, and finds none of these allocations in use. -/
def Call.Releases (grow : ℕ → ℕ) (w : World) (call : Call) (allocations : List ℕ) : Prop :=
  call.Drains grow w ∧ allocations.any call.allocInUse = false

/-! ### One call -/

section Calls

variable {handed : ℕ → List Chunk} {s : Pools} {grow : ℕ → ℕ} {o : Outcome} {client : Client}
  {eligible : Pool → Bool} {isBuiltin : Bool} {size : ℕ} {released : List ℕ → Prop}

/-- The answer to a request, with what became of the pools. -/
structure Answers (client : Client) (released : List ℕ → Prop) (isBuiltin : Bool) (size : ℕ)
    (handed : ℕ → List Chunk) (before : List Pool) (result : Option (ℕ × Chunk) × Pools) :
    Prop where
  keep : AllKeep (handedAfter handed result.1) result.2.bufferPools
  follow : Follow released before result.2.bufferPools
  enough : ∀ found ∈ result.1, size ≤ found.2.2
  kind : ∀ found ∈ result.1, ∃ p, result.2.bufferPools[found.1]? = some p ∧
    (client = .isa → p.isBuiltin = isBuiltin)

theorem Answers.after {before middle : List Pool} {result : Option (ℕ × Chunk) × Pools}
    (answers : Answers client released isBuiltin size handed middle result)
    (follow : Follow released before middle) :
    Answers client released isBuiltin size handed before result :=
  { answers with follow := follow.trans answers.follow }

theorem Answers.refuses (keep : AllKeep handed s.bufferPools) {before : List Pool}
    (follow : Follow released before s.bufferPools) :
    Answers client released isBuiltin size handed before (none, s) where
  keep := keep
  follow := follow
  enough := fun _ member => absurd member (Option.not_mem_none _)
  kind := fun _ member => absurd member (Option.not_mem_none _)

/-- The pools that a client's request may be served from are of the request's kind. -/
def OfKind (client : Client) (isBuiltin : Bool) (eligible : Pool → Bool) : Prop :=
  ∀ p, eligible p = true → client = .isa → p.isBuiltin = isBuiltin

theorem Pools.allocate_answers (s : Pools) (asks : Asks size)
    (ofKind : OfKind client isBuiltin eligible) (keep : AllKeep handed s.bufferPools) :
    Answers client released isBuiltin size handed s.bufferPools (s.allocate eligible size) := by
  have serves := allocateFromPools_serves eligible asks keep
  have follow : Follow released s.bufferPools (s.allocate eligible size).2.bufferPools :=
    .of_key (allocateFromPools_key eligible size s.bufferPools)
  refine ⟨serves.keep, follow, serves.enough, fun found member => ?_⟩
  obtain ⟨p, held, chosen⟩ := serves.eligible found member
  obtain ⟨p', now, follows⟩ := follow _ p held
  exact ⟨p', now, fun isa => follows.isBuiltin.trans (ofKind p chosen isa)⟩

theorem Pools.allocateOrDrain_answers (asks : Asks size)
    (ofKind : OfKind client isBuiltin eligible) (keep : AllKeep handed s.bufferPools)
    {allocInUse : ℕ → Bool}
    (idle : (s.allocate eligible size).1 = none → ∀ allocations : List ℕ,
      allocations.any allocInUse = false → released allocations) :
    Answers client released isBuiltin size handed s.bufferPools
      (s.allocateOrDrain allocInUse eligible size) := by
  have first : Answers client released isBuiltin size handed s.bufferPools
      (s.allocate eligible size) := s.allocate_answers asks ofKind keep
  unfold Pools.allocateOrDrain
  dsimp only
  by_cases served : (s.allocate eligible size).1.isSome = true
  · rw [if_pos served]
    exact first
  · rw [if_neg served]
    have failed : (s.allocate eligible size).1 = none := Option.not_isSome_iff_eq_none.mp served
    have kept := first.keep
    rw [failed] at kept
    exact (Pools.allocate_answers _ asks ofKind (kept.drain allocInUse)).after
      (first.follow.trans (.drain _ allocInUse (idle failed)))

theorem Pool.moved_eq {p : Pool} (drained : p.chunksToFree = []) : p.moved = p := by
  rw [Pool.moved, ← drained]

/-- A pool that is added without a loss comes behind the others. -/
theorem Pools.addNewBufferPool_eq {created : Option Pool}
    (fresh : ∀ p ∈ created, p.chunksToFree = [])
    (lossless : created.isSome → s.Full → ∀ p ∈ s.bufferPools, p.chunksToFree = []) :
    (s.addNewBufferPool grow created).bufferPools = s.bufferPools ++ created.toList := by
  cases created with
  | none => simp [Pools.addNewBufferPool]
  | some p =>
    simp only [Pools.addNewBufferPool, Pool.moved_eq (fresh p rfl), Option.toList_some]
    split
    next => rfl
    next full =>
      have same : s.bufferPools.map Pool.moved = s.bufferPools.map id :=
        List.map_congr_left fun q member =>
          Pool.moved_eq (lossless rfl (Nat.le_of_not_lt full) q member)
      rw [same, List.map_id]

/-- A pool that was created has handed out nothing, and nothing waits in it. -/
def Pool.Fresh (p : Pool) : Prop := p.Keeps [] ∧ p.chunksToFree = []

theorem createIsa_fresh {storage : Storage} {asked : ℕ} (isBuiltin : Bool)
    (meets : storage.Meets asked) : (Pool.createIsa isBuiltin storage).Fresh := by
  obtain ⟨-, pages, half⟩ := meets
  refine ⟨create_keeps (by decide) le_rfl ?_ ⟨12, by decide, rfl⟩ (by decide) (by decide) pages,
    rfl⟩
  simp only [SmallBuffersParams.getDefaultParams, MemoryConstants.pageSize64k,
    MemoryConstants.pageSize] at half ⊢
  omega

theorem createBuffers_fresh {storage : Storage} {is2MB : Bool}
    (meets : storage.Meets (Client.poolSize (.buffers is2MB))) :
    (Pool.createBuffers (.getPreferredBufferPoolParams is2MB) storage).Fresh := by
  obtain ⟨enough, -, -⟩ := meets
  refine ⟨?_, rfl⟩
  cases is2MB with
  | false =>
    exact create_keeps (by decide) enough (by decide) ⟨16, by decide, rfl⟩ (by decide) (by decide)
      (by decide)
  | true =>
    exact create_keeps (by decide) enough (by decide) ⟨16, by decide, rfl⟩ (by decide) (by decide)
      (by decide)

theorem Pools.add_keeps (grow : ℕ → ℕ) (released : List ℕ → Prop) {created : Option Pool}
    (keep : AllKeep handed s.bufferPools)
    (fresh : ∀ p ∈ created, p.Fresh)
    (lossless : created.isSome → s.Full → ∀ p ∈ s.bufferPools, p.chunksToFree = []) :
    AllKeep handed (s.addNewBufferPool grow created).bufferPools ∧
      Follow released s.bufferPools (s.addNewBufferPool grow created).bufferPools := by
  rw [Pools.addNewBufferPool_eq (fun p member => (fresh p member).2) lossless]
  exact ⟨keep.append fun q member => (fresh q (Option.mem_toList.mp member)).1, .append _ _⟩

/-- What both clients do once they have asked the pools that are there. -/
theorem Pools.addAndAllocate_answers {created : Option Pool} (asks : Asks size)
    (ofKind : OfKind client isBuiltin eligible) (keep : AllKeep handed s.bufferPools)
    (fresh : ∀ p ∈ created, p.Fresh)
    (idle : (s.allocate eligible size).1 = none → ∀ allocations : List ℕ,
      allocations.any o.allocInUse = false → released allocations)
    (failed : (s.allocateOrDrain o.allocInUse eligible size).1 = none)
    (lossless : created.isSome → s.Full →
      ∀ p ∈ s.bufferPools, p.allocations.any o.allocInUse = true → p.chunksToFree = []) :
    Answers client released isBuiltin size handed s.bufferPools
      (((s.allocateOrDrain o.allocInUse eligible size).2.addNewBufferPool grow created).allocate
        eligible size) := by
  have first := Pools.allocateOrDrain_answers asks ofKind keep idle
  have kept := first.keep
  rw [failed] at kept
  have key := Pools.allocateOrDrain_key failed
  have capacity := s.allocateOrDrain_capacity o.allocInUse eligible size
  have length := congrArg List.length key
  simp only [List.length_map] at length
  -- Chunks wait in the pools that were in use when they were drained, and in no others.
  have waits : created.isSome → (s.allocateOrDrain o.allocInUse eligible size).2.Full →
      ∀ p ∈ (s.allocateOrDrain o.allocInUse eligible size).2.bufferPools,
        p.chunksToFree = [] := by
    intro some full p member
    have full : s.Full := by rwa [Pools.Full, length, capacity] at full
    have held := List.mem_map_of_mem (f := Pool.key) member
    rw [key] at held
    obtain ⟨q, there, same⟩ := List.mem_map.mp held
    have left : (if q.allocations.any o.allocInUse then q.chunksToFree else []) =
        p.chunksToFree := congrArg (fun key => key.2.2) same
    rw [← left]
    split
    next used => exact lossless some full q there used
    next => rfl
  obtain ⟨added, behind⟩ := Pools.add_keeps grow released kept fresh waits
  exact (Pools.allocate_answers _ asks ofKind added).after (first.follow.trans behind)

theorem fresh_map {storage : Option Storage} {asked : ℕ} {create : Storage → Pool}
    (meets : ∀ s ∈ storage, s.Meets asked)
    (fresh : ∀ s : Storage, s.Meets asked → (create s).Fresh) :
    ∀ p ∈ storage.map create, p.Fresh := by
  intro p member
  obtain ⟨s, held, rfl⟩ := Option.map_eq_some_iff.mp member
  exact fresh s (meets s held)

theorem sameKind_ofKind (client : Client) (isBuiltin : Bool) :
    OfKind client isBuiltin (sameKind isBuiltin) :=
  fun _ same _ => beq_iff_eq.mp same

theorem requestGraphicsAllocationForIsa_answers {w : World}
    (keep : AllKeep handed w.pools.bufferPools)
    (proper : Call.Proper client (.requestGraphicsAllocationForIsa isBuiltin size o))
    (lossless : Call.Lossless grow w (.requestGraphicsAllocationForIsa isBuiltin size o)) :
    Answers client (Call.Releases grow w (.requestGraphicsAllocationForIsa isBuiltin size o))
      isBuiltin size handed w.pools.bufferPools
      (w.pools.requestGraphicsAllocationForIsa grow o isBuiltin size) := by
  obtain ⟨asks, oversized, added⟩ := proper
  obtain ⟨first, second⟩ := lossless
  have ofKind := sameKind_ofKind client isBuiltin
  have start : AllKeep handed (w.pools.withOversized grow o isBuiltin size).bufferPools ∧
      Follow (Call.Releases grow w (.requestGraphicsAllocationForIsa isBuiltin size o))
        w.pools.bufferPools (w.pools.withOversized grow o isBuiltin size).bufferPools := by
    unfold Pools.withOversized
    split
    next large =>
      apply Pools.add_keeps grow _ keep (fresh_map oversized fun s => createIsa_fresh isBuiltin)
      rw [Option.isSome_map]
      exact first large
    next => exact ⟨keep, .refl _ _⟩
  obtain ⟨kept, behind⟩ := start
  unfold Pools.requestGraphicsAllocationForIsa
  dsimp only
  split
  next =>
    exact (Pools.allocateOrDrain_answers asks ofKind kept fun failed allocations idle =>
      ⟨failed, idle⟩).after behind
  next refused =>
    have failed := Option.not_isSome_iff_eq_none.mp refused
    refine (Pools.addAndAllocate_answers asks ofKind kept
      (fresh_map added fun s => createIsa_fresh isBuiltin)
      (fun failed allocations idle => ⟨failed, idle⟩) failed ?_).after behind
    rw [Option.isSome_map]
    exact second failed

theorem allocateBufferFromPool_answers {w : World} {is2MB flagsAllow : Bool}
    (keep : AllKeep handed w.pools.bufferPools)
    (proper : Call.Proper (.buffers is2MB) (.allocateBufferFromPool flagsAllow size o))
    (lossless : Call.Lossless grow w (.allocateBufferFromPool flagsAllow size o)) :
    Answers (.buffers is2MB) (Call.Releases grow w (.allocateBufferFromPool flagsAllow size o))
      false size handed w.pools.bufferPools
      (w.pools.allocateBufferFromPool grow o (.getPreferredBufferPoolParams is2MB) flagsAllow
        size) := by
  obtain ⟨positive, added⟩ := proper
  have ofKind : OfKind (.buffers is2MB) false anyKind := fun _ _ isa => nomatch isa
  unfold Pools.allocateBufferFromPool
  split
  next => exact .refuses keep (.refl _ _)
  next allowed =>
    have threshold : (SmallBuffersParams.getPreferredBufferPoolParams is2MB).smallBufferThreshold ≤
        2 * MemoryConstants.megaByte := by cases is2MB <;> decide
    have asks : Asks size := by
      refine ⟨positive, ?_⟩
      simp only [not_or, not_lt] at allowed
      have pageSize64k : MemoryConstants.pageSize64k ≤ 2 ^ 16 := by decide
      have megaByte : MemoryConstants.megaByte ≤ 2 ^ 20 := by decide
      omega
    dsimp only
    split
    next =>
      exact Pools.allocateOrDrain_answers asks ofKind keep fun failed allocations idle =>
        ⟨failed, idle⟩
    next refused =>
      have failed := Option.not_isSome_iff_eq_none.mp refused
      split
      next create =>
        refine Pools.addAndAllocate_answers asks ofKind keep
          (fresh_map added fun s => createBuffers_fresh)
          (fun failed allocations idle => ⟨failed, idle⟩) failed ?_
        rw [Option.isSome_map]
        exact lossless create failed
      next =>
        have answers : Answers (.buffers is2MB)
            (Call.Releases grow w (.allocateBufferFromPool flagsAllow size o)) false size handed
            w.pools.bufferPools (w.pools.allocateOrDrain o.allocInUse anyKind size) :=
          Pools.allocateOrDrain_answers asks ofKind keep fun failed allocations idle =>
            ⟨failed, idle⟩
        have kept := answers.keep
        rw [failed] at kept
        exact .refuses kept answers.follow

end Calls

/-! ### Runs -/

/-- The chunks that clients have from one pool. -/
def handedFrom (live : List Handed) (pool : ℕ) : List Chunk :=
  (live.filter (·.pool = pool)).map Handed.chunk

theorem handedFrom_cons (handed : Handed) (live : List Handed) :
    handedFrom (handed :: live) =
      handedAfter (handedFrom live) (some (handed.pool, handed.chunk)) := by
  funext i
  by_cases same : i = handed.pool
  · simp [handedFrom, handedAfter, same]
  · simp [handedFrom, handedAfter, same, Ne.symm same]

theorem handedFrom_perm {live live' : List Handed} (perm : live.Perm live') (i : ℕ) :
    (handedFrom live i).Perm (handedFrom live' i) :=
  (perm.filter _).map _

structure World.Inv (client : Client) (w : World) : Prop where
  keep : AllKeep (handedFrom w.live) w.pools.bufferPools
  enough : ∀ handed ∈ w.live, handed.requested ≤ handed.chunk.2
  kind : ∀ handed ∈ w.live, ∃ p, w.pools.bufferPools[handed.pool]? = some p ∧
    (client = .isa → p.isBuiltin = handed.isBuiltin)

section Runs

variable {grow : ℕ → ℕ} {client : Client} {w w' : World} {call : Call}

/-- A chunk that waits in a pool. -/
def World.Waits (w : World) (pool : ℕ) (chunk : Chunk) : Prop :=
  ∃ p, w.pools.bufferPools[pool]? = some p ∧ chunk ∈ p.chunksToFree

theorem World.Inv.after (inv : w.Inv client) {released : List ℕ → Prop} {isBuiltin : Bool}
    {size : ℕ} {result : Option (ℕ × Chunk) × Pools}
    (answers : Answers client released isBuiltin size (handedFrom w.live) w.pools.bufferPools
      result) :
    (w.after isBuiltin size result).Inv client := by
  have old : ∀ handed ∈ w.live, ∃ p, result.2.bufferPools[handed.pool]? = some p ∧
      (client = .isa → p.isBuiltin = handed.isBuiltin) := by
    intro handed member
    obtain ⟨p, held, kind⟩ := inv.kind handed member
    obtain ⟨q, now, follows⟩ := answers.follow _ p held
    exact ⟨q, now, fun isa => follows.isBuiltin.trans (kind isa)⟩
  obtain ⟨found, pools⟩ := result
  cases found with
  | none => exact ⟨answers.keep, inv.enough, old⟩
  | some found =>
    refine ⟨?_, ?_, ?_⟩
    · simp only [World.after, handedFrom_cons]
      exact answers.keep
    · rintro handed (_ | ⟨_, member⟩)
      · exact answers.enough found rfl
      · exact inv.enough handed member
    · rintro handed (_ | ⟨_, member⟩)
      · exact answers.kind found rfl
      · exact old handed member

/-- The pools after a chunk was freed. -/
theorem tryFree_follow (s : Pools) (pool : ℕ) (chunk : Chunk) (released : List ℕ → Prop) :
    Follow released s.bufferPools (s.tryFreeFromPoolBuffer pool chunk).bufferPools := by
  intro i p found
  simp only [Pools.tryFreeFromPoolBuffer, List.getElem?_modify, found, Option.map_some,
    Option.map_eq_map]
  refine ⟨_, rfl, ?_⟩
  by_cases same : pool = i
  · rw [if_pos same]
    exact ⟨rfl, rfl, fun c waiting => Or.inl (List.mem_append_left _ waiting)⟩
  · rw [if_neg same]
    exact ⟨rfl, rfl, fun c waiting => Or.inl waiting⟩

theorem World.Inv.free (inv : w.Inv client) {handed : Handed} (held : handed ∈ w.live) :
    World.Inv client
      ⟨w.pools.tryFreeFromPoolBuffer handed.pool handed.chunk, w.live.erase handed⟩ := by
  have keep := inv.keep.perm (handedFrom_perm (List.perm_cons_erase held))
  rw [handedFrom_cons] at keep
  refine ⟨⟨fun i q found => ?_, fun i high => ?_⟩, ?_, ?_⟩
  · simp only [Pools.tryFreeFromPoolBuffer, List.getElem?_modify, Option.map_eq_map] at found
    obtain ⟨p, there, rfl⟩ := Option.map_eq_some_iff.mp found
    have kept := keep.keeps i p there
    by_cases same : handed.pool = i
    · rw [if_pos same]
      simp only [handedAfter, same, Function.update_self] at kept
      exact kept.tryFree
    · rw [if_neg same]
      simpa only [handedAfter, Function.update_of_ne (Ne.symm same)] using kept
  · simp only [Pools.tryFreeFromPoolBuffer, List.length_modify] at high
    have empty := inv.keep.beyond i high
    have perm := handedFrom_perm (List.perm_cons_erase held) i
    rw [empty] at perm
    have nothing := perm.symm.eq_nil
    simp only [handedFrom, List.map_eq_nil_iff, List.filter_eq_nil_iff] at nothing ⊢
    exact fun other member => nothing other (List.mem_cons_of_mem _ member)
  · exact fun other member => inv.enough other (List.mem_of_mem_erase member)
  · intro other member
    obtain ⟨p, there, kind⟩ := inv.kind other (List.mem_of_mem_erase member)
    obtain ⟨q, now, follows⟩ := tryFree_follow w.pools handed.pool handed.chunk
      (fun _ => False) _ p there
    exact ⟨q, now, fun isa => follows.isBuiltin.trans (kind isa)⟩

theorem start_inv {first : Option Storage} (meets : ∀ s ∈ first, s.Meets client.poolSize) :
    (client.start grow first).Inv client := by
  have empty : AllKeep (handedFrom []) (Pools.mk [] 0).bufferPools :=
    ⟨fun _ _ found => by simp at found, fun _ _ => rfl⟩
  cases client with
  | isa => exact ⟨empty, by simp [Client.start], by simp [Client.start]⟩
  | buffers is2MB =>
    have added := Pools.add_keeps grow (fun _ => False) empty
      (fresh_map meets fun s => createBuffers_fresh) (fun _ _ => by simp)
    exact ⟨added.1, by simp [Client.start], by simp [Client.start]⟩

/-- One call keeps the pools, and lets the chunks wait in the pools that it does not release. -/
theorem step_inv (inv : w.Inv client) (lossless : call.Lossless grow w)
    (step : (system grow client).step w call w') :
    w'.Inv client ∧ Follow (call.Releases grow w) w.pools.bufferPools w'.pools.bufferPools := by
  obtain ⟨proper, step⟩ := step
  cases step with
  | isa =>
    have answers := requestGraphicsAllocationForIsa_answers inv.keep proper lossless
    exact ⟨inv.after answers, answers.follow⟩
  | buffers =>
    have answers := allocateBufferFromPool_answers inv.keep proper lossless
    exact ⟨inv.after answers, answers.follow⟩
  | free held => exact ⟨inv.free held, tryFree_follow _ _ _ _⟩

/-- What the clients rely on. -/
structure World.Exclusive (client : Client) (w : World) : Prop where
  apart : ∀ i p, w.pools.bufferPools[i]? = some p →
    (handedFrom w.live i ++ p.chunksToFree).Pairwise fun a b => a.1 + a.2 ≤ b.1 ∨ b.1 + b.2 ≤ a.1
  inside : ∀ i p, w.pools.bufferPools[i]? = some p →
    ∀ chunk ∈ handedFrom w.live i ++ p.chunksToFree, chunk.1 + chunk.2 ≤ p.storageSize
  enough : ∀ handed ∈ w.live, handed.requested ≤ handed.chunk.2
  kind : ∀ handed ∈ w.live, ∃ p, w.pools.bufferPools[handed.pool]? = some p ∧
    (client = .isa → p.isBuiltin = handed.isBuiltin)
  recovers : w.live = [] → ∀ allocInUse : ℕ → Bool,
    (∀ p ∈ w.pools.bufferPools, p.allocations.any allocInUse = false) →
      ∀ p ∈ (w.pools.drain allocInUse).bufferPools,
        ∃ chunk ∈ (p.allocate p.chunkAllocator.size).1, p.chunkAllocator.size ≤ chunk.2

theorem World.Inv.exclusive (inv : w.Inv client) : w.Exclusive client where
  apart i p found := (inv.keep.keeps i p found).apart
  inside i p found := (inv.keep.keeps i p found).inside
  enough := inv.enough
  kind := inv.kind
  recovers none allocInUse idle q member := by
    obtain ⟨p, held, rfl⟩ := List.mem_map.mp member
    obtain ⟨i, found⟩ := List.mem_iff_getElem?.mp held
    have keeps := inv.keep.keeps i p found
    rw [none] at keeps
    refine (keeps.drain allocInUse).serves ?_
    rw [p.drain_chunksToFree, if_neg (by simp [idle p held])]

/-- The runs of a client on from a state. -/
def systemFrom (grow : ℕ → ℕ) (client : Client) (w : World) : System World Call :=
  { system grow client with init := (· = w) }

/-- The call moves no pool in which chunks wait, and it does not release one of the pools. -/
def Call.Spares (grow : ℕ → ℕ) (pool : ℕ) (w : World) (call : Call) : Prop :=
  call.Lossless grow w ∧
    ∀ p, w.pools.bufferPools[pool]? = some p → ¬ call.Releases grow w p.allocations

theorem reachable_inv
    (reachable : Reachable ((system grow client).restrict fun w call => call.Lossless grow w) w) :
    w.Inv client := by
  induction reachable with
  | start initial =>
    obtain ⟨first, meets, rfl⟩ := initial
    exact start_inv meets
  | next _ step ih => exact (step_inv ih step.1 step.2).1

/-- A chunk waits until its pool is released. -/
theorem waits_while_spared (inv : w.Inv client) {pool : ℕ} {chunk : Chunk}
    (waits : w.Waits pool chunk)
    (run : Reachable ((systemFrom grow client w).restrict (Call.Spares grow pool)) w') :
    w'.Inv client ∧ w'.Waits pool chunk := by
  induction run with
  | start initial =>
    cases initial
    exact ⟨inv, waits⟩
  | next _ step ih =>
    obtain ⟨inv, p, found, waiting⟩ := ih
    obtain ⟨⟨lossless, spared⟩, step⟩ := step
    obtain ⟨next, follow⟩ := step_inv inv lossless step
    obtain ⟨q, now, follows⟩ := follow pool p found
    refine ⟨next, q, now, (follows.waits chunk waiting).resolve_right ?_⟩
    exact spared p found

/-- A chunk that waits is apart from those that clients have. -/
theorem World.Inv.waits_apart (inv : w.Inv client) {pool : ℕ} {chunk : Chunk}
    (waits : w.Waits pool chunk) :
    ∀ handed ∈ w.live, handed.pool = pool → handed.chunk.1 + handed.chunk.2 ≤ chunk.1 ∨
      chunk.1 + chunk.2 ≤ handed.chunk.1 := by
  intro handed member same
  obtain ⟨p, found, waiting⟩ := waits
  have apart := List.pairwise_append.mp (inv.keep.keeps pool p found).apart
  refine apart.2.2 handed.chunk (List.mem_map_of_mem (List.mem_filter.mpr ⟨member, ?_⟩)) chunk
    waiting
  simpa using same

theorem free_waits {handed : Handed} (inv : w.Inv client)
    (step : Step grow client w (.free handed) w') : w'.Waits handed.pool handed.chunk := by
  cases step with
  | free held =>
    obtain ⟨p, found, -⟩ := inv.kind handed held
    refine ⟨{ p with chunksToFree := p.chunksToFree ++ [handed.chunk] }, ?_,
      List.mem_append_right _ (List.mem_singleton_self _)⟩
    simp [Pools.tryFreeFromPoolBuffer, found]

/-- In a run that moves no pool in which freed chunks wait, chunks are exclusive; one that is freed
waits, apart from all that are handed out, until a call drains and finds its pool idle. -/
theorem chunks_exclusive_until_drained
    (reachable : Reachable ((system grow client).restrict fun w call => call.Lossless grow w) w) :
    w.Exclusive client ∧
    (∀ handed freed, Step grow client w (.free handed) freed →
      freed.Waits handed.pool handed.chunk) ∧
    ∀ pool chunk, w.Waits pool chunk → ∀ w',
      Reachable ((systemFrom grow client w).restrict (Call.Spares grow pool)) w' →
        w'.Waits pool chunk ∧ ∀ handed ∈ w'.live, handed.pool = pool →
          handed.chunk.1 + handed.chunk.2 ≤ chunk.1 ∨ chunk.1 + chunk.2 ≤ handed.chunk.1 := by
  have inv := reachable_inv reachable
  refine ⟨inv.exclusive, fun handed freed step => free_waits inv step,
    fun pool chunk waits w' run => ?_⟩
  obtain ⟨later, still⟩ := waits_while_spared inv waits run
  exact ⟨still, later.waits_apart still⟩

end Runs

/-! ### A chunk that is lost -/

/-- Storage is found for every pool that is asked for, and nothing is in use. -/
def storageFor (oversized added : ℕ) : Outcome where
  oversized := some ⟨oversized, [oversized]⟩
  requestPoolCreate := true
  added := some ⟨added, [added]⟩
  allocInUse := fun _ => false

def doubled (capacity : ℕ) : ℕ := max 1 (2 * capacity)

def firstRequest : Call :=
  .requestGraphicsAllocationForIsa false 0x1000 (storageFor 0x1000 0x400000)

/-- A kernel of one page is placed in a first pool. -/
def servedWorld : World :=
  (Client.start doubled none .isa).after false 0x1000
    (Pools.requestGraphicsAllocationForIsa ⟨[], 0⟩ doubled (storageFor 0x1000 0x400000) false
      0x1000)

/-- It is freed and waits, and a kernel of five megabytes comes with a pool of its own, for which
the vector moves the first pool. The second kernel is freed, too. -/
def lossyWorld : World :=
  let waiting : World := ⟨servedWorld.pools.tryFreeFromPoolBuffer 0 (0, 0x1000), []⟩
  let second := waiting.after false 0x500000 (waiting.pools.requestGraphicsAllocationForIsa doubled
    (storageFor 0x500000 0x400000) false 0x500000)
  ⟨second.pools.tryFreeFromPoolBuffer 1 (0, 0x500000), []⟩

theorem firstRequest_proper : firstRequest.Proper .isa :=
  ⟨⟨by decide, by decide⟩, by rintro s ⟨⟩; exact ⟨by decide, by decide, by decide⟩,
    by rintro s ⟨⟩; exact ⟨by decide, by decide, by decide⟩⟩

def largeRequest : Call :=
  .requestGraphicsAllocationForIsa false 0x500000 (storageFor 0x500000 0x400000)

theorem largeRequest_proper : largeRequest.Proper .isa :=
  ⟨⟨by decide, by decide⟩, by rintro s ⟨⟩; exact ⟨by decide, by decide, by decide⟩,
    by rintro s ⟨⟩; exact ⟨by decide, by decide, by decide⟩⟩

/-- The kernel of five megabytes comes while nothing waits, so that the first pool may move. -/
def grownWorld : World :=
  servedWorld.after false 0x500000 (servedWorld.pools.requestGraphicsAllocationForIsa doubled
    (storageFor 0x500000 0x400000) false 0x500000)

/-- Then the first kernel is freed, and another one of its size is placed in the same pool. -/
def freedWorld : World :=
  ⟨grownWorld.pools.tryFreeFromPoolBuffer 0 (0, 0x1000),
    grownWorld.live.erase ⟨0, (0, 0x1000), false, 0x1000⟩⟩

def reservedWorld : World :=
  freedWorld.after false 0x1000 (freedWorld.pools.requestGraphicsAllocationForIsa doubled
    (storageFor 0x1000 0x400000) false 0x1000)

theorem free_step {grow : ℕ → ℕ} {client : Client} {w : World} (handed : Handed)
    (held : handed ∈ w.live) : (system grow client).step w (.free handed)
      ⟨w.pools.tryFreeFromPoolBuffer handed.pool handed.chunk, w.live.erase handed⟩ :=
  ⟨trivial, .free held⟩

/-- The vector is full when the large kernel comes, and its pool has no chunk that waits. -/
theorem largeRequest_lossless : largeRequest.Lossless doubled servedWorld := by
  have nothing : ∀ p ∈ servedWorld.pools.bufferPools, p.chunksToFree = [] := by decide +kernel
  have placed : ((servedWorld.pools.withOversized doubled (storageFor 0x500000 0x400000) false
      0x500000).allocateOrDrain (fun _ => false) (sameKind false) 0x500000).1 ≠ none := by
    decide +kernel
  exact ⟨fun _ _ _ => nothing, fun failed => absurd failed placed⟩

/-- The first pool has room for another kernel, so that nothing is drained for it. -/
theorem firstRequest_spares : firstRequest.Spares doubled 0 freedWorld := by
  have room : ((freedWorld.pools.withOversized doubled (storageFor 0x1000 0x400000) false
      0x1000).allocate (sameKind false) 0x1000).1 ≠ none := by decide +kernel
  have placed : ((freedWorld.pools.withOversized doubled (storageFor 0x1000 0x400000) false
      0x1000).allocateOrDrain (fun _ => false) (sameKind false) 0x1000).1 ≠ none := by
    decide +kernel
  exact ⟨⟨fun large => absurd large (by decide), fun failed => absurd failed placed⟩,
    fun _ _ released => room released.1⟩

/-- The freed chunk waits in its pool, apart from the one that was handed out after it. -/
theorem reservedWorld_waits : freedWorld.Exclusive .isa ∧
    reservedWorld.live.map (fun handed => (handed.pool, handed.chunk)) =
      [(0, (0x1000, 0x1000)), (1, (0, 0x500000))] ∧
    reservedWorld.Waits 0 (0, 0x1000) ∧ ∀ handed ∈ reservedWorld.live, handed.pool = 0 →
      handed.chunk.1 + handed.chunk.2 ≤ 0 ∨ 0x1000 ≤ handed.chunk.1 := by
  have start : (system doubled .isa).init (Client.start doubled none .isa) :=
    ⟨none, fun _ member => absurd member (Option.not_mem_none _), rfl⟩
  have lossless : firstRequest.Lossless doubled (Client.start doubled none .isa) :=
    ⟨fun large => absurd large (by decide), fun _ _ _ p member => absurd member List.not_mem_nil⟩
  have served : Reachable ((system doubled .isa).restrict fun w call => call.Lossless doubled w)
      servedWorld := .next (.start start) ⟨lossless, firstRequest_proper, .isa⟩
  have grown : Reachable ((system doubled .isa).restrict fun w call => call.Lossless doubled w)
      grownWorld := .next served ⟨largeRequest_lossless, largeRequest_proper, .isa⟩
  have free := @free_step doubled .isa grownWorld ⟨0, (0, 0x1000), false, 0x1000⟩ (by decide +kernel)
  have freed : Reachable ((system doubled .isa).restrict fun w call => call.Lossless doubled w)
      freedWorld := by
    apply grown.next (a := .free ⟨0, (0, 0x1000), false, 0x1000⟩)
    exact ⟨trivial, free⟩
  have waits := (chunks_exclusive_until_drained grown).2.1 _ freedWorld free.2
  obtain ⟨exclusive, -, spared⟩ := chunks_exclusive_until_drained freed
  have reserved : Reachable ((systemFrom doubled .isa freedWorld).restrict (Call.Spares doubled 0))
      reservedWorld := .next (.start rfl) ⟨firstRequest_spares, firstRequest_proper, .isa⟩
  obtain ⟨still, apart⟩ := spared 0 (0, 0x1000) waits reservedWorld reserved
  exact ⟨exclusive, by decide +kernel, still, by simpa using apart⟩

/-- Nothing is handed out and nothing is in use, and still the first pool, drained, has no chunk of
its full size. -/
theorem lossyWorld_not_exclusive :
    Reachable (system doubled .isa) lossyWorld ∧ ¬lossyWorld.Exclusive .isa := by
  constructor
  · have start : (system doubled .isa).init (Client.start doubled none .isa) :=
      ⟨none, fun _ member => absurd member (Option.not_mem_none _), rfl⟩
    have served : Reachable (system doubled .isa) servedWorld :=
      .next (.start start) ⟨firstRequest_proper, .isa⟩
    have waiting := Reachable.next served
      (free_step ⟨0, (0, 0x1000), false, 0x1000⟩ (by decide +kernel))
    have second := Reachable.next waiting ⟨largeRequest_proper, .isa⟩
    exact Reachable.next second
      (free_step ⟨1, (0, 0x500000), false, 0x500000⟩ (by decide +kernel))
  · intro exclusive
    have serves := exclusive.recovers rfl (fun _ => false) (by simp)
    have refused : ∃ p ∈ (lossyWorld.pools.drain fun _ => false).bufferPools,
        (p.allocate p.chunkAllocator.size).1 = none := by decide +kernel
    obtain ⟨p, member, none⟩ := refused
    obtain ⟨chunk, found, -⟩ := serves p member
    rw [none] at found
    exact absurd found (Option.not_mem_none _)

end ComputeRuntime.PoolAllocator
