import ComputeRuntime.Submissions.Aggregator

/-! What a call of the aggregator collects. The allocations that a batch needs are those named by
its buffers, each once; the stamps of an inspection say which of them were named before. -/
namespace ComputeRuntime.Submissions

variable {α : Type*} [DecidableEq α]

section Gathering

variable {size : α → ℕ} {current : ℕ} {before mid after : Collection α} {names more : List α}

/-- Going through `names` adds those not yet stamped, each of them once. -/
structure Gathers (size : α → ℕ) (current : ℕ) (before after : Collection α) (names : List α)
    (added : List α) : Prop where
  resources : after.resources = before.resources ++ added
  nodup : added.Nodup
  mem : ∀ a, a ∈ added ↔ a ∈ names ∧ before.ids a < current
  stamps : ∀ a, after.ids a < current ↔ before.ids a < current ∧ a ∉ names
  bytes : after.size ≡ before.size + (added.map size).sum [MOD 2 ^ 64]
  word : before.size < 2 ^ 64 → after.size < 2 ^ 64

omit [DecidableEq α] in
theorem Gathers.nil : Gathers size current before before [] [] where
  resources := (List.append_nil _).symm
  nodup := .nil
  mem := by simp
  stamps := by simp
  bytes := by simp [Nat.ModEq]
  word := id

theorem Gathers.single (a : α) :
    ∃ added, Gathers size current before (inspect size current before a) [a] added := by
  unfold inspect
  split
  next fresh =>
    refine ⟨[a], rfl, List.nodup_singleton a, fun b => ?_, fun b => ?_, ?_,
      fun _ => Word.add_lt 64 _ _⟩
    · rw [List.mem_singleton, iff_self_and]
      rintro rfl
      exact fresh
    · rw [List.mem_singleton]
      by_cases same : b = a
      · simp [same]
      · simp [same]
    · rw [List.map_singleton, List.sum_singleton]
      exact Nat.mod_modEq (before.size + size a) (2 ^ 64)
  next stamped =>
    refine ⟨[], (List.append_nil _).symm, .nil, fun b => ?_, fun b => ?_, ?_, id⟩
    · simp only [List.not_mem_nil, List.mem_singleton, false_iff, not_and]
      rintro rfl
      exact stamped
    · rw [List.mem_singleton, iff_self_and]
      rintro fresh rfl
      exact stamped fresh
    · simp [Nat.ModEq]

theorem Gathers.trans {first second : List α} (one : Gathers size current before mid names first)
    (two : Gathers size current mid after more second) :
    Gathers size current before after (names ++ more) (first ++ second) where
  resources := by rw [two.resources, one.resources, List.append_assoc]
  nodup := by
    refine one.nodup.append two.nodup fun a inFirst inSecond => ?_
    exact ((one.stamps a).mp ((two.mem a).mp inSecond).2).2 ((one.mem a).mp inFirst).1
  mem := by
    intro a
    rw [List.mem_append, one.mem, two.mem, one.stamps, List.mem_append]
    by_cases named : a ∈ names <;> simp [named]
  stamps := by
    intro a
    rw [two.stamps, one.stamps, List.mem_append, not_or, and_assoc]
  bytes := by
    rw [List.map_append, List.sum_append, ← Nat.add_assoc]
    exact two.bytes.trans (one.bytes.add_right _)
  word := two.word ∘ one.word

theorem gathers_foldl (size : α → ℕ) (current : ℕ) (names : List α) (before : Collection α) :
    ∃ added, Gathers size current before (names.foldl (inspect size current) before) names
      added := by
  induction names generalizing before with
  | nil => exact ⟨[], .nil⟩
  | cons a names ih =>
    obtain ⟨first, one⟩ := @Gathers.single α _ size current before a
    obtain ⟨second, rest⟩ := ih (inspect size current before a)
    exact ⟨first ++ second, one.trans rest⟩

end Gathering

section Loop

variable {size : α → ℕ} {current budget : ℕ} {ids : α → ℕ} {primaryBatch : Option α}
  {names : List α} {s : Aggregation α}

/-- The size of what is named, each allocation counted once. -/
def footprint (size : α → ℕ) (names : List α) : ℕ := ∑ a ∈ names.toFinset, size a

theorem footprint_eq {listed : List α} (nodup : listed.Nodup) (same : ∀ a, a ∈ listed ↔ a ∈ names) :
    footprint size names = (listed.map size).sum := by
  have finset : names.toFinset = listed.toFinset := by
    ext a
    rw [List.mem_toFinset, List.mem_toFinset, same]
  rw [footprint, finset, List.sum_toFinset size nodup]

theorem footprint_mono {more : List α} (subset : names ⊆ more) :
    footprint size names ≤ footprint size more := by
  apply Finset.sum_le_sum_of_subset
  intro a member
  exact List.mem_toFinset.mpr (subset (List.mem_toFinset.mp member))

/-- The batch so far is what the allocations in `names` make up. -/
structure Batch (size : α → ℕ) (current : ℕ) (ids : α → ℕ) (names : List α)
    (s : Aggregation α) : Prop where
  nodup : s.resourcePackage.Nodup
  mem : ∀ a, a ∈ s.resourcePackage ↔ a ∈ names
  total : s.totalUsedSize = footprint size names % 2 ^ 64
  stamps : ∀ a, s.ids a < current ↔ ids a < current ∧ a ∉ names
  pending : s.newResources = []

/-- One more buffer: what it adds, and the size that is compared with the budget. -/
theorem Batch.grow (batch : Batch size current ids names s) {more added : List α}
    {evaluated : Collection α} (fresh : ∀ a ∈ more, ids a < current)
    (gathers : Gathers size current ⟨s.ids, s.newResources, 0⟩ evaluated more added) :
    add64 evaluated.size s.totalUsedSize = footprint size (names ++ more) % 2 ^ 64 ∧
      Batch size current ids (names ++ more)
        { ids := evaluated.ids
          resourcePackage := s.resourcePackage ++ evaluated.resources
          totalUsedSize := add64 s.totalUsedSize evaluated.size
          newResources := [] } := by
  have resources : evaluated.resources = added := by
    rw [gathers.resources, batch.pending, List.nil_append]
  have fromMore (a : α) : a ∈ added ↔ a ∈ more ∧ a ∉ names := by
    rw [gathers.mem, batch.stamps]
    exact ⟨fun h => ⟨h.1, h.2.2⟩, fun h => ⟨h.1, fresh a h.1, h.2⟩⟩
  have nodup : (s.resourcePackage ++ added).Nodup := by
    refine batch.nodup.append gathers.nodup fun a old new => ?_
    exact ((fromMore a).mp new).2 ((batch.mem a).mp old)
  have mem (a : α) : a ∈ s.resourcePackage ++ added ↔ a ∈ names ++ more := by
    rw [List.mem_append, batch.mem, fromMore, List.mem_append]
    by_cases old : a ∈ names <;> simp [old]
  have bytes : evaluated.size + s.totalUsedSize ≡ footprint size (names ++ more) [MOD 2 ^ 64] := by
    rw [footprint_eq nodup mem, List.map_append, List.sum_append,
      ← footprint_eq batch.nodup batch.mem, batch.total, Nat.add_comm]
    have news := gathers.bytes
    rw [Nat.zero_add] at news
    exact (Nat.mod_modEq _ _).add news
  refine ⟨bytes, ?_, ?_, ?_, fun a => ?_, rfl⟩
  · rw [resources]
    exact nodup
  · rw [resources]
    exact mem
  · rw [← bytes, Nat.add_comm]
    rfl
  · rw [gathers.stamps, batch.stamps, List.mem_append, not_or, and_assoc]

/-- A buffer that is taken into the batch. -/
def CommandBuffer.mark (current : ℕ) (b : CommandBuffer α) : CommandBuffer α :=
  { b with inspectionId := current }

/-- The loop takes the longest run of buffers up to which the footprint, as a 64-bit word, never
exceeds the budget. -/
theorem aggregateLoop_spec {others : List (CommandBuffer α)}
    (batch : Batch size current ids names s)
    (fresh : ∀ b ∈ others, ∀ a ∈ b.named primaryBatch, ids a < current) :
    ∃ n ≤ others.length, ∃ final, aggregateLoop size current budget primaryBatch others s =
        ((others.take n).map (·.mark current) ++ others.drop n, final) ∧
      final.resourcePackage.Nodup ∧
      (∀ a, a ∈ final.resourcePackage ↔
        a ∈ names ++ (others.take n).flatMap (·.named primaryBatch)) ∧
      final.totalUsedSize =
        footprint size (names ++ (others.take n).flatMap (·.named primaryBatch)) % 2 ^ 64 ∧
      (∀ k, 0 < k → k ≤ n →
        footprint size (names ++ (others.take k).flatMap (·.named primaryBatch)) % 2 ^ 64
          ≤ budget) ∧
      (n < others.length →
        budget < footprint size
          (names ++ (others.take (n + 1)).flatMap (·.named primaryBatch)) % 2 ^ 64) := by
  induction others generalizing s names with
  | nil =>
    refine ⟨0, Nat.le_refl 0, s, rfl, batch.nodup, ?_, ?_, ?_, ?_⟩
    · simpa using batch.mem
    · simpa using batch.total
    · intro k some none
      omega
    · intro more
      cases more
  | cons b others ih =>
    obtain ⟨mine, later⟩ := List.forall_mem_cons.mp fresh
    obtain ⟨added, gathers⟩ := gathers_foldl size current (b.named primaryBatch)
      ⟨s.ids, s.newResources, 0⟩
    obtain ⟨compared, grown⟩ := batch.grow mine gathers
    rw [aggregateLoop, compared]
    split
    next fits =>
      obtain ⟨n, bound, final, ran, nodup, mem, total, accepted, rejected⟩ := ih grown later
      refine ⟨n + 1, by simpa using bound, final, ?_, nodup, ?_, ?_, ?_, ?_⟩
      · rw [ran]
        rfl
      · simpa [List.append_assoc] using mem
      · simpa [List.append_assoc] using total
      · intro k some upTo
        obtain _ | k := k
        · cases some
        · obtain _ | k := k
          · simpa using fits
          · simpa [List.append_assoc] using accepted (k + 1) (by omega) (by omega)
      · intro more
        simpa [List.append_assoc] using rejected (by simpa using more)
    next exceeds =>
      refine ⟨0, Nat.zero_le _, _, rfl, batch.nodup, ?_, ?_, ?_, ?_⟩
      · simpa using batch.mem
      · simpa using batch.total
      · intro k some none
        omega
      · intro _
        simpa using exceeds

end Loop

end ComputeRuntime.Submissions
