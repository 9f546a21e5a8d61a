import ComputeRuntime.Submissions.Batches

/-! When a batch is sound: what is submitted together may be submitted together, and everything
that it uses is listed once. -/
namespace ComputeRuntime.Submissions

variable {α : Type*} [DecidableEq α]

/-- What the primary buffer and the first `n` of the others need. -/
def listed (primary : CommandBuffer α) (others : List (CommandBuffer α)) (n : ℕ) : List α :=
  primary.surfaces ++
    (others.take n).flatMap (·.named primary.batchBuffer.commandBufferAllocation)

theorem mem_listed {primary : CommandBuffer α} {others : List (CommandBuffer α)} {n : ℕ} {a : α} :
    a ∈ listed primary others n ↔ a ∈ primary.surfaces ∨
      (∃ b ∈ others.take n, a ∈ b.surfaces ∨ b.batchBuffer.commandBufferAllocation = some a) ∧
        primary.batchBuffer.commandBufferAllocation ≠ some a := by
  unfold listed CommandBuffer.named
  rw [List.mem_append, List.mem_flatMap]
  apply or_congr_right
  rw [← exists_and_right]
  apply exists_congr
  intro b
  rw [and_assoc]
  apply and_congr_right
  intro _
  rw [List.mem_append, List.mem_filter, decide_eq_true_iff, or_and_right, Ne, eq_comm (a := some a)]
  apply or_congr_right
  split
  next other =>
    rw [Option.mem_toList]
    constructor
    · intro own
      exact ⟨own, fun same => other (own.trans same.symm)⟩
    · exact And.left
  next same =>
    rw [not_not] at same
    simp only [List.not_mem_nil, false_iff, not_and, not_not]
    exact fun own => same ▸ own

/-- The batch of the primary buffer and the first `n` others is what the call left behind. -/
structure SoundBatch (size : α → ℕ) (budget current : ℕ) (primary : CommandBuffer α)
    (others : List (CommandBuffer α)) (result : Aggregated α) (n : ℕ) : Prop where
  within : n ≤ others.length
  marks : result.aggregator.cmdBuffers =
    (primary :: others.take n).map (·.mark current) ++ others.drop n
  compatible : ∀ b ∈ others.take n, b.batchBuffer.Compatible primary.batchBuffer
  nodup : result.resourcePackage.Nodup
  package : ∀ a, a ∈ result.resourcePackage ↔ a ∈ primary.surfaces ∨
    (∃ b ∈ others.take n, a ∈ b.surfaces ∨ b.batchBuffer.commandBufferAllocation = some a) ∧
      primary.batchBuffer.commandBufferAllocation ≠ some a
  total : result.totalUsedSize = (result.resourcePackage.map size).sum
  budget : ∀ k, 0 < k → k ≤ n → footprint size (listed primary others k) ≤ budget

/-- The batch grows up to the `n`-th of the other buffers: the first of them is compatible with
the primary one, and no footprint on the way, as a 64-bit word, exceeds the budget. -/
def Joins (size : α → ℕ) (budget : ℕ) (primary : CommandBuffer α)
    (others : List (CommandBuffer α)) (n : ℕ) : Prop :=
  (∀ next ∈ others.head?, next.batchBuffer.Compatible primary.batchBuffer) ∧
    ∀ k, 0 < k → k ≤ n → footprint size (listed primary others k) % 2 ^ 64 ≤ budget

/-- Every buffer that the batch grows up to is compatible, and the sizes do not wrap around. -/
def Harmless (size : α → ℕ) (budget : ℕ) (primary : CommandBuffer α)
    (others : List (CommandBuffer α)) : Prop :=
  footprint size (listed primary others 0) < 2 ^ 64 ∧
    ∀ n b, others[n]? = some b → Joins size budget primary others (n + 1) →
      b.batchBuffer.Compatible primary.batchBuffer ∧
        footprint size (listed primary others (n + 1)) < 2 ^ 64

/-- What a call on an empty package leaves behind: a batch as long as it can grow. -/
structure Grown (size : α → ℕ) (budget current : ℕ) (primary : CommandBuffer α)
    (others : List (CommandBuffer α)) (result : Aggregated α) (n : ℕ) : Prop where
  within : n ≤ others.length
  marks : result.aggregator.cmdBuffers =
    (primary :: others.take n).map (·.mark current) ++ others.drop n
  nodup : result.resourcePackage.Nodup
  package : ∀ a, a ∈ result.resourcePackage ↔ a ∈ listed primary others n
  total : result.totalUsedSize = footprint size (listed primary others n) % 2 ^ 64
  joins : 0 < n → Joins size budget primary others n
  longest : n < others.length → ¬ Joins size budget primary others (n + 1)

variable {size : α → ℕ} {aggregator : SubmissionAggregator α} {ids : α → ℕ} {budget : ℕ}
  {primary : CommandBuffer α} {others : List (CommandBuffer α)} {result : Aggregated α} {n : ℕ}

theorem listed_append (n : ℕ) :
    listed primary others 0 ++
        (others.take n).flatMap (·.named primary.batchBuffer.commandBufferAllocation) =
      listed primary others n := by
  simp [listed]

/-- The stamps of all that the recorded buffers name are older than the inspection. -/
def Fresh (ids : α → ℕ) (current : ℕ) (primary : CommandBuffer α)
    (others : List (CommandBuffer α)) : Prop :=
  ∀ a, a ∈ primary.surfaces ∨ (∃ b ∈ others, a ∈ b.surfaces ∨
    b.batchBuffer.commandBufferAllocation = some a) → ids a < current

theorem mem_of_mem_named {b : CommandBuffer α} {p : Option α} {a : α} (member : a ∈ b.named p) :
    a ∈ b.surfaces ∨ b.batchBuffer.commandBufferAllocation = some a := by
  unfold CommandBuffer.named at member
  rcases List.mem_append.mp member with surface | own
  · exact .inl (List.mem_filter.mp surface).1
  · split at own
    · exact .inr (Option.mem_toList.mp own)
    · cases own

/-- The primary buffer on its own. -/
theorem batch_primary {current : ℕ} (fresh : Fresh ids current primary others) :
    let own := primary.surfaces.foldl (inspect size current) ⟨ids, [], 0⟩
    Batch size current ids (listed primary others 0) ⟨own.ids, own.resources, own.size, []⟩ := by
  intro own
  have empty : Batch size current ids [] ⟨ids, [], 0, []⟩ :=
    ⟨.nil, by simp, rfl, by simp, rfl⟩
  obtain ⟨added, gathers⟩ := gathers_foldl size current primary.surfaces ⟨ids, [], 0⟩
  obtain ⟨_, grown⟩ := empty.grow (fun a member => fresh a (.inl member)) gathers
  have total : add64 0 own.size = own.size := by
    rw [add64, Word.add, Nat.zero_add, Nat.mod_eq_of_lt (gathers.word (Nat.two_pow_pos 64))]
  have names : listed primary others 0 = [] ++ primary.surfaces := by simp [listed]
  rw [names]
  rwa [total] at grown

theorem Batch.alone {current : ℕ} {own : Collection α} {aggregator : SubmissionAggregator α}
    (batch : Batch size current ids (listed primary others 0)
      ⟨own.ids, own.resources, own.size, []⟩)
    (marks : aggregator.cmdBuffers = primary.mark current :: others)
    (ends : others ≠ [] → ¬ Joins size budget primary others 1) :
    Grown size budget current primary others ⟨aggregator, own.ids, own.resources, own.size⟩ 0 where
  within := Nat.zero_le _
  marks := marks
  nodup := batch.nodup
  package := batch.mem
  total := batch.total
  joins := by
    intro none
    omega
  longest := fun more => ends (List.ne_nil_of_length_pos more)

/-- A call on an empty package leaves a batch behind that has grown as far as it can. -/
theorem aggregateCommandBuffers_grown
    (recorded : aggregator.cmdBuffers = primary :: others)
    (fresh : Fresh ids aggregator.inspectionId primary others) :
    ∃ n, Grown size budget aggregator.inspectionId primary others
      (aggregateCommandBuffers size aggregator ids [] 0 budget) n := by
  have batch := @batch_primary α _ size ids primary others _ fresh
  unfold aggregateCommandBuffers
  rw [recorded]
  cases others with
  | nil => exact ⟨0, batch.alone rfl (absurd rfl)⟩
  | cons next rest =>
    dsimp only at batch ⊢
    by_cases compatible : next.batchBuffer.Compatible primary.batchBuffer
    · obtain ⟨priority, throttle, slices⟩ := compatible
      rw [if_neg (by simpa using priority), if_neg (by simpa using throttle),
        if_neg (by simpa using slices)]
      have named : ∀ b ∈ next :: rest, ∀ a ∈ b.named primary.batchBuffer.commandBufferAllocation,
          ids a < aggregator.inspectionId :=
        fun b member a inNamed => fresh a (.inr ⟨b, member, mem_of_mem_named inNamed⟩)
      obtain ⟨n, within, final, ran, nodup, mem, total, accepted, rejected⟩ :=
        @aggregateLoop_spec α _ size _ budget ids _ _ _ _ batch named
      simp only [listed_append] at mem total accepted rejected
      rw [ran]
      have head : ∀ b ∈ (next :: rest).head?, b.batchBuffer.Compatible primary.batchBuffer := by
        rintro b ⟨⟩
        exact ⟨priority, throttle, slices⟩
      refine ⟨n, within, rfl, nodup, mem, total, fun _ => ⟨head, accepted⟩, ?_⟩
      intro more joins
      exact (rejected more).not_ge (joins.2 (n + 1) (Nat.succ_pos n) (Nat.le_refl _))
    · refine ⟨0, ?_⟩
      have ends : ¬ Joins size budget primary (next :: rest) 1 :=
        fun joins => compatible (joins.1 next rfl)
      split
      next => exact batch.alone rfl fun _ => ends
      next priority =>
        split
        next => exact batch.alone rfl fun _ => ends
        next throttle =>
          split
          next => exact batch.alone rfl fun _ => ends
          next slices =>
            rw [not_not] at priority throttle slices
            exact absurd ⟨priority, throttle, slices⟩ compatible

theorem listed_subset {m : ℕ} (le : n ≤ m) : listed primary others n ⊆ listed primary others m := by
  intro a member
  rw [mem_listed] at member ⊢
  apply member.imp_right
  rintro ⟨⟨b, inside, names⟩, other⟩
  exact ⟨⟨b, (List.take_prefix_take_left le).subset inside, names⟩, other⟩

theorem Joins.le {m : ℕ} (joins : Joins size budget primary others m) (le : n ≤ m) :
    Joins size budget primary others n :=
  ⟨joins.1, fun k some upTo => joins.2 k some (upTo.trans le)⟩

/-- The batch takes in each buffer that it grows up to. -/
theorem Grown.reaches {current m : ℕ}
    (grown : Grown size budget current primary others result n) (inside : m ≤ others.length)
    (joins : Joins size budget primary others m) : m ≤ n := by
  by_contra above
  exact grown.longest (by omega) (joins.le (by omega))

omit [DecidableEq α] in
/-- The marks tell how long the batch is. -/
theorem marked_unique {current m : ℕ} (unmarked : ∀ b ∈ others, b.inspectionId < current)
    (hm : m ≤ others.length) (hn : n ≤ others.length)
    (same : (primary :: others.take m).map (·.mark current) ++ others.drop m =
      (primary :: others.take n).map (·.mark current) ++ others.drop n) : m = n := by
  have count (k : ℕ) (hk : k ≤ others.length) :
      ((primary :: others.take k).map (·.mark current) ++ others.drop k).countP
        (fun b => b.inspectionId = current) = k + 1 := by
    have none : (others.drop k).countP (fun b => b.inspectionId = current) = 0 := by
      apply List.countP_eq_zero.mpr
      intro b member
      simpa using (unmarked b (List.mem_of_mem_drop member)).ne
    have all : ((primary :: others.take k).map (·.mark current)).countP
        (fun b => b.inspectionId = current) = k + 1 := by
      rw [List.countP_eq_length.mpr, List.length_map, List.length_cons, List.length_take,
        Nat.min_eq_left hk]
      intro b member
      obtain ⟨_, _, rfl⟩ := List.mem_map.mp member
      exact decide_eq_true rfl
    rw [List.countP_append, all, none]
  have counted := congrArg (List.countP fun b => b.inspectionId = current) same
  rw [count m hm, count n hn] at counted
  exact Nat.succ.inj counted

theorem footprint_listed_mono {m : ℕ} (le : n ≤ m) :
    footprint size (listed primary others n) ≤ footprint size (listed primary others m) :=
  footprint_mono (listed_subset le)

/-- A batch that has grown is sound exactly when growing it does no harm. -/
theorem Grown.sound_iff {current : ℕ} (grown : Grown size budget current primary others result n)
    (unmarked : ∀ b ∈ others, b.inspectionId < current) :
    (∃ m, SoundBatch size budget current primary others result m) ↔
      Harmless size budget primary others := by
  constructor
  · rintro ⟨m, sound⟩
    obtain rfl := marked_unique unmarked sound.within grown.within
      (sound.marks.symm.trans grown.marks)
    -- the total is a word, so the footprint of the whole batch is
    have small : footprint size (listed primary others m) < 2 ^ 64 := by
      rw [footprint_eq sound.nodup grown.package, ← sound.total, grown.total]
      exact Nat.mod_lt _ (Nat.two_pow_pos 64)
    refine ⟨(footprint_listed_mono (Nat.zero_le m)).trans_lt small, ?_⟩
    intro k b found joins
    obtain ⟨inside, _⟩ := List.getElem?_eq_some_iff.mp found
    have reached := grown.reaches inside joins
    refine ⟨sound.compatible b ?_, (footprint_listed_mono reached).trans_lt small⟩
    exact List.mem_of_getElem? ((List.getElem?_take_of_lt reached).trans found)
  · rintro ⟨least, harmless⟩
    have small (k : ℕ) (upTo : k ≤ n) : footprint size (listed primary others k) < 2 ^ 64 := by
      obtain _ | k := k
      · exact least
      · have inside : k < others.length := by have := grown.within; omega
        exact (harmless k _ (List.getElem?_eq_getElem inside)
          ((grown.joins (by omega)).le upTo)).2
    refine ⟨n, grown.within, grown.marks, ?_, grown.nodup, ?_, ?_, ?_⟩
    · intro b member
      obtain ⟨k, found⟩ := List.mem_iff_getElem?.mp member
      have upTo : k < n := by
        have := (List.getElem?_eq_some_iff.mp found).1
        rw [List.length_take] at this
        omega
      rw [List.getElem?_take_of_lt upTo] at found
      exact (harmless k b found ((grown.joins (by omega)).le upTo)).1
    · intro a
      rw [grown.package, mem_listed]
    · rw [grown.total, Nat.mod_eq_of_lt (small n (Nat.le_refl n)),
        footprint_eq grown.nodup grown.package]
    · intro k some upTo
      have fits := (grown.joins (by omega)).2 k some upTo
      rwa [Nat.mod_eq_of_lt (small k upTo)] at fits

/-- For every list of recorded buffers, what is submitted together is a sound batch exactly when
every buffer up to which the batch grows is compatible with the primary one and the footprint
stays below 2^64. -/
theorem aggregateCommandBuffers_sound_iff (recorded : aggregator.cmdBuffers = primary :: others)
    (unmarked : ∀ b ∈ others, b.inspectionId < aggregator.inspectionId)
    (fresh : Fresh ids aggregator.inspectionId primary others) :
    (∃ n, SoundBatch size budget aggregator.inspectionId primary others
      (aggregateCommandBuffers size aggregator ids [] 0 budget) n) ↔
      Harmless size budget primary others := by
  obtain ⟨n, grown⟩ :=
    @aggregateCommandBuffers_grown α _ size aggregator ids budget _ _ recorded fresh
  exact grown.sound_iff unmarked

/-- A buffer on two pages of memory, with a command buffer of its own. -/
def pages (first second commands : ℕ) (lowPriority : Bool) : CommandBuffer ℕ where
  surfaces := [first, second]
  batchBuffer := { commandBufferAllocation := some commands, lowPriority := lowPriority }

def recordedPair : SubmissionAggregator ℕ :=
  { cmdBuffers := [pages 1 2 10 false, pages 2 3 11 false] }

theorem aggregateCommandBuffers_sound_pair :
    ∃ n, SoundBatch (fun _ => 4096) 65536 recordedPair.inspectionId (pages 1 2 10 false)
      [pages 2 3 11 false]
      (aggregateCommandBuffers (fun _ => 4096) recordedPair (fun _ => 0) [] 0 65536) n := by
  have unmarked : ∀ b ∈ [pages 2 3 11 false], b.inspectionId < recordedPair.inspectionId := by
    decide
  have fresh : Fresh (fun _ => 0) recordedPair.inspectionId (pages 1 2 10 false)
      [pages 2 3 11 false] := fun _ _ => Nat.one_pos
  apply (aggregateCommandBuffers_sound_iff rfl unmarked fresh).mpr
  refine ⟨by decide, ?_⟩
  intro n b found _
  obtain _ | n := n
  · cases found
    exact ⟨⟨rfl, rfl, rfl⟩, by decide⟩
  · cases found

/-- The third buffer has another priority, and is submitted with the first two. -/
theorem aggregateCommandBuffers_mixes_priorities :
    ¬ ∀ (size : ℕ → ℕ) (aggregator : SubmissionAggregator ℕ) (ids : ℕ → ℕ) (budget : ℕ)
      (primary : CommandBuffer ℕ) (others : List (CommandBuffer ℕ)),
      aggregator.cmdBuffers = primary :: others →
      (∀ b ∈ others, b.inspectionId < aggregator.inspectionId) →
      Fresh ids aggregator.inspectionId primary others →
      ∃ n, SoundBatch size budget aggregator.inspectionId primary others
        (aggregateCommandBuffers size aggregator ids [] 0 budget) n := by
  intro sound
  let others := [pages 3 4 11 false, pages 5 6 12 true]
  let aggregator : SubmissionAggregator ℕ := { cmdBuffers := pages 1 2 10 false :: others }
  have fresh : Fresh (fun _ => 0) aggregator.inspectionId (pages 1 2 10 false) others :=
    fun _ _ => Nat.one_pos
  have unmarked : ∀ b ∈ others, b.inspectionId < aggregator.inspectionId := by decide
  obtain ⟨n, grown⟩ := @aggregateCommandBuffers_grown ℕ _ (fun _ => 4096) aggregator (fun _ => 0)
    65536 _ _ rfl fresh
  have batch := sound (fun _ => 4096) aggregator (fun _ => 0) 65536 _ _ rfl unmarked fresh
  obtain ⟨_, harmless⟩ := (grown.sound_iff unmarked).mp batch
  have joins : Joins (fun _ => 4096) 65536 (pages 1 2 10 false) others 2 := by
    refine ⟨?_, ?_⟩
    · rintro next ⟨⟩
      exact ⟨rfl, rfl, rfl⟩
    · intro k some upTo
      obtain _ | _ | _ | k := k
      · cases some
      · decide
      · decide
      · omega
  exact absurd (harmless 1 _ rfl joins).1.1 (by decide)

end ComputeRuntime.Submissions
