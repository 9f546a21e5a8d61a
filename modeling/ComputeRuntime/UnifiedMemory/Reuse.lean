import ComputeRuntime.UnifiedMemory.CacheInvariant

/-! A request takes over the smallest cached allocation that fits it. The search starts at the
requested size and ends at the first entry that would be used too little, which loses nothing in
a sorted vector. -/
namespace ComputeRuntime

namespace SvmAllocationCache

/-- The entry can be taken over for a request. -/
structure Reusable (allocInUse : GraphicsAllocation → Bool) (size : Nat)
    (properties : ReuseProperties) (e : SvmCacheAllocationInfo) : Prop where
  large : size ≤ e.allocationSize
  utilized : minimalSizeToCheckUtilization ≤ e.allocationSize → e.allocationSize ≤ 2 * size
  device : e.svmData.device = properties.device
  allFlags : e.svmData.allFlags = properties.allFlags
  allAllocFlags : e.svmData.allAllocFlags = properties.allAllocFlags
  aligned : alignmentAllows e.allocation properties.alignment = true
  idle : isInUse allocInUse e = false

/-- What a request that takes an entry over changes: the entry is gone, its allocation is in use
with the requested size, and its budget is given back. -/
structure TakenOver (c c' : SvmAllocationCache) (size : Nat) (e : SvmCacheAllocationInfo)
    (others : List SvmCacheAllocationInfo) : Prop where
  allocations : c'.allocations = others
  total : ∀ device, (c'.usmReuseInfo device).allocationsSavedForReuseSize =
    if device = e.svmData.device then
      sub64 (c.usmReuseInfo device).allocationsSavedForReuseSize e.allocationSize
    else (c.usmReuseInfo device).allocationsSavedForReuseSize
  limit : ∀ device, (c'.usmReuseInfo device).maxAllocationsSavedForReuseSize =
    (c.usmReuseInfo device).maxAllocationsSavedForReuseSize
  size : c'.size = Function.update c.size e.svmData size
  saved : c'.isSavedForReuse = Function.update c.isSavedForReuse e.svmData false
  freed : c'.freed = c.freed

section Search

variable {allocInUse : GraphicsAllocation → Bool} {size : Nat} {properties : ReuseProperties}
  {c : SvmAllocationCache} {e : SvmCacheAllocationInfo}
  {front back allocations : List SvmCacheAllocationInfo}

theorem allocUtilizationAllows_iff (requestedSize reuseCandidateSize : Nat) :
    allocUtilizationAllows requestedSize reuseCandidateSize = true ↔
      (minimalSizeToCheckUtilization ≤ reuseCandidateSize →
        reuseCandidateSize ≤ 2 * requestedSize) := by
  unfold allocUtilizationAllows
  split
  next check => simp [check]
  next small =>
    simp only [true_iff]
    exact fun check => absurd check small

/-- A smaller candidate is used at least as much. -/
theorem allocUtilizationAllows_mono {small large : Nat} (le : small ≤ large)
    (allowed : allocUtilizationAllows size large = true) :
    allocUtilizationAllows size small = true := by
  rw [allocUtilizationAllows_iff] at allowed ⊢
  intro check
  exact le.trans (allowed (check.trans le))

theorem matchesRequest_iff : matchesRequest allocInUse properties e = true ↔
    e.svmData.device = properties.device ∧ e.svmData.allFlags = properties.allFlags ∧
      e.svmData.allAllocFlags = properties.allAllocFlags ∧
      alignmentAllows e.allocation properties.alignment = true ∧
      isInUse allocInUse e = false := by
  simp only [matchesRequest, Bool.and_eq_true, decide_eq_true_eq, Bool.not_eq_true', and_assoc]

/-- The three tests of the search, the first of which the start at the lower bound makes. -/
theorem reusable_iff : Reusable allocInUse size properties e ↔
    size ≤ e.allocationSize ∧ allocUtilizationAllows size e.allocationSize = true ∧
      matchesRequest allocInUse properties e = true := by
  rw [allocUtilizationAllows_iff, matchesRequest_iff]
  constructor
  · rintro ⟨large, utilized, device, allFlags, allAllocFlags, aligned, idle⟩
    exact ⟨large, utilized, device, allFlags, allAllocFlags, aligned, idle⟩
  · rintro ⟨large, utilized, device, allFlags, allAllocFlags, aligned, idle⟩
    exact ⟨large, utilized, device, allFlags, allAllocFlags, aligned, idle⟩

instance : Decidable (Reusable allocInUse size properties e) :=
  decidable_of_iff _ reusable_iff.symm

/-- Where an entry can be taken, there is a first one. -/
theorem first_reusable (member : e ∈ allocations)
    (reusable : Reusable allocInUse size properties e) :
    ∃ front first back, allocations = front ++ first :: back ∧
      (∀ f ∈ front, ¬ Reusable allocInUse size properties f) ∧
      Reusable allocInUse size properties first := by
  obtain ⟨first, found⟩ := Option.isSome_iff_exists.mp (List.find?_isSome
    (p := fun f => decide (Reusable allocInUse size properties f)).mpr
      ⟨e, member, decide_eq_true reusable⟩)
  obtain ⟨fits, front, back, split, skipped⟩ := List.find?_eq_some_iff_append.mp found
  refine ⟨front, first, back, split, ?_, of_decide_eq_true fits⟩
  intro f inside
  simpa using skipped f inside

/-- The search passes over entries that cannot be taken, up to the first one that can. -/
theorem findReusable_first (sorted : (front ++ e :: back).Pairwise BySize)
    (large : ∀ f ∈ front, size ≤ f.allocationSize)
    (skipped : ∀ f ∈ front, ¬ Reusable allocInUse size properties f)
    (reusable : Reusable allocInUse size properties e) (i : Nat) :
    findReusable allocInUse size properties (front ++ e :: back) i =
      some (i + front.length, e) := by
  obtain ⟨-, utilized, matching⟩ := reusable_iff.mp reusable
  induction front generalizing i with
  | nil => simp [findReusable, utilized, matching]
  | cons first rest ih =>
    have smaller : first.allocationSize ≤ e.allocationSize :=
      (List.pairwise_cons.mp sorted).1 e (by simp)
    have allowed := allocUtilizationAllows_mono smaller utilized
    have mismatch : matchesRequest allocInUse properties first ≠ true := by
      intro matching
      exact skipped first (by simp) (reusable_iff.mpr ⟨large first (by simp), allowed, matching⟩)
    rw [List.cons_append, findReusable, if_neg (by simp [allowed]), if_neg mismatch]
    rw [ih (List.pairwise_cons.mp sorted).2 (fun f inside => large f (List.mem_cons_of_mem _ inside))
      (fun f inside => skipped f (List.mem_cons_of_mem _ inside)), List.length_cons]
    congr 2
    omega

/-- Without an entry to take, the search finds nothing. -/
theorem findReusable_none (large : ∀ f ∈ allocations, size ≤ f.allocationSize)
    (skipped : ∀ f ∈ allocations, ¬ Reusable allocInUse size properties f) (i : Nat) :
    findReusable allocInUse size properties allocations i = none := by
  induction allocations generalizing i with
  | nil => rfl
  | cons first rest ih =>
    unfold findReusable
    split
    next => rfl
    next allowed =>
      have mismatch : matchesRequest allocInUse properties first ≠ true := by
        intro matching
        apply skipped first (by simp)
        exact reusable_iff.mpr ⟨large first (by simp), by simpa using allowed, matching⟩
      rw [if_neg mismatch]
      exact ih (fun f inside => large f (List.mem_cons_of_mem _ inside))
        (fun f inside => skipped f (List.mem_cons_of_mem _ inside)) (i + 1)

/-- In a sorted vector everything from the lower bound on is at least as large as asked for. -/
theorem drop_lowerBound_large (sorted : allocations.Pairwise BySize) :
    ∀ f ∈ allocations.drop (lowerBound allocations size), size ≤ f.allocationSize := by
  induction allocations with
  | nil => simp
  | cons first rest ih =>
    obtain ⟨smallest, sorted⟩ := List.pairwise_cons.mp sorted
    unfold lowerBound
    rw [List.takeWhile_cons]
    split
    next => exact ih sorted
    next stops =>
      have large : size ≤ first.allocationSize := by simpa using stops
      intro f inside
      rcases List.mem_cons.mp inside with rfl | later
      · exact large
      · exact large.trans (smallest f later)

/-- The lower bound does not pass an entry that is large enough. -/
theorem lowerBound_le_length (large : size ≤ e.allocationSize) :
    lowerBound (front ++ e :: back) size ≤ front.length := by
  induction front with
  | nil => simp [lowerBound, large]
  | cons first rest ih =>
    unfold lowerBound at ih ⊢
    rw [List.cons_append, List.takeWhile_cons]
    split
    · simpa using ih
    · simp

/-- No entry can be taken: the request changes nothing. -/
theorem get_none (sorted : c.allocations.Pairwise BySize)
    (skipped : ∀ f ∈ c.allocations, ¬ Reusable allocInUse size properties f) :
    c.get allocInUse size properties = (c, 0) := by
  have nothing := findReusable_none (drop_lowerBound_large sorted)
    (fun f inside => skipped f (List.mem_of_mem_drop inside)) (lowerBound c.allocations size)
  unfold get
  split
  · rfl
  · simp only [nothing]

/-- The first entry that can be taken is the one the request takes. -/
theorem get_first (allowed : size ≤ maxServicedSize) (sorted : c.allocations.Pairwise BySize)
    (split : c.allocations = front ++ e :: back)
    (skipped : ∀ f ∈ front, ¬ Reusable allocInUse size properties f)
    (reusable : Reusable allocInUse size properties e) :
    (c.get allocInUse size properties).2 = e.allocation ∧
      TakenOver c (c.get allocInUse size properties).1 size e (front ++ back) := by
  have below : lowerBound c.allocations size ≤ front.length :=
    split ▸ lowerBound_le_length reusable.large
  have rest : c.allocations.drop (lowerBound c.allocations size) =
      front.drop (lowerBound c.allocations size) ++ e :: back := by
    rw [split, List.drop_append_of_le_length (split ▸ below)]
  have found : findReusable allocInUse size properties
      (c.allocations.drop (lowerBound c.allocations size)) (lowerBound c.allocations size) =
        some (front.length, e) := by
    have large : ∀ f ∈ c.allocations.drop (lowerBound c.allocations size),
        size ≤ f.allocationSize := drop_lowerBound_large sorted
    have tail := sorted.sublist (List.drop_sublist (lowerBound c.allocations size) _)
    rw [rest] at large tail ⊢
    rw [findReusable_first tail (fun f inside => large f (List.mem_append_left _ inside))
      (fun f inside => skipped f (List.mem_of_mem_drop inside)) reusable, List.length_drop]
    congr 2
    omega
  have served : ¬ sizeAllowed size = false := by simpa [sizeAllowed] using allowed
  unfold get
  rw [if_neg served]
  simp only [found]
  refine ⟨trivial, ?_, ?_, recordGet_limit, rfl, rfl, rfl⟩
  · rw [recordGet_allocations, split, List.eraseIdx_append_of_length_le (Nat.le_refl _),
      Nat.sub_self, List.eraseIdx_cons_zero]
  · intro device
    simp only [recordGet, setReuseInfo, Function.update_apply]
    split
    next own => rw [own, UsmReuseInfo.recordAllocationGetFromReuse]
    next => rfl

/-- Without an entry that fits, a request gets null and changes nothing; else it takes over the
first one in the order of sizes, which is a smallest one. -/
theorem get_bestFit (allowed : size ≤ maxServicedSize)
    (sorted : c.allocations.Pairwise BySize) (pointers : ∀ f ∈ c.allocations, f.allocation ≠ 0) :
    ((c.get allocInUse size properties).2 = 0 ↔
      ∀ f ∈ c.allocations, ¬ Reusable allocInUse size properties f) ∧
    ((c.get allocInUse size properties).2 = 0 →
      (c.get allocInUse size properties).1 = c) ∧
    ∀ front e back, c.allocations = front ++ e :: back →
      (∀ f ∈ front, ¬ Reusable allocInUse size properties f) →
      Reusable allocInUse size properties e →
      (c.get allocInUse size properties).2 = e.allocation ∧
      TakenOver c (c.get allocInUse size properties).1 size e (front ++ back) ∧
      ∀ f ∈ c.allocations, Reusable allocInUse size properties f →
        e.allocationSize ≤ f.allocationSize := by
  have null : (c.get allocInUse size properties).2 = 0 ↔
      ∀ f ∈ c.allocations, ¬ Reusable allocInUse size properties f := by
    constructor
    · intro null f member reusable
      obtain ⟨front, first, back, split, skipped, fits⟩ := first_reusable member reusable
      have taken := (get_first allowed sorted split skipped fits).1
      have inside : first ∈ c.allocations := by simp [split]
      exact pointers first inside (taken.symm.trans null)
    · intro skipped
      rw [get_none sorted skipped]
  refine ⟨null, ?_, ?_⟩
  · intro skipped
    rw [get_none sorted (null.mp skipped)]
  · intro front e back split skipped reusable
    obtain ⟨pointer, taken⟩ := get_first allowed sorted split skipped reusable
    refine ⟨pointer, taken, ?_⟩
    intro f inside fits
    rw [split] at inside sorted
    rcases List.mem_append.mp inside with early | late
    · exact absurd fits (skipped f early)
    · rcases List.mem_cons.mp late with rfl | later
      · exact Nat.le_refl _
      · have tail := (List.pairwise_append.mp sorted).2.1
        exact (List.pairwise_cons.mp tail).1 f later

end Search

/-- Two pages wait for reuse, then three. -/
def pagesCache : SvmAllocationCache where
  allocations := [⟨8192, 4096, ⟨1, [], none, none, 0, 0, false, false⟩, 0, true⟩,
    ⟨12288, 16384, ⟨2, [], none, none, 0, 0, false, false⟩, 0, true⟩]
  usmReuseInfo := fun _ => { maxAllocationsSavedForReuseSize := 65536
                             allocationsSavedForReuseSize := 20480 }

theorem get_bestFit_pages :
    (pagesCache.get (fun _ => false) 5000 {}).2 = 4096 ∧
      (pagesCache.get (fun _ => false) 9000 {}).2 = 16384 ∧
      (pagesCache.get (fun _ => false) 20000 {}).2 = 0 := by
  have sorted : pagesCache.allocations.Pairwise BySize := by simp [pagesCache, BySize]
  have pointers : ∀ f ∈ pagesCache.allocations, f.allocation ≠ 0 := by simp [pagesCache]
  have served (size : Nat) (allowed : size ≤ maxServicedSize) :=
    @get_bestFit (fun _ => false) size {} pagesCache allowed sorted pointers
  refine ⟨?_, ?_, ?_⟩
  · exact ((served 5000 (by decide)).2.2 [] _ _ rfl (by simp) (by decide)).1
  · exact ((served 9000 (by decide)).2.2 [_] _ _ rfl (by decide) (by decide)).1
  · exact (served 20000 (by decide)).1.mpr (by decide)

end SvmAllocationCache

end ComputeRuntime
