import Mathlib.Algebra.BigOperators.Group.List.Basic
import Mathlib.Data.List.Nodup
import Mathlib.Data.List.Perm.Basic
import ComputeRuntime.Library.Transition
import ComputeRuntime.UnifiedMemory.AllocationCache

/-! The reuse cache keeps its vector sorted, its budgets equal to what is cached and its flags
true, in every state that its operations reach. -/
namespace ComputeRuntime

open Transition

namespace SvmAllocationCache

/-- The sizes of the cached entries of one device, or of no device, added up. -/
def savedSize (device : Option Nat) (allocations : List SvmCacheAllocationInfo) : Nat :=
  ((allocations.filter fun e => e.svmData.device = device).map (·.allocationSize)).sum

theorem savedSize_cons (device : Option Nat) (e : SvmCacheAllocationInfo)
    (allocations : List SvmCacheAllocationInfo) :
    savedSize device (e :: allocations) =
      (if e.svmData.device = device then e.allocationSize else 0) + savedSize device allocations := by
  unfold savedSize
  rw [List.filter_cons]
  by_cases own : e.svmData.device = device <;> simp [own]

theorem savedSize_perm (device : Option Nat) {xs ys : List SvmCacheAllocationInfo}
    (perm : xs.Perm ys) : savedSize device xs = savedSize device ys :=
  ((perm.filter _).map _).sum_eq

/-- The entries that a running trim has not given up yet. -/
def unmarked (allocations : List SvmCacheAllocationInfo) : List SvmCacheAllocationInfo :=
  allocations.filter fun e => !e.isMarkedForDelete

def BySize (a b : SvmCacheAllocationInfo) : Prop := a.allocationSize ≤ b.allocationSize

/-- The allocation waits for reuse: its flag is set and no trim has freed it. -/
def Waiting (c : SvmAllocationCache) (svmData : SvmAllocationData) : Prop :=
  c.isSavedForReuse svmData = true ∧ svmData ∉ c.freed.map Prod.fst

/-- Budgets far enough from the end of the 64-bit range that adding one serviced size to what is
saved cannot wrap; `initUsmReuseLimits` sets them to a part of the memory there is. -/
def Limits (limits : Option Nat → Nat) : Prop := ∀ device, limits device + maxServicedSize < 2 ^ 64

/-- What holds between any two steps of an operation, also while `trimOldAllocs` has marked some
entries. -/
structure Kept (limits : Option Nat → Nat) (c : SvmAllocationCache) : Prop where
  limit : ∀ device, (c.usmReuseInfo device).maxAllocationsSavedForReuseSize = limits device
  counted : ∀ device, (c.usmReuseInfo device).allocationsSavedForReuseSize =
    savedSize device c.allocations
  budget : ∀ device, savedSize device c.allocations ≤ limits device
  once : (c.allocations.map (·.svmData)).Nodup
  sorted : (unmarked c.allocations).Pairwise BySize
  waiting : ∀ svmData, (∃ e ∈ unmarked c.allocations, e.svmData = svmData) ↔ c.Waiting svmData

section Remove

variable {limits : Option Nat → Nat} {c c' : SvmAllocationCache} {e : SvmCacheAllocationInfo}
  {rest : List SvmCacheAllocationInfo}

theorem recordGet_saved (enough : e.allocationSize ≤
      (c.usmReuseInfo e.svmData.device).allocationsSavedForReuseSize)
    (fits : (c.usmReuseInfo e.svmData.device).allocationsSavedForReuseSize < 2 ^ 64)
    (device : Option Nat) :
    ((c.recordGet e).usmReuseInfo device).allocationsSavedForReuseSize =
      (c.usmReuseInfo device).allocationsSavedForReuseSize -
        (if e.svmData.device = device then e.allocationSize else 0) := by
  unfold recordGet setReuseInfo
  by_cases own : e.svmData.device = device
  · subst own
    simp only [Function.update_self, UsmReuseInfo.recordAllocationGetFromReuse, if_true]
    exact Word.sub_eq enough fits
  · simp only [Function.update_of_ne (Ne.symm own), own, if_false, Nat.sub_zero]

theorem recordGet_limit (device : Option Nat) :
    ((c.recordGet e).usmReuseInfo device).maxAllocationsSavedForReuseSize =
      (c.usmReuseInfo device).maxAllocationsSavedForReuseSize := by
  unfold recordGet setReuseInfo
  by_cases own : e.svmData.device = device
  · subst own
    simp only [Function.update_self, UsmReuseInfo.recordAllocationGetFromReuse]
  · simp only [Function.update_of_ne (Ne.symm own)]

/-- Giving the budget of a cached entry back never underflows. -/
theorem Kept.enough (kept : Kept limits c) (member : e ∈ c.allocations) :
    e.allocationSize ≤ (c.usmReuseInfo e.svmData.device).allocationsSavedForReuseSize := by
  rw [kept.counted, savedSize_perm _ (List.perm_cons_erase member), savedSize_cons, if_pos rfl]
  exact Nat.le_add_right _ _

theorem Kept.fits (kept : Kept limits c) (bounded : Limits limits) (device : Option Nat) :
    (c.usmReuseInfo device).allocationsSavedForReuseSize < 2 ^ 64 := by
  have := kept.counted device
  have := kept.budget device
  have := bounded device
  omega

theorem unmarked_perm {xs ys : List SvmCacheAllocationInfo} (perm : xs.Perm ys) :
    (unmarked xs).Perm (unmarked ys) := perm.filter _

/-- Taking one entry out, or marking it, after giving its budget back. -/
theorem Kept.remove (kept : Kept limits c) (bounded : Limits limits)
    (perm : c.allocations.Perm (e :: rest)) (present : e.isMarkedForDelete = false)
    (info : c'.usmReuseInfo = (c.recordGet e).usmReuseInfo)
    (after : c'.allocations.Perm rest ∨ c'.allocations.Perm (e.markForDelete :: rest))
    (sublist : (unmarked c'.allocations).Sublist (unmarked c.allocations))
    (waiting : ∀ d, c'.Waiting d ↔ c.Waiting d ∧ d ≠ e.svmData) : Kept limits c' := by
  have member : e ∈ c.allocations := perm.mem_iff.mpr (by simp)
  have total : ∀ device, savedSize device c.allocations =
      (if e.svmData.device = device then e.allocationSize else 0) + savedSize device rest :=
    fun device => (savedSize_perm device perm).trans (savedSize_cons device e rest)
  have left : ∀ device, savedSize device c'.allocations = savedSize device rest := by
    intro device
    rcases after with after | after
    · exact savedSize_perm device after
    · rw [savedSize_perm device after, savedSize_cons]
      split <;> exact Nat.zero_add _
  have once := ((perm.map (·.svmData)).nodup_iff).mp kept.once
  have others : ∀ d, (∃ f ∈ unmarked c'.allocations, f.svmData = d) ↔
      ∃ f ∈ unmarked rest, f.svmData = d := by
    intro d
    rcases after with after | after
    · simp only [(unmarked_perm after).mem_iff]
    · have same : unmarked (e.markForDelete :: rest) = unmarked rest := by
        simp [unmarked, SvmCacheAllocationInfo.markForDelete,
          SvmCacheAllocationInfo.isMarkedForDelete]
      simp only [(unmarked_perm after).mem_iff, same]
  refine ⟨fun device => ?_, fun device => ?_, fun device => ?_, ?_,
    kept.sorted.sublist sublist, fun d => ?_⟩
  · rw [info, recordGet_limit, kept.limit]
  · rw [info, recordGet_saved (kept.enough member) (kept.fits bounded _), kept.counted, total, left]
    omega
  · have := kept.budget device
    have := total device
    have := left device
    omega
  · rcases after with after | after
    · exact ((after.map (·.svmData)).nodup_iff).mpr (List.nodup_cons.mp once).2
    · exact ((after.map (·.svmData)).nodup_iff).mpr once
  · rw [others d, waiting d, ← kept.waiting d]
    have head : unmarked (e :: rest) = e :: unmarked rest := by simp [unmarked, present]
    simp only [(unmarked_perm perm).mem_iff, head, List.exists_mem_cons_iff]
    constructor
    · rintro ⟨f, found, rfl⟩
      refine ⟨Or.inr ⟨f, found, rfl⟩, fun same => (List.nodup_cons.mp once).1 ?_⟩
      exact List.mem_map.mpr ⟨f, (List.mem_filter.mp found).1, same⟩
    · rintro ⟨rfl | found, different⟩
      · exact absurd rfl different
      · exact found

end Remove

/-- The invariant between operations: nothing is marked. -/
structure Inv (limits : Option Nat → Nat) (c : SvmAllocationCache) : Prop where
  kept : Kept limits c
  full : ∀ e ∈ c.allocations, e.isMarkedForDelete = false

theorem unmarked_eq {allocations : List SvmCacheAllocationInfo}
    (full : ∀ e ∈ allocations, e.isMarkedForDelete = false) :
    unmarked allocations = allocations :=
  List.filter_eq_self.mpr fun e member => by simp [full e member]

/-! ### Inserting -/

theorem lowerBound_le (allocations : List SvmCacheAllocationInfo) (size : Nat) :
    lowerBound allocations size ≤ allocations.length :=
  (List.takeWhile_sublist _).length_le

theorem insertIdx_lowerBound_sorted {allocations : List SvmCacheAllocationInfo}
    (new : SvmCacheAllocationInfo) (sorted : allocations.Pairwise BySize) :
    (allocations.insertIdx (lowerBound allocations new.allocationSize) new).Pairwise BySize := by
  induction allocations with
  | nil => simp [lowerBound]
  | cons first rest ih =>
    have parts := List.pairwise_cons.mp sorted
    by_cases smaller : first.allocationSize < new.allocationSize
    · have next : lowerBound (first :: rest) new.allocationSize =
          lowerBound rest new.allocationSize + 1 := by simp [lowerBound, smaller]
      rw [next, List.insertIdx_succ_cons]
      refine List.pairwise_cons.mpr ⟨fun e member => ?_, ih parts.2⟩
      have position := lowerBound_le rest new.allocationSize
      rcases List.mem_cons.mp ((List.perm_insertIdx new rest position).mem_iff.mp member) with
        rfl | old
      · exact Nat.le_of_lt smaller
      · exact parts.1 e old
    · have here : lowerBound (first :: rest) new.allocationSize = 0 := by simp [lowerBound, smaller]
      rw [here, List.insertIdx_zero]
      refine List.pairwise_cons.mpr ⟨fun e member => ?_, sorted⟩
      have above := Nat.le_of_not_lt smaller
      rcases List.mem_cons.mp member with rfl | later
      · exact above
      · exact Nat.le_trans above (parts.1 e later)

section Operations

variable {limits : Option Nat → Nat} {c : SvmAllocationCache}

/-- A tracked allocation that no trim has freed, of non-zero size. -/
theorem insert_inv (inv : Inv limits c) (bounded : Limits limits)
    {shouldLimitAllocationsReuse waitForCompletion : Bool} {now size ptr : Nat}
    {svmData : SvmAllocationData} (alive : svmData ∉ c.freed.map Prod.fst) (nonzero : size ≠ 0) :
    Inv limits
      (c.insert shouldLimitAllocationsReuse now size ptr svmData waitForCompletion).1 := by
  unfold insert
  split
  next => exact inv
  next accepted =>
    split
    next => exact inv
    next =>
      split
      next => exact inv
      next unsaved =>
        simp only
        split
        next => exact inv
        next affordable =>
          have allowed : size ≤ maxServicedSize := by
            simp only [sizeAllowed, decide_eq_false_iff_not, not_or, not_not] at accepted
            exact accepted.1
          have counted := inv.kept.counted svmData.device
          have budget := inv.kept.budget svmData.device
          have room := bounded svmData.device
          have sum : add64 size
              (c.usmReuseInfo svmData.device).allocationsSavedForReuseSize =
              size + (c.usmReuseInfo svmData.device).allocationsSavedForReuseSize :=
            Word.add_eq (by omega)
          rw [sum, inv.kept.limit] at affordable
          have position := lowerBound_le c.allocations size
          have perm := List.perm_insertIdx (⟨size, ptr, svmData, now, waitForCompletion⟩ :
            SvmCacheAllocationInfo) c.allocations position
          have full : ∀ e ∈ c.allocations.insertIdx (lowerBound c.allocations size)
              ⟨size, ptr, svmData, now, waitForCompletion⟩, e.isMarkedForDelete = false := by
            intro e member
            rcases List.mem_cons.mp (perm.mem_iff.mp member) with rfl | old
            · simpa [SvmCacheAllocationInfo.isMarkedForDelete] using nonzero
            · exact inv.full e old
          have grown : ∀ device, savedSize device (c.allocations.insertIdx
              (lowerBound c.allocations size) ⟨size, ptr, svmData, now, waitForCompletion⟩) =
              (if svmData.device = device then size else 0) + savedSize device c.allocations :=
            fun device => (savedSize_perm device perm).trans (savedSize_cons device _ _)
          have waits := inv.kept.waiting
          rw [unmarked_eq inv.full] at waits
          have absent : svmData ∉ c.allocations.map (·.svmData) := by
            intro member
            obtain ⟨e, found, same⟩ := List.mem_map.mp member
            exact unsaved ((waits svmData).mp ⟨e, found, same⟩).1
          refine ⟨⟨fun device => ?_, fun device => ?_, fun device => ?_, ?_, ?_, fun d => ?_⟩,
            full⟩
          · unfold setReuseInfo
            by_cases own : svmData.device = device
            · subst own
              simpa [UsmReuseInfo.recordAllocationSaveForReuse] using inv.kept.limit _
            · simpa [Function.update_of_ne (Ne.symm own)] using inv.kept.limit device
          · unfold setReuseInfo
            simp only [grown]
            by_cases own : svmData.device = device
            · subst own
              simp only [Function.update_self, UsmReuseInfo.recordAllocationSaveForReuse, if_true]
              rw [add64, Word.add_eq (by omega)]
              omega
            · simpa [Function.update_of_ne (Ne.symm own), own] using inv.kept.counted device
          · simp only [setReuseInfo_allocations, grown]
            have old := inv.kept.budget device
            split
            next own => subst own; omega
            next => omega
          · refine ((perm.map (·.svmData)).nodup_iff).mpr (List.nodup_cons.mpr ⟨absent, ?_⟩)
            exact inv.kept.once
          · simp only [setReuseInfo_allocations, unmarked_eq full]
            have sorted := inv.kept.sorted
            rw [unmarked_eq inv.full] at sorted
            exact insertIdx_lowerBound_sorted ⟨size, ptr, svmData, now, waitForCompletion⟩ sorted
          · simp only [setReuseInfo_allocations, setReuseInfo_isSavedForReuse, setReuseInfo_freed,
              unmarked_eq full, perm.mem_iff, List.exists_mem_cons_iff, waits d, Waiting]
            by_cases same : d = svmData
            · subst same
              simp [alive]
            · simp [Function.update_of_ne same, Ne.symm same]

/-! ### Taking over -/

theorem findReusable_spec {allocInUse : GraphicsAllocation → Bool} {size : Nat}
    {properties : ReuseProperties} {allocations : List SvmCacheAllocationInfo} {i j : Nat}
    {e : SvmCacheAllocationInfo}
    (found : findReusable allocInUse size properties allocations i = some (j, e)) :
    ∃ k, j = i + k ∧ allocations[k]? = some e := by
  induction allocations generalizing i with
  | nil => cases found
  | cons first rest ih =>
    unfold findReusable at found
    split at found
    · cases found
    · split at found
      · cases found
        exact ⟨0, rfl, rfl⟩
      · obtain ⟨k, rfl, at_k⟩ := ih found
        exact ⟨k + 1, by omega, by simpa using at_k⟩

theorem get_inv (inv : Inv limits c) (bounded : Limits limits)
    (allocInUse : GraphicsAllocation → Bool) (size : Nat) (properties : ReuseProperties) :
    Inv limits (c.get allocInUse size properties).1 := by
  unfold get
  split
  next => exact inv
  next =>
    simp only
    split
    next => exact inv
    next i e found =>
      obtain ⟨k, rfl, at_k⟩ := findReusable_spec found
      rw [List.getElem?_drop] at at_k
      obtain ⟨inside, rfl⟩ := List.getElem?_eq_some_iff.mp at_k
      generalize lowerBound c.allocations size + k = i at inside
      have erased : ∀ e ∈ c.allocations.eraseIdx i, e ∈ c.allocations :=
        fun e member => List.mem_of_mem_eraseIdx member
      refine ⟨inv.kept.remove bounded (List.getElem_cons_eraseIdx_perm inside).symm
        (inv.full _ (List.getElem_mem inside)) rfl (Or.inl (.refl _))
        ((List.eraseIdx_sublist _ _).filter _) fun d => ?_, fun e member => ?_⟩
      · simp only [Waiting, recordGet_isSavedForReuse, recordGet_freed]
        by_cases same : d = (c.allocations[i]).svmData
        · subst same
          simp
        · simp [same]
      · exact inv.full e (erased e member)

/-! ### Trimming -/

theorem release_waiting (policy : FreePolicyType) (c : SvmAllocationCache)
    (e : SvmCacheAllocationInfo) (d : SvmAllocationData) :
    (release policy c e).Waiting d ↔ c.Waiting d ∧ d ≠ e.svmData := by
  simp only [Waiting, release, recordGet_isSavedForReuse, List.map_cons, List.mem_cons, not_or]
  tauto

theorem unmarked_set_sublist (allocations : List SvmCacheAllocationInfo) (i : Nat)
    (e : SvmCacheAllocationInfo) :
    (unmarked (allocations.set i e.markForDelete)).Sublist (unmarked allocations) := by
  have marked : e.markForDelete.isMarkedForDelete = true := by
    simp [SvmCacheAllocationInfo.markForDelete, SvmCacheAllocationInfo.isMarkedForDelete]
  unfold unmarked
  induction allocations generalizing i with
  | nil => simp
  | cons first rest ih =>
    cases i with
    | zero =>
      rw [List.set_cons_zero, List.filter_cons_of_neg (by simp [marked])]
      exact (List.sublist_cons_self _ _).filter _
    | succ i =>
      rw [List.set_cons_succ, List.filter_cons, List.filter_cons]
      split
      · exact (ih i).cons_cons _
      · exact ih i

/-- The loop that marks: what lies below its index is unmarked yet. -/
theorem trimOldLoop_kept (bounded : Limits limits) (trimTimePoint i : Nat)
    (kept : Kept limits c)
    (todo : ∀ j < i, ∀ e, c.allocations[j]? = some e → e.isMarkedForDelete = false) :
    Kept limits (trimOldLoop trimTimePoint true i c) := by
  induction i generalizing c with
  | zero => exact kept
  | succ i ih =>
    unfold trimOldLoop
    split
    next => exact kept
    next e at_i =>
      split
      next => exact ih kept fun j below => todo j (by omega)
      next =>
        simp only [if_true]
        have present := todo i (by omega) e at_i
        obtain ⟨inside, rfl⟩ := List.getElem?_eq_some_iff.mp at_i
        refine ih (kept.remove bounded (List.getElem_cons_eraseIdx_perm inside).symm present rfl
          (Or.inr (List.set_perm_cons_eraseIdx inside _)) (unmarked_set_sublist _ _ _)
          (release_waiting .defer c _)) fun j below e at_j => ?_
        rw [List.getElem?_set_ne (by omega)] at at_j
        exact todo j (by omega) e at_j

/-- The loop that erases the youngest old entry. -/
theorem trimOldLoop_inv (bounded : Limits limits) (trimTimePoint i : Nat) (inv : Inv limits c) :
    Inv limits (trimOldLoop trimTimePoint false i c) := by
  induction i with
  | zero => exact inv
  | succ i ih =>
    unfold trimOldLoop
    split
    next => exact inv
    next e at_i =>
      split
      next => exact ih
      next =>
        obtain ⟨inside, rfl⟩ := List.getElem?_eq_some_iff.mp at_i
        refine ⟨inv.kept.remove bounded (List.getElem_cons_eraseIdx_perm inside).symm
          (inv.full _ (List.getElem_mem inside)) rfl (Or.inl (.refl _))
          ((List.eraseIdx_sublist _ _).filter _) (release_waiting .defer c _), fun e member => ?_⟩
        exact inv.full e (List.mem_of_mem_eraseIdx member)

theorem savedSize_unmarked (device : Option Nat) (allocations : List SvmCacheAllocationInfo) :
    savedSize device (unmarked allocations) = savedSize device allocations := by
  induction allocations with
  | nil => rfl
  | cons e allocations ih =>
    rw [savedSize_cons, ← ih]
    by_cases marked : e.isMarkedForDelete = true
    · have empty : e.allocationSize = 0 := by
        simpa [SvmCacheAllocationInfo.isMarkedForDelete] using marked
      simp [unmarked, marked, empty]
    · have present : unmarked (e :: allocations) = e :: unmarked allocations := by
        simp [unmarked, marked]
      rw [present, savedSize_cons]

/-- Erasing the marked entries at the end of a trim. -/
theorem Kept.sweep (kept : Kept limits c) :
    Inv limits { c with allocations := unmarked c.allocations } := by
  have full : ∀ e ∈ unmarked c.allocations, e.isMarkedForDelete = false := by
    intro e member
    simpa using (List.mem_filter.mp member).2
  refine ⟨⟨kept.limit, fun device => ?_, fun device => ?_, ?_, ?_, fun d => ?_⟩, full⟩
  · rw [kept.counted, savedSize_unmarked]
  · rw [savedSize_unmarked]
    exact kept.budget device
  · exact kept.once.sublist (List.filter_sublist.map _)
  · rw [unmarked_eq full]
    exact kept.sorted
  · rw [unmarked_eq full]
    exact kept.waiting d

theorem trimOldAllocs_inv (inv : Inv limits c) (bounded : Limits limits) (trimTimePoint : Nat)
    (trimAll : Bool) : Inv limits (c.trimOldAllocs trimTimePoint trimAll) := by
  cases trimAll with
  | false => exact trimOldLoop_inv bounded trimTimePoint _ inv
  | true =>
    refine (trimOldLoop_kept bounded trimTimePoint _ inv.kept fun j _ e at_j => ?_).sweep
    exact inv.full e (List.mem_of_getElem? at_j)

/-- Releasing every entry gives the whole budget back and frees everything that waited. -/
theorem foldl_release (policy : FreePolicyType) (todo : List SvmCacheAllocationInfo)
    (counted : ∀ device, (c.usmReuseInfo device).allocationsSavedForReuseSize =
      savedSize device todo)
    (fits : ∀ device, savedSize device todo < 2 ^ 64) :
    let c' := todo.foldl (release policy) c
    (∀ device, (c'.usmReuseInfo device).maxAllocationsSavedForReuseSize =
      (c.usmReuseInfo device).maxAllocationsSavedForReuseSize) ∧
    (∀ device, (c'.usmReuseInfo device).allocationsSavedForReuseSize = 0) ∧
    ∀ d, c'.Waiting d ↔ c.Waiting d ∧ d ∉ todo.map (·.svmData) := by
  induction todo generalizing c with
  | nil => exact ⟨fun _ => rfl, counted, fun d => by simp⟩
  | cons e todo ih =>
    have enough : e.allocationSize ≤
        (c.usmReuseInfo e.svmData.device).allocationsSavedForReuseSize := by
      rw [counted, savedSize_cons, if_pos rfl]
      exact Nat.le_add_right _ _
    have left : ∀ device, ((release policy c e).usmReuseInfo device).allocationsSavedForReuseSize =
        savedSize device todo := by
      intro device
      have saved := recordGet_saved enough (by rw [counted]; exact fits _) device
      rw [counted device, savedSize_cons, Nat.add_sub_cancel_left] at saved
      exact saved
    have tail := ih left fun device => by
      have := fits device
      rw [savedSize_cons] at this
      omega
    refine ⟨fun device => (tail.1 device).trans (recordGet_limit device), tail.2.1, fun d => ?_⟩
    rw [List.foldl_cons, tail.2.2 d, release_waiting]
    simp only [List.map_cons, List.mem_cons, not_or]
    tauto

theorem trim_inv (inv : Inv limits c) (bounded : Limits limits) : Inv limits c.trim := by
  have released := foldl_release .none c.allocations inv.kept.counted fun device => by
    rw [← inv.kept.counted]
    exact inv.kept.fits bounded device
  refine ⟨⟨fun device => (released.1 device).trans (inv.kept.limit device), released.2.1,
    fun device => Nat.zero_le _, .nil, .nil, fun d => ?_⟩, by simp [trim]⟩
  have waits := inv.kept.waiting d
  rw [unmarked_eq inv.full] at waits
  have none := released.2.2 d
  simp only [trim, unmarked, List.filter_nil, List.not_mem_nil, false_and, exists_false,
    false_iff]
  intro waiting
  obtain ⟨old, gone⟩ := none.mp waiting
  obtain ⟨e, member, same⟩ := waits.mpr old
  exact gone (List.mem_map.mpr ⟨e, member, same⟩)

end Operations

/-! ### Runs -/

inductive Action where
  | insert (shouldLimitAllocationsReuse : Bool) (now size ptr : Nat) (svmData : SvmAllocationData)
      (waitForCompletion : Bool)
  | get (allocInUse : GraphicsAllocation → Bool) (size : Nat) (properties : ReuseProperties)
  | trim
  | trimOldAllocs (trimTimePoint : Nat) (trimAll : Bool)

def perform (c : SvmAllocationCache) : Action → SvmAllocationCache
  | .insert limit now size ptr svmData wait => (c.insert limit now size ptr svmData wait).1
  | .get allocInUse size properties => (c.get allocInUse size properties).1
  | .trim => c.trim
  | .trimOldAllocs trimTimePoint trimAll => c.trimOldAllocs trimTimePoint trimAll

/-- An allocation that a trim has freed does not exist any more and is not inserted again. -/
def Alive (c : SvmAllocationCache) : Action → Prop
  | .insert _ _ _ _ svmData _ => svmData ∉ c.freed.map Prod.fst
  | _ => True

def system (limits : Option Nat → Nat) : System SvmAllocationCache Action where
  init := fun c => c = { usmReuseInfo := fun device =>
    { maxAllocationsSavedForReuseSize := limits device } }
  step := fun c action c' => c.Alive action ∧ c' = c.perform action

/-- Only allocations with bytes are inserted: size 0 is what `markForDelete` uses. -/
def Sized (_ : SvmAllocationCache) : Action → Prop
  | .insert _ _ size _ _ _ => size ≠ 0
  | _ => True

/-- What a cache owes to its users. -/
structure Consistent (c : SvmAllocationCache) : Prop where
  sorted : c.allocations.Pairwise BySize
  once : (c.allocations.map (·.svmData)).Nodup
  counted : ∀ device, (c.usmReuseInfo device).allocationsSavedForReuseSize =
    savedSize device c.allocations
  budget : ∀ device, (c.usmReuseInfo device).allocationsSavedForReuseSize ≤
    (c.usmReuseInfo device).maxAllocationsSavedForReuseSize
  enough : ∀ e ∈ c.allocations, e.allocationSize ≤
    (c.usmReuseInfo e.svmData.device).allocationsSavedForReuseSize
  waiting : ∀ svmData, svmData ∈ c.allocations.map (·.svmData) ↔ c.Waiting svmData

theorem Inv.consistent {limits : Option Nat → Nat} {c : SvmAllocationCache} (inv : Inv limits c) :
    c.Consistent where
  sorted := unmarked_eq inv.full ▸ inv.kept.sorted
  once := inv.kept.once
  counted := inv.kept.counted
  budget := by
    intro device
    rw [inv.kept.counted, inv.kept.limit]
    exact inv.kept.budget device
  enough := fun _ member => inv.kept.enough member
  waiting := by
    intro svmData
    rw [← inv.kept.waiting, unmarked_eq inv.full, List.mem_map]

theorem perform_inv {limits : Option Nat → Nat} {c : SvmAllocationCache} {action : Action}
    (bounded : Limits limits) (inv : Inv limits c) (alive : c.Alive action)
    (sized : c.Sized action) : Inv limits (c.perform action) := by
  cases action with
  | insert => exact insert_inv inv bounded alive sized
  | get allocInUse size properties => exact get_inv inv bounded allocInUse size properties
  | trim => exact trim_inv inv bounded
  | trimOldAllocs trimTimePoint trimAll => exact trimOldAllocs_inv inv bounded trimTimePoint trimAll

theorem sized_invariant {limits : Option Nat → Nat} (bounded : Limits limits) :
    Invariant ((system limits).restrict Sized) (Inv limits) where
  initial := by
    rintro c rfl
    exact ⟨⟨fun _ => rfl, fun _ => rfl, fun _ => Nat.zero_le _, .nil, .nil,
      fun d => by simp [unmarked, Waiting]⟩, by simp⟩
  preserved := by
    rintro c action c' _ inv ⟨sized, alive, rfl⟩
    exact perform_inv bounded inv alive sized

/-- In every state that insertions of allocations with bytes, requests and trims reach, the cache
is sorted and free of repetitions, its budgets are exact, and an allocation is cached exactly
while it waits. -/
theorem reachable_consistent {limits : Option Nat → Nat} (bounded : Limits limits)
    {c : SvmAllocationCache} (reachable : Reachable ((system limits).restrict Sized) c) :
    c.Consistent :=
  ((sized_invariant bounded).holds reachable).consistent

section Example

/-- A budget of 64 megabytes everywhere. -/
def megabytes (_ : Option Nat) : Nat := 64 * MemoryConstants.megaByte

def freshCache : SvmAllocationCache :=
  { usmReuseInfo := fun device => { maxAllocationsSavedForReuseSize := megabytes device } }

def trackedData : SvmAllocationData := { allocId := 1, gpuAllocations := [] }

private theorem insert_step (size : Nat) : (system megabytes).step freshCache
    (.insert false 5 size 0x1000 trackedData false)
    (freshCache.insert false 5 size 0x1000 trackedData false).1 :=
  ⟨by simp [Alive, freshCache], rfl⟩

def otherData : SvmAllocationData := { allocId := 2, gpuAllocations := [] }

/-- Two allocations wait. -/
def filledCache : SvmAllocationCache :=
  ((freshCache.insert false 5 0x10000 0x1000 trackedData false).1.insert false 6 0x4000 0x20000
    otherData false).1

/-- A request takes the smaller one over. -/
def servedCache : SvmAllocationCache := (filledCache.get (fun _ => false) 0x3000 {}).1

/-- The cache is consistent then, and once a trim has freed the larger one. -/
theorem reachable_consistent_served :
    servedCache.allocations.map (·.svmData) = [trackedData] ∧ servedCache.Consistent ∧
      (servedCache.trimOldAllocs 5 true).freed = [(trackedData, .defer)] ∧
        (servedCache.trimOldAllocs 5 true).Consistent := by
  have bounded : Limits megabytes := fun _ => by
    show 64 * MemoryConstants.megaByte + maxServicedSize < 2 ^ 64
    decide
  have start : Reachable ((system megabytes).restrict Sized) freshCache := .start rfl
  have inserted : Reachable ((system megabytes).restrict Sized)
      (freshCache.insert false 5 0x10000 0x1000 trackedData false).1 := by
    apply start.next (a := .insert false 5 0x10000 0x1000 trackedData false)
    exact ⟨show 0x10000 ≠ 0 by decide, insert_step 0x10000⟩
  have filled : Reachable ((system megabytes).restrict Sized) filledCache := by
    apply inserted.next (a := .insert false 6 0x4000 0x20000 otherData false)
    exact ⟨show 0x4000 ≠ 0 by decide, List.not_mem_nil, rfl⟩
  have served : Reachable ((system megabytes).restrict Sized) servedCache := by
    apply filled.next (a := .get (fun _ => false) 0x3000 {})
    exact ⟨trivial, trivial, rfl⟩
  have trimmed : Reachable ((system megabytes).restrict Sized)
      (servedCache.trimOldAllocs 5 true) := by
    apply served.next (a := .trimOldAllocs 5 true)
    exact ⟨trivial, trivial, rfl⟩
  exact ⟨by decide, reachable_consistent bounded served, by decide,
    reachable_consistent bounded trimmed⟩

/-- An inserted allocation of size 0 looks marked to the sweep of a trim that left it alone: it
disappears from the cache without being freed. -/
theorem empty_entry_is_swept :
    ∃ c, Reachable (system megabytes) c ∧
      ∃ svmData, c.Waiting svmData ∧ svmData ∉ c.allocations.map (·.svmData) := by
  have start : Reachable (system megabytes) freshCache := .start rfl
  refine ⟨_, (start.next (insert_step 0)).next (a := .trimOldAllocs 3 true) ⟨trivial, rfl⟩,
    trackedData, ⟨rfl, by decide⟩, by decide⟩

end Example

end SvmAllocationCache

end ComputeRuntime
