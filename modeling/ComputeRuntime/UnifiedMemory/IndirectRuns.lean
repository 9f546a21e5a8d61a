import Mathlib.Data.List.Lookmap
import Mathlib.Data.List.Perm.Basic
import ComputeRuntime.Library.Transition
import ComputeRuntime.UnifiedMemory.IndirectResidency

/-! Interleavings of creations, frees and indirect submissions: what a receiver has made
resident, and which order of steps makes it miss an allocation for good. -/
namespace ComputeRuntime

open Transition GraphicsAllocation

namespace SVMAllocsManager

/-! ### Making one allocation resident -/

section Frame

variable {r : Residency} {csr : CommandStreamReceiver} {a b : GraphicsAllocation}
  {contextId other : Nat} {info : UsageInfo}

theorem setUsage_same : (r.setUsage a contextId info).usageInfos a contextId = info := by
  simp [Residency.setUsage]

theorem setUsage_other (apart : b ≠ a ∨ other ≠ contextId) :
    (r.setUsage a contextId info).usageInfos b other = r.usageInfos b other := by
  rcases apart with apart | apart
  · simp [Residency.setUsage, Function.update_of_ne apart]
  · by_cases same : b = a
    · subst same
      simp [Residency.setUsage, Function.update_of_ne apart]
    · simp [Residency.setUsage, Function.update_of_ne same]

theorem makeResident_other (apart : b ≠ a ∨ other ≠ csr.contextId) :
    (r.makeResident csr a).usageInfos b other = r.usageInfos b other := by
  unfold Residency.makeResident Residency.updateResidencyTaskCount
  rw [setUsage_other apart]
  split <;> exact setUsage_other apart

theorem makeResidentEntry_other (entry : Nat × GraphicsAllocation)
    (apart : b ≠ entry.2 ∨ other ≠ csr.contextId) :
    (makeResidentEntry csr r entry).usageInfos b other = r.usageInfos b other := by
  unfold makeResidentEntry Residency.updateResidencyTaskCount
  split
  · rfl
  · rw [setUsage_other apart, makeResident_other apart]

/-- Whatever the receiver's own task count is, the entry ends up always resident. -/
theorem makeResidentEntry_always (entry : Nat × GraphicsAllocation)
    (owned : entry.2.rootDeviceIndex = csr.rootDeviceIndex) :
    (makeResidentEntry csr r entry).Always entry.2 csr.contextId := by
  unfold makeResidentEntry Residency.updateResidencyTaskCount
  rw [if_neg (not_not.mpr owned), Residency.Always, setUsage_same]
  generalize (r.makeResident csr entry.2).usageInfos entry.2 csr.contextId = info
  unfold UsageInfo.updateResidencyTaskCount
  split
  · rfl
  next sticky =>
    rw [not_or, not_not] at sticky
    exact sticky.1

theorem makeResidentEntry_keeps (entry : Nat × GraphicsAllocation) (always : r.Always a contextId) :
    (makeResidentEntry csr r entry).Always a contextId := by
  by_cases apart : a ≠ entry.2 ∨ contextId ≠ csr.contextId
  · rw [Residency.Always, makeResidentEntry_other entry apart]
    exact always
  · simp only [not_or, not_not] at apart
    obtain ⟨rfl, rfl⟩ := apart
    by_cases owned : entry.2.rootDeviceIndex = csr.rootDeviceIndex
    · exact makeResidentEntry_always entry owned
    · rwa [makeResidentEntry, if_pos owned]

theorem foldl_keeps (entries : List (Nat × GraphicsAllocation)) (always : r.Always a contextId) :
    (entries.foldl (makeResidentEntry csr) r).Always a contextId := by
  induction entries generalizing r with
  | nil => exact always
  | cons entry entries ih => exact ih (makeResidentEntry_keeps entry always)

theorem foldl_always (entries : List (Nat × GraphicsAllocation)) {id : Nat}
    (member : (id, a) ∈ entries) (owned : a.rootDeviceIndex = csr.rootDeviceIndex) :
    (entries.foldl (makeResidentEntry csr) r).Always a csr.contextId := by
  induction entries generalizing r with
  | nil => cases member
  | cons entry entries ih =>
    rcases List.mem_cons.mp member with rfl | member
    · exact foldl_keeps entries (makeResidentEntry_always _ owned)
    · exact ih member

end Frame

/-! ### The loop over the ids -/

section Loop

variable {m : SVMAllocsManager} {csr : CommandStreamReceiver} {a : GraphicsAllocation}

theorem makeResidentForAllocationsWithId_always {id : Nat} {r : Residency}
    (member : (id, a) ∈ m.internalAllocationsMap)
    (owned : a.rootDeviceIndex = csr.rootDeviceIndex) :
    (m.makeResidentForAllocationsWithId id csr r).Always a csr.contextId :=
  foldl_always _ (List.mem_filter.mpr ⟨member, by simp⟩) owned

/-- The loop ends when the counter leaves room for one more increment. -/
theorem makeResidentLoop_returns {currentCounter : Nat} (room : currentCounter + 1 < 2 ^ 32)
    (rounds id : Nat) (enough : currentCounter + 1 ≤ id + rounds) (r : Residency) :
    ∃ r', m.makeResidentLoop csr currentCounter (rounds + 1) id r = .ok r' := by
  induction rounds generalizing id r with
  | zero =>
    rw [makeResidentLoop, if_neg (by omega)]
    exact ⟨r, rfl⟩
  | succ rounds ih =>
    rw [makeResidentLoop]
    split
    next more =>
      rw [show Word.add 32 id 1 = id + 1 from Word.add_eq (by omega)]
      exact ih (id + 1) (by omega) _
    next => exact ⟨r, rfl⟩

theorem makeResidentLoop_keeps {currentCounter fuel id contextId : Nat} {r r' : Residency}
    (always : r.Always a contextId)
    (returned : m.makeResidentLoop csr currentCounter fuel id r = .ok r') :
    r'.Always a contextId := by
  induction fuel generalizing id r with
  | zero => cases returned
  | succ fuel ih =>
    rw [makeResidentLoop] at returned
    split at returned
    · exact ih (foldl_keeps _ always) returned
    · cases returned
      exact always

/-- Every mapped allocation of the receiver's device whose id the loop passes. -/
theorem makeResidentLoop_always {currentCounter fuel id target : Nat} {r r' : Residency}
    (room : currentCounter + 1 < 2 ^ 32) (low : id ≤ target) (high : target ≤ currentCounter)
    (member : (target, a) ∈ m.internalAllocationsMap)
    (owned : a.rootDeviceIndex = csr.rootDeviceIndex)
    (returned : m.makeResidentLoop csr currentCounter fuel id r = .ok r') :
    r'.Always a csr.contextId := by
  induction fuel generalizing id r with
  | zero => cases returned
  | succ fuel ih =>
    rw [makeResidentLoop, if_pos (by omega), show Word.add 32 id 1 = id + 1 from
      Word.add_eq (by omega)] at returned
    rcases Nat.eq_or_lt_of_le low with rfl | later
    · exact makeResidentLoop_keeps (makeResidentForAllocationsWithId_always member owned) returned
    · exact ih later returned

end Loop

/-! ### Trackers -/

section Trackers

variable {m : SVMAllocsManager} {csr other : CommandStreamReceiver}
  {entry : InternalAllocationsTracker} {taskCount : Nat}

private theorem lookup_map (trackers : List (CommandStreamReceiver × InternalAllocationsTracker))
    (new : InternalAllocationsTracker) :
    (trackers.map fun e => if e.1 = csr then (csr, new) else e).lookup other =
      if other = csr then (trackers.lookup csr).map fun _ => new else trackers.lookup other := by
  induction trackers with
  | nil => simp
  | cons e trackers ih =>
    obtain ⟨key, old⟩ := e
    by_cases head : key = csr
    · by_cases asked : other = csr
      · simp [head, asked]
      · have different : (other == csr) = false := by simpa using asked
        simp only [List.map_cons, head, if_true, List.lookup_cons, different, ih, asked, if_false]
    · have different : (csr == key) = false := by simpa using fun same => head same.symm
      simp only [List.map_cons, head, if_false, List.lookup_cons, ih, different]
      by_cases asked : other = csr
      · subst asked
        simp [different]
      · simp [asked]

/-- The last id a receiver has walked past. -/
def watermark (m : SVMAllocsManager) (csr : CommandStreamReceiver) : Nat :=
  match m.tracker? csr with
  | some entry => entry.latestResidentObjectId
  | none => 0

theorem advanceTracker_same :
    (m.advanceTracker csr taskCount).1.watermark csr = max m.allocationsCounter (m.watermark csr) := by
  unfold watermark advanceTracker
  cases present : m.tracker? csr with
  | none => simp [tracker?]
  | some entry =>
    have found : m.indirectAllocationsResidency.lookup csr = some entry := present
    simp only [tracker?, lookup_map, found, Option.map_some, if_true]
    split <;> omega

theorem advanceTracker_other (different : other ≠ csr) :
    (m.advanceTracker csr taskCount).1.watermark other = m.watermark other := by
  have missed : (other == csr) = false := by simpa using different
  unfold watermark advanceTracker
  cases present : m.tracker? csr with
  | none => simp only [tracker?, List.lookup_cons, missed]
  | some entry => simp only [tracker?, lookup_map, different, if_false]

theorem advanceTracker_map (m : SVMAllocsManager) (csr : CommandStreamReceiver) (taskCount : Nat) :
    (m.advanceTracker csr taskCount).1.internalAllocationsMap = m.internalAllocationsMap ∧
      (m.advanceTracker csr taskCount).1.allocationsCounter = m.allocationsCounter := by
  unfold advanceTracker
  split <;> exact ⟨rfl, rfl⟩

/-- Nothing is walked only when the receiver has already walked past the counter. -/
theorem advanceTracker_walks (m : SVMAllocsManager) (csr : CommandStreamReceiver)
    (taskCount : Nat) :
    ((m.advanceTracker csr taskCount).2 = some (m.watermark csr)) ∨
      ((m.advanceTracker csr taskCount).2 = none ∧ m.allocationsCounter ≤ m.watermark csr) := by
  unfold watermark advanceTracker
  cases present : m.tracker? csr with
  | none => exact Or.inl rfl
  | some entry =>
    by_cases newer : m.allocationsCounter > entry.latestResidentObjectId
    · exact Or.inl (by simp [newer])
    · exact Or.inr ⟨by simp [newer], by simpa using newer⟩

end Trackers

/-! ### One call -/

section Call

variable {m m' : SVMAllocsManager} {csr : CommandStreamReceiver} {r r' : Residency}
  {a : GraphicsAllocation} {taskCount : Nat}

/-- How a call that returned went: the watermark moved up to the counter, and the residency
changed only by the walk from the old watermark, if there was one. -/
theorem makeIndirect_cases {fuel : Nat}
    (returned : makeIndirectAllocationsResident fuel m r csr taskCount = .ok (m', r')) :
    m' = (m.advanceTracker csr taskCount).1 ∧
    ((r' = r ∧ m.allocationsCounter ≤ m.watermark csr) ∨
      m'.makeResidentLoop csr m.allocationsCounter fuel
        (add64 (m.watermark csr) 1 % 2 ^ 32) r = .ok r') := by
  have same := (advanceTracker_map m csr taskCount).2
  unfold makeIndirectAllocationsResident at returned
  rcases advanceTracker_walks m csr taskCount with walks | ⟨idle, behind⟩
  · simp only [walks, same] at returned
    cases walked : (m.advanceTracker csr taskCount).1.makeResidentLoop csr m.allocationsCounter
        fuel (add64 (m.watermark csr) 1 % 2 ^ 32) r with
    | error abort =>
      rw [walked] at returned
      cases returned
    | ok walkedTo =>
      rw [walked] at returned
      cases returned
      exact ⟨rfl, Or.inr walked⟩
  · simp only [idle] at returned
    cases returned
    exact ⟨rfl, Or.inl ⟨rfl, behind⟩⟩

theorem makeIndirect_returns (room : m.allocationsCounter + 1 < 2 ^ 32)
    (behind : m.watermark csr ≤ m.allocationsCounter) :
    ∃ fuel result, makeIndirectAllocationsResident fuel m r csr taskCount = .ok result := by
  have same := (advanceTracker_map m csr taskCount).2
  unfold makeIndirectAllocationsResident
  rcases advanceTracker_walks m csr taskCount with walks | ⟨idle, _⟩
  · have start : add64 (m.watermark csr) 1 % 2 ^ 32 = m.watermark csr + 1 := by
      rw [add64, Word.add_eq (by omega), Nat.mod_eq_of_lt (by omega)]
    obtain ⟨r', returned⟩ : ∃ r', (m.advanceTracker csr taskCount).1.makeResidentLoop csr
        m.allocationsCounter (m.allocationsCounter + 1) (m.watermark csr + 1) r = .ok r' :=
      makeResidentLoop_returns room m.allocationsCounter _ (by omega) r
    exact ⟨m.allocationsCounter + 1, _, by simp only [walks, same, start, returned]; rfl⟩
  · exact ⟨0, _, by simp only [idle]; rfl⟩

theorem makeIndirect_keeps {fuel contextId : Nat} (always : r.Always a contextId)
    (returned : makeIndirectAllocationsResident fuel m r csr taskCount = .ok (m', r')) :
    r'.Always a contextId := by
  obtain ⟨_, ⟨rfl, _⟩ | walked⟩ := makeIndirect_cases returned
  · exact always
  · exact makeResidentLoop_keeps always walked

/-- Everything mapped above the watermark and up to the counter becomes resident. -/
theorem makeIndirect_always {fuel id : Nat} (room : m.allocationsCounter + 1 < 2 ^ 32)
    (above : m.watermark csr < id) (counted : id ≤ m.allocationsCounter)
    (member : (id, a) ∈ m.internalAllocationsMap)
    (owned : a.rootDeviceIndex = csr.rootDeviceIndex)
    (returned : makeIndirectAllocationsResident fuel m r csr taskCount = .ok (m', r')) :
    r'.Always a csr.contextId := by
  obtain ⟨rfl, ⟨_, behind⟩ | walked⟩ := makeIndirect_cases returned
  · omega
  · have start : add64 (m.watermark csr) 1 % 2 ^ 32 = m.watermark csr + 1 := by
      rw [add64, Word.add_eq (by omega), Nat.mod_eq_of_lt (by omega)]
    rw [start] at walked
    refine makeResidentLoop_always room above counted ?_ owned walked
    rwa [(advanceTracker_map m csr taskCount).1]

theorem makeIndirect_watermark {fuel : Nat} {other : CommandStreamReceiver}
    (returned : makeIndirectAllocationsResident fuel m r csr taskCount = .ok (m', r')) :
    m'.watermark other =
      if other = csr then max m.allocationsCounter (m.watermark csr) else m.watermark other := by
  rw [(makeIndirect_cases returned).1]
  split
  next same => rw [same, advanceTracker_same]
  next different => exact advanceTracker_other different

/-- Preparing an allocation for its destruction touches nothing else. -/
theorem prepare_other {allocationData : SvmAllocationData} {isNonBlockingFree : Bool}
    {contextId : Nat} (apart : a ∉ allocationData.gpuAllocations) :
    (m.prepareIndirectAllocationForDestruction allocationData isNonBlockingFree r).usageInfos a
      contextId = r.usageInfos a contextId := by
  unfold prepareIndirectAllocationForDestruction
  generalize m.indirectAllocationsResidency = trackers
  induction trackers generalizing r with
  | nil => rfl
  | cons entry trackers ih =>
    rw [List.foldl_cons, ih]
    unfold prepareEntry
    split
    · rfl
    next gpuAllocation found =>
      have different : a ≠ gpuAllocation := fun same => apart (same ▸ List.mem_of_find?_eq_some found)
      simp only
      split
      · simp only [Residency.updateTaskCount, Residency.updateResidencyTaskCount,
          setUsage_other (Or.inl different)]
      · rfl

end Call

/-! ### Runs -/

/-- The manager with what its callers are doing: creations between their two steps (each in a
thread of its own), completed ones, and ones being freed. -/
structure World where
  manager : SVMAllocsManager := {}
  residency : Residency := {}
  pending : List SvmAllocationData := []
  live : List SvmAllocationData := []
  freeing : List SvmAllocationData := []

inductive Action where
  | reserve (gpuAllocations : List GraphicsAllocation)
  | insert (creation : SvmAllocationData)
  | makeIndirect (csr : CommandStreamReceiver) (taskCount : Nat)
  | submit (csr : CommandStreamReceiver)
  | prepareFree (creation : SvmAllocationData) (isNonBlockingFree : Bool)
  | freeData (creation : SvmAllocationData)

def World.creations (w : World) : List SvmAllocationData := w.pending ++ (w.live ++ w.freeing)

/-- Two creations that do not interfere: their ids differ and they share no allocation. -/
def Apart (c d : SvmAllocationData) : Prop :=
  c.allocId ≠ d.allocId ∧ c.gpuAllocations.Disjoint d.gpuAllocations

/-- One atomic step of some thread. A creation gets graphics allocations nobody else has. -/
inductive World.Step : World → Action → World → Prop where
  | reserve {w : World} {gpuAllocations : List GraphicsAllocation}
      (fresh : ∀ c ∈ w.creations, gpuAllocations.Disjoint c.gpuAllocations) :
      Step w (.reserve gpuAllocations)
        { w with
          manager := w.manager.reserveId.1
          pending := { allocId := w.manager.reserveId.2, gpuAllocations := gpuAllocations } :: w.pending }
  | insert {w : World} {creation : SvmAllocationData} {manager : SVMAllocsManager}
      (started : creation ∈ w.pending)
      (inserted : w.manager.insertSVMAlloc creation = .ok manager) :
      Step w (.insert creation)
        { w with
          manager := manager
          pending := w.pending.erase creation
          live := creation :: w.live }
  | makeIndirect {w : World} {csr : CommandStreamReceiver} {taskCount : Nat} (fuel : Nat)
      {manager : SVMAllocsManager} {residency : Residency}
      (returned : makeIndirectAllocationsResident fuel w.manager w.residency csr taskCount =
        .ok (manager, residency)) :
      Step w (.makeIndirect csr taskCount)
        { w with
          manager := manager
          residency := residency }
  | submit {w : World} {csr : CommandStreamReceiver} :
      Step w (.submit csr)
        { w with
          residency := { w.residency with
            taskCount := Function.update w.residency.taskCount csr
              (add64 (w.residency.taskCount csr) 1) } }
  | prepareFree {w : World} {creation : SvmAllocationData} {isNonBlockingFree : Bool}
      (held : creation ∈ w.live) :
      Step w (.prepareFree creation isNonBlockingFree)
        { w with
          residency := w.manager.prepareIndirectAllocationForDestruction creation
            isNonBlockingFree w.residency
          live := w.live.erase creation
          freeing := creation :: w.freeing }
  | freeData {w : World} {creation : SvmAllocationData} (prepared : creation ∈ w.freeing) :
      Step w (.freeData creation)
        { w with
          manager := w.manager.freeSVMData creation
          freeing := w.freeing.erase creation }

def system : System World Action where
  init := fun w => w = {}
  step := World.Step

/-- A completed creation is resident on the receiver: all its allocations on the receiver's
device are. -/
def World.ResidentOn (w : World) (creation : SvmAllocationData) (csr : CommandStreamReceiver) :
    Prop :=
  ∀ a ∈ creation.gpuAllocations, a.rootDeviceIndex = csr.rootDeviceIndex →
    w.residency.Always a csr.contextId

/-- No receiver walks past an id that is reserved but not inserted yet and has an allocation on
its device, and the 32-bit counter has an id left. -/
def Careful (w : World) : Action → Prop
  | .reserve _ => w.manager.allocationsCounter + 1 < 2 ^ 32
  | .makeIndirect csr _ => w.manager.allocationsCounter + 1 < 2 ^ 32 ∧
      ∀ c ∈ w.pending, ∀ a ∈ c.gpuAllocations, a.rootDeviceIndex ≠ csr.rootDeviceIndex
  | _ => True

/-- The invariant of careful runs: ids are counted, apart and mapped; what a receiver has walked
past is resident there, and nothing on its device is missing below its watermark. -/
structure World.Inv (w : World) : Prop where
  counter : w.manager.allocationsCounter < 2 ^ 32
  counted : ∀ c ∈ w.creations, c.allocId ≤ w.manager.allocationsCounter
  apart : w.creations.Pairwise Apart
  mapped : ∀ c ∈ w.live, ∀ a ∈ c.gpuAllocations, (c.allocId, a) ∈ w.manager.internalAllocationsMap
  behind : ∀ csr, w.manager.watermark csr ≤ w.manager.allocationsCounter
  seen : ∀ csr, ∀ c ∈ w.live, c.allocId ≤ w.manager.watermark csr → w.ResidentOn c csr
  unseen : ∀ csr, ∀ c ∈ w.pending, c.allocId ≤ w.manager.watermark csr →
    ∀ a ∈ c.gpuAllocations, a.rootDeviceIndex ≠ csr.rootDeviceIndex

theorem apart_symm {c d : SvmAllocationData} (apart : Apart c d) : Apart d c :=
  ⟨apart.1.symm, fun _ inD inC => apart.2 inC inD⟩

private theorem watermark_congr {m m' : SVMAllocsManager}
    (same : m'.indirectAllocationsResidency = m.indirectAllocationsResidency)
    (csr : CommandStreamReceiver) : m'.watermark csr = m.watermark csr := by
  unfold watermark tracker?
  rw [same]

theorem reserve_inv {w : World} {gpuAllocations : List GraphicsAllocation} (inv : w.Inv)
    (room : w.manager.allocationsCounter + 1 < 2 ^ 32)
    (fresh : ∀ c ∈ w.creations, gpuAllocations.Disjoint c.gpuAllocations) :
    World.Inv { w with
      manager := w.manager.reserveId.1
      pending := { allocId := w.manager.reserveId.2, gpuAllocations := gpuAllocations } :: w.pending } := by
  have id : w.manager.reserveId.2 = w.manager.allocationsCounter + 1 := Word.add_eq room
  have counter : w.manager.reserveId.1.allocationsCounter = w.manager.allocationsCounter + 1 := id
  have watermark : ∀ csr, w.manager.reserveId.1.watermark csr = w.manager.watermark csr :=
    watermark_congr rfl
  refine ⟨by rw [counter]; exact room, ?_, ?_, inv.mapped, ?_, ?_, ?_⟩
  · rw [counter]
    exact List.forall_mem_cons.mpr
      ⟨id.le, fun c member => Nat.le_succ_of_le (inv.counted c member)⟩
  · refine List.pairwise_cons.mpr ⟨fun c member => ⟨?_, fresh c member⟩, inv.apart⟩
    have counted := inv.counted c member
    show w.manager.reserveId.2 ≠ c.allocId
    omega
  · intro csr
    rw [counter, watermark]
    exact Nat.le_succ_of_le (inv.behind csr)
  · intro csr c member low
    rw [watermark] at low
    exact inv.seen csr c member low
  · intro csr
    simp only [watermark]
    refine List.forall_mem_cons.mpr ⟨fun low => ?_, inv.unseen csr⟩
    have := inv.behind csr
    simp only [id] at low
    omega

theorem insert_inv {w : World} {creation : SvmAllocationData} {manager : SVMAllocsManager}
    (inv : w.Inv) (started : creation ∈ w.pending)
    (inserted : w.manager.insertSVMAlloc creation = .ok manager) :
    World.Inv { w with
      manager := manager
      pending := w.pending.erase creation
      live := creation :: w.live } := by
  unfold insertSVMAlloc at inserted
  split at inserted
  next => cases inserted
  next =>
    cases inserted
    have perm : w.creations.Perm (w.pending.erase creation ++ (creation :: w.live ++ w.freeing)) :=
      ((List.perm_cons_erase started).append_right _).trans List.perm_middle.symm
    have moved : ∀ c ∈ w.pending.erase creation ++ (creation :: w.live ++ w.freeing),
        c ∈ w.creations := fun c member => perm.mem_iff.mpr member
    refine ⟨inv.counter, fun c member => inv.counted c (moved c member),
      (perm.pairwise_iff apart_symm).mp inv.apart, ?_, inv.behind, fun csr => ?_,
      fun csr c member => inv.unseen csr c (List.mem_of_mem_erase member)⟩
    · refine List.forall_mem_cons.mpr ⟨fun a member => ?_, fun c member a used => ?_⟩
      · exact List.mem_append_right _ (List.mem_map.mpr ⟨a, member, rfl⟩)
      · exact List.mem_append_left _ (inv.mapped c member a used)
    · -- a walked-past creation has nothing on the receiver's device
      refine List.forall_mem_cons.mpr ⟨fun low a member owned => ?_, inv.seen csr⟩
      exact absurd owned (inv.unseen csr creation started low a member)

theorem makeIndirect_inv {w : World} {csr : CommandStreamReceiver} {taskCount fuel : Nat}
    {manager : SVMAllocsManager} {residency : Residency} (inv : w.Inv)
    (careful : Careful w (.makeIndirect csr taskCount))
    (returned : makeIndirectAllocationsResident fuel w.manager w.residency csr taskCount =
      .ok (manager, residency)) :
    World.Inv { w with
        manager := manager
        residency := residency } ∧
      ∀ c ∈ w.live, World.ResidentOn { w with
        manager := manager
        residency := residency } c csr := by
  have same := advanceTracker_map w.manager csr taskCount
  have manager_eq := (makeIndirect_cases returned).1
  have counter : manager.allocationsCounter = w.manager.allocationsCounter := manager_eq ▸ same.2
  have map : manager.internalAllocationsMap = w.manager.internalAllocationsMap :=
    manager_eq ▸ same.1
  have resident : ∀ c ∈ w.live, World.ResidentOn { w with
      manager := manager
      residency := residency } c csr := by
    intro c member a used owned
    by_cases low : c.allocId ≤ w.manager.watermark csr
    · exact makeIndirect_keeps (inv.seen csr c member low a used owned) returned
    · have counted := inv.counted c
        (List.mem_append_right _ (List.mem_append_left _ member))
      exact makeIndirect_always careful.1 (by omega) counted (inv.mapped c member a used) owned
        returned
  have watermark : ∀ other, manager.watermark other = if other = csr then
      max w.manager.allocationsCounter (w.manager.watermark csr)
      else w.manager.watermark other := fun _ => makeIndirect_watermark returned
  refine ⟨⟨by rw [counter]; exact inv.counter, by rw [counter]; exact inv.counted, inv.apart,
    by rw [map]; exact inv.mapped, fun other => ?_, fun other c member low => ?_,
    fun other c member low => ?_⟩, resident⟩
  · have old := inv.behind other
    have own := inv.behind csr
    rw [counter, watermark]
    split <;> omega
  · simp only [watermark] at low
    split at low
    next same => exact same ▸ resident c member
    next =>
      intro a used owned
      exact makeIndirect_keeps (inv.seen other c member low a used owned) returned
  · simp only [watermark] at low
    split at low
    next same => exact same ▸ careful.2 c member
    next => exact inv.unseen other c member low

theorem prepareFree_inv {w : World} {creation : SvmAllocationData} {isNonBlockingFree : Bool}
    (inv : w.Inv) (held : creation ∈ w.live) :
    World.Inv { w with
      residency := w.manager.prepareIndirectAllocationForDestruction creation
        isNonBlockingFree w.residency
      live := w.live.erase creation
      freeing := creation :: w.freeing } := by
  have cut := List.perm_cons_erase held
  have perm : w.creations.Perm
      (w.pending ++ (w.live.erase creation ++ creation :: w.freeing)) :=
    ((cut.append_right _).trans List.perm_middle.symm).append_left _
  have moved : ∀ c ∈ w.pending ++ (w.live.erase creation ++ creation :: w.freeing),
      c ∈ w.creations := fun c member => perm.mem_iff.mpr member
  have kept : ∀ c ∈ w.live.erase creation, c ∈ w.live := fun c => List.mem_of_mem_erase
  refine ⟨inv.counter, fun c member => inv.counted c (moved c member),
    (perm.pairwise_iff apart_symm).mp inv.apart,
    fun c member => inv.mapped c (kept c member), inv.behind, ?_, inv.unseen⟩
  intro csr c member low a used owned
  have others := ((List.pairwise_append.mp inv.apart).2.1.sublist
    (List.sublist_append_left w.live w.freeing))
  have apart := (List.pairwise_cons.mp ((cut.pairwise_iff apart_symm).mp others)).1 c member
  have untouched : a ∉ creation.gpuAllocations := fun shared => apart.2 shared used
  rw [Residency.Always, prepare_other untouched]
  exact inv.seen csr c (kept c member) low a used owned

theorem freeData_inv {w : World} {creation : SvmAllocationData} (inv : w.Inv)
    (prepared : creation ∈ w.freeing) :
    World.Inv { w with
      manager := w.manager.freeSVMData creation
      freeing := w.freeing.erase creation } := by
  have fewer : (w.pending ++ (w.live ++ w.freeing.erase creation)).Sublist w.creations :=
    (List.Sublist.refl _).append ((List.Sublist.refl _).append List.erase_sublist)
  refine ⟨inv.counter, fun c member => inv.counted c (fewer.subset member),
    inv.apart.sublist fewer, ?_, inv.behind,
    inv.seen, inv.unseen⟩
  intro c member a used
  have apart := (List.pairwise_append.mp (List.pairwise_append.mp inv.apart).2.1).2.2 c member
    creation prepared
  exact List.mem_filter.mpr ⟨inv.mapped c member a used, by simpa using apart.1⟩

theorem careful_invariant : Invariant (system.restrict Careful) World.Inv where
  initial := by
    rintro w rfl
    exact ⟨by decide, by simp [World.creations], by simp [World.creations], by simp,
      by simp [watermark, tracker?], by simp, by simp⟩
  preserved := by
    rintro w action w' _ inv ⟨careful, step⟩
    cases step with
    | reserve fresh => exact reserve_inv inv careful fresh
    | insert started inserted => exact insert_inv inv started inserted
    | makeIndirect fuel returned => exact (makeIndirect_inv inv careful returned).1
    | submit => exact ⟨inv.counter, inv.counted, inv.apart, inv.mapped, inv.behind, inv.seen,
        inv.unseen⟩
    | prepareFree held => exact prepareFree_inv inv held
    | freeData prepared => exact freeData_inv inv prepared

/-- In a careful run every indirect submission returns, and leaves every completed creation
resident on its receiver. -/
theorem makeIndirect_makes_resident {w : World}
    (reachable : Reachable (system.restrict Careful) w) {csr : CommandStreamReceiver}
    {taskCount : Nat} (careful : Careful w (.makeIndirect csr taskCount)) :
    (∃ w', World.Step w (.makeIndirect csr taskCount) w') ∧
      ∀ w', World.Step w (.makeIndirect csr taskCount) w' →
        ∀ c ∈ w'.live, w'.ResidentOn c csr := by
  have inv := careful_invariant.holds reachable
  constructor
  · obtain ⟨fuel, ⟨manager, residency⟩, returned⟩ :=
      makeIndirect_returns careful.1 (inv.behind csr)
    exact ⟨_, .makeIndirect fuel returned⟩
  · intro w' step
    cases step with
    | makeIndirect fuel returned => exact (makeIndirect_inv inv careful returned).2

section Example

/-- A device allocation, what tracks it, and the receiver of its device. -/
def deviceAllocation : GraphicsAllocation := ⟨1, 0⟩
def deviceData : SvmAllocationData := { allocId := 1, gpuAllocations := [deviceAllocation] }
def deviceReceiver : CommandStreamReceiver := ⟨1, 0, 0⟩

/-- One creation, between its two steps and completed. -/
def reservedWorld : World :=
  { manager := { allocationsCounter := 1 }
    pending := [deviceData] }

def createdWorld : World :=
  { manager :=
      { allocationsCounter := 1
        internalAllocationsMap := [(1, deviceAllocation)] }
    live := [deviceData] }

private theorem reserve_step : World.Step {} (.reserve [deviceAllocation]) reservedWorld :=
  .reserve (by simp [World.creations])

private theorem insert_step :
    World.Step reservedWorld (.insert deviceData) createdWorld := by
  have inserted : reservedWorld.manager.insertSVMAlloc deviceData =
      .ok createdWorld.manager := rfl
  exact .insert (by decide) inserted

theorem makeIndirect_makes_resident_one :
    (∃ w', World.Step createdWorld (.makeIndirect deviceReceiver 1) w') ∧
      ∀ w', World.Step createdWorld (.makeIndirect deviceReceiver 1) w' →
        ∀ c ∈ w'.live, w'.ResidentOn c deviceReceiver := by
  have start : Reachable (system.restrict Careful) {} := .start rfl
  have room : Careful {} (.reserve [deviceAllocation]) := by simp [Careful]
  have reserved := start.next ⟨room, reserve_step⟩
  have created : Reachable (system.restrict Careful) createdWorld :=
    reserved.next (a := .insert deviceData) ⟨trivial, insert_step⟩
  exact makeIndirect_makes_resident created ⟨by decide, by simp [createdWorld]⟩

/-- The manager after a receiver walked past id 1, after the creation was then inserted, and
after a second submission. -/
def walkedManager : SVMAllocsManager :=
  { allocationsCounter := 1
    indirectAllocationsResidency := [(deviceReceiver, ⟨1, 1⟩)] }

def insertedManager : SVMAllocsManager :=
  { walkedManager with internalAllocationsMap := [(1, deviceAllocation)] }

def resubmittedManager : SVMAllocsManager :=
  { insertedManager with indirectAllocationsResidency := [(deviceReceiver, ⟨2, 1⟩)] }

/-- The receiver walks past id 1 while its creation is between the two steps: the allocation is
never made resident there, although the creation completed before the second submission. -/
theorem reserved_id_is_lost :
    ∃ w w' : World, Reachable system w ∧
      World.Step w (.makeIndirect deviceReceiver 2) w' ∧
      deviceData ∈ w.live ∧
      ¬ w'.ResidentOn deviceData deviceReceiver := by
  have start : Reachable system {} := .start rfl
  have walk : World.Step reservedWorld (.makeIndirect deviceReceiver 1)
      { reservedWorld with manager := walkedManager } := by
    have returned : makeIndirectAllocationsResident 2 reservedWorld.manager {} deviceReceiver 1 =
        .ok (walkedManager, {}) := rfl
    exact .makeIndirect 2 returned
  have insert : World.Step { reservedWorld with manager := walkedManager }
      (.insert deviceData) { createdWorld with manager := insertedManager } := by
    have inserted : walkedManager.insertSVMAlloc deviceData = .ok insertedManager := rfl
    exact .insert (by decide) inserted
  have walkAgain : World.Step { createdWorld with manager := insertedManager }
      (.makeIndirect deviceReceiver 2) { createdWorld with manager := resubmittedManager } := by
    have returned : makeIndirectAllocationsResident 2 insertedManager {} deviceReceiver 2 =
        .ok (resubmittedManager, {}) := rfl
    exact .makeIndirect 2 returned
  refine ⟨_, _, ((start.next reserve_step).next walk).next insert, walkAgain, by decide, ?_⟩
  intro resident
  have always := resident deviceAllocation (by decide) rfl
  revert always
  simp [Residency.Always, createdWorld, objectNotResident, objectAlwaysResident]

end Example

end SVMAllocsManager

end ComputeRuntime
