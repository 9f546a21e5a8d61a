import ComputeRuntime.PageFault.Coherence

/-! The removal of a shared allocation gives its memory back to the CPU, unless the allocation was
placed on the GPU and never touched: it is in no domain then, and stays protected. -/
namespace ComputeRuntime

open Transition

namespace CpuPageFaultManager

/-- What the removal of an allocation is to do: its bytes are accessible for the CPU, it is
tracked and listed nowhere, and nothing else has changed. -/
structure Restored (m m' : CpuPageFaultManager) (ptr size : Nat) : Prop where
  accessible : ∀ address, inRange ptr size address = true → m'.cpuProtected address = false
  untracked : m'.memoryData ptr = none
  unlisted : ∀ manager, ptr ∉ m'.nonGpuDomainAllocs manager
  entries : ∀ other, other ≠ ptr → m'.memoryData other = m.memoryData other
  lists : ∀ manager, m'.nonGpuDomainAllocs manager =
    (m.nonGpuDomainAllocs manager).filter fun other => other ≠ ptr
  guards : ∀ address, inRange ptr size address = false →
    m'.cpuProtected address = m.cpuProtected address
  cpuCopy : m'.cpuCopy = m.cpuCopy
  gpuCopy : m'.gpuCopy = m.gpuCopy

/-- Every protected byte belongs to a tracked allocation. -/
def Covered (m : CpuPageFaultManager) : Prop :=
  ∀ address, m.cpuProtected address = true → Tracks m address

/-- An allocation that is removed has been in a domain, or has no bytes. -/
def RemovesPlaced (s : Usm) : UsmCall → Prop
  | .removeAllocation ptr => ∀ data, s.manager.memoryData ptr = some data →
      data.domain = .none → data.size = 0
  | _ => True

section Covered

variable {s t : Usm} {m m' : CpuPageFaultManager} {ptr size address : Nat} {data : PageFaultData}
  {call : UsmCall} {usmInitialPlacement : Int}

/-- Protection that changes inside one tracked allocation only. -/
theorem Covered.within (covered : Covered m) (tracked : m.memoryData ptr = some data)
    (domain : AllocationDomain)
    (entered : m'.memoryData =
      Function.update m.memoryData ptr (some { data with domain := domain }))
    (outside : ∀ address, inRange ptr data.size address = false →
      m'.cpuProtected address = m.cpuProtected address) : Covered m' := by
  have tracks : ∀ address, Tracks m address → Tracks m' address := by
    rintro address ⟨other, otherData, found, inside⟩
    by_cases same : other = ptr
    · subst same
      obtain rfl := Option.some.inj (tracked.symm.trans found)
      exact ⟨other, { data with domain := domain }, by rw [entered, Function.update_self], inside⟩
    · exact ⟨other, otherData, by rw [entered, Function.update_of_ne same, found], inside⟩
  intro address guarded
  by_cases inside : inRange ptr data.size address = true
  · exact tracks address ⟨ptr, data, tracked, inside⟩
  · apply tracks
    apply covered
    rw [← outside address (Bool.eq_false_iff.mpr inside)]
    exact guarded

theorem Covered.moveAllocationToGpuDomain (covered : Covered m) (ptr : Nat) :
    Covered (m.moveAllocationToGpuDomain ptr) := by
  unfold CpuPageFaultManager.moveAllocationToGpuDomain
  cases tracked : m.memoryData ptr with
  | none => exact covered
  | some data =>
    simp only
    split
    next =>
      apply covered.within tracked .gpu
      · exact migrateStorageToGpuDomain_memoryData m ptr data
      · intro address outside
        exact (migrateStorageToGpuDomain_outside (s := ⟨m, fun _ => none⟩) outside).guard
    next => exact covered

theorem Covered.moveAllocationsWithin (inv : s.Inv) (covered : Covered s.manager)
    (manager : Nat) :
    Covered (s.manager.moveAllocationsWithinUMAllocsManagerToGpuDomain manager) := by
  unfold moveAllocationsWithinUMAllocsManagerToGpuDomain
  rw [foldl_moveAllocationToGpuDomain inv rfl]
  generalize s.manager.nonGpuDomainAllocs manager = allocs
  induction allocs generalizing s with
  | nil => exact covered
  | cons ptr rest ih =>
    exact ih (inv.moveAllocationToGpuDomain ptr) (covered.moveAllocationToGpuDomain ptr)

theorem Covered.handlePageFault (covered : Covered m) (handler : GpuDomainHandler)
    (tracked : m.memoryData ptr = some data) :
    Covered (m.handlePageFault handler ptr data) := by
  rw [handlePageFault_eq]
  unfold migrateStorageToCpuDomain
  apply covered.within tracked .cpu
  · cases data.domain <;> rfl
  · intro address outside
    cases data.domain <;>
      simp [setData, allowCPUMemoryAccess, transferToCpu, setNonGpuDomainAllocs,
        overwrite_outside outside]

/-- A fault is handled for a tracked allocation. -/
theorem Covered.cpuAccess (covered : Covered m) {handler : GpuDomainHandler} {order : List Nat}
    (handled : m.cpuAccess handler order address = some m') : Covered m' := by
  unfold CpuPageFaultManager.cpuAccess at handled
  split at handled
  next =>
    unfold verifyAndHandlePageFault at handled
    split at handled
    next => cases handled
    next ptr _ =>
      split at handled
      next data tracked =>
        cases handled
        exact covered.handlePageFault handler tracked
      next => cases handled
  next =>
    cases handled
    exact covered

/-- A new allocation protects its own bytes at most. -/
theorem Covered.insertAllocation (covered : Covered m) (untracked : m.memoryData ptr = none)
    (manager : Nat) (flags : MemoryAllocFlags) :
    Covered (m.insertAllocation usmInitialPlacement ptr size manager flags) := by
  unfold CpuPageFaultManager.insertAllocation
  generalize MemoryPropertiesHelper.getUSMInitialPlacement usmInitialPlacement flags = placement
  simp only [untracked]
  have kept : ∀ address, Tracks m address →
      ∃ other data, Function.update m.memoryData ptr
          (some ⟨if placement = .cpu then .cpu else .none, size, manager⟩) other = some data ∧
        inRange other data.size address = true := by
    rintro address ⟨other, data, found, inside⟩
    have different : other ≠ ptr := by
      rintro rfl
      rw [untracked] at found
      cases found
    exact ⟨other, data, by rw [Function.update_of_ne different, found], inside⟩
  have own : ∀ address, inRange ptr size address = true →
      ∃ other data, Function.update m.memoryData ptr
          (some ⟨if placement = .cpu then .cpu else .none, size, manager⟩) other = some data ∧
        inRange other data.size address = true :=
    fun address inside => ⟨ptr, _, Function.update_self .., inside⟩
  cases placement with
  | cpu => exact fun address guarded => kept address (covered address guarded)
  | gpu =>
    intro address guarded
    by_cases inside : inRange ptr size address = true
    · exact own address inside
    · apply kept
      apply covered
      simpa [setData, setNonGpuDomainAllocs, protectCPUMemoryAccess,
        overwrite_outside (Bool.eq_false_iff.mpr inside)] using guarded

end Covered

section Removal

variable {s t : Usm} {ptr address : Nat} {data : PageFaultData} {call : UsmCall}
  {usmInitialPlacement : Int}

/-- The removal in parts. -/
theorem removeAllocation_eq {m : CpuPageFaultManager} (tracked : m.memoryData ptr = some data) :
    (m.removeAllocation ptr).memoryData = Function.update m.memoryData ptr none ∧
    (m.removeAllocation ptr).cpuProtected = (if data.domain = .gpu then
      overwrite ptr data.size (fun _ => false) m.cpuProtected else m.cpuProtected) ∧
    (m.removeAllocation ptr).cpuCopy = m.cpuCopy ∧
    (m.removeAllocation ptr).gpuCopy = m.gpuCopy := by
  unfold removeAllocation
  simp only [tracked]
  split <;> exact ⟨rfl, rfl, rfl, rfl⟩

/-- A removal gives the bytes back to the CPU exactly when the allocation is in a domain, or has
no bytes; the rest of its work it always does. -/
theorem Usm.Inv.removed (inv : s.Inv) (tracked : s.manager.memoryData ptr = some data) :
    Restored s.manager (s.manager.removeAllocation ptr) ptr data.size ↔
      (data.domain = .none → data.size = 0) := by
  obtain ⟨entries, guards, cpuCopy, gpuCopy⟩ := removeAllocation_eq tracked
  have fits := inv.fits ptr data tracked
  have first : data.size ≠ 0 → inRange ptr data.size ptr = true := by
    intro filled
    have stop : add64 ptr data.size = ptr + data.size := Word.add_eq fits
    simp only [inRange, stop]
    simpa using Nat.pos_of_ne_zero filled
  have after := inv.removeAllocation ptr
  constructor
  · intro restored none
    by_contra filled
    have start := first filled
    have free := restored.accessible ptr start
    rw [guards, if_neg (by simp [none])] at free
    have cpu := (inv.bytes ptr data tracked ptr start).guarded.mp free
    rw [none] at cpu
    cases cpu
  · intro placed
    have listed : ∀ manager, ptr ∈ s.manager.nonGpuDomainAllocs manager ↔
        data.unifiedMemoryManager = manager ∧ data.domain ≠ .gpu := by
      intro manager
      rw [inv.listed, Listed, tracked]
      simp
    constructor
    · intro address inside
      rw [guards]
      split
      next => exact overwrite_inside inside
      next notGpu =>
        apply (inv.bytes ptr data tracked address inside).guarded.mpr
        cases domain : data.domain with
        | cpu => rfl
        | gpu => exact absurd domain notGpu
        | none =>
          rw [placed domain] at inside
          have stop : add64 ptr 0 = ptr := Word.add_eq (by omega)
          simp only [inRange, stop, Bool.and_eq_true, decide_eq_true_eq] at inside
          omega
    · rw [entries, Function.update_self]
    · intro manager member
      obtain ⟨found, entered, -⟩ := (after.listed manager ptr).mp member
      rw [entries, Function.update_self] at entered
      cases entered
    · intro other different
      rw [entries, Function.update_of_ne different]
    · intro manager
      have others : ptr ∉ s.manager.nonGpuDomainAllocs manager →
          s.manager.nonGpuDomainAllocs manager =
            (s.manager.nonGpuDomainAllocs manager).filter fun other => other ≠ ptr := by
        intro absent
        refine (List.filter_eq_self.mpr fun other member => ?_).symm
        have different : other ≠ ptr := fun same => absent (same ▸ member)
        simpa using different
      unfold CpuPageFaultManager.removeAllocation
      simp only [tracked]
      split
      next gpu => exact others fun member => ((listed manager).mp member).2 gpu
      next =>
        by_cases same : manager = data.unifiedMemoryManager
        · subst same
          simp only [setData, setNonGpuDomainAllocs, Function.update_self]
          rw [(inv.nodup data.unifiedMemoryManager).erase_eq_filter ptr]
          apply List.filter_congr
          intro other _
          rw [bne, beq_eq_decide, decide_not]
        · simp only [setData, setNonGpuDomainAllocs, Function.update_of_ne same]
          exact others fun member => same ((listed manager).mp member).1.symm
    · intro address outside
      rw [guards]
      split
      next => exact overwrite_outside outside
      next => rfl
    · exact cpuCopy
    · exact gpuCopy

/-- Removing an allocation that is in a domain, or has no bytes, leaves none of its bytes protected. -/
theorem Covered.removeAllocation (covered : Covered s.manager) (inv : s.Inv)
    (placed : RemovesPlaced s (.removeAllocation ptr)) :
    Covered (s.manager.removeAllocation ptr) := by
  cases tracked : s.manager.memoryData ptr with
  | none =>
    unfold CpuPageFaultManager.removeAllocation
    simp only [tracked]
    exact covered
  | some data =>
    have restored := (inv.removed tracked).mpr (placed data tracked)
    intro address guarded
    have outside : inRange ptr data.size address = false := by
      by_contra inside
      rw [restored.accessible address (Bool.not_eq_false _ ▸ inside)] at guarded
      cases guarded
    rw [restored.guards address outside] at guarded
    obtain ⟨other, otherData, found, inside⟩ := covered address guarded
    have different : other ≠ ptr := by
      rintro rfl
      obtain rfl := Option.some.inj (tracked.symm.trans found)
      rw [outside] at inside
      cases inside
    exact ⟨other, otherData, by rw [restored.entries other different, found], inside⟩

theorem Covered.step (covered : Covered s.manager) (inv : s.Inv)
    (step : Usm.Step usmInitialPlacement s call t) (placed : RemovesPlaced s call) :
    Covered t.manager := by
  cases step with
  | insertAllocation fresh => exact covered.insertAllocation fresh.untracked _ _
  | removeAllocation => exact covered.removeAllocation inv placed
  | moveAllocationToGpuDomain => exact covered.moveAllocationToGpuDomain _
  | moveAllocationsWithin => exact Covered.moveAllocationsWithin inv covered _
  | cpuRead _ _ handled _ => exact covered.cpuAccess handled
  | cpuWrite _ _ _ handled _ =>
    -- a write changes the copy of the CPU only
    have after := covered.cpuAccess handled
    exact after
  | gpuRead _ => exact covered
  | gpuWrite _ _ => exact covered

/-- Memory that is covered is accessible where nothing is tracked, so a new allocation finds it
as the other runs are asked to have it. -/
theorem Covered.insertsAccessible (covered : Covered s.manager)
    (step : Usm.Step usmInitialPlacement s call t) : InsertsAccessible s call := by
  cases step with
  | insertAllocation fresh =>
    intro address inside
    by_contra guarded
    obtain ⟨other, data, found, holds⟩ := covered address (Bool.not_eq_false _ ▸ guarded)
    rw [fresh.apart other data found address inside] at holds
    cases holds
  | _ => trivial

theorem placed_invariant : Invariant ((usmSystem usmInitialPlacement).restrict RemovesPlaced)
    fun s => s.Inv ∧ Covered s.manager where
  initial := by
    intro s start
    refine ⟨usm_invariant.initial s start, ?_⟩
    intro address guarded
    rw [start.2.2] at guarded
    cases guarded
  preserved := by
    rintro s call t _ ⟨inv, covered⟩ ⟨placed, step⟩
    exact ⟨(inv.step step (covered.insertsAccessible step)).1, covered.step inv step placed⟩

/-- In runs that remove no allocation with bytes that is in no domain, a removal does what it is to do
exactly for the allocations that are in a domain, or have no bytes. -/
theorem reachable_restores
    (reachable : Reachable ((usmSystem usmInitialPlacement).restrict RemovesPlaced) s)
    (tracked : s.manager.memoryData ptr = some data) :
    Restored s.manager (s.manager.removeAllocation ptr) ptr data.size ↔
      (data.domain = .none → data.size = 0) :=
  (placed_invariant.holds reachable).1.removed tracked

/-- The page that the CPU has written moves to the GPU. -/
def movedUsm : Usm :=
  ⟨writtenUsm.manager.moveAllocationToGpuDomain 4096, writtenUsm.written⟩

/-- Its first access faults, the move protects it again, and the removal gives it back. -/
theorem movedUsm_restores : insertedUsm.manager.cpuProtected 5000 = true ∧
    writtenUsm.manager.cpuProtected 5000 = false ∧ movedUsm.manager.cpuProtected 5000 = true ∧
      Restored movedUsm.manager (movedUsm.manager.removeAllocation 4096) 4096 4096 := by
  have started : Reachable ((usmSystem (-1)).restrict RemovesPlaced) emptyUsm :=
    .start ⟨rfl, rfl, rfl⟩
  have inserted : Reachable ((usmSystem (-1)).restrict RemovesPlaced) insertedUsm := by
    apply started.next (a := .insertAllocation 4096 4096 1 ⟨true, false⟩)
    exact ⟨trivial, insertedUsm_step (-1) rfl⟩
  have written : Reachable ((usmSystem (-1)).restrict RemovesPlaced) writtenUsm := by
    apply inserted.next (a := .cpuWrite 5000 7)
    exact ⟨trivial, writtenUsm_step⟩
  have moved : Reachable ((usmSystem (-1)).restrict RemovesPlaced) movedUsm := by
    apply written.next (a := .moveAllocationToGpuDomain 4096)
    exact ⟨trivial, .moveAllocationToGpuDomain⟩
  have tracked : movedUsm.manager.memoryData 4096 = some ⟨.gpu, 4096, 1⟩ := rfl
  exact ⟨by decide, by decide, by decide, (reachable_restores moved tracked).mpr (by simp)⟩

/-- A page that is placed at the GPU and removed before anybody uses it stays protected. -/
theorem unused_page_stays_protected :
    Reachable (usmSystem (-1)) insertedUsm ∧
      insertedUsm.manager.memoryData 4096 = some ⟨.none, 4096, 1⟩ ∧
      (insertedUsm.manager.removeAllocation 4096).memoryData 4096 = none ∧
      (insertedUsm.manager.removeAllocation 4096).cpuProtected 5000 = true ∧
      ¬ Restored insertedUsm.manager (insertedUsm.manager.removeAllocation 4096) 4096 4096 := by
  have started : Reachable (usmSystem (-1)) emptyUsm := .start ⟨rfl, rfl, rfl⟩
  refine ⟨started.next (insertedUsm_step (-1) rfl), rfl, by decide, by decide, ?_⟩
  intro restored
  have free := restored.accessible 5000 (by decide)
  exact absurd free (by decide)

end Removal

end CpuPageFaultManager

end ComputeRuntime
