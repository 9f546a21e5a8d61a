import ComputeRuntime.Library.Search
import ComputeRuntime.Library.Transition
import ComputeRuntime.PageFault.Manager
import Mathlib.Data.List.Nodup

/-! Shared allocations stay coherent: whoever reads a byte, the CPU or the GPU, reads what was
written last, because the copy that is current is always the one that can be reached. -/
namespace ComputeRuntime

open Transition

namespace CpuPageFaultManager

/-- The manager with the value written last to each byte, by either side, since its allocation
was inserted. -/
structure Usm where
  manager : CpuPageFaultManager
  written : Nat → Option UInt8

inductive UsmCall where
  | insertAllocation (ptr size unifiedMemoryManager : Nat) (memoryProperties : MemoryAllocFlags)
  | removeAllocation (ptr : Nat)
  | moveAllocationToGpuDomain (ptr : Nat)
  | moveAllocationsWithinUMAllocsManagerToGpuDomain (unifiedMemoryManager : Nat)
  | cpuRead (address : Nat) (value : UInt8)
  | cpuWrite (address : Nat) (value : UInt8)
  | gpuRead (address : Nat) (value : UInt8)
  | gpuWrite (address : Nat) (value : UInt8)
  deriving DecidableEq

/-- A new allocation shares no address with a tracked one. -/
structure Fresh (m : CpuPageFaultManager) (ptr size : Nat) : Prop where
  nonzero : ptr ≠ 0
  fits : ptr + size < 2 ^ 64
  untracked : m.memoryData ptr = none
  apart : ∀ other data, m.memoryData other = some data →
    ∀ address, inRange ptr size address = true → inRange other data.size address = false

/-- A map lists each of its keys and nothing else. -/
def Lists (m : CpuPageFaultManager) (order : List Nat) : Prop :=
  ∀ ptr, ptr ∈ order ↔ (m.memoryData ptr).isSome

/-- The address belongs to a tracked allocation. -/
def Tracks (m : CpuPageFaultManager) (address : Nat) : Prop :=
  ∃ ptr data, m.memoryData ptr = some data ∧ inRange ptr data.size address = true

/-- The address belongs to an allocation in the GPU domain, as it does after a kernel's
allocations were moved there. -/
def InGpuDomain (m : CpuPageFaultManager) (address : Nat) : Prop :=
  ∃ ptr data, m.memoryData ptr = some data ∧ inRange ptr data.size address = true ∧
    data.domain = .gpu

/-- One step. A CPU access goes on once its address is not protected any more; a kernel runs
after its allocations were moved to the GPU domain. -/
inductive Usm.Step (usmInitialPlacement : Int) : Usm → UsmCall → Usm → Prop where
  | insertAllocation {s : Usm} {ptr size unifiedMemoryManager : Nat}
      {memoryProperties : MemoryAllocFlags} (fresh : Fresh s.manager ptr size) :
      Step usmInitialPlacement s
        (.insertAllocation ptr size unifiedMemoryManager memoryProperties)
        ⟨s.manager.insertAllocation usmInitialPlacement ptr size unifiedMemoryManager
          memoryProperties, overwrite ptr size (fun _ => none) s.written⟩
  | removeAllocation {s : Usm} {ptr : Nat} :
      Step usmInitialPlacement s (.removeAllocation ptr)
        ⟨s.manager.removeAllocation ptr, s.written⟩
  | moveAllocationToGpuDomain {s : Usm} {ptr : Nat} :
      Step usmInitialPlacement s (.moveAllocationToGpuDomain ptr)
        ⟨s.manager.moveAllocationToGpuDomain ptr, s.written⟩
  | moveAllocationsWithin {s : Usm} {unifiedMemoryManager : Nat} :
      Step usmInitialPlacement s
        (.moveAllocationsWithinUMAllocsManagerToGpuDomain unifiedMemoryManager)
        ⟨s.manager.moveAllocationsWithinUMAllocsManagerToGpuDomain unifiedMemoryManager,
          s.written⟩
  | cpuRead {s : Usm} {gpuDomainHandler : GpuDomainHandler} {order : List Nat} {address : Nat}
      {m : CpuPageFaultManager} (tracked : Tracks s.manager address)
      (listed : Lists s.manager order)
      (handled : s.manager.cpuAccess gpuDomainHandler order address = some m)
      (accessible : m.cpuProtected address = false) :
      Step usmInitialPlacement s (.cpuRead address (m.cpuCopy address)) ⟨m, s.written⟩
  | cpuWrite {s : Usm} {gpuDomainHandler : GpuDomainHandler} {order : List Nat} {address : Nat}
      {m : CpuPageFaultManager} (value : UInt8) (tracked : Tracks s.manager address)
      (listed : Lists s.manager order)
      (handled : s.manager.cpuAccess gpuDomainHandler order address = some m)
      (accessible : m.cpuProtected address = false) :
      Step usmInitialPlacement s (.cpuWrite address value)
        ⟨{ m with cpuCopy := Function.update m.cpuCopy address value },
          Function.update s.written address (some value)⟩
  | gpuRead {s : Usm} {address : Nat} (moved : InGpuDomain s.manager address) :
      Step usmInitialPlacement s (.gpuRead address (s.manager.gpuCopy address)) s
  | gpuWrite {s : Usm} {address : Nat} (value : UInt8) (moved : InGpuDomain s.manager address) :
      Step usmInitialPlacement s (.gpuWrite address value)
        ⟨{ s.manager with gpuCopy := Function.update s.manager.gpuCopy address value },
          Function.update s.written address (some value)⟩

/-- Nothing is tracked at the start, and no memory is protected. -/
def usmSystem (usmInitialPlacement : Int) : System Usm UsmCall where
  init := fun s => s.manager.memoryData = (fun _ => none) ∧
    s.manager.nonGpuDomainAllocs = (fun _ => []) ∧ s.manager.cpuProtected = fun _ => false
  step := Usm.Step usmInitialPlacement

/-- The memory of a new allocation is accessible for the CPU. -/
def InsertsAccessible (s : Usm) : UsmCall → Prop
  | .insertAllocation ptr size _ _ =>
    ∀ address, inRange ptr size address = true → s.manager.cpuProtected address = false
  | _ => True

/-- The value an access of either side reads. -/
def UsmCall.read : UsmCall → Option (Nat × UInt8)
  | .cpuRead address value | .gpuRead address value => some (address, value)
  | _ => none

/-- What the domain of an allocation says about one of its bytes: the copy of the domain holds
the last value, and nothing was written in no domain. -/
def Current (s : Usm) (address : Nat) : AllocationDomain → Prop
  | .cpu => ∀ value, s.written address = some value → s.manager.cpuCopy address = value
  | .gpu => ∀ value, s.written address = some value → s.manager.gpuCopy address = value
  | .none => s.written address = none

/-- A byte of an allocation: it is protected unless the domain is the CPU's, and current. -/
structure ByteOk (s : Usm) (domain : AllocationDomain) (address : Nat) : Prop where
  guarded : s.manager.cpuProtected address = false ↔ domain = .cpu
  current : Current s address domain

/-- The list of a manager: its tracked allocations that are not in the GPU domain. -/
def Listed (m : CpuPageFaultManager) (unifiedMemoryManager ptr : Nat) : Prop :=
  ∃ data, m.memoryData ptr = some data ∧ data.unifiedMemoryManager = unifiedMemoryManager ∧
    data.domain ≠ .gpu

/-- The inductive invariant. -/
structure Usm.Inv (s : Usm) : Prop where
  fits : ∀ ptr data, s.manager.memoryData ptr = some data → ptr + data.size < 2 ^ 64
  apart : ∀ ptr data other otherData, s.manager.memoryData ptr = some data →
    s.manager.memoryData other = some otherData → ptr ≠ other →
    ∀ address, inRange ptr data.size address = true → inRange other otherData.size address = false
  nodup : ∀ manager, (s.manager.nonGpuDomainAllocs manager).Nodup
  listed : ∀ manager ptr, ptr ∈ s.manager.nonGpuDomainAllocs manager ↔
    Listed s.manager manager ptr
  bytes : ∀ ptr data, s.manager.memoryData ptr = some data →
    ∀ address, inRange ptr data.size address = true → ByteOk s data.domain address

section Rules

variable {s t : Usm} {ptr size address : Nat} {data : PageFaultData} {domain : AllocationDomain}

theorem overwrite_inside {α : Type} {source target : Nat → α}
    (inside : inRange ptr size address = true) :
    overwrite ptr size source target address = source address := by
  simp [overwrite, inside]

theorem overwrite_outside {α : Type} {source target : Nat → α}
    (outside : inRange ptr size address = false) :
    overwrite ptr size source target address = target address := by
  simp [overwrite, outside]

/-- What a byte's state is made of. -/
structure SameByte (s t : Usm) (address : Nat) : Prop where
  guard : t.manager.cpuProtected address = s.manager.cpuProtected address
  cpu : t.manager.cpuCopy address = s.manager.cpuCopy address
  gpu : t.manager.gpuCopy address = s.manager.gpuCopy address
  written : t.written address = s.written address

theorem ByteOk.congr (ok : ByteOk s domain address) (same : SameByte s t address) :
    ByteOk t domain address := by
  constructor
  · rw [same.guard]
    exact ok.guarded
  · have current := ok.current
    cases domain with
    | cpu =>
      simp only [Current, same.written, same.cpu]
      exact current
    | gpu =>
      simp only [Current, same.written, same.gpu]
      exact current
    | none =>
      simp only [Current, same.written]
      exact current

/-- A step that gives one allocation another entry, or none: what the invariant asks for is left
to show for this allocation only. -/
theorem Usm.Inv.replace (inv : s.Inv) (entry : Option PageFaultData)
    (entered : t.manager.memoryData = Function.update s.manager.memoryData ptr entry)
    (fits : ∀ data, entry = some data → ptr + data.size < 2 ^ 64)
    (apart : ∀ data other otherData, entry = some data → other ≠ ptr →
      s.manager.memoryData other = some otherData → ∀ address,
        inRange ptr data.size address = true → inRange other otherData.size address = false)
    (nodup : ∀ manager, (t.manager.nonGpuDomainAllocs manager).Nodup)
    (own : ∀ manager, ptr ∈ t.manager.nonGpuDomainAllocs manager ↔
      ∃ data, entry = some data ∧ data.unifiedMemoryManager = manager ∧ data.domain ≠ .gpu)
    (others : ∀ manager other, other ≠ ptr → (other ∈ t.manager.nonGpuDomainAllocs manager ↔
      other ∈ s.manager.nonGpuDomainAllocs manager))
    (outside : ∀ other otherData, other ≠ ptr → s.manager.memoryData other = some otherData →
      ∀ address, inRange other otherData.size address = true → SameByte s t address)
    (bytes : ∀ data, entry = some data → ∀ address, inRange ptr data.size address = true →
      ByteOk t data.domain address) : t.Inv := by
  have found (other : Nat) : t.manager.memoryData other =
      if other = ptr then entry else s.manager.memoryData other := by
    rw [entered, Function.update_apply]
  constructor
  · intro other data lookup
    rw [found] at lookup
    split at lookup
    next same => exact same ▸ fits data lookup
    next => exact inv.fits other data lookup
  · intro one oneData two twoData first second different address inside
    rw [found] at first second
    split at first
    next same =>
      subst same
      rw [if_neg (Ne.symm different)] at second
      exact apart oneData two twoData first (Ne.symm different) second address inside
    next notOne =>
      split at second
      next same =>
        -- the two ranges are apart in either order
        subst same
        by_contra meets
        have meets := Bool.not_eq_false _ ▸ meets
        rw [apart twoData one oneData second notOne first address meets] at inside
        cases inside
      next => exact inv.apart one oneData two twoData first second different address inside
  · exact nodup
  · intro manager other
    by_cases same : other = ptr
    · subst same
      rw [own, Listed, found, if_pos rfl]
    · rw [others manager other same, inv.listed, Listed, Listed, found, if_neg same]
  · intro other data lookup address inside
    rw [found] at lookup
    split at lookup
    next same =>
      subst same
      exact bytes data lookup address inside
    next different =>
      apply (inv.bytes other data lookup address inside).congr
      exact outside other data different lookup address inside

/-- A step that moves one allocation to another domain. -/
theorem Usm.Inv.change (inv : s.Inv) (domain : AllocationDomain)
    (tracked : s.manager.memoryData ptr = some data)
    (entered : t.manager.memoryData =
      Function.update s.manager.memoryData ptr (some { data with domain := domain }))
    (nodup : ∀ manager, (t.manager.nonGpuDomainAllocs manager).Nodup)
    (own : ∀ manager, ptr ∈ t.manager.nonGpuDomainAllocs manager ↔
      data.unifiedMemoryManager = manager ∧ domain ≠ .gpu)
    (others : ∀ manager other, other ≠ ptr → (other ∈ t.manager.nonGpuDomainAllocs manager ↔
      other ∈ s.manager.nonGpuDomainAllocs manager))
    (outside : ∀ address, inRange ptr data.size address = false → SameByte s t address)
    (bytes : ∀ address, inRange ptr data.size address = true → ByteOk t domain address) :
    t.Inv := by
  apply inv.replace _ entered
  · rintro _ ⟨⟩
    exact inv.fits ptr data tracked
  · rintro _ other otherData ⟨⟩ different lookup
    exact inv.apart ptr data other otherData tracked lookup (Ne.symm different)
  · exact nodup
  · intro manager
    rw [own]
    simp
  · exact others
  · intro other otherData different lookup address inside
    apply outside
    exact inv.apart other otherData ptr data lookup tracked different address inside
  · rintro _ ⟨⟩
    exact bytes

@[simp] theorem migrateStorageToGpuDomain_nonGpuDomainAllocs (m : CpuPageFaultManager)
    (ptr : Nat) (data : PageFaultData) :
    (m.migrateStorageToGpuDomain ptr data).nonGpuDomainAllocs = m.nonGpuDomainAllocs := by
  unfold migrateStorageToGpuDomain
  cases data.domain <;> rfl

@[simp] theorem migrateStorageToGpuDomain_memoryData (m : CpuPageFaultManager) (ptr : Nat)
    (data : PageFaultData) : (m.migrateStorageToGpuDomain ptr data).memoryData =
      Function.update m.memoryData ptr (some { data with domain := .gpu }) := by
  unfold migrateStorageToGpuDomain
  cases data.domain <;> rfl

/-- Migrating to the GPU touches no byte of another allocation. -/
theorem migrateStorageToGpuDomain_outside (outside : inRange ptr data.size address = false) :
    SameByte s ⟨s.manager.migrateStorageToGpuDomain ptr data, s.written⟩ address := by
  unfold migrateStorageToGpuDomain
  cases data.domain with
  | cpu =>
    constructor <;>
      simp [setData, protectCPUMemoryAccess, transferToGpu, overwrite_outside outside]
  | gpu => exact ⟨rfl, rfl, rfl, rfl⟩
  | none => exact ⟨rfl, rfl, rfl, rfl⟩

/-- In the GPU domain the GPU copy is current: it was transferred, or nothing was written. -/
theorem migrateStorageToGpuDomain_inside (inside : inRange ptr data.size address = true)
    (ok : ByteOk s data.domain address) :
    ByteOk ⟨s.manager.migrateStorageToGpuDomain ptr data, s.written⟩ .gpu address := by
  obtain ⟨guarded, current⟩ := ok
  unfold migrateStorageToGpuDomain
  cases domain : data.domain with
  | cpu =>
    rw [domain] at current
    constructor
    · simp [setData, protectCPUMemoryAccess, overwrite_inside inside]
    · intro value written
      simp only [if_true, setData, protectCPUMemoryAccess, transferToGpu,
        overwrite_inside inside]
      exact current value written
  | gpu =>
    rw [domain] at guarded current
    exact ⟨guarded, current⟩
  | none =>
    rw [domain] at guarded current
    constructor
    · simpa [setData] using guarded
    · intro value written
      simp only [Current] at current
      rw [current] at written
      cases written

theorem Usm.Inv.moveAllocationToGpuDomain (inv : s.Inv) (ptr : Nat) :
    Usm.Inv ⟨s.manager.moveAllocationToGpuDomain ptr, s.written⟩ := by
  unfold CpuPageFaultManager.moveAllocationToGpuDomain
  cases tracked : s.manager.memoryData ptr with
  | none => exact inv
  | some data =>
    simp only
    split
    next outsideGpu =>
      have mine : ∀ manager, ptr ∈ s.manager.nonGpuDomainAllocs manager →
          data.unifiedMemoryManager = manager := by
        intro manager member
        obtain ⟨found, entered, owner, _⟩ := (inv.listed manager ptr).mp member
        rw [tracked] at entered
        cases entered
        exact owner
      apply inv.change .gpu tracked
      · exact migrateStorageToGpuDomain_memoryData _ _ _
      · intro manager
        by_cases same : manager = data.unifiedMemoryManager
        · subst same
          simpa [setNonGpuDomainAllocs] using (inv.nodup _).erase ptr
        · simpa [setNonGpuDomainAllocs, same] using inv.nodup manager
      · intro manager
        by_cases same : manager = data.unifiedMemoryManager
        · subst same
          simpa [setNonGpuDomainAllocs] using (inv.nodup _).not_mem_erase
        · simp only [setNonGpuDomainAllocs, Function.update_of_ne same,
            migrateStorageToGpuDomain_nonGpuDomainAllocs]
          exact ⟨fun member => absurd (mine manager member).symm same,
            fun impossible => absurd rfl impossible.2⟩
      · intro manager other different
        by_cases same : manager = data.unifiedMemoryManager
        · subst same
          simp [setNonGpuDomainAllocs, List.mem_erase_of_ne different]
        · simp [setNonGpuDomainAllocs, same]
      · intro address outside
        have same := migrateStorageToGpuDomain_outside (s := s) outside
        exact ⟨same.guard, same.cpu, same.gpu, same.written⟩
      · intro address inside
        have ok := migrateStorageToGpuDomain_inside inside (inv.bytes ptr data tracked address inside)
        exact ⟨ok.guarded, ok.current⟩
    next => exact inv

/-- The migration of one allocation does not look at the lists. -/
theorem migrateStorageToGpuDomain_setNonGpuDomainAllocs (m : CpuPageFaultManager)
    (manager : Nat) (allocs : List Nat) (ptr : Nat) (data : PageFaultData) :
    (m.setNonGpuDomainAllocs manager allocs).migrateStorageToGpuDomain ptr data =
      (m.migrateStorageToGpuDomain ptr data).setNonGpuDomainAllocs manager allocs := by
  unfold migrateStorageToGpuDomain
  cases data.domain <;> rfl

theorem migrateListed_setNonGpuDomainAllocs (m : CpuPageFaultManager) (manager : Nat)
    (allocs : List Nat) (ptr : Nat) :
    (m.setNonGpuDomainAllocs manager allocs).migrateListed ptr =
      (m.migrateListed ptr).setNonGpuDomainAllocs manager allocs :=
  migrateStorageToGpuDomain_setNonGpuDomainAllocs m manager allocs ptr _

/-- Moving the allocations of a list one by one, each of which leaves the list, does what the
loop over the whole list does. -/
theorem foldl_moveAllocationToGpuDomain (inv : s.Inv) {manager : Nat} {allocs : List Nat}
    (list : s.manager.nonGpuDomainAllocs manager = allocs) :
    (allocs.foldl migrateListed s.manager).setNonGpuDomainAllocs manager [] =
      allocs.foldl CpuPageFaultManager.moveAllocationToGpuDomain s.manager := by
  induction allocs generalizing s with
  | nil =>
    rw [List.foldl_nil, List.foldl_nil, setNonGpuDomainAllocs, ← list, Function.update_eq_self]
  | cons ptr rest ih =>
    obtain ⟨data, tracked, owner, notGpu⟩ := (inv.listed manager ptr).mp (by simp [list])
    have moves : s.manager.moveAllocationToGpuDomain ptr =
        (s.manager.migrateListed ptr).setNonGpuDomainAllocs manager rest := by
      have outsideGpu : data.domain = .cpu ∨ data.domain = .none := by
        cases domain : data.domain <;> simp_all
      simp [CpuPageFaultManager.moveAllocationToGpuDomain, migrateListed, tracked, outsideGpu,
        owner, list]
    have next := ih (inv.moveAllocationToGpuDomain ptr) (by simp [moves, setNonGpuDomainAllocs])
    rw [List.foldl_cons, List.foldl_cons, ← next, moves]
    -- the loop works on the full list, which its rounds do not read
    have skip (m : CpuPageFaultManager) (ptrs : List Nat) :
        (ptrs.foldl migrateListed (m.setNonGpuDomainAllocs manager rest)).setNonGpuDomainAllocs
          manager [] = (ptrs.foldl migrateListed m).setNonGpuDomainAllocs manager [] := by
      induction ptrs generalizing m with
      | nil => simp [setNonGpuDomainAllocs]
      | cons q ptrs ih =>
        rw [List.foldl_cons, List.foldl_cons, migrateListed_setNonGpuDomainAllocs]
        exact ih _
    exact (skip _ rest).symm

theorem Usm.Inv.moveAllocationsWithin (inv : s.Inv) (manager : Nat) :
    Usm.Inv ⟨s.manager.moveAllocationsWithinUMAllocsManagerToGpuDomain manager, s.written⟩ := by
  unfold moveAllocationsWithinUMAllocsManagerToGpuDomain
  rw [foldl_moveAllocationToGpuDomain inv rfl]
  generalize s.manager.nonGpuDomainAllocs manager = allocs
  induction allocs generalizing s with
  | nil => exact inv
  | cons ptr rest ih => exact ih (inv.moveAllocationToGpuDomain ptr)

/-- Both handlers leave the same state. -/
theorem handlePageFault_eq (m : CpuPageFaultManager) (handler : GpuDomainHandler) (ptr : Nat)
    (data : PageFaultData) : m.handlePageFault handler ptr data =
      (m.migrateStorageToCpuDomain ptr data).allowCPUMemoryAccess ptr data.size := by
  cases handler with
  | transferAndUnprotectMemory => rfl
  | unprotectAndTransferMemory =>
    unfold handlePageFault migrateStorageToCpuDomain
    cases data.domain <;> rfl

/-- A fault brings its allocation to the CPU domain. -/
theorem Usm.Inv.handlePageFault (inv : s.Inv) (handler : GpuDomainHandler)
    (tracked : s.manager.memoryData ptr = some data) :
    Usm.Inv ⟨s.manager.handlePageFault handler ptr data, s.written⟩ := by
  have bytes := inv.bytes ptr data tracked
  have mine : ∀ manager, ptr ∈ s.manager.nonGpuDomainAllocs manager ↔
      data.unifiedMemoryManager = manager ∧ data.domain ≠ .gpu := by
    intro manager
    rw [inv.listed, Listed, tracked]
    simp
  rw [handlePageFault_eq]
  unfold migrateStorageToCpuDomain
  apply inv.change .cpu tracked
  · cases data.domain <;> rfl
  · intro manager
    cases domain : data.domain with
    | gpu =>
      by_cases same : manager = data.unifiedMemoryManager
      · subst same
        have absent := (mine data.unifiedMemoryManager).not.mpr fun both => both.2 domain
        have longer := (inv.nodup data.unifiedMemoryManager).append (List.nodup_singleton ptr)
          (List.disjoint_singleton.mpr absent)
        simpa [setData, allowCPUMemoryAccess, transferToCpu, setNonGpuDomainAllocs] using longer
      · simpa [setData, allowCPUMemoryAccess, transferToCpu, setNonGpuDomainAllocs, same] using
          inv.nodup manager
    | cpu => exact inv.nodup manager
    | none => exact inv.nodup manager
  · intro manager
    cases domain : data.domain with
    | gpu =>
      by_cases same : manager = data.unifiedMemoryManager
      · subst same
        simp [setData, allowCPUMemoryAccess, transferToCpu, setNonGpuDomainAllocs]
      · have absent := (mine manager).not.mpr fun both => both.2 domain
        simp [setData, allowCPUMemoryAccess, transferToCpu, setNonGpuDomainAllocs, same, absent,
          Ne.symm same]
    | cpu => simpa [setData, allowCPUMemoryAccess, domain] using mine manager
    | none => simpa [setData, allowCPUMemoryAccess, domain] using mine manager
  · intro manager other different
    cases data.domain with
    | gpu =>
      by_cases same : manager = data.unifiedMemoryManager
      · subst same
        simp [setData, allowCPUMemoryAccess, transferToCpu, setNonGpuDomainAllocs, different]
      · simp [setData, allowCPUMemoryAccess, transferToCpu, setNonGpuDomainAllocs, same]
    | cpu => rfl
    | none => rfl
  · intro address outside
    cases data.domain <;> constructor <;>
      simp [setData, allowCPUMemoryAccess, transferToCpu, setNonGpuDomainAllocs,
        overwrite_outside outside]
  · intro address inside
    have ok := bytes address inside
    cases domain : data.domain with
    | gpu =>
      have current := ok.current
      rw [domain] at current
      constructor
      · simp [setData, allowCPUMemoryAccess, overwrite_inside inside]
      · intro value written
        simpa [setData, allowCPUMemoryAccess, transferToCpu, setNonGpuDomainAllocs,
          overwrite_inside inside] using current value written
    | cpu =>
      have current := ok.current
      rw [domain] at current
      constructor
      · simp [setData, allowCPUMemoryAccess, overwrite_inside inside]
      · exact current
    | none =>
      have current := ok.current
      rw [domain] at current
      constructor
      · simp [setData, allowCPUMemoryAccess, overwrite_inside inside]
      · intro value written
        simp only [Current] at current
        rw [current] at written
        cases written

theorem Usm.Inv.removeAllocation (inv : s.Inv) (ptr : Nat) :
    Usm.Inv ⟨s.manager.removeAllocation ptr, s.written⟩ := by
  unfold CpuPageFaultManager.removeAllocation
  cases tracked : s.manager.memoryData ptr with
  | none => exact inv
  | some data =>
    have mine : ∀ manager, ptr ∈ s.manager.nonGpuDomainAllocs manager ↔
        data.unifiedMemoryManager = manager ∧ data.domain ≠ .gpu := by
      intro manager
      rw [inv.listed, Listed, tracked]
      simp
    apply inv.replace none
    · simp only
      split <;> rfl
    · rintro _ ⟨⟩
    · rintro _ _ _ ⟨⟩
    · intro manager
      simp only
      split
      · exact inv.nodup manager
      · by_cases same : manager = data.unifiedMemoryManager
        · subst same
          simpa [setData, setNonGpuDomainAllocs] using (inv.nodup _).erase ptr
        · simpa [setData, setNonGpuDomainAllocs, same] using inv.nodup manager
    · intro manager
      simp only [reduceCtorEq, false_and, exists_false, iff_false]
      split
      next gpu =>
        intro member
        exact ((mine manager).mp member).2 gpu
      next =>
        by_cases same : manager = data.unifiedMemoryManager
        · subst same
          simpa [setData, setNonGpuDomainAllocs] using (inv.nodup _).not_mem_erase
        · intro member
          simp only [setData, setNonGpuDomainAllocs, Function.update_of_ne same] at member
          exact same ((mine manager).mp member).1.symm
    · intro manager other different
      simp only
      split
      · rfl
      · by_cases same : manager = data.unifiedMemoryManager
        · subst same
          simp [setData, setNonGpuDomainAllocs, List.mem_erase_of_ne different]
        · simp [setData, setNonGpuDomainAllocs, same]
    · intro other otherData different lookup address inside
      have outside := inv.apart other otherData ptr data lookup tracked different address inside
      simp only
      split <;> constructor <;>
        simp [setData, setNonGpuDomainAllocs, allowCPUMemoryAccess, overwrite_outside outside]
    · rintro _ ⟨⟩

theorem Usm.Inv.insertAllocation (inv : s.Inv) (usmInitialPlacement : Int)
    {manager : Nat} (flags : MemoryAllocFlags) (fresh : Fresh s.manager ptr size)
    (accessible : ∀ address, inRange ptr size address = true →
      s.manager.cpuProtected address = false) :
    Usm.Inv ⟨s.manager.insertAllocation usmInitialPlacement ptr size manager flags,
      overwrite ptr size (fun _ => none) s.written⟩ := by
  have absent : ∀ owner, ptr ∉ s.manager.nonGpuDomainAllocs owner := by
    intro owner member
    obtain ⟨data, lookup, _⟩ := (inv.listed owner ptr).mp member
    rw [fresh.untracked] at lookup
    cases lookup
  unfold CpuPageFaultManager.insertAllocation
  generalize MemoryPropertiesHelper.getUSMInitialPlacement usmInitialPlacement flags = placement
  simp only [fresh.untracked]
  apply inv.replace
    (some ⟨if placement = .cpu then .cpu else .none, size, manager⟩)
  · cases placement <;> rfl
  · rintro _ ⟨⟩
    exact fresh.fits
  · rintro _ other otherData ⟨⟩ _ lookup
    exact fresh.apart other otherData lookup
  · intro owner
    have longer := (inv.nodup manager).append (List.nodup_singleton ptr)
      (List.disjoint_singleton.mpr (absent manager))
    by_cases same : owner = manager
    · subst same
      cases placement <;>
        simpa [setData, setNonGpuDomainAllocs, protectCPUMemoryAccess] using longer
    · cases placement <;>
        simpa [setData, setNonGpuDomainAllocs, protectCPUMemoryAccess, same] using inv.nodup owner
  · intro owner
    by_cases same : owner = manager
    · subst same
      cases placement <;> simp [setData, setNonGpuDomainAllocs, protectCPUMemoryAccess]
    · cases placement <;>
        simp [setData, setNonGpuDomainAllocs, protectCPUMemoryAccess, same, Ne.symm same,
          absent owner]
  · intro owner other different
    by_cases same : owner = manager
    · subst same
      cases placement <;> simp [setData, setNonGpuDomainAllocs, protectCPUMemoryAccess, different]
    · cases placement <;> simp [setData, setNonGpuDomainAllocs, protectCPUMemoryAccess, same]
  · intro other otherData _ lookup address inside
    have outside : inRange ptr size address = false := by
      by_contra meets
      rw [fresh.apart other otherData lookup address (Bool.not_eq_false _ ▸ meets)] at inside
      cases inside
    cases placement <;> constructor <;>
      simp [setData, setNonGpuDomainAllocs, protectCPUMemoryAccess, overwrite_outside outside]
  · rintro _ ⟨⟩ address inside
    -- nothing has been written to a new allocation yet
    have unwritten : overwrite ptr size (fun _ => none) s.written address = none :=
      overwrite_inside inside
    cases placement with
    | cpu =>
      constructor
      · simpa [setData, setNonGpuDomainAllocs] using accessible address inside
      · intro value written
        cases unwritten.symm.trans written
    | gpu =>
      constructor
      · simp [setData, setNonGpuDomainAllocs, protectCPUMemoryAccess, overwrite_inside inside]
      · exact unwritten

/-- A write to the copy of the domain makes it the last value. -/
theorem Usm.Inv.write (inv : s.Inv) (tracked : s.manager.memoryData ptr = some data)
    (inside : inRange ptr data.size address = true) {value : UInt8}
    (guard : t.manager.cpuProtected = s.manager.cpuProtected)
    (entries : t.manager.memoryData = s.manager.memoryData)
    (lists : t.manager.nonGpuDomainAllocs = s.manager.nonGpuDomainAllocs)
    (elsewhere : ∀ other, other ≠ address → SameByte s t other)
    (written : t.written address = some value)
    (copied : (data.domain = .cpu ∧ t.manager.cpuCopy address = value) ∨
      (data.domain = .gpu ∧ t.manager.gpuCopy address = value)) : t.Inv := by
  have same : t.manager.memoryData =
      Function.update s.manager.memoryData ptr (some { data with domain := data.domain }) := by
    rw [entries, ← tracked, Function.update_eq_self]
  apply inv.change data.domain tracked same
  · intro manager
    rw [lists]
    exact inv.nodup manager
  · intro manager
    rw [lists, inv.listed, Listed, tracked]
    simp
  · intro manager other _
    rw [lists]
  · intro other outside
    apply elsewhere
    rintro rfl
    rw [inside] at outside
    cases outside
  · intro other otherInside
    have ok := inv.bytes ptr data tracked other otherInside
    by_cases this : other = address
    · subst this
      constructor
      · rw [guard]
        exact ok.guarded
      · rcases copied with ⟨cpu, copied⟩ | ⟨gpu, copied⟩
        · rw [cpu]
          intro last lastWritten
          rw [written] at lastWritten
          exact copied.trans (Option.some.inj lastWritten)
        · rw [gpu]
          intro last lastWritten
          rw [written] at lastWritten
          exact copied.trans (Option.some.inj lastWritten)
    · exact ok.congr (elsewhere other this)

end Rules

section Runs

variable {usmInitialPlacement : Int} {s t : Usm} {address : Nat} {call : UsmCall}

/-- A CPU access of a tracked address goes through, in the CPU domain. -/
theorem Usm.Inv.cpuAccess (inv : s.Inv) (handler : GpuDomainHandler) {order : List Nat}
    (tracked : Tracks s.manager address) (listed : Lists s.manager order) :
    ∃ m, s.manager.cpuAccess handler order address = some m ∧ Usm.Inv ⟨m, s.written⟩ ∧
      ∃ ptr data, m.memoryData ptr = some data ∧ inRange ptr data.size address = true ∧
        data.domain = .cpu := by
  obtain ⟨ptr, data, tracked, inside⟩ := tracked
  unfold CpuPageFaultManager.cpuAccess
  split
  next faults =>
    have search : s.manager.getFaultData order address = some ptr := by
      apply Search.find?_unique
      · exact (listed ptr).mpr (by simp [tracked])
      · simp [tracked, inside]
      · intro other _ test
        by_contra different
        split at test
        next otherData lookup =>
          rw [inv.apart other otherData ptr data lookup tracked different address test] at inside
          cases inside
        next => cases test
    refine ⟨s.manager.handlePageFault handler ptr data, ?_, inv.handlePageFault handler tracked,
      ptr, { data with domain := .cpu }, ?_, inside, rfl⟩
    · simp [verifyAndHandlePageFault, search, tracked]
    · rw [handlePageFault_eq]
      unfold migrateStorageToCpuDomain
      cases data.domain <;> simp [setData, allowCPUMemoryAccess]
  next accessible =>
    have ok := inv.bytes ptr data tracked address inside
    exact ⟨s.manager, rfl, inv, ptr, data, tracked, inside,
      ok.guarded.mp (Bool.eq_false_iff.mpr accessible)⟩

/-- What an access reads is the value written last, if any was. -/
theorem Usm.Inv.reads_last {ptr : Nat} {data : PageFaultData} (inv : t.Inv)
    (tracked : t.manager.memoryData ptr = some data)
    (inside : inRange ptr data.size address = true) {value : UInt8}
    (copied : (data.domain = .cpu ∧ t.manager.cpuCopy address = value) ∨
      (data.domain = .gpu ∧ t.manager.gpuCopy address = value)) :
    ∀ last, t.written address = some last → value = last := by
  have current := (inv.bytes ptr data tracked address inside).current
  intro last written
  rcases copied with ⟨cpu, rfl⟩ | ⟨gpu, rfl⟩
  · rw [cpu] at current
    exact current last written
  · rw [gpu] at current
    exact current last written

theorem Usm.Inv.step (inv : s.Inv) (step : Usm.Step usmInitialPlacement s call t)
    (accessible : InsertsAccessible s call) :
    t.Inv ∧ ∀ address value, call.read = some (address, value) →
      ∀ last, s.written address = some last → value = last := by
  cases step with
  | insertAllocation fresh =>
    exact ⟨inv.insertAllocation usmInitialPlacement _ fresh accessible, by simp [UsmCall.read]⟩
  | removeAllocation => exact ⟨inv.removeAllocation _, by simp [UsmCall.read]⟩
  | moveAllocationToGpuDomain =>
    exact ⟨inv.moveAllocationToGpuDomain _, by simp [UsmCall.read]⟩
  | moveAllocationsWithin => exact ⟨inv.moveAllocationsWithin _, by simp [UsmCall.read]⟩
  | @cpuRead handler order address m tracked listed handled _ =>
    obtain ⟨_, same, after, ptr, data, found, inside, cpu⟩ :=
      inv.cpuAccess handler tracked listed
    obtain rfl := Option.some.inj (same.symm.trans handled)
    refine ⟨after, ?_⟩
    rintro _ _ ⟨⟩
    exact after.reads_last found inside (.inl ⟨cpu, rfl⟩)
  | @cpuWrite handler order address m value tracked listed handled _ =>
    obtain ⟨_, same, after, ptr, data, found, inside, cpu⟩ :=
      inv.cpuAccess handler tracked listed
    obtain rfl := Option.some.inj (same.symm.trans handled)
    refine ⟨after.write found inside rfl rfl rfl ?_ (Function.update_self ..)
      (.inl ⟨cpu, Function.update_self ..⟩), by simp [UsmCall.read]⟩
    intro other different
    exact ⟨rfl, Function.update_of_ne different .., rfl, Function.update_of_ne different ..⟩
  | @gpuRead address moved =>
    obtain ⟨ptr, data, found, inside, gpu⟩ := moved
    refine ⟨inv, ?_⟩
    rintro _ _ ⟨⟩
    exact inv.reads_last found inside (.inr ⟨gpu, rfl⟩)
  | @gpuWrite address value moved =>
    obtain ⟨ptr, data, found, inside, gpu⟩ := moved
    refine ⟨inv.write found inside rfl rfl rfl ?_ (Function.update_self ..)
      (.inr ⟨gpu, Function.update_self ..⟩), by simp [UsmCall.read]⟩
    intro other different
    exact ⟨rfl, rfl, Function.update_of_ne different .., Function.update_of_ne different ..⟩

theorem usm_invariant :
    Invariant ((usmSystem usmInitialPlacement).restrict InsertsAccessible) Usm.Inv where
  initial := by
    rintro s ⟨noEntry, noList, _⟩
    constructor
    · intro ptr data lookup
      rw [noEntry] at lookup
      cases lookup
    · intro ptr data other otherData lookup
      rw [noEntry] at lookup
      cases lookup
    · simp [noList]
    · intro manager ptr
      simp [noList, Listed, noEntry]
    · intro ptr data lookup
      rw [noEntry] at lookup
      cases lookup
  preserved := fun _ _ _ _ inv step => (inv.step step.2 step.1).1

/-- In runs that insert accessible memory only, every read gives the value written last, the list
of a manager is the list of its allocations outside the GPU domain, the accessible allocations
are those in the CPU domain, and no CPU access is stuck. -/
theorem reachable_coherent
    (reachable : Reachable ((usmSystem usmInitialPlacement).restrict InsertsAccessible) s) :
    (∀ call t, Usm.Step usmInitialPlacement s call t → ∀ address value,
      call.read = some (address, value) →
      ∀ last, s.written address = some last → value = last) ∧
    (∀ manager, (s.manager.nonGpuDomainAllocs manager).Nodup ∧
      ∀ ptr, ptr ∈ s.manager.nonGpuDomainAllocs manager ↔ Listed s.manager manager ptr) ∧
    (∀ ptr data, s.manager.memoryData ptr = some data →
      ∀ address, inRange ptr data.size address = true →
        (s.manager.cpuProtected address = false ↔ data.domain = .cpu)) ∧
    (∀ handler order address, Tracks s.manager address → Lists s.manager order →
      ∃ m, s.manager.cpuAccess handler order address = some m ∧
        m.cpuProtected address = false) := by
  have inv := usm_invariant.holds reachable
  constructor
  · intro call t step address value reads
    -- a read inserts nothing
    have accessible : InsertsAccessible s call := by
      cases call with
      | insertAllocation => cases reads
      | _ => trivial
    exact (inv.step step accessible).2 address value reads
  constructor
  · intro manager
    exact ⟨inv.nodup manager, inv.listed manager⟩
  constructor
  · intro ptr data tracked address inside
    exact (inv.bytes ptr data tracked address inside).guarded
  · intro handler order address tracked listed
    obtain ⟨m, handled, after, ptr, data, found, inside, cpu⟩ :=
      inv.cpuAccess handler tracked listed
    exact ⟨m, handled, (after.bytes ptr data found address inside).guarded.mpr cpu⟩

/-- A manager that tracks nothing. -/
def emptyUsm : Usm where
  manager := ⟨fun _ => none, fun _ => [], fun _ => 0, fun _ => 0, fun _ => false⟩
  written := fun _ => none

/-- One page is inserted, placed at the GPU as its flags ask. -/
def insertedUsm : Usm :=
  ⟨emptyUsm.manager.insertAllocation (-1) 4096 4096 1 ⟨true, false⟩,
    overwrite 4096 4096 (fun _ => none) emptyUsm.written⟩

/-- Then the CPU writes to it. -/
def writtenUsm : Usm :=
  let handled := insertedUsm.manager.handlePageFault .transferAndUnprotectMemory 4096
    ⟨.none, 4096, 1⟩
  ⟨{ handled with cpuCopy := Function.update handled.cpuCopy 5000 7 },
    Function.update insertedUsm.written 5000 (some 7)⟩

theorem insertedUsm_step (usmInitialPlacement : Int) (placed : usmInitialPlacement = -1) :
    Usm.Step usmInitialPlacement emptyUsm (.insertAllocation 4096 4096 1 ⟨true, false⟩)
      insertedUsm := by
  subst placed
  apply Usm.Step.insertAllocation
  constructor
  · decide
  · decide
  · rfl
  · intro other data tracked
    cases tracked

theorem insertedUsm_memoryData (ptr : Nat) : insertedUsm.manager.memoryData ptr =
    if ptr = 4096 then some ⟨.none, 4096, 1⟩ else none := by
  simp [insertedUsm, insertAllocation, emptyUsm, setData, setNonGpuDomainAllocs,
    protectCPUMemoryAccess, MemoryPropertiesHelper.getUSMInitialPlacement, Function.update_apply]

theorem writtenUsm_step : Usm.Step (-1) insertedUsm (.cpuWrite 5000 7) writtenUsm := by
  have tracked : Tracks insertedUsm.manager 5000 :=
    ⟨4096, ⟨.none, 4096, 1⟩, rfl, by decide⟩
  have listed : Lists insertedUsm.manager [4096] := by
    intro ptr
    rw [insertedUsm_memoryData]
    split <;> simp_all
  have handled : insertedUsm.manager.cpuAccess .transferAndUnprotectMemory [4096] 5000 =
      some (insertedUsm.manager.handlePageFault .transferAndUnprotectMemory 4096
        ⟨.none, 4096, 1⟩) := rfl
  exact .cpuWrite 7 tracked listed handled (by decide)

theorem writtenUsm_reachable :
    Reachable ((usmSystem (-1)).restrict InsertsAccessible) writtenUsm := by
  have started : Reachable ((usmSystem (-1)).restrict InsertsAccessible) emptyUsm :=
    .start ⟨rfl, rfl, rfl⟩
  have inserted : Reachable ((usmSystem (-1)).restrict InsertsAccessible) insertedUsm := by
    apply started.next (a := .insertAllocation 4096 4096 1 ⟨true, false⟩)
    exact ⟨fun _ _ => rfl, insertedUsm_step (-1) rfl⟩
  apply inserted.next (a := .cpuWrite 5000 7)
  exact ⟨trivial, writtenUsm_step⟩

theorem writtenUsm_reads_written :
    (∀ value t, Usm.Step (-1) writtenUsm (.cpuRead 5000 value) t → value = 7) ∧
    4096 ∈ writtenUsm.manager.nonGpuDomainAllocs 1 := by
  obtain ⟨reads, lists, _, _⟩ := reachable_coherent writtenUsm_reachable
  constructor
  · intro value t step
    exact reads _ t step 5000 value rfl 7 rfl
  · exact ((lists 1).2 4096).mpr ⟨⟨.cpu, 4096, 1⟩, rfl, rfl, by decide⟩

/-- Memory that is removed in no domain stays protected, and so does the next allocation there,
though it is in the CPU domain. -/
theorem reinserted_stays_protected :
    ¬ ∀ usmInitialPlacement s, Reachable (usmSystem usmInitialPlacement) s →
      ∀ ptr data, s.manager.memoryData ptr = some data →
      ∀ address, inRange ptr data.size address = true →
        (s.manager.cpuProtected address = false ↔ data.domain = .cpu) := by
  intro accessible
  have started : Reachable (usmSystem (-1)) emptyUsm := .start ⟨rfl, rfl, rfl⟩
  have inserted := started.next (insertedUsm_step (-1) rfl)
  have removed : Reachable (usmSystem (-1))
      ⟨insertedUsm.manager.removeAllocation 4096, insertedUsm.written⟩ := by
    apply inserted.next (a := .removeAllocation 4096)
    exact .removeAllocation
  have fresh : Fresh (insertedUsm.manager.removeAllocation 4096) 4096 4096 := by
    have nothing : (insertedUsm.manager.removeAllocation 4096).memoryData = fun _ => none := by
      funext ptr
      simp [insertedUsm, CpuPageFaultManager.insertAllocation, emptyUsm, setData,
        setNonGpuDomainAllocs, protectCPUMemoryAccess,
        MemoryPropertiesHelper.getUSMInitialPlacement, CpuPageFaultManager.removeAllocation]
    constructor
    · decide
    · decide
    · rw [nothing]
    · intro other data tracked
      rw [nothing] at tracked
      cases tracked
  have again : Usm.Step (-1)
      ⟨insertedUsm.manager.removeAllocation 4096, insertedUsm.written⟩
      (.insertAllocation 4096 4096 1 ⟨false, true⟩) _ := .insertAllocation fresh
  have reinserted := removed.next again
  have guard := accessible (-1) _ reinserted 4096 ⟨.cpu, 4096, 1⟩ rfl 5000 (by decide)
  exact absurd (guard.mpr rfl) (by decide)

end Runs

end CpuPageFaultManager

end ComputeRuntime
