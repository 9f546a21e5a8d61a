import ComputeRuntime.WalkerPartition.LaidOut

/-! What the bytes of the commands hold. Their address fields have no room for the two low bits of
an address and for the bits behind the field, and one setter refuses addresses that are too large,
so a buffer is laid out as it is meant to be at whole dwords only. -/
namespace ComputeRuntime.WalkerPartition

open Layout

/-- What is left of an address in a field for its bits 2 to `last`. -/
def addressField (last address : Nat) : Nat := address / 4 % 2 ^ (last - 1) * 4

/-- `GmmHelper::decanonize`. -/
def decanonize (addressWidth address : Nat) : Nat := address % 2 ^ addressWidth

namespace GfxFamily

variable (family : GfxFamily)

/-- The last bit of the address field of a batch buffer start. -/
def batchBufferStartAddress : Nat :=
  match family.core with
  | .xeHpc => 56
  | _ => 47

def miAtomicMemoryAddress : Nat :=
  match family.core with
  | .xeHpg => 47
  | _ => 63

def semaphoreAddress : Nat :=
  match family.core with
  | .xeHpc => 56
  | _ => 63

def miStoreDataImmAddress : Nat :=
  match family.core with
  | .xeHpg => 47
  | .xeHpc => 56
  | _ => 63

/-- A command as its bytes have it. -/
def programmed : Command → Command
  | .loadRegisterMem gpuAddress registerOffset =>
    .loadRegisterMem (addressField 63 gpuAddress) registerOffset
  | .miAtomic gpuAddress requireReturnValue atomicOpcode =>
    .miAtomic (addressField family.miAtomicMemoryAddress gpuAddress) requireReturnValue atomicOpcode
  | .miSemaphoreWait gpuAddress semaphoreCompareValue compareOperation =>
    .miSemaphoreWait (addressField family.semaphoreAddress gpuAddress) semaphoreCompareValue
      compareOperation
  | .batchBufferStart gpuAddress predicationEnabled secondary =>
    .batchBufferStart (addressField family.batchBufferStartAddress gpuAddress) predicationEnabled
      secondary
  | .miStoreDataImm gpuAddress data =>
    .miStoreDataImm (addressField family.miStoreDataImmAddress gpuAddress) data
  | .pipeControl dcFlushEnable postSync =>
    .pipeControl dcFlushEnable (postSync.map fun write => (addressField 63 write.1, write.2))
  | command => command

/-- The commands whose setters do not return: `UNRECOVERABLE_IF` on the address. -/
def refuses : Command → Bool
  | .miStoreDataImm gpuAddress _ => family.core = .xeHpc ∧ gpuAddress > 0x1fffffffffffffc
  | .pipeControl _ (some (gpuAddress, _)) =>
    family.core = .xeHpg ∧ gpuAddress % 2 ^ 32 > 0xfffffffc
  | _ => false

/-- How many bits of an address all the fields have room for. -/
def addressBits : Nat :=
  match family.core with
  | .xeHpc => 57
  | _ => 48

theorem addressBits_le (family : GfxFamily) :
    family.addressBits ≤ family.batchBufferStartAddress + 1 ∧
    family.addressBits ≤ family.miAtomicMemoryAddress + 1 ∧
    family.addressBits ≤ family.semaphoreAddress + 1 ∧
    family.addressBits ≤ family.miStoreDataImmAddress + 1 ∧ family.addressBits ≤ 63 + 1 := by
  unfold addressBits batchBufferStartAddress miAtomicMemoryAddress semaphoreAddress
    miStoreDataImmAddress
  cases family.core <;> decide

theorem dwords_size (family : GfxFamily) (command : Command) : 4 ∣ family.size command := by
  cases command with
  | controlSection fields => exact Nat.dvd_mul_right _ _
  | _ => exact family.dwords _ (by simp [size])

end GfxFamily

/-- What is left of an address in any of these fields, to a GPU with so many address bits. -/
def fetchedAddress (addressWidth address : Nat) : Nat := decanonize addressWidth address / 4 * 4

/-- A command with other addresses. -/
def Command.mapAddress (f : Nat → Nat) : Command → Command
  | .loadRegisterMem gpuAddress registerOffset => .loadRegisterMem (f gpuAddress) registerOffset
  | .miAtomic gpuAddress requireReturnValue atomicOpcode =>
    .miAtomic (f gpuAddress) requireReturnValue atomicOpcode
  | .miSemaphoreWait gpuAddress semaphoreCompareValue compareOperation =>
    .miSemaphoreWait (f gpuAddress) semaphoreCompareValue compareOperation
  | .batchBufferStart gpuAddress predicationEnabled secondary =>
    .batchBufferStart (f gpuAddress) predicationEnabled secondary
  | .miStoreDataImm gpuAddress data => .miStoreDataImm (f gpuAddress) data
  | .pipeControl dcFlushEnable postSync =>
    .pipeControl dcFlushEnable (postSync.map fun write => (f write.1, write.2))
  | command => command

def CounterAccess.mapAddress (f : Nat → Nat) : CounterAccess → CounterAccess
  | .increment gpuAddress requireReturnValue => .increment (f gpuAddress) requireReturnValue
  | .clear gpuAddress => .clear (f gpuAddress)
  | .wait gpuAddress count => .wait (f gpuAddress) count

/-- A buffer as the GPU reads it, whose addresses have so many bits. -/
def Emission.fetched (family : GfxFamily) (addressWidth : Nat) (e : Emission) : Emission :=
  { e with
    items := e.items.map fun placed =>
      (placed.1, (family.programmed placed.2).mapAddress (decanonize addressWidth)) }

/-- The address the GPU has for a byte of a buffer. -/
def byteAddress (addressWidth gpuAddressOfAllocation offset : Nat) : Nat :=
  decanonize addressWidth (add64 gpuAddressOfAllocation offset)

/-! ### Addresses in fields -/

section Cut

variable {addressWidth : Nat}

/-- A field keeps the low bits of an address, up to the two lowest. -/
theorem decanonize_addressField {last : Nat} (wide : 2 ≤ addressWidth)
    (held : addressWidth ≤ last + 1) (address : Nat) :
    decanonize addressWidth (addressField last address) = fetchedAddress addressWidth address := by
  obtain ⟨n, rfl⟩ : ∃ n, addressWidth = n + 2 := ⟨addressWidth - 2, by omega⟩
  have power : 2 ^ (n + 2) = 2 ^ n * 4 := by rw [Nat.pow_add]
  have room : 2 ^ n ∣ 2 ^ (last - 1) := Nat.pow_dvd_pow 2 (by omega)
  have quotient : address % (2 ^ n * 4) / 4 = address / 4 % 2 ^ n := by
    rw [Nat.mul_comm, Nat.mod_mul_right_div_self]
  rw [decanonize, fetchedAddress, decanonize, addressField, power, Nat.mul_mod_mul_right,
    Nat.mod_mod_of_dvd _ room, quotient]

/-- A whole dword is designated by the fields as it is. -/
theorem byteAddress_whole {gpuAddressOfAllocation offset : Nat} (wide : 2 ≤ addressWidth)
    (base : 4 ∣ gpuAddressOfAllocation) (dword : 4 ∣ offset) :
    fetchedAddress addressWidth (add64 gpuAddressOfAllocation offset) =
      byteAddress addressWidth gpuAddressOfAllocation offset := by
  have four : 4 ∣ 2 ^ addressWidth := Nat.pow_dvd_pow 2 wide
  have sum : 4 ∣ gpuAddressOfAllocation + offset := Nat.dvd_add base dword
  have word : 4 ∣ add64 gpuAddressOfAllocation offset :=
    (Nat.dvd_mod_iff (by decide : 4 ∣ 2 ^ 64)).mpr sum
  exact Nat.div_mul_cancel ((Nat.dvd_mod_iff four).mpr word)

variable (family : GfxFamily) (command : Command)

theorem mapAddress_programmed (wide : 2 ≤ addressWidth) (held : addressWidth ≤ family.addressBits) :
    (family.programmed command).mapAddress (decanonize addressWidth) =
      command.mapAddress (fetchedAddress addressWidth) := by
  obtain ⟨start, atomic, semaphore, store, other⟩ := family.addressBits_le
  have kept := fun last (room : family.addressBits ≤ last + 1) =>
    decanonize_addressField wide (Nat.le_trans held room)
  cases command with
  | loadRegisterMem => rw [GfxFamily.programmed, Command.mapAddress, kept _ other]; rfl
  | miAtomic => rw [GfxFamily.programmed, Command.mapAddress, kept _ atomic]; rfl
  | miSemaphoreWait => rw [GfxFamily.programmed, Command.mapAddress, kept _ semaphore]; rfl
  | batchBufferStart => rw [GfxFamily.programmed, Command.mapAddress, kept _ start]; rfl
  | miStoreDataImm => rw [GfxFamily.programmed, Command.mapAddress, kept _ store]; rfl
  | pipeControl dcFlushEnable postSync =>
    cases postSync with
    | none => rfl
    | some write =>
      simp only [GfxFamily.programmed, Command.mapAddress, Option.map_some, kept _ other]
  | _ => rfl

variable {command} (f : Nat → Nat)

theorem size_mapAddress : family.size (command.mapAddress f) = family.size command := by
  cases command <;> rfl

theorem controlFields_mapAddress :
    controlFields (command.mapAddress f) = controlFields command := by
  cases command <;> rfl

theorem jumpTarget_mapAddress :
    jumpTarget (command.mapAddress f) = (jumpTarget command).map f := by
  cases command <;> rfl

theorem counterAccess_mapAddress :
    counterAccess (command.mapAddress f) = (counterAccess command).map (.mapAddress f) := by
  cases command with
  | miAtomic gpuAddress requireReturnValue atomicOpcode => cases atomicOpcode <;> rfl
  | miSemaphoreWait gpuAddress semaphoreCompareValue compareOperation =>
    cases compareOperation <;> rfl
  | miStoreDataImm gpuAddress data => cases data <;> rfl
  | _ => rfl

end Cut

section Fetched

variable {family : GfxFamily} {addressWidth estimate : Nat} {address meant : Nat → Nat}
  {controls : List (Nat × List Nat)} {accesses : List CounterAccess} {jumps : List Nat}
  {e : Emission}

/-- What the GPU reads is laid out over the addresses that are left. -/
theorem LaidOut.fetched (laidOut : LaidOut family address estimate controls accesses jumps e)
    (wide : 2 ≤ addressWidth) (held : addressWidth ≤ family.addressBits)
    (targets : ∀ jump ∈ jumps, fetchedAddress addressWidth (address jump) = meant jump) :
    LaidOut family meant estimate controls
      (accesses.map (.mapAddress (fetchedAddress addressWidth))) jumps
      (e.fetched family addressWidth) where
  counted := laidOut.counted
  estimated := laidOut.estimated
  gapless := by
    simp only [Emission.fetched, mapAddress_programmed family _ wide held]
    exact consecutive_map family.size (fun _ => size_mapAddress family _) laidOut.gapless
  controlled := by
    rw [← laidOut.controlled]
    simp only [controlSections, Emission.fetched, mapAddress_programmed family _ wide held,
      List.filterMap_map, Function.comp_def, controlFields_mapAddress]
  accessed := by
    rw [← laidOut.accessed]
    simp only [Emission.fetched, mapAddress_programmed family _ wide held, List.filterMap_map,
      Function.comp_def, counterAccess_mapAddress, List.map_filterMap]
  jumped := by
    have left : jumps.map meant =
        (jumps.map address).map (fetchedAddress addressWidth) := by
      rw [List.map_map]
      exact List.map_congr_left fun jump inside => (targets jump inside).symm
    rw [left, ← laidOut.jumped]
    simp only [Emission.fetched, mapAddress_programmed family _ wide held, List.filterMap_map,
      Function.comp_def, jumpTarget_mapAddress, List.map_filterMap]
  landings := by
    intro offset jump
    rcases laidOut.landings offset jump with last | ⟨command, inside, plain⟩
    · exact .inl last
    · refine .inr ⟨_, List.mem_map.mpr ⟨_, inside, rfl⟩, ?_⟩
      rw [mapAddress_programmed family _ wide held, controlFields_mapAddress, plain]

variable {args : WalkerPartitionArgs} {f field field' : Nat → Nat}

theorem map_optional {condition : Prop} [Decidable condition] {α β : Type} (g : α → β)
    (items : List α) :
    (if condition then items else []).map g = if condition then items.map g else [] := by
  split <;> rfl

theorem map_synchronize (counter tileCount : Nat) :
    (synchronize counter tileCount).map (.mapAddress f) = synchronize (f counter) tileCount := rfl

theorem map_cleanUp (finalSync tileCount : Nat) (cleared : List Nat) :
    (cleanUp finalSync tileCount cleared).map (.mapAddress f) =
      cleanUp (f finalSync) tileCount (cleared.map f) := by
  simp only [cleanUp, List.map_append, map_synchronize, List.map_map]
  rfl

theorem map_dynamicAccesses (same : ∀ i < 4, f (field (4 * i)) = field' (4 * i)) :
    (dynamicAccesses args field).map (.mapAddress f) = dynamicAccesses args field' := by
  have partitions : f (field BatchBufferControlData.partitionCount) = field' _ := same 0 (by decide)
  have tiles : f (field BatchBufferControlData.tileCount) = field' _ := same 1 (by decide)
  have inTiles : f (field BatchBufferControlData.inTileCount) = field' _ := same 2 (by decide)
  have final : f (field BatchBufferControlData.finalSyncTileCount) = field' _ := same 3 (by decide)
  simp only [dynamicAccesses, List.map_append, map_optional, map_synchronize, map_cleanUp,
    List.map_cons, List.map_nil, CounterAccess.mapAddress, partitions, tiles, inTiles, final]
  rfl

theorem map_staticAccesses (same : ∀ i < 3, f (field (4 * i)) = field' (4 * i)) :
    (staticAccesses args field).map (.mapAddress f) = staticAccesses args field' := by
  have before : f (field StaticPartitioningControlSection.synchronizeBeforeWalkerCounter) =
    field' _ := same 0 (by decide)
  have after : f (field StaticPartitioningControlSection.synchronizeAfterWalkerCounter) =
    field' _ := same 1 (by decide)
  have final : f (field StaticPartitioningControlSection.finalSyncTileCounter) = field' _ :=
    same 2 (by decide)
  simp only [staticAccesses, List.map_append, map_optional, map_synchronize, map_cleanUp,
    List.map_cons, List.map_nil, CounterAccess.mapAddress, before, after, final]
  rfl

theorem map_barrierAccesses (same : ∀ i < 2, f (field (4 * i)) = field' (4 * i)) :
    (barrierAccesses args field).map (.mapAddress f) = barrierAccesses args field' := by
  have crossTileSync : f (field BarrierControlSection.crossTileSyncCount) = field' _ :=
    same 0 (by decide)
  have final : f (field BarrierControlSection.finalSyncTileCount) = field' _ := same 1 (by decide)
  simp only [barrierAccesses, List.map_append, map_optional, map_synchronize, map_cleanUp,
    List.map_cons, List.map_nil, CounterAccess.mapAddress, crossTileSync, final]
  rfl

end Fetched

/-! ### Whole dwords -/

section Dwords

variable (family : GfxFamily) (args : WalkerPartitionArgs)

theorem dvd_computeControlSectionOffset : 4 ∣ computeControlSectionOffset family args := by
  rw [← @extent_dynamicFront family 0 0 args]
  exact dvd_extent family.dwords_size _

theorem dvd_computeWalkerSectionStart : 4 ∣ computeWalkerSectionStart family args := by
  rw [← @extent_dynamicPrologue family 0 0 args]
  exact dvd_extent family.dwords_size _

theorem dvd_computeStaticPartitioningControlSectionOffset :
    4 ∣ computeStaticPartitioningControlSectionOffset family args := by
  rw [← @extent_staticPrologue family 0 0 args]
  refine Nat.dvd_add (dvd_extent family.dwords_size _) ?_
  split
  · exact family.dwords_size (.batchBufferStart 0 false false)
  · exact Nat.dvd_zero 4

theorem dvd_computeBarrierControlSectionOffset (env : RootDeviceEnvironment) :
    4 ∣ computeBarrierControlSectionOffset family args env := by
  rw [← @extent_barrierPrologue family 0 args false env]
  exact dvd_extent family.dwords_size _

end Dwords

/-! ### Setters that return -/

section Accepted

variable {family : GfxFamily} {args : WalkerPartitionArgs}

theorem accepted_optional {condition : Prop} [Decidable condition] {commands : List Command}
    (accepted : condition → ∀ command ∈ commands, family.refuses command = false) :
    ∀ command ∈ optional condition commands, family.refuses command = false := by
  unfold optional
  split
  next holds => exact accepted holds
  next => exact List.forall_mem_nil _

theorem accepted_plain {commands : List Command}
    (plain : commands.all (fun command => !family.refuses command) = true) :
    ∀ command ∈ commands, family.refuses command = false := by
  simpa using plain

theorem accepted_selfCleanup (useAtomicsForSelfCleanup : Bool) {address : Nat}
    (below : family.core = .xeHpc → address ≤ 0x1fffffffffffffc) :
    family.refuses (selfCleanup useAtomicsForSelfCleanup address) = false := by
  cases useAtomicsForSelfCleanup with
  | true => rfl
  | false =>
    simp only [selfCleanup, GfxFamily.refuses]
    simpa using below

theorem accepted_postSyncWaits (postSyncDestination partitionCount : Nat) :
    ∀ command ∈ postSyncWaits postSyncDestination partitionCount,
      family.refuses command = false := by
  simp [postSyncWaits, GfxFamily.refuses]

theorem accepted_selfCleanupEnd {finalSync controlSection fieldsForCleanupCount : Nat}
    (below : family.core = .xeHpc → ∀ fieldIndex < fieldsForCleanupCount,
      add64 controlSection (fieldIndex * sizeOfField) ≤ 0x1fffffffffffffc) :
    ∀ command ∈ selfCleanupEnd finalSync controlSection fieldsForCleanupCount args,
      family.refuses command = false := by
  have barrier : ∀ command ∈ cleanupBarrier args, family.refuses command = false :=
    accepted_optional fun _ => accepted_plain rfl
  have fields : ∀ command ∈ fieldCleanups controlSection fieldsForCleanupCount args,
      family.refuses command = false := by
    refine List.forall_mem_map.mpr fun fieldIndex inside => ?_
    exact accepted_selfCleanup _ fun core => below core fieldIndex (List.mem_range.mp inside)
  simp only [selfCleanupEnd, List.forall_mem_append]
  exact ⟨⟨⟨⟨barrier, accepted_plain rfl⟩, fields⟩, barrier⟩, accepted_plain rfl⟩

theorem accepted_barrierWithPostSync
    (low : family.core = .xeHpg → args.postSyncGpuAddress % 2 ^ 32 ≤ 0xfffffffc)
    (immediateData : Nat) (dcFlushEnable : Bool) (env : RootDeviceEnvironment) :
    ∀ command ∈ barrierWithPostSync family args.postSyncGpuAddress immediateData dcFlushEnable env,
      family.refuses command = false := by
  have additional : ∀ command ∈ additionalSynchronization family args.postSyncGpuAddress env,
      family.refuses command = false := by
    unfold additionalSynchronization
    cases family.core <;> cases additionalSynchronizationType env <;> exact accepted_plain rfl
  have postSync : family.refuses (.pipeControl dcFlushEnable
      (some (args.postSyncGpuAddress, immediateData))) = false := by
    simpa [GfxFamily.refuses] using low
  simp only [barrierWithPostSync, List.forall_mem_append, List.forall_mem_cons]
  refine ⟨accepted_optional fun _ => ?_, postSync, additional⟩
  exact List.forall_mem_cons.mpr ⟨rfl, additional⟩

variable {gpuAddressOfAllocation postSyncDestination : Nat}

/-- The fields of a buffer below the limit are below it. -/
theorem fieldAddress_le {controlSectionOffset room : Nat}
    (below : family.core = .xeHpc → gpuAddressOfAllocation + room ≤ 2 ^ 57) {field : Nat}
    (inside : controlSectionOffset + field + 4 ≤ room) (core : family.core = .xeHpc) :
    fieldAddress gpuAddressOfAllocation controlSectionOffset field ≤ 0x1fffffffffffffc := by
  have room := below core
  have sum : fieldAddress gpuAddressOfAllocation controlSectionOffset field ≤
      gpuAddressOfAllocation + controlSectionOffset + field :=
    Nat.le_trans (Nat.mod_le _ _) (Nat.add_le_add_right (Nat.mod_le _ _) field)
  omega

theorem accepted_dynamicBuffer (below : family.core = .xeHpc → gpuAddressOfAllocation +
      estimateSpaceRequiredInCommandBuffer family { args with staticPartitioning := false } ≤
        2 ^ 57) :
    ∀ command ∈ dynamicBuffer family gpuAddressOfAllocation args postSyncDestination,
      family.refuses command = false := by
  have room : computeControlSectionOffset family args + 16 ≤
      estimateSpaceRequiredInCommandBuffer family { args with staticPartitioning := false } := by
    have size : family.size (zeroFields BatchBufferControlData.fieldCount) = 16 := rfl
    rw [estimate_dynamic, size]
    omega
  have final := accepted_selfCleanup args.useAtomicsForSelfCleanup
    (fieldAddress_le below room)
  simp only [dynamicBuffer, dynamicPrologue, walkerSection, dynamicEpilogue,
    List.forall_mem_append]
  refine ⟨⟨⟨⟨⟨⟨⟨⟨⟨⟨?_, accepted_plain rfl⟩, ?_⟩, ?_⟩, ?_⟩, ?_⟩, ?_⟩, accepted_plain rfl⟩,
    accepted_plain rfl⟩, accepted_plain rfl⟩, ?_, ?_⟩
  · exact accepted_optional fun _ => accepted_plain rfl
  · exact accepted_optional fun _ => List.forall_mem_singleton.mpr final
  · exact accepted_optional fun _ => accepted_plain rfl
  · exact accepted_optional fun _ => accepted_postSyncWaits _ _
  · exact accepted_optional fun _ => accepted_plain rfl
  · exact accepted_optional fun _ => accepted_plain rfl
  · refine accepted_optional fun _ => accepted_selfCleanupEnd fun core fieldIndex inside => ?_
    refine fieldAddress_le below ?_ core
    simp only [dynamicPartitioningFieldsForCleanupCount, BatchBufferControlData.fieldCount,
      sizeOfField] at *
    omega
  · exact accepted_optional fun _ => accepted_plain rfl

theorem accepted_staticBuffer (below : family.core = .xeHpc → gpuAddressOfAllocation +
      estimateSpaceRequiredInCommandBuffer family { args with staticPartitioning := true } ≤
        2 ^ 57) :
    ∀ command ∈ staticBuffer family gpuAddressOfAllocation args postSyncDestination,
      family.refuses command = false := by
  have room : args.emitSelfCleanup = true →
      computeStaticPartitioningControlSectionOffset family args + 12 ≤
        estimateSpaceRequiredInCommandBuffer family { args with staticPartitioning := true } := by
    intro cleanup
    have size : family.size (zeroFields StaticPartitioningControlSection.fieldCount) = 12 := rfl
    have required : isStartAndControlSectionRequired args = true := by
      simp [isStartAndControlSectionRequired, cleanup]
    rw [estimate_static, size, if_pos required]
    omega
  simp only [staticBuffer, staticPrologue, staticControl, staticEpilogue, List.forall_mem_append]
  refine ⟨⟨⟨⟨⟨⟨⟨⟨?_, ?_⟩, accepted_plain rfl⟩, ?_⟩, ?_⟩, ?_⟩, ?_⟩, ?_⟩, ?_⟩
  · exact accepted_optional fun _ => accepted_plain rfl
  · exact accepted_optional fun _ => accepted_plain rfl
  · refine accepted_optional fun cleanup => List.forall_mem_singleton.mpr ?_
    exact accepted_selfCleanup _ (fieldAddress_le below (room cleanup))
  · exact accepted_optional fun _ => accepted_plain rfl
  · exact accepted_optional fun _ => accepted_postSyncWaits _ _
  · exact accepted_optional fun _ => accepted_plain rfl
  · exact accepted_optional fun _ => accepted_plain rfl
  · refine accepted_optional fun cleanup => ?_
    refine accepted_selfCleanupEnd fun core fieldIndex inside => ?_
    have room := room cleanup
    refine fieldAddress_le below ?_ core
    simp only [staticPartitioningFieldsForCleanupCount,
      StaticPartitioningControlSection.fieldCount, sizeOfField] at *
    omega

theorem accepted_barrierBuffer {dcFlushEnable : Bool} {env : RootDeviceEnvironment}
    (postSync : args.usePostSync = true → family.core = .xeHpg →
      args.postSyncGpuAddress % 2 ^ 32 ≤ 0xfffffffc)
    (below : family.core = .xeHpc → gpuAddressOfAllocation +
      estimateBarrierSpaceRequiredInCommandBuffer family args env ≤ 2 ^ 57) :
    ∀ command ∈ barrierBuffer family gpuAddressOfAllocation args dcFlushEnable env,
      family.refuses command = false := by
  have room : computeBarrierControlSectionOffset family args env + 8 ≤
      estimateBarrierSpaceRequiredInCommandBuffer family args env := by
    have size : family.size (zeroFields BarrierControlSection.fieldCount) = 8 := rfl
    rw [estimateBarrierSpaceRequiredInCommandBuffer, size]
    split <;> omega
  have final := accepted_selfCleanup args.useAtomicsForSelfCleanup
    (fieldAddress_le below room)
  have barrier : ∀ command ∈ (if args.usePostSync then
        barrierWithPostSync family args.postSyncGpuAddress args.postSyncImmediateValue
          dcFlushEnable env
      else [.pipeControl dcFlushEnable none]), family.refuses command = false := by
    split
    next used => exact accepted_barrierWithPostSync (postSync used) _ _ _
    next => exact accepted_plain rfl
  simp only [barrierBuffer, barrierPrologue, barrierEpilogue, List.forall_mem_append]
  refine ⟨⟨⟨⟨⟨?_, barrier⟩, accepted_plain rfl⟩, accepted_plain rfl⟩, accepted_plain rfl⟩, ?_⟩
  · exact accepted_optional fun _ => List.forall_mem_singleton.mpr final
  · refine accepted_optional fun _ => accepted_selfCleanupEnd fun core fieldIndex inside => ?_
    refine fieldAddress_le below ?_ core
    simp only [barrierControlSectionFieldsForCleanupCount, BarrierControlSection.fieldCount,
      sizeOfField] at *
    omega

end Accepted

/-- The three buffers at a base, as a GPU reads them whose addresses have so many bits. -/
structure ConstructedLaidOut (family : GfxFamily)
    (addressWidth gpuAddressOfAllocation postSyncDestination : Nat) (args : WalkerPartitionArgs)
    (dcFlushEnable : Bool) (env : RootDeviceEnvironment) : Prop where
  accepted : ∀ placed ∈
    (constructDynamicallyPartitionedCommandBuffer family gpuAddressOfAllocation
        postSyncDestination args).items ++
      (constructStaticallyPartitionedCommandBuffer family gpuAddressOfAllocation
        postSyncDestination args).items ++
      (constructBarrierCommandBuffer family gpuAddressOfAllocation args dcFlushEnable env).items,
    family.refuses placed.2 = false
  dynamic :
    LaidOut family (byteAddress addressWidth gpuAddressOfAllocation)
      (estimateSpaceRequiredInCommandBuffer family { args with staticPartitioning := false })
      [(computeControlSectionOffset family args, [0, 0, 0, 0])]
      (dynamicAccesses args fun field =>
        byteAddress addressWidth gpuAddressOfAllocation
          (computeControlSectionOffset family args + field))
      [computeWalkerSectionStart family args, computeControlSectionOffset family args + 16, 0]
      ((constructDynamicallyPartitionedCommandBuffer family gpuAddressOfAllocation
        postSyncDestination args).fetched family addressWidth)
  walker : (computeWalkerSectionStart family args, .computeWalker) ∈
    ((constructDynamicallyPartitionedCommandBuffer family gpuAddressOfAllocation
      postSyncDestination args).fetched family addressWidth).items
  static :
    LaidOut family (byteAddress addressWidth gpuAddressOfAllocation)
      (estimateSpaceRequiredInCommandBuffer family { args with staticPartitioning := true })
      (if isStartAndControlSectionRequired args then
        [(computeStaticPartitioningControlSectionOffset family args, [0, 0, 0])] else [])
      (staticAccesses args fun field =>
        byteAddress addressWidth gpuAddressOfAllocation
          (computeStaticPartitioningControlSectionOffset family args + field))
      (if isStartAndControlSectionRequired args then
        [computeStaticPartitioningControlSectionOffset family args + 12] else [])
      ((constructStaticallyPartitionedCommandBuffer family gpuAddressOfAllocation
        postSyncDestination args).fetched family addressWidth)
  barrier :
    LaidOut family (byteAddress addressWidth gpuAddressOfAllocation)
      (estimateBarrierSpaceRequiredInCommandBuffer family args env)
      [(computeBarrierControlSectionOffset family args env, [0, 0])]
      (barrierAccesses args fun field =>
        byteAddress addressWidth gpuAddressOfAllocation
          (computeBarrierControlSectionOffset family args env + field))
      [computeBarrierControlSectionOffset family args env + 8]
      ((constructBarrierCommandBuffer family gpuAddressOfAllocation args dcFlushEnable
        env).fetched family addressWidth)

section Constructed

variable {family : GfxFamily} {addressWidth gpuAddressOfAllocation postSyncDestination : Nat}
  {args : WalkerPartitionArgs} {dcFlushEnable : Bool} {env : RootDeviceEnvironment}

/-- A field of a control section at a whole dword is designated as it is. -/
theorem fieldAddress_whole {controlSectionOffset : Nat} (wide : 2 ≤ addressWidth)
    (base : 4 ∣ gpuAddressOfAllocation) (control : 4 ∣ controlSectionOffset) (i : Nat) :
    fetchedAddress addressWidth
        (fieldAddress gpuAddressOfAllocation controlSectionOffset (4 * i)) =
      byteAddress addressWidth gpuAddressOfAllocation (controlSectionOffset + 4 * i) := by
  rw [fieldAddress, add64_add64]
  exact byteAddress_whole wide base (Nat.dvd_add control (Nat.dvd_mul_right 4 i))

section Whole

variable (wide : 2 ≤ addressWidth) (held : addressWidth ≤ family.addressBits)
  (dword : 4 ∣ gpuAddressOfAllocation)
include wide held dword

theorem dynamic_fetched (base : gpuAddressOfAllocation < 2 ^ 64) :
    LaidOut family (byteAddress addressWidth gpuAddressOfAllocation)
      (estimateSpaceRequiredInCommandBuffer family { args with staticPartitioning := false })
      [(computeControlSectionOffset family args, [0, 0, 0, 0])]
      (dynamicAccesses args fun field =>
        byteAddress addressWidth gpuAddressOfAllocation
          (computeControlSectionOffset family args + field))
      [computeWalkerSectionStart family args, computeControlSectionOffset family args + 16, 0]
      ((emitted family (dynamicBuffer family gpuAddressOfAllocation args
        postSyncDestination)).fetched family addressWidth) := by
  have control := dvd_computeControlSectionOffset family args
  have accesses := @map_dynamicAccesses args (fetchedAddress addressWidth)
    (fieldAddress gpuAddressOfAllocation (computeControlSectionOffset family args))
    (fun field => byteAddress addressWidth gpuAddressOfAllocation
      (computeControlSectionOffset family args + field))
    fun i _ => fieldAddress_whole wide dword control i
  rw [← accesses]
  refine (dynamic_laidOut base postSyncDestination).fetched wide held fun jump inside => ?_
  simp only [List.mem_cons, List.not_mem_nil, or_false] at inside
  rcases inside with rfl | rfl | rfl
  · exact byteAddress_whole wide dword (dvd_computeWalkerSectionStart family args)
  · exact byteAddress_whole wide dword (Nat.dvd_add control (Nat.dvd_mul_right 4 4))
  · exact byteAddress_whole wide dword (Nat.dvd_zero 4)

theorem static_fetched :
    LaidOut family (byteAddress addressWidth gpuAddressOfAllocation)
      (estimateSpaceRequiredInCommandBuffer family { args with staticPartitioning := true })
      (if isStartAndControlSectionRequired args then
        [(computeStaticPartitioningControlSectionOffset family args, [0, 0, 0])] else [])
      (staticAccesses args fun field =>
        byteAddress addressWidth gpuAddressOfAllocation
          (computeStaticPartitioningControlSectionOffset family args + field))
      (if isStartAndControlSectionRequired args then
        [computeStaticPartitioningControlSectionOffset family args + 12] else [])
      ((emitted family (staticBuffer family gpuAddressOfAllocation args
        postSyncDestination)).fetched family addressWidth) := by
  have control := dvd_computeStaticPartitioningControlSectionOffset family args
  have accesses := @map_staticAccesses args (fetchedAddress addressWidth)
    (fieldAddress gpuAddressOfAllocation
      (computeStaticPartitioningControlSectionOffset family args))
    (fun field => byteAddress addressWidth gpuAddressOfAllocation
      (computeStaticPartitioningControlSectionOffset family args + field))
    fun i _ => fieldAddress_whole wide dword control i
  rw [← accesses]
  refine (static_laidOut postSyncDestination).fetched wide held fun jump inside => ?_
  split at inside
  · cases List.mem_singleton.mp inside
    exact byteAddress_whole wide dword (Nat.dvd_add control (Nat.dvd_mul_right 4 3))
  · cases inside

theorem barrier_fetched :
    LaidOut family (byteAddress addressWidth gpuAddressOfAllocation)
      (estimateBarrierSpaceRequiredInCommandBuffer family args env)
      [(computeBarrierControlSectionOffset family args env, [0, 0])]
      (barrierAccesses args fun field =>
        byteAddress addressWidth gpuAddressOfAllocation
          (computeBarrierControlSectionOffset family args env + field))
      [computeBarrierControlSectionOffset family args env + 8]
      ((emitted family (barrierBuffer family gpuAddressOfAllocation args dcFlushEnable
        env)).fetched family addressWidth) := by
  have control := dvd_computeBarrierControlSectionOffset family args env
  have accesses := @map_barrierAccesses args (fetchedAddress addressWidth)
    (fieldAddress gpuAddressOfAllocation (computeBarrierControlSectionOffset family args env))
    (fun field => byteAddress addressWidth gpuAddressOfAllocation
      (computeBarrierControlSectionOffset family args env + field))
    fun i _ => fieldAddress_whole wide dword control i
  rw [← accesses]
  refine barrier_laidOut.fetched wide held fun jump inside => ?_
  cases List.mem_singleton.mp inside
  exact byteAddress_whole wide dword (Nat.dvd_add control (Nat.dvd_mul_right 4 2))

end Whole

theorem accepted_emitted {commands : List Command}
    (accepted : ∀ command ∈ commands, family.refuses command = false) :
    ∀ placed ∈ (emitted family commands).items, family.refuses placed.2 = false := by
  intro placed inside
  refine accepted placed.2 ?_
  rw [← place_map_snd family.size 0 commands]
  exact List.mem_map_of_mem inside

/-- The commands that partition a walker, or a barrier, on the tiles of a device are laid out as
estimated, in a buffer at any whole dword. -/
theorem constructed_laidOut (family : GfxFamily)
    (addressWidth gpuAddressOfAllocation postSyncDestination : Nat) (args : WalkerPartitionArgs)
    (dcFlushEnable : Bool) (env : RootDeviceEnvironment) (wide : 48 ≤ addressWidth)
    (held : addressWidth ≤ family.addressBits) (base : gpuAddressOfAllocation < 2 ^ 64)
    (dword : 4 ∣ gpuAddressOfAllocation)
    (below : family.core = .xeHpc → ∀ room ∈
      [estimateSpaceRequiredInCommandBuffer family { args with staticPartitioning := false },
        estimateSpaceRequiredInCommandBuffer family { args with staticPartitioning := true },
        estimateBarrierSpaceRequiredInCommandBuffer family args env],
      gpuAddressOfAllocation + room ≤ 2 ^ 57)
    (postSync : args.usePostSync = true → family.core = .xeHpg →
      args.postSyncGpuAddress % 2 ^ 32 ≤ 0xfffffffc)
    (direct : args.blockDispatchToCommandBuffer = false) (pow2 : isPow2 args.partitionCount = true)
    (few : args.partitionCount ≤ 16) :
    ConstructedLaidOut family addressWidth gpuAddressOfAllocation postSyncDestination args
      dcFlushEnable env := by
  have wide : 2 ≤ addressWidth := by omega
  have dynamic := @constructDynamicallyPartitionedCommandBuffer_eq family gpuAddressOfAllocation
    postSyncDestination args direct pow2 few
  have static := @constructStaticallyPartitionedCommandBuffer_eq family gpuAddressOfAllocation
    postSyncDestination args direct
  have barrier := @constructBarrierCommandBuffer_eq family gpuAddressOfAllocation args
    dcFlushEnable env
  simp only [List.forall_mem_cons, List.not_mem_nil, false_implies, implies_true, and_true] at below
  constructor
  · rw [dynamic, static, barrier, List.forall_mem_append, List.forall_mem_append]
    refine ⟨⟨?_, ?_⟩, ?_⟩
    · exact accepted_emitted (accepted_dynamicBuffer fun core => (below core).1)
    · exact accepted_emitted (accepted_staticBuffer fun core => (below core).2.1)
    · exact accepted_emitted (accepted_barrierBuffer postSync fun core => (below core).2.2)
  · rw [dynamic]
    exact dynamic_fetched wide held dword base
  · rw [dynamic]
    exact List.mem_map.mpr ⟨_, computeWalker_mem postSyncDestination, rfl⟩
  · rw [static]
    exact static_fetched wide held dword
  · rw [barrier]
    exact barrier_fetched wide held dword

theorem constructed_laidOut_twoTiles :
    let args : WalkerPartitionArgs :=
      { partitionCount := 4
        tileCount := 2
        synchronizeBeforeExecution := true
        emitSelfCleanup := true }
    LaidOut xeHpcFamily (byteAddress 57 0x10000) 620 [(416, [0, 0, 0, 0])]
      (dynamicAccesses args fun field => 0x10000 + 416 + field) [248, 432, 0]
      ((constructDynamicallyPartitionedCommandBuffer xeHpcFamily 0x10000 0 args).fetched
        xeHpcFamily 57) := by
  intro args
  let env : RootDeviceEnvironment :=
    { ftrLocalMemory := true, isReleaseGlobalFenceInCommandStreamRequired := true }
  have laidOut := (constructed_laidOut xeHpcFamily 57 0x10000 0 args false env (by decide)
    (by decide) (by decide) (by decide) (by decide) (by decide) rfl (by decide) (by decide)).dynamic
  have control : computeControlSectionOffset xeHpcFamily args = 416 := by decide
  have walker : computeWalkerSectionStart xeHpcFamily args = 248 := by decide
  have estimate : estimateSpaceRequiredInCommandBuffer xeHpcFamily
      { args with staticPartitioning := false } = 620 := by decide
  rw [estimate, control, walker] at laidOut
  exact laidOut

end Constructed

/-- Not at every base: the bytes of a jump have no room for its two low bits, and where an address
is too large, or not of whole dwords, a setter does not return. -/
theorem constructed_misses :
    let env : RootDeviceEnvironment :=
      { ftrLocalMemory := true, isReleaseGlobalFenceInCommandStreamRequired := true }
    let args : WalkerPartitionArgs :=
      { partitionCount := 4, tileCount := 2, emitSelfCleanup := true, usePostSync := true
        postSyncGpuAddress := 0xfffffffd }
    ¬ ConstructedLaidOut xeHpcFamily 57 1 0 args false env ∧
      ¬ ConstructedLaidOut xeHpcFamily 57 (2 ^ 64 - 2 ^ 20) 0 args false env ∧
      ¬ ConstructedLaidOut { xeHpcFamily with core := .xeHpg } 48 0x10000 0 args false env := by
  refine ⟨fun laidOut => ?_, fun laidOut => ?_, fun laidOut => ?_⟩
  · exact absurd laidOut.barrier.jumped (by decide)
  · exact absurd laidOut.accepted (by decide)
  · exact absurd laidOut.accepted (by decide)

end ComputeRuntime.WalkerPartition
