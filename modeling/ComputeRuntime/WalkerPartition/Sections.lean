import ComputeRuntime.WalkerPartition.Model
import ComputeRuntime.Library.Layout

/-! The partitioned command buffers as lists of commands laid one behind the other, section by
section, and the room each section takes. -/
namespace ComputeRuntime.WalkerPartition

open Layout

/-- Commands that are written when a flag is set. -/
def optional (condition : Prop) [Decidable condition] (commands : List Command) : List Command :=
  if condition then commands else []

def tilesSynchronization (atomicAddress tileCount : Nat) : List Command :=
  [.miAtomic atomicAddress false .increment4B,
    .miSemaphoreWait atomicAddress tileCount .sadGreaterThanOrEqualSdd]

def selfCleanup (useAtomicsForSelfCleanup : Bool) (address : Nat) : Command :=
  if useAtomicsForSelfCleanup then .miAtomic address false .move4B else .miStoreDataImm address 0

def cleanupBarrier (args : WalkerPartitionArgs) : List Command :=
  optional (args.pipeControlBeforeCleanupCrossTileSync = true) [.pipeControl false none]

def fieldCleanups (controlSection fieldsForCleanupCount : Nat) (args : WalkerPartitionArgs) :
    List Command :=
  (List.range fieldsForCleanupCount).map fun fieldIndex =>
    selfCleanup args.useAtomicsForSelfCleanup (add64 controlSection (fieldIndex * sizeOfField))

def selfCleanupEnd (finalSyncTileCountAddress controlSection fieldsForCleanupCount : Nat)
    (args : WalkerPartitionArgs) : List Command :=
  cleanupBarrier args ++ tilesSynchronization finalSyncTileCountAddress args.tileCount ++
    fieldCleanups controlSection fieldsForCleanupCount args ++ cleanupBarrier args ++
    tilesSynchronization finalSyncTileCountAddress (Word.mul 32 2 args.tileCount)

def postSyncWaits (postSyncDestination partitionCount : Nat) : List Command :=
  (List.range partitionCount).map fun partitionId =>
    .miSemaphoreWait (add64 (add64 postSyncDestination 8) (partitionId * 16)) 1 .sadNotEqualSdd

/-- The additional synchronization of a release. -/
def additionalSynchronization (family : GfxFamily) (gpuAddress : Nat)
    (env : RootDeviceEnvironment) : List Command :=
  let wait := Command.miSemaphoreWait gpuAddress invalidHardwareTag .sadNotEqualSdd
  match family.core with
  | .xeHpg => []
  | .xeHpc => if additionalSynchronizationType env = .fence then [.miMemFence] else [wait]
  | .xe2Hpg | .xe3 =>
    match additionalSynchronizationType env with
    | .fence => [.miMemFence]
    | .semaphore => [wait]
    | .none => []

def barrierWithPostSync (family : GfxFamily) (gpuAddress immediateData : Nat) (dcFlushEnable : Bool)
    (env : RootDeviceEnvironment) : List Command :=
  optional (isBarrierWaRequired family env = true)
      (.pipeControl false none :: additionalSynchronization family gpuAddress env) ++
    .pipeControl dcFlushEnable (some (gpuAddress, immediateData)) ::
      additionalSynchronization family gpuAddress env

namespace Emission

variable (family : GfxFamily)

/-- Writes some commands. -/
def append (commands : List Command) (e : Emission) : Emission where
  items := e.items ++ place family.size e.currentBatchBufferPointer commands
  currentBatchBufferPointer := e.currentBatchBufferPointer + extent family.size commands
  totalBytesProgrammed := e.totalBytesProgrammed + extent family.size commands

/-- Writes some commands without counting their bytes. -/
def move (commands : List Command) (e : Emission) : Emission where
  items := e.items ++ place family.size e.currentBatchBufferPointer commands
  currentBatchBufferPointer := e.currentBatchBufferPointer + extent family.size commands
  totalBytesProgrammed := e.totalBytesProgrammed

variable {family}

@[simp] theorem append_nil (e : Emission) : e.append family [] = e := by
  simp [append, place]

@[simp] theorem append_append (e : Emission) (first second : List Command) :
    (e.append family first).append family second = e.append family (first ++ second) := by
  simp [append, place_append, Nat.add_assoc]

@[simp] theorem move_move (e : Emission) (first second : List Command) :
    (e.move family first).move family second = e.move family (first ++ second) := by
  simp [move, place_append, Nat.add_assoc]

@[simp] theorem move_nil (e : Emission) : e.move family [] = e := by
  simp [move, place]

theorem putCommand_eq (command : Command) (e : Emission) :
    e.putCommand family command = e.append family [command] := by
  simp [putCommand, append, place]

theorem setCommand_eq (command : Command) (e : Emission) :
    e.setCommand family command = e.move family [command] := by
  simp [setCommand, move, place]

theorem optional_eq (condition : Prop) [Decidable condition] (commands : List Command)
    (e : Emission) :
    (if condition then e.append family commands else e) =
      e.append family (optional condition commands) := by
  unfold optional
  split <;> simp

theorem optional_pair_eq (condition : Prop) [Decidable condition] (first second : List Command)
    (e : Emission) :
    (if condition then (e.append family first).append family second else e) =
      e.append family (optional condition (first ++ second)) := by
  rw [append_append, optional_eq]

theorem foldl_eq {ι : Type} (indices : List ι) (command : ι → Command) (e : Emission) :
    indices.foldl (fun e index => e.append family [command index]) e =
      e.append family (indices.map command) := by
  induction indices generalizing e with
  | nil => simp
  | cons index rest ih => simp [ih]

end Emission

section Programs

variable {family : GfxFamily} (e : Emission)

theorem programTilesSynchronizationWithAtomics_eq (atomicAddress tileCount : Nat) :
    programTilesSynchronizationWithAtomics family atomicAddress tileCount e =
      e.append family (tilesSynchronization atomicAddress tileCount) := by
  simp only [programTilesSynchronizationWithAtomics, programMiAtomic, programWaitForSemaphore,
    Emission.putCommand_eq, Emission.append_append]
  rfl

theorem programSelfCleanupSection_eq (address : Nat) (useAtomicsForSelfCleanup : Bool) :
    programSelfCleanupSection family address useAtomicsForSelfCleanup e =
      e.append family [selfCleanup useAtomicsForSelfCleanup address] := by
  cases useAtomicsForSelfCleanup <;> exact Emission.putCommand_eq _ e

theorem programSelfCleanupEndSection_eq (finalSyncTileCountAddress controlSection : Nat)
    (fieldsForCleanupCount : Nat) (args : WalkerPartitionArgs) :
    programSelfCleanupEndSection family finalSyncTileCountAddress controlSection
        fieldsForCleanupCount args e =
      e.append family
        (selfCleanupEnd finalSyncTileCountAddress controlSection fieldsForCleanupCount args) := by
  simp only [programSelfCleanupEndSection, programPipeControlCommand, Emission.putCommand_eq,
    Emission.optional_eq, programTilesSynchronizationWithAtomics_eq, programSelfCleanupSection_eq,
    Emission.foldl_eq]
  simp only [Emission.append_append]
  rfl

theorem programTilesSynchronizationWithPostSyncs_eq (postSyncDestination partitionCount : Nat) :
    programTilesSynchronizationWithPostSyncs family postSyncDestination partitionCount e =
      e.append family (postSyncWaits postSyncDestination partitionCount) := by
  simp only [programTilesSynchronizationWithPostSyncs, programWaitForSemaphore,
    Emission.putCommand_eq, Emission.foldl_eq]
  rfl

theorem programWparidMask_eq {partitionCount : Nat} (pow2 : isPow2 partitionCount = true)
    (few : partitionCount ≤ 16) :
    programWparidMask family partitionCount e =
      e.append family [.loadRegisterImm predicationMaskCCSOffset (wparidMask partitionCount)] := by
  unfold programWparidMask
  rw [if_neg (by simp [pow2, few])]
  exact Emission.putCommand_eq _ e

theorem setAdditionalSynchronization_eq (gpuAddress : Nat) (env : RootDeviceEnvironment) :
    setAdditionalSynchronization family gpuAddress env e =
      e.move family (additionalSynchronization family gpuAddress env) := by
  unfold setAdditionalSynchronization additionalSynchronization additionalSynchronizationType
  obtain ⟨_, required, _, flag⟩ := env
  cases family.core <;> cases required <;> rcases flag with _ | _ | _ <;>
    simp [Emission.setCommand_eq]

theorem setBarrierWithPostSyncOperation_eq (gpuAddress immediateData : Nat) (dcFlushEnable : Bool)
    (env : RootDeviceEnvironment) :
    setBarrierWithPostSyncOperation family gpuAddress immediateData dcFlushEnable env e =
      e.move family
        (barrierWithPostSync family gpuAddress immediateData dcFlushEnable env) := by
  have wa : setBarrierWa family gpuAddress env e = e.move family
      (optional (isBarrierWaRequired family env = true)
        (.pipeControl false none :: additionalSynchronization family gpuAddress env)) := by
    unfold setBarrierWa optional
    have never : family.core = .xe3 → isBarrierWaRequired family env = false := by
      intro core
      simp [isBarrierWaRequired, core]
    split
    next core => simp [never core]
    next =>
      split
      · rw [setAdditionalSynchronization_eq, Emission.setCommand_eq, Emission.move_move]
        rfl
      · simp
  simp only [setBarrierWithPostSyncOperation, wa, Emission.setCommand_eq,
    setAdditionalSynchronization_eq, Emission.move_move]
  rw [barrierWithPostSync, List.append_assoc]
  rfl

theorem extent_additionalSynchronization (gpuAddress : Nat) (env : RootDeviceEnvironment) :
    extent family.size (additionalSynchronization family gpuAddress env) =
      getSizeForSingleAdditionalSynchronization family env := by
  unfold additionalSynchronization getSizeForSingleAdditionalSynchronization
  cases family.core <;> cases additionalSynchronizationType env <;> simp [GfxFamily.size]

theorem extent_optional (condition : Prop) [Decidable condition] (commands : List Command) :
    extent family.size (optional condition commands) =
      if condition then extent family.size commands else 0 := by
  unfold optional
  split <;> rfl

/-- The room set aside for a barrier with a post-sync write is the room it takes. -/
theorem extent_barrierWithPostSync (gpuAddress immediateData : Nat) (dcFlushEnable : Bool)
    (env : RootDeviceEnvironment) :
    extent family.size (barrierWithPostSync family gpuAddress immediateData dcFlushEnable env) =
      getSizeForBarrierWithPostSyncOperation family env := by
  simp only [barrierWithPostSync, extent_append, extent_optional, extent_cons,
    extent_additionalSynchronization, getSizeForBarrierWithPostSyncOperation, getSizeForBarrierWa,
    getSizeForSingleBarrier, GfxFamily.size]
  omega

theorem programPostSyncPipeControlCommand_eq (args : WalkerPartitionArgs) (dcFlushEnable : Bool)
    (env : RootDeviceEnvironment) :
    programPostSyncPipeControlCommand family args dcFlushEnable env e =
      e.append family (barrierWithPostSync family args.postSyncGpuAddress
        args.postSyncImmediateValue dcFlushEnable env) := by
  simp only [programPostSyncPipeControlCommand, setBarrierWithPostSyncOperation_eq]
  rw [← extent_barrierWithPostSync args.postSyncGpuAddress args.postSyncImmediateValue
    dcFlushEnable env]
  rfl

/-! ### Room -/

theorem extent_tilesSynchronization (atomicAddress tileCount : Nat) :
    extent family.size (tilesSynchronization atomicAddress tileCount) =
      computeTilesSynchronizationWithAtomicsSectionSize family := by
  simp [tilesSynchronization, GfxFamily.size, computeTilesSynchronizationWithAtomicsSectionSize]

theorem size_selfCleanup (useAtomicsForSelfCleanup : Bool) (address : Nat) :
    family.size (selfCleanup useAtomicsForSelfCleanup address) =
      computeSelfCleanupSectionSize family useAtomicsForSelfCleanup := by
  cases useAtomicsForSelfCleanup <;> rfl

/-- Some commands of one size. -/
theorem extent_map {ι : Type} {room : Nat} (command : ι → Command)
    (same : ∀ index, family.size (command index) = room) (indices : List ι) :
    extent family.size (indices.map command) = room * indices.length := by
  induction indices with
  | nil => rfl
  | cons index rest ih =>
    rw [List.map_cons, extent_cons, same, ih, List.length_cons, Nat.mul_succ, Nat.add_comm]

theorem extent_postSyncWaits (postSyncDestination partitionCount : Nat) :
    extent family.size (postSyncWaits postSyncDestination partitionCount) =
      family.miSemaphoreWait * partitionCount := by
  have each : ∀ partitionId, family.size (.miSemaphoreWait
      (add64 (add64 postSyncDestination 8) (partitionId * 16)) 1 .sadNotEqualSdd) =
      family.miSemaphoreWait := fun _ => rfl
  rw [postSyncWaits, extent_map _ each, List.length_range]

theorem extent_selfCleanupEnd (finalSyncTileCountAddress controlSection : Nat)
    (fieldsForCleanupCount : Nat) (args : WalkerPartitionArgs) :
    extent family.size
        (selfCleanupEnd finalSyncTileCountAddress controlSection fieldsForCleanupCount args) =
      computeSelfCleanupEndSectionSize family fieldsForCleanupCount args := by
  have fields : extent family.size (fieldCleanups controlSection fieldsForCleanupCount args) =
      fieldsForCleanupCount *
        computeSelfCleanupSectionSize family args.useAtomicsForSelfCleanup := by
    rw [fieldCleanups, extent_map _ (fun _ => size_selfCleanup _ _), List.length_range,
      Nat.mul_comm]
  simp only [selfCleanupEnd, extent_append, extent_tilesSynchronization, fields, cleanupBarrier,
    extent_optional, extent_cons, extent_nil, GfxFamily.size, computeSelfCleanupEndSectionSize,
    getSizeForSingleBarrier]
  split <;> omega

end Programs

end ComputeRuntime.WalkerPartition
