import ComputeRuntime.DirectSubmission.Ring
import ComputeRuntime.DirectSubmission.Sections

/-! Where the GPU stops in the ring: each section either lets it through or holds one barrier. -/
namespace ComputeRuntime

namespace DirectSubmission

/-- Commands that the GPU goes through without a stop. -/
def Command.Plain : Command → Prop
  | .semaphoreWait _ | .relaxedOrderingScheduler _ | .stopCommandBuffer => False
  | _ => True

/-- Plain commands that neither write a tag nor go on in another ring buffer. -/
def Command.Ordinary : Command → Prop
  | .monitorFence _ | .startCommandBuffer => False
  | command => command.Plain

theorem Command.Ordinary.plain {command : Command} (ordinary : command.Ordinary) :
    command.Plain := by
  cases command with
  | monitorFence => trivial
  | startCommandBuffer => trivial
  | _ => exact ordinary

theorem Command.Plain.waitsFor {command : Command} (plain : command.Plain) :
    command.waitsFor = none := by
  cases command with
  | semaphoreWait => exact plain.elim
  | relaxedOrderingScheduler => exact plain.elim
  | _ => rfl

/-- The GPU does not go past the command while this value is in memory. -/
def Command.Closed (count : Nat) (command : Command) : Prop :=
  command = .stopCommandBuffer ∨ ∃ value, command.waitsFor = some value ∧ count < value

theorem Command.not_closed {count : Nat} {command : Command} (goesOn : command ≠ .stopCommandBuffer)
    (opened : ∀ value, command.waitsFor = some value → value ≤ count) :
    ¬ command.Closed count := by
  rintro (stop | ⟨value, waits, closed⟩)
  · exact goesOn stop
  · exact absurd (opened value waits) (Nat.not_le.mpr closed)

theorem Command.Closed.not_plain {count : Nat} {command : Command} (closed : command.Closed count) :
    ¬ command.Plain := by
  intro plain
  rcases closed with rfl | ⟨value, waits, -⟩
  · exact plain
  · simp [plain.waitsFor] at waits

end DirectSubmission

open DirectSubmission

namespace DirectSubmissionHw

variable {kind : Command → Prop} {hw middle final : DirectSubmissionHw}

/-- Commands of a kind were appended, and among them one that is given. -/
def AppendsAround (kind : Command → Prop) (command : Command) (hw after : DirectSubmissionHw) :
    Prop :=
  ∃ before size, Appends kind hw before ∧ Appends kind (before.write command size) after

theorem AppendsAround.same {command : Command} (appends : AppendsAround kind command hw final) :
    Same hw final := by
  obtain ⟨before, size, early, late⟩ := appends
  have here : Same before (before.write command size) :=
    ⟨rfl, rfl, rfl, rfl, rfl, rfl, rfl, rfl, rfl⟩
  exact (early.same.trans here).trans late.same

theorem Appends.behind {command : Command} (early : Appends kind hw middle)
    (appends : AppendsAround kind command middle final) : AppendsAround kind command hw final := by
  obtain ⟨before, size, more, late⟩ := appends
  exact ⟨before, size, early.trans more, late⟩

theorem AppendsAround.ahead {command : Command} (appends : AppendsAround kind command hw middle)
    (late : Appends kind middle final) : AppendsAround kind command hw final := by
  obtain ⟨before, size, early, more⟩ := appends
  exact ⟨before, size, early, more.trans late⟩

theorem AppendsAround.write (hw : DirectSubmissionHw) (command : Command) (size : Nat) :
    AppendsAround kind command hw (hw.write command size) :=
  ⟨hw, size, .refl hw, .refl _⟩

theorem Appends.ite {condition : Prop} [Decidable condition] {other : DirectSubmissionHw}
    (yes : condition → Appends kind hw final) (no : ¬ condition → Appends kind hw other) :
    Appends kind hw (if condition then final else other) := by
  split
  · exact yes ‹_›
  · exact no ‹_›

theorem Appends.writeThen {command : Command} (isKind : kind command) (size : Nat)
    (same : Same (hw.write command size) final) (used : final.used = (hw.write command size).used)
    (log : final.log = (hw.write command size).log) : Appends kind hw final :=
  (Appends.write hw isKind size).trans (.silent same used log)

variable (settings : DirectSubmissionSettings) (hw)

section Fences

variable (fence : ∀ tagValue, kind (.monitorFence tagValue))
include fence

theorem dispatchMonitorFence_appends : Appends kind hw (hw.dispatchMonitorFence settings) :=
  .write hw (fence _) _

theorem dispatchStopRingBufferSection_appends (count : Nat) :
    Appends kind hw (hw.dispatchStopRingBufferSection settings count) := by
  induction count generalizing hw with
  | zero => exact .refl hw
  | succ count ih => exact (dispatchMonitorFence_appends hw settings fence).trans (ih _)

theorem dispatchSwitchRingBufferSection_appends (jump : kind .startCommandBuffer) :
    Appends kind hw (hw.dispatchSwitchRingBufferSection settings) := by
  have fenced : Appends kind hw
      (if settings.disableMonitorFence then hw.dispatchMonitorFence settings else hw) := by
    apply Appends.ite
    · exact fun _ => dispatchMonitorFence_appends hw settings fence
    · exact fun _ => .refl hw
  exact fenced.trans (.write _ jump _)

end Fences

variable (ordinary : ∀ command : Command, command.Ordinary → kind command)
include ordinary

theorem dispatchDisablePrefetcher_appends (disable : Bool) :
    Appends kind hw (hw.dispatchDisablePrefetcher settings disable) := by
  apply Appends.ite
  · exact fun _ => .write hw (ordinary _ (by trivial)) _
  · exact fun _ => .refl hw

theorem alignToCacheLine_appends : Appends kind hw hw.alignToCacheLine := by
  apply Appends.ite
  · exact fun _ => .refl hw
  · exact fun _ => .write hw (ordinary _ (by trivial)) _

theorem dispatchUllsState_appends : Appends kind hw (hw.dispatchUllsState settings) := by
  unfold dispatchUllsState
  extract_lets _ configured _ addressed
  have configures : Appends kind hw configured := by
    apply Appends.ite
    · exact fun _ => .refl hw
    · exact fun _ => .writeThen (ordinary _ (by trivial)) _ (by constructor <;> rfl) rfl rfl
  have addresses : Appends kind configured addressed := by
    apply Appends.ite
    · exact fun _ => .writeThen (ordinary _ (by trivial)) _ (by constructor <;> rfl) rfl rfl
    · exact fun _ => .refl configured
  apply (configures.trans addresses).trans
  apply Appends.ite
  · exact fun _ => .writeThen (ordinary _ (by trivial)) _ (by constructor <;> rfl) rfl rfl
  · exact fun _ => .refl addressed

theorem dispatchInitialState_appends : Appends kind hw (hw.dispatchInitialState settings) := by
  unfold dispatchInitialState
  extract_lets _ _ partitioned _ addressed
  have preempts : Appends kind hw (hw.write .preemption settings.sizes.preemption) :=
    .write hw (ordinary _ (by trivial)) _
  have partitions : Appends kind (hw.write .preemption settings.sizes.preemption) partitioned := by
    apply Appends.ite
    · exact fun _ => .writeThen (ordinary _ (by trivial)) _ (by constructor <;> rfl) rfl rfl
    · exact fun _ => .refl _
  have addresses : Appends kind partitioned addressed := by
    apply Appends.ite
    · exact fun _ => .writeThen (ordinary _ (by trivial)) _ (by constructor <;> rfl) rfl rfl
    · exact fun _ => .refl partitioned
  apply ((preempts.trans partitions).trans addresses).trans
  apply Appends.ite
  · exact fun _ => .writeThen (ordinary _ (by trivial)) _ (by constructor <;> rfl) rfl rfl
  · exact fun _ => .refl addressed

theorem handleNewResourcesSubmission_appends (isTlbFlushRequired : Bool) :
    Appends kind hw (hw.handleNewResourcesSubmission settings isTlbFlushRequired) := by
  apply Appends.ite
  · exact fun _ => .write hw (ordinary _ (by trivial)) _
  · exact fun _ => .refl hw

theorem dispatchClientCommands_appends (batchBuffer : BatchBuffer settings.sizes)
    (dispatchMonitorFence : Bool)
    (fence : dispatchMonitorFence = true → ∀ tagValue, kind (.monitorFence tagValue)) :
    Appends kind hw (hw.dispatchClientCommands settings batchBuffer dispatchMonitorFence) := by
  unfold dispatchClientCommands
  extract_lets relaxed waiting returning started stored expectedQueueSize _ limited flushed
  have waits : Appends kind hw waiting := by
    simp only [waiting]
    split
    · exact .write hw (ordinary _ (by trivial)) _
    · exact .refl hw
  have returns : Appends kind waiting returning := by
    apply Appends.ite
    · exact fun _ => .write waiting (ordinary _ (by trivial)) _
    · exact fun _ => .refl waiting
  have starts : Appends kind returning started := by
    apply Appends.ite
    · exact fun _ => .write returning (ordinary _ (by trivial)) _
    · exact fun _ => .write returning (ordinary _ (by trivial)) _
  have stores : Appends kind started stored := .write started (ordinary _ (by trivial)) _
  have limits : Appends kind started limited := by
    apply Appends.ite
    · intro _
      apply stores.trans
      apply Appends.ite
      · exact fun _ => .writeThen (ordinary _ (by trivial)) _ (by constructor <;> rfl) rfl rfl
      · exact fun _ => .refl stored
    · exact fun _ => .refl started
  have flushes : Appends kind limited flushed := by
    apply Appends.ite
    · exact fun _ => .refl limited
    · exact fun _ => .write limited (ordinary _ (by trivial)) _
  apply ((((waits.trans returns).trans starts).trans limits).trans flushes).trans
  apply Appends.ite
  · exact fun required => dispatchMonitorFence_appends flushed settings (fence required)
  · exact fun _ => .refl flushed

variable {settings} (ordered : settings.relaxedOrderingEnabled = false)
include ordered

theorem dispatchSemaphoreSection_around (value : Nat) :
    AppendsAround kind (.semaphoreWait value) hw
      (hw.dispatchSemaphoreSection settings value) := by
  have fenced (middle : DirectSubmissionHw) : Appends kind middle
      (if settings.miMemFenceRequired then
        middle.write .memoryFence settings.sizes.singleAdditionalSynchronization
      else middle) := by
    apply Appends.ite
    · exact fun _ => .write middle (ordinary _ (by trivial)) _
    · exact fun _ => .refl middle
  unfold dispatchSemaphoreSection
  simp only [ordered, Bool.false_and, Bool.false_eq_true, if_false]
  apply (dispatchDisablePrefetcher_appends hw settings ordinary true).behind
  apply (AppendsAround.write _ _ settings.sizes.miSemaphoreWait).ahead
  apply (fenced _).trans
  exact (Appends.write _ (ordinary _ (by trivial)) _).trans
    (dispatchDisablePrefetcher_appends _ settings ordinary false)

/-- Without relaxed ordering nothing waits before the client's commands. -/
theorem dispatchPreamble_appends (batchBuffer : BatchBuffer settings.sizes)
    (isTlbFlushRequired : Bool) :
    Appends kind hw (hw.dispatchPreamble settings batchBuffer isTlbFlushRequired) := by
  unfold dispatchPreamble
  simp only [ordered, Bool.false_and, Bool.false_eq_true, if_false]
  apply (dispatchUllsState_appends hw settings ordinary).trans
  refine .trans ?_ (handleNewResourcesSubmission_appends _ settings ordinary isTlbFlushRequired)
  exact .silent (by constructor <;> rfl) rfl rfl

theorem dispatchSections_around (batchBuffer : BatchBuffer settings.sizes)
    (isTlbFlushRequired : Bool) (fence : monitorFenceOf settings batchBuffer = true →
      ∀ tagValue, kind (.monitorFence tagValue)) :
    AppendsAround kind (.semaphoreWait (add32 hw.currentQueueWorkCount 1)) hw
      (hw.dispatchSections settings batchBuffer isTlbFlushRequired) := by
  have preamble := dispatchPreamble_appends hw ordinary ordered batchBuffer isTlbFlushRequired
  have client := dispatchClientCommands_appends
    (hw.dispatchPreamble settings batchBuffer isTlbFlushRequired) settings ordinary batchBuffer
    (monitorFenceOf settings batchBuffer) fence
  have commands := preamble.trans client
  apply commands.behind
  rw [← commands.same.currentQueueWorkCount]
  exact dispatchSemaphoreSection_around _ ordinary ordered _

omit ordinary

theorem dispatchEnd_around : AppendsAround Command.Plain .stopCommandBuffer hw
    (hw.dispatchEnd settings) := by
  have fenced (middle : DirectSubmissionHw) : Appends Command.Plain middle
      (if settings.disableMonitorFence then
        middle.dispatchStopRingBufferSection settings settings.monitorFencesOnStop
      else middle) := by
    apply Appends.ite
    · exact fun _ => dispatchStopRingBufferSection_appends middle settings (fun _ => trivial) _
    · exact fun _ => .refl middle
  have flush : Appends Command.Plain hw (hw.write .cacheFlush settings.sizes.cacheFlush) :=
    .write hw (by trivial) _
  unfold dispatchEnd
  simp only [ordered, Bool.false_and, Bool.false_eq_true, if_false]
  apply (flush.trans (fenced _)).behind
  apply (AppendsAround.write _ _ settings.sizes.stopCommandBuffer).ahead
  exact (Appends.write _ (by trivial) _).trans
    (alignToCacheLine_appends _ fun _ => Command.Ordinary.plain)

end DirectSubmissionHw

end ComputeRuntime
