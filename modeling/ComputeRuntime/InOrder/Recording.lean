import ComputeRuntime.InOrder.Rendering
import Mathlib.Data.List.Basic
import Mathlib.Data.List.Induction

/-! What a list records: waits for operations that have signalled, and signals with values that
grow. -/
namespace ComputeRuntime.InOrder

variable {device : Device}

/-- Nothing is raised while a list is recorded. -/
def Amounts.zero : Amounts where
  own := 0
  external _ := 0

structure CommandList.Records (device : Device) (commandList : CommandList) (items : List Item)
    (amounts : Amounts) : Prop where
  commands : commandList.commands = renderAll device amounts items
  patches : commandList.inOrderPatchCmds = patchesAll device 0 items

def Item.signalled : Item → Option Nat
  | .signal operation _ _ _ => some operation
  | _ => none

/-- The operations that signal, in their order. -/
def signalOps (items : List Item) : List Nat := items.filterMap Item.signalled

@[simp] theorem signalOps_append (items items' : List Item) :
    signalOps (items ++ items') = signalOps items ++ signalOps items' := by
  simp [signalOps]

/-- Where an item may stand: a signal behind those of earlier operations; a wait behind the signal
that it is for, or for a known signal of another list. -/
def Item.Placed (known : Nat → Nat → Prop) (id : Nat) (front : List Item) : Item → Prop
  | .barrier => True
  | .signal operation _ base type =>
    base = operation + 1 ∧ (type = .sdi ∨ type = .walker ∨ type = .pipeControl) ∧
      ∀ earlier ∈ signalOps front, earlier < operation
  | .wait dependency _ _ base =>
    base = dependency.operation + 1 ∧
      if dependency.implicit then
        dependency.commandList = id ∧ (signalOps front).getLast? = some dependency.operation
      else dependency.commandList ≠ id ∧ known dependency.commandList dependency.operation

def Placed (known : Nat → Nat → Prop) (id : Nat) (items : List Item) : Prop :=
  ∀ front item back, items = front ++ item :: back → item.Placed known id front

variable {known known' : Nat → Nat → Prop} {id : Nat} {items : List Item} {item : Item}

theorem placed_nil : Placed known id [] := by
  intro front item back split
  cases front <;> cases split

theorem placed_concat (placed : Placed known id items) (last : item.Placed known id items) :
    Placed known id (items ++ [item]) := by
  intro front item' back split
  rcases List.eq_nil_or_concat' back with rfl | ⟨back, final, rfl⟩
  · obtain ⟨rfl, same⟩ := List.append_inj' split rfl
    cases same
    exact last
  · rw [← List.cons_append, ← List.append_assoc] at split
    obtain ⟨rfl, _⟩ := List.append_inj' split rfl
    exact placed front item' back rfl

theorem Placed.mono (placed : Placed known id items)
    (more : ∀ list operation, known list operation → known' list operation) :
    Placed known' id items := by
  intro front item back split
  have place := placed front item back split
  cases item with
  | barrier => trivial
  | signal => exact place
  | wait dependency offset partition base =>
    refine ⟨place.1, ?_⟩
    have place := place.2
    cases implicit : dependency.implicit with
    | true =>
      rw [implicit] at place
      exact place
    | false =>
      rw [implicit] at place
      exact ⟨place.1, more _ _ place.2⟩

theorem Placed.patchable (placed : Placed known id items) (member : item ∈ items) :
    item.Patchable := by
  obtain ⟨front, back, split⟩ := List.append_of_mem member
  rintro operation offset base type rfl
  exact (placed front _ back split).2.1

/-- Signals come in the order of their operations. -/
theorem Placed.pairwise (placed : Placed known id items) : (signalOps items).Pairwise (· < ·) := by
  induction items using List.reverseRecOn with
  | nil => exact List.Pairwise.nil
  | append_singleton items item ih =>
    have place := placed items item [] rfl
    have before : Placed known id items := by
      intro front item' back split
      exact placed front item' (back ++ [item]) (by simp [split])
    rw [signalOps_append, List.pairwise_append]
    refine ⟨ih before, ?_, ?_⟩
    · cases item <;> simp [signalOps, Item.signalled, List.filterMap_cons]
    · intro earlier member operation last
      cases item with
      | signal operation' offset base type =>
        simp only [signalOps, List.filterMap_cons, Item.signalled, List.filterMap_nil,
          List.mem_singleton] at last
        subst last
        exact place.2.2 earlier member
      | _ => simp [signalOps, Item.signalled] at last

/-! ### Items that are added -/

/-- A list while it is recorded. -/
structure CommandList.Recording (device : Device) (known : Nat → Nat → Prop) (id : Nat)
    (commandList : CommandList) (items : List Item) : Prop where
  records : commandList.Records device items .zero
  placed : Placed known id items

/-- Only the stream and the patches have changed. -/
def CommandList.Recorded (commandList commandList' : CommandList) : Prop :=
  ∃ commands cmds,
    commandList' = { commandList with commands := commands, inOrderPatchCmds := cmds }

variable {commandList commandList' : CommandList}

theorem CommandList.Recorded.trans {commandList'' : CommandList}
    (first : commandList.Recorded commandList') (second : commandList'.Recorded commandList'') :
    commandList.Recorded commandList'' := by
  obtain ⟨_, _, rfl⟩ := first
  obtain ⟨commands, cmds, rfl⟩ := second
  exact ⟨commands, cmds, rfl⟩

theorem CommandList.Recording.add (recording : commandList.Recording device known id items)
    (commands : commandList'.commands = commandList.commands ++ item.render device .zero)
    (patches : commandList'.inOrderPatchCmds =
      commandList.inOrderPatchCmds ++ item.patches device commandList.commands.length)
    (place : item.Placed known id items) :
    commandList'.Recording device known id (items ++ [item]) := by
  constructor
  · constructor
    · rw [commands, recording.records.commands, renderAll_append]
      simp [renderAll]
    · rw [patches, recording.records.patches, recording.records.commands,
        patchesAll_append .zero 0 items [item]]
      simp [patchesAll]
  · exact placed_concat recording.placed place

theorem CommandList.Recording.barrier (recording : commandList.Recording device known id items) :
    { commandList with commands := commandList.commands ++ [Command.barrier] }.Recording device
      known id (items ++ [Item.barrier]) :=
  recording.add rfl (List.append_nil _).symm trivial

theorem CommandList.Recording.addWait (recording : commandList.Recording device known id items)
    {dependency : Dependency} {offset partition waitValue : Nat}
    (place : (Item.wait dependency offset partition waitValue).Placed known id items) :
    (commandList.addWait device dependency offset partition waitValue).Recording device known id
      (items ++ [.wait dependency offset partition waitValue]) := by
  apply recording.add _ _ place
  · unfold CommandList.addWait
    cases qword : device.isQwordInOrderCounter <;>
      simp [Item.render, Item.value, Amounts.zero, qword]
  · unfold CommandList.addWait
    cases qword : device.isQwordInOrderCounter <;> simp [Item.patches, qword]

theorem addWait_recorded (dependency : Dependency) (offset partition waitValue : Nat) :
    commandList.Recorded (commandList.addWait device dependency offset partition waitValue) := by
  unfold CommandList.addWait
  cases device.isQwordInOrderCounter <;> exact ⟨_, _, rfl⟩

/-- One wait for each partition. -/
theorem CommandList.Recording.addWaits (recording : commandList.Recording device known id items)
    {dependency : Dependency} {offset waitValue : Nat} (partitions : List Nat)
    (place : ∀ partition items', signalOps items' = signalOps items →
      (Item.wait dependency offset partition waitValue).Placed known id items') :
    ∃ items', (partitions.foldl (fun commandList partition =>
        commandList.addWait device dependency offset partition waitValue) commandList).Recording
          device known id items' ∧ signalOps items' = signalOps items ∧
      commandList.Recorded (partitions.foldl (fun commandList partition =>
        commandList.addWait device dependency offset partition waitValue) commandList) := by
  induction partitions generalizing commandList items with
  | nil => exact ⟨items, recording, rfl, _, _, rfl⟩
  | cons partition partitions ih =>
    have added := recording.addWait (place partition items rfl)
    have same : signalOps (items ++ [Item.wait dependency offset partition waitValue]) =
        signalOps items := by
      rw [signalOps_append]
      exact List.append_nil _
    obtain ⟨items', recording', signals, recorded⟩ := ih added fun partition items' equal =>
      place partition items' (equal.trans same)
    exact ⟨items', recording', signals.trans same,
      (addWait_recorded dependency offset partition waitValue).trans recorded⟩

/-- A pipe control takes the place of a wait for an own operation. -/
def CommandList.resolved (device : Device) (commandList : CommandList) (dependency : Dependency) :
    Bool :=
  dependency.implicit && !commandList.copyOnly && (device.dcFlushSupport ||
    (!device.heaplessModeEnabled && commandList.latestOperationHasOptimizedCbEvent))

theorem CommandList.Recording.appendWait (recording : commandList.Recording device known id items)
    {dependency : Dependency} {offset waitValue : Nat}
    (appended : commandList.appendWaitOnInOrderDependency device dependency waitValue offset =
      some commandList')
    (place : commandList.resolved device dependency = false → ∀ partition items',
      signalOps items' = signalOps items →
        (Item.wait dependency offset partition waitValue).Placed known id items') :
    ∃ items', commandList'.Recording device known id items' ∧ signalOps items' = signalOps items ∧
      commandList.Recorded commandList' := by
  unfold CommandList.appendWaitOnInOrderDependency at appended
  split at appended
  next => cases appended
  split at appended
  next =>
    cases appended
    refine ⟨items ++ [Item.barrier], recording.barrier, ?_, _, _, rfl⟩
    rw [signalOps_append]
    exact List.append_nil _
  next open_ =>
    cases appended
    exact recording.addWaits _ (place (Bool.eq_false_iff.mpr open_))

theorem CommandList.Recording.appendWaitOnEvents
    (recording : commandList.Recording device known id items) {events : List Event}
    (appended : commandList.appendWaitOnEvents device id events = some commandList')
    (valid : ∀ event ∈ events, event.inOrderExecSignalValue = event.operation + 1 ∧
      (device.heaplessModeEnabled = true ∨ event.hasInOrderTimestampNode = false →
        known event.commandList event.operation)) :
    ∃ items', commandList'.Recording device known id items' ∧ signalOps items' = signalOps items ∧
      commandList.Recorded commandList' := by
  induction events generalizing commandList items with
  | nil =>
    cases appended
    exact ⟨items, recording, rfl, _, _, rfl⟩
  | cons event events ih =>
    have others := fun event member => valid event (List.mem_cons_of_mem _ member)
    obtain ⟨value, signals⟩ := valid event List.mem_cons_self
    unfold CommandList.appendWaitOnEvents at appended
    split at appended
    next => exact ih recording appended others
    next other =>
      split at appended
      next counts =>
        split at appended
        next waited found =>
          obtain ⟨items', recording', same, recorded⟩ := recording.appendWait found (by
            intro _ partition items' _
            refine ⟨value, other, signals ?_⟩
            simpa using counts)
          obtain ⟨items'', recording'', same', recorded'⟩ := ih recording' appended others
          exact ⟨items'', recording'', same'.trans same, recorded.trans recorded'⟩
        next => cases appended
      next =>
        obtain ⟨items', recording', same, recorded⟩ := ih recording.barrier appended others
        refine ⟨items', recording', ?_, CommandList.Recorded.trans ⟨_, _, rfl⟩ recorded⟩
        rw [same, signalOps_append]
        exact List.append_nil _

theorem CommandList.Recording.addSignal (recording : commandList.Recording device known id items)
    {signalValue : Nat} (type : PatchCmdType)
    (value : signalValue = commandList.operations + 1)
    (patchable : type = .sdi ∨ type = .walker ∨ type = .pipeControl)
    (below : ∀ earlier ∈ signalOps items, earlier < commandList.operations) :
    (commandList.addSignal signalValue type).Recording device known id (items ++
      [.signal commandList.operations commandList.info.allocationOffset signalValue type]) :=
  recording.add rfl rfl ⟨value, patchable, below⟩

end ComputeRuntime.InOrder
