import ComputeRuntime.QueueExecution.Model

/-! What the GPU executes when it follows the batch buffer starts from the submitted buffer. -/
namespace ComputeRuntime.QueueExecution

open Chain

variable {Command : Type} (program : Emission → List Command)

/-! ### What is written stays -/

/-- A later queue: its stream has grown, and only the given ends were patched. -/
structure CommandQueue.Extends (queue final : CommandQueue Command) (patched : List Nat) : Prop where
  stream : ∃ back, final.commandStream = queue.commandStream ++ back
  ends : ∀ id ∉ patched, final.ends id = queue.ends id

variable {queue queue' final : CommandQueue Command} {patched patched' : List Nat}

theorem CommandQueue.Extends.refl : queue.Extends queue patched where
  stream := ⟨[], (List.append_nil _).symm⟩
  ends := fun _ _ => rfl

theorem CommandQueue.Extends.trans (first : queue.Extends queue' patched)
    (second : queue'.Extends final patched) : queue.Extends final patched where
  stream := by
    obtain ⟨middle, grown⟩ := first.stream
    obtain ⟨back, grown'⟩ := second.stream
    exact ⟨middle ++ back, by rw [grown', grown, List.append_assoc]⟩
  ends id other := by rw [second.ends id other, first.ends id other]

theorem CommandQueue.Extends.mono (extends_ : queue.Extends final patched)
    (more : patched ⊆ patched') : queue.Extends final patched' where
  stream := extends_.stream
  ends id other := extends_.ends id fun member => other (more member)

theorem emit_extends (emissions : List Emission) :
    queue.Extends (queue.emit program emissions) patched where
  stream := ⟨_, rfl⟩
  ends := fun _ _ => rfl

/-- One list is chained. -/
theorem programOne_extends (commandList : CommandList) (ctx : CommandListExecutionContext)
    (mine : ctx.currentPatchForChainedBbStart.toList ⊆ patched) :
    queue.Extends
      (programOneCmdListBatchBufferStartPrimaryBatchBuffer commandList queue ctx).1 patched := by
  unfold programOneCmdListBatchBufferStartPrimaryBatchBuffer
  cases patch : ctx.currentPatchForChainedBbStart with
  | none =>
    constructor
    · dsimp only
      split
      · exact ⟨_, rfl⟩
      · exact ⟨[], (List.append_nil _).symm⟩
    · intro id _
      dsimp only
      split <;> rfl
  | some location =>
    have member : location ∈ patched := mine (by simp [patch])
    constructor
    · dsimp only
      split
      · exact ⟨_, rfl⟩
      · exact ⟨[], (List.append_nil _).symm⟩
    · intro id other
      have apart : id ≠ location := by
        rintro rfl
        exact other member
      dsimp only
      split <;> exact Function.update_of_ne apart _ _

/-- A round of the loop. -/
def executeOne (commandList : CommandList) (preamble : List Emission)
    (queue : CommandQueue Command) (ctx : CommandListExecutionContext) :
    CommandQueue Command × CommandListExecutionContext :=
  programOneCmdListBatchBufferStartPrimaryBatchBuffer commandList (queue.emit program preamble)
    { ctx with childGpuAddressPositionBeforeDynamicPreamble := queue.commandStream.length }

theorem executeLists_cons (commandList : CommandList) (preamble : List Emission)
    (rest : List (CommandList × List Emission)) (ctx : CommandListExecutionContext) :
    executeLists program ((commandList, preamble) :: rest) queue ctx =
      executeLists program rest (executeOne program commandList preamble queue ctx).1
        (executeOne program commandList preamble queue ctx).2 := rfl

@[simp] theorem executeOne_patch (commandList : CommandList) (preamble : List Emission)
    (ctx : CommandListExecutionContext) :
    (executeOne program commandList preamble queue ctx).2.currentPatchForChainedBbStart =
      some commandList.id := rfl

theorem executeOne_extends (commandList : CommandList) (preamble : List Emission)
    (ctx : CommandListExecutionContext)
    (mine : ctx.currentPatchForChainedBbStart.toList ⊆ patched) :
    queue.Extends (executeOne program commandList preamble queue ctx).1 patched :=
  (emit_extends program preamble).trans (programOne_extends commandList _ mine)

theorem executeLists_extends (commandLists : List (CommandList × List Emission))
    (ctx : CommandListExecutionContext)
    (mine : ctx.currentPatchForChainedBbStart.toList ++ commandLists.map (·.1.id) ⊆ patched) :
    queue.Extends (executeLists program commandLists queue ctx).1 patched := by
  induction commandLists generalizing queue ctx with
  | nil => exact .refl
  | cons first rest ih =>
    obtain ⟨commandList, preamble⟩ := first
    rw [executeLists_cons]
    apply (executeOne_extends program commandList preamble ctx fun id member =>
      mine (List.mem_append_left _ member)).trans
    apply ih
    intro id member
    apply mine
    simp only [executeOne_patch, Option.toList_some, List.singleton_append] at member
    exact List.mem_append_right _ member

/-- The end that is still to be patched is that of the last list. -/
theorem executeLists_patch (queue : CommandQueue Command)
    (commandLists : List (CommandList × List Emission))
    (ctx : CommandListExecutionContext) {location : Nat}
    (patch : ctx.currentPatchForChainedBbStart = some location) :
    ∃ last ∈ location :: commandLists.map (·.1.id),
      (executeLists program commandLists queue ctx).2.currentPatchForChainedBbStart = some last := by
  induction commandLists generalizing queue ctx location with
  | nil => exact ⟨location, List.mem_cons_self, patch⟩
  | cons first rest ih =>
    obtain ⟨commandList, preamble⟩ := first
    obtain ⟨last, member, found⟩ := ih _ _ (executeOne_patch program commandList preamble ctx)
    exact ⟨last, List.mem_cons_of_mem _ member, found⟩

/-! ### Following the starts -/

/-- What is executed of the lists. -/
def traceOf (commandLists : List (CommandList × List Emission)) : List (Executed Command) :=
  commandLists.flatMap fun (commandList, preamble) =>
    (commandsOf program preamble).map .command ++ [.commandList commandList.id]

/-- Commands that stand in the stream are executed. -/
theorem runs_stream {front back : List (StreamCommand Command)} {commands : List Command}
    {trace : List (Executed Command)}
    (stream : final.commandStream = front ++ (commands.map .command ++ back))
    (rest : Runs final.fetch (.stream (front.length + commands.length)) trace) :
    Runs final.fetch (.stream front.length) (commands.map .command ++ trace) := by
  apply Runs.straight Address.stream
  · intro i command found
    rw [List.getElem?_map] at found
    obtain ⟨command, inside, rfl⟩ := Option.map_eq_some_iff.mp found
    have here : final.commandStream[front.length + i]? = some (.command command) := by
      rw [stream, List.getElem?_append_right (Nat.le_add_right _ _), Nat.add_sub_cancel_left,
        List.getElem?_append_left (by
          rw [List.length_map]
          exact (List.getElem?_eq_some_iff.mp inside).1), List.getElem?_map, inside]
      rfl
    simp only [CommandQueue.fetch, here]
  · rwa [List.length_map]

/-- A jump that stands in the stream is followed. -/
theorem runs_jump {front back : List (StreamCommand Command)} {address : Address}
    {trace : List (Executed Command)}
    (stream : final.commandStream = front ++ (.batchBufferStart address :: back))
    (rest : Runs final.fetch address trace) :
    Runs final.fetch (.stream front.length) trace := by
  refine Runs.jump ?_ rest
  simp [CommandQueue.fetch, stream]

theorem runs_commandList {id : Nat} {address : Address} {trace : List (Executed Command)}
    (patched : final.ends id = some address) (rest : Runs final.fetch address trace) :
    Runs final.fetch (.commandList id) (.commandList id :: trace) := by
  refine Runs.execute ?_ rest
  simp [CommandQueue.fetch, patched]

/-- Whether the queue jumps to its next list from its stream. -/
def jumps (preamble : List Emission) (queue : CommandQueue Command)
    (ctx : CommandListExecutionContext) : Bool :=
  ctx.globalInit || (commandsOf program preamble).length ≠ 0 || queue.forceBbStartJump

theorem executeOne_eq (commandList : CommandList) (preamble : List Emission)
    (ctx : CommandListExecutionContext) :
    executeOne program commandList preamble queue ctx =
      (if jumps program preamble queue ctx then
        ({ (match ctx.currentPatchForChainedBbStart with
            | some bbStartPatchLocation =>
              (queue.emit program preamble).patch bbStartPatchLocation
                (.stream queue.commandStream.length)
            | none => queue.emit program preamble).programBatchBufferStart
              (.commandList commandList.id) with forceBbStartJump := false },
          { ctx with
            globalInit := false
            childGpuAddressPositionBeforeDynamicPreamble := queue.commandStream.length
            currentPatchForChainedBbStart := some commandList.id })
      else
        (match ctx.currentPatchForChainedBbStart with
          | none =>
            { queue.emit program preamble with
              startingCmdBuffer := .commandList commandList.id }
          | some bbStartPatchLocation =>
            (queue.emit program preamble).patch bbStartPatchLocation
              (.commandList commandList.id),
          { ctx with
            childGpuAddressPositionBeforeDynamicPreamble := queue.commandStream.length
            currentPatchForChainedBbStart := some commandList.id })) := by
  have test : (ctx.globalInit || decide (queue.commandStream.length ≠
        (queue.emit program preamble).commandStream.length) ||
        (queue.emit program preamble).forceBbStartJump) = jumps program preamble queue ctx := by
    simp [jumps, CommandQueue.emit]
  unfold executeOne programOneCmdListBatchBufferStartPrimaryBatchBuffer
  simp only [test]
  cases jumps program preamble queue ctx <;>
    cases ctx.currentPatchForChainedBbStart <;> simp

/-- Where the GPU comes from the list before it, or from the start. -/
def entry (commandList : CommandList) (preamble : List Emission) (queue : CommandQueue Command)
    (ctx : CommandListExecutionContext) : Address :=
  if jumps program preamble queue ctx then .stream queue.commandStream.length
  else .commandList commandList.id

theorem executeOne_patched {commandList : CommandList} {preamble : List Emission}
    {ctx : CommandListExecutionContext} {location : Nat}
    (patch : ctx.currentPatchForChainedBbStart = some location)
    (later : (executeOne program commandList preamble queue ctx).1.Extends final patched)
    (other : location ∉ patched) :
    final.ends location = some (entry program commandList preamble queue ctx) := by
  rw [later.ends location other, executeOne_eq, entry, patch]
  split <;> exact Function.update_self _ _ _

/-- From its entry the preamble is executed, and then the list. -/
theorem runs_entry {commandList : CommandList} {preamble : List Emission}
    {ctx : CommandListExecutionContext} {trace : List (Executed Command)}
    (later : (executeOne program commandList preamble queue ctx).1.Extends final patched)
    (rest : Runs final.fetch (.commandList commandList.id) trace) :
    Runs final.fetch (entry program commandList preamble queue ctx)
      ((commandsOf program preamble).map .command ++ trace) := by
  obtain ⟨back, stream⟩ := later.stream
  rw [executeOne_eq] at stream
  unfold entry
  split
  next jumped =>
    rw [if_pos jumped] at stream
    have written : final.commandStream = queue.commandStream ++
        ((commandsOf program preamble).map .command ++
          (.batchBufferStart (.commandList commandList.id) :: back)) := by
      rw [stream]
      cases ctx.currentPatchForChainedBbStart <;>
        simp [CommandQueue.programBatchBufferStart, CommandQueue.emit, CommandQueue.patch]
    apply runs_stream written
    rw [← List.append_assoc] at written
    have jump := runs_jump written rest
    simpa using jump
  next straight =>
    have empty : commandsOf program preamble = [] := by
      simp only [jumps, Bool.or_eq_true, not_or, decide_eq_true_eq, ne_eq, not_not] at straight
      exact List.eq_nil_of_length_eq_zero straight.1.2
    rw [empty]
    exact rest

/-- The rest of the lists is executed from the end of the list before them. -/
theorem runs_chained {commandLists : List (CommandList × List Emission)}
    {ctx : CommandListExecutionContext} {location : Nat} {last : List (Executed Command)}
    (patch : ctx.currentPatchForChainedBbStart = some location)
    (distinct : (location :: commandLists.map (·.1.id)).Nodup)
    (later : ∀ id, (executeLists program commandLists queue ctx).2.currentPatchForChainedBbStart =
      some id → (executeLists program commandLists queue ctx).1.Extends final [id] ∧
        ∃ address, final.ends id = some address ∧ Runs final.fetch address last) :
    ∃ address, final.ends location = some address ∧
      Runs final.fetch address (traceOf program commandLists ++ last) := by
  induction commandLists generalizing queue ctx location with
  | nil => exact (later location patch).2
  | cons first rest ih =>
    obtain ⟨commandList, preamble⟩ := first
    rw [executeLists_cons] at later
    obtain ⟨apart, distinct⟩ := List.nodup_cons.mp distinct
    obtain ⟨address, patched, ran⟩ := ih (executeOne_patch program commandList preamble ctx)
      distinct later
    obtain ⟨id, member, found⟩ := executeLists_patch program
      (executeOne program commandList preamble queue ctx).1 rest _
      (executeOne_patch program commandList preamble ctx)
    have extends_ : (executeOne program commandList preamble queue ctx).1.Extends final
        (commandList.id :: rest.map (·.1.id)) := by
      apply (executeLists_extends program rest _ ?_).trans ((later id found).1.mono ?_)
      · rw [executeOne_patch]
        exact List.Subset.refl _
      · simpa using member
    refine ⟨_, executeOne_patched program patch extends_ apart, ?_⟩
    have entered := runs_entry program extends_ (runs_commandList patched ran)
    simpa [traceOf] using entered

/-! ### A call -/

/-- Behind the first list, what is submitted does not change. -/
theorem executeLists_starting (commandLists : List (CommandList × List Emission))
    {ctx : CommandListExecutionContext} {location : Nat}
    (patch : ctx.currentPatchForChainedBbStart = some location) :
    (executeLists program commandLists queue ctx).1.startingCmdBuffer = queue.startingCmdBuffer := by
  induction commandLists generalizing queue ctx location with
  | nil => rfl
  | cons first rest ih =>
    obtain ⟨commandList, preamble⟩ := first
    rw [executeLists_cons, ih (executeOne_patch program commandList preamble ctx),
      executeOne_eq, patch]
    split <;> rfl

theorem executeOne_starting {commandList : CommandList} {preamble : List Emission}
    {ctx : CommandListExecutionContext} (patch : ctx.currentPatchForChainedBbStart = none) :
    (executeOne program commandList preamble queue ctx).1.startingCmdBuffer =
      if jumps program preamble queue ctx then queue.startingCmdBuffer
      else .commandList commandList.id := by
  rw [executeOne_eq, patch]
  split <;> rfl

/-- The end of the last list returns to what is written behind the lists. -/
theorem return_runs (queue : CommandQueue Command) (last : Nat) (after : List Emission) :
    queue.Extends (prepareAndSubmitBatchBuffer ((queue.patch last
        (.stream queue.commandStream.length)).emit program after)) [last] ∧
      ∃ address, (prepareAndSubmitBatchBuffer ((queue.patch last
        (.stream queue.commandStream.length)).emit program after)).ends last = some address ∧
        Runs (prepareAndSubmitBatchBuffer ((queue.patch last
          (.stream queue.commandStream.length)).emit program after)).fetch address
            ((commandsOf program after).map .command) := by
  obtain ⟨final, submitted⟩ : ∃ final, final = prepareAndSubmitBatchBuffer ((queue.patch last
    (.stream queue.commandStream.length)).emit program after) := ⟨_, rfl⟩
  have grown : final.commandStream = queue.commandStream ++
      ((commandsOf program after).map .command ++ [.batchBufferEnd]) := by
    rw [submitted]
    simp [prepareAndSubmitBatchBuffer, CommandQueue.emit, CommandQueue.patch]
  rw [← submitted]
  refine ⟨⟨⟨_, grown⟩, ?_⟩, .stream queue.commandStream.length, ?_, ?_⟩
  · intro id other
    rw [submitted]
    exact Function.update_of_ne (fun same => other (by simp [same])) _ _
  · rw [submitted]
    exact Function.update_self _ _ _
  · have ended : Runs final.fetch (.stream queue.commandStream.length)
        ((commandsOf program after).map .command ++ []) := by
      apply runs_stream grown
      apply Runs.stop
      simp [CommandQueue.fetch, grown]
    rwa [List.append_nil] at ended

/-- The GPU executes what was written before the lists only if the queue jumps to the first of
them; the lists with their preambles, and what was written behind them, always. -/
theorem executeWith_runs (queue : CommandQueue Command) (before after : List Emission)
    {first : CommandList × List Emission}
    {rest : List (CommandList × List Emission)} {ctx : CommandListExecutionContext}
    (patch : ctx.currentPatchForChainedBbStart = none) (stream : queue.commandStream = [])
    (starting : queue.startingCmdBuffer = .stream 0)
    (distinct : ((first :: rest).map (·.1.id)).Nodup) :
    ∃ final, executeWith program before (first :: rest) after queue ctx = some final ∧
      Runs final.fetch final.startingCmdBuffer
        ((if jumps program first.2 queue ctx then (commandsOf program before).map .command else []) ++
          (traceOf program (first :: rest) ++ (commandsOf program after).map .command)) := by
  obtain ⟨commandList, preamble⟩ := first
  obtain ⟨one, executedOne⟩ : ∃ one, one =
    executeOne program commandList preamble (queue.emit program before) ctx := ⟨_, rfl⟩
  obtain ⟨all, executedAll⟩ : ∃ all, all = executeLists program rest one.1 one.2 := ⟨_, rfl⟩
  have chained : one.2.currentPatchForChainedBbStart = some commandList.id := by
    rw [executedOne]
    rfl
  obtain ⟨last, member, found⟩ := executeLists_patch program one.1 rest _ chained
  rw [← executedAll] at found
  obtain ⟨final, submitted⟩ : ∃ final, final = prepareAndSubmitBatchBuffer
      ((all.1.patch last (.stream all.1.commandStream.length)).emit program after) := ⟨_, rfl⟩
  have returned : executeWith program before ((commandList, preamble) :: rest) after queue ctx =
      some final := by
    unfold executeWith
    rw [executeLists_cons, ← executedOne, ← executedAll]
    simp [programLastCommandListReturnBbStart, found, submitted]
  have ends := return_runs program all.1 last after
  rw [← submitted] at ends
  have returns : ∀ id, (executeLists program rest one.1 one.2).2.currentPatchForChainedBbStart =
      some id → (executeLists program rest one.1 one.2).1.Extends final [id] ∧
        ∃ address, final.ends id = some address ∧
          Runs final.fetch address ((commandsOf program after).map .command) := by
    intro id found'
    rw [← executedAll] at found' ⊢
    rw [found] at found'
    cases found'
    exact ends
  obtain ⟨address, patched, ran⟩ := runs_chained program chained distinct returns
  have later : one.1.Extends final (commandList.id :: rest.map (·.1.id)) := by
    have middle : one.1.Extends all.1 (commandList.id :: rest.map (·.1.id)) := by
      rw [executedAll]
      apply executeLists_extends
      rw [chained]
      exact List.Subset.refl _
    exact middle.trans (ends.1.mono (by simpa using member))
  have whole : (queue.emit program before).Extends final (commandList.id :: rest.map (·.1.id)) := by
    apply CommandQueue.Extends.trans _ later
    rw [executedOne]
    apply executeOne_extends
    simp [patch]
  have start : final.startingCmdBuffer = all.1.startingCmdBuffer := by
    rw [submitted]
    rfl
  rw [executedAll, executeLists_starting program rest chained, executedOne,
    executeOne_starting program patch] at start
  have listed : traceOf program ((commandList, preamble) :: rest) =
      (commandsOf program preamble).map .command ++
        (.commandList commandList.id :: traceOf program rest) := by
    simp [traceOf]
  have entered := runs_entry program (executedOne ▸ later) (runs_commandList patched ran)
  have same : jumps program preamble (queue.emit program before) ctx =
      jumps program preamble queue ctx := rfl
  refine ⟨final, returned, ?_⟩
  rw [start, listed]
  unfold entry at entered
  rw [same] at entered ⊢
  cases jumped : jumps program preamble queue ctx with
  | true =>
    rw [jumped, if_pos rfl] at entered
    obtain ⟨back, written⟩ := whole.stream
    have front : (queue.emit program before).commandStream =
        [] ++ (commandsOf program before).map .command := by
      rw [CommandQueue.emit, stream]
    rw [front, List.append_assoc] at written
    rw [front] at entered
    have begins : (queue.emit program before).startingCmdBuffer = .stream 0 := starting
    rw [if_pos rfl, if_pos rfl, begins]
    have front := runs_stream written (by simpa using entered)
    simpa using front
  | false =>
    rw [jumped, if_neg Bool.false_ne_true] at entered
    simpa using entered

end ComputeRuntime.QueueExecution
