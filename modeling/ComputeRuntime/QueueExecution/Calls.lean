import ComputeRuntime.QueueExecution.ControlFlow

/-! Calls of a queue: when the GPU executes all that the queue has written, and the lists. -/
namespace ComputeRuntime.QueueExecution

open Chain

variable {Command : Type} (program : Emission → List Command) (env : Environment)
  (commandLists : List CommandList)

/-- Everything that was written, in its order, with each list behind its preamble. -/
def Written.expected (written : Written) : List (Executed Command) :=
  (commandsOf program written.preamble).map .command ++
    (traceOf program written.commandLists ++ (commandsOf program written.after).map .command)

/-- What the GPU executes from the submitted buffer on is what was written and the lists. -/
def Executes (forceBbStartJump : Bool) (ends : Nat → Option Address) : Prop :=
  ∃ final, submit program env { forceBbStartJump := forceBbStartJump, ends := ends } commandLists =
      some final ∧
    ∀ trace, Runs final.fetch final.startingCmdBuffer trace ↔
      trace = (executeCommandLists env commandLists).1.expected program

/-- The flushes that are due. -/
def Environment.flushes (env : Environment) : List Emission :=
  (if env.instructionCacheFlushRequired then [.instructionCacheFlush] else []) ++
    (if env.stateCacheFlushRequired then [.stateCacheFlush] else [])

/-- Whether the heapless path has something else to write before the lists. -/
def Environment.heaplessInit (env : Environment) : Bool :=
  env.isProgramActivePartitionConfigRequired || env.isPreemptionModeInitial ||
    env.stateSipRequired ||
    (env.isDebugEnabled && !env.commandQueueDebugCmdsProgrammed && env.l0Debugger) ||
    (env.cmdListScratchAddressPatchingEnabled && !env.heaplessModeEnabled &&
      (env.localGsbaDirty || env.gsbaStateDirty))

theorem heaplessContext_globalInit : (heaplessContext env).globalInit = env.heaplessInit := by
  unfold heaplessContext handleScratchSpaceAndUpdateGSBAStateDirtyFlag Environment.heaplessInit
  cases env.cmdListScratchAddressPatchingEnabled <;> cases env.heaplessModeEnabled <;>
    simp [context, Bool.or_assoc]

theorem withPreambles_fst (i : Nat) (changes : List CommandListRequiredStateChange) :
    (withPreambles env i changes commandLists).map Prod.fst = commandLists := by
  induction commandLists generalizing i changes with
  | nil => simp [withPreambles]
  | cons commandList commandLists ih =>
    cases changes with
    | nil => simp [withPreambles, ih]
    | cons change changes =>
      simp only [withPreambles]
      split <;> simp [ih]

/-- Both paths execute the lists in their order. -/
theorem written_fst :
    (executeCommandLists env commandLists).1.commandLists.map Prod.fst = commandLists := by
  unfold executeCommandLists
  split
  · simp [writtenHeapless, Function.comp_def]
  · exact withPreambles_fst env commandLists 0 _

theorem context_patch :
    (executeCommandLists env commandLists).2.currentPatchForChainedBbStart = none := by
  unfold executeCommandLists heaplessContext regularContext
    handleScratchSpaceAndUpdateGSBAStateDirtyFlag
  cases env.heaplessStateInitEnabled <;> cases env.cmdListScratchAddressPatchingEnabled <;>
    cases env.heaplessModeEnabled <;> rfl

/-- The regular path writes nothing before the lists without noting it. -/
theorem regular_preamble (silent : (regularContext env).globalInit = false) :
    (writtenRegular env commandLists).preamble = [] := by
  simp [writtenRegular, globalPreamble, silent]

/-- The heapless path writes its flushes without noting it. -/
theorem heapless_preamble (silent : env.heaplessInit = false) :
    heaplessPreamble env = env.flushes := by
  have none : env.isProgramActivePartitionConfigRequired = false := by
    simp only [Environment.heaplessInit, Bool.or_eq_false_iff] at silent
    exact silent.1.1.1.1
  simp [heaplessPreamble, Environment.flushes, none]

/-- A call executes all that was written exactly when it jumps to its first list from the stream,
or has written nothing before. -/
theorem executes_iff_jumps {forceBbStartJump : Bool} {ends : Nat → Option Address}
    {first : CommandList × List Emission} {rest : List (CommandList × List Emission)}
    (listed : (executeCommandLists env commandLists).1.commandLists = first :: rest)
    (distinct : (commandLists.map CommandList.id).Nodup) :
    Executes program env commandLists forceBbStartJump ends ↔
      (jumps program first.2 { forceBbStartJump := forceBbStartJump, ends := ends }
          (executeCommandLists env commandLists).2 = true ∨
        commandsOf program (executeCommandLists env commandLists).1.preamble = []) := by
  have ids : ((first :: rest).map (·.1.id)).Nodup := by
    rw [← listed]
    have same := written_fst env commandLists
    rw [← same, List.map_map] at distinct
    exact distinct
  obtain ⟨final, returned, ran⟩ := executeWith_runs program
    { forceBbStartJump := forceBbStartJump, ends := ends }
    (executeCommandLists env commandLists).1.preamble
    (executeCommandLists env commandLists).1.after (context_patch env commandLists) rfl rfl ids
  rw [← listed] at returned
  unfold Executes Written.expected submit
  rw [returned, listed]
  constructor
  · rintro ⟨final', same, executed⟩
    cases same
    have equal := (executed _).mp ran
    rw [List.append_cancel_right_eq] at equal
    split at equal
    next jumped => exact .inl jumped
    next => exact .inr (List.map_eq_nil_iff.mp equal.symm)
  · intro condition
    have whole : (if jumps program first.2 { forceBbStartJump := forceBbStartJump, ends := ends }
          (executeCommandLists env commandLists).2 = true then
        (commandsOf program (executeCommandLists env commandLists).1.preamble).map
          Executed.command else []) =
        (commandsOf program (executeCommandLists env commandLists).1.preamble).map .command := by
      split
      · rfl
      next straight => rw [condition.resolve_left straight, List.map_nil]
    rw [whole] at ran
    refine ⟨final, rfl, fun trace => ?_⟩
    constructor
    · exact fun other => other.deterministic ran
    · rintro rfl
      exact ran

/-- A call executes all that was written exactly when it has a list, and when no flush of the
heapless path is alone before the lists. -/
theorem executes_iff (distinct : (commandLists.map CommandList.id).Nodup)
    (forceBbStartJump : Bool) (ends : Nat → Option Address) :
    Executes program env commandLists forceBbStartJump ends ↔
      commandLists ≠ [] ∧ (env.heaplessStateInitEnabled = true →
        commandsOf program env.flushes ≠ [] →
          env.heaplessInit = true ∨ forceBbStartJump = true) := by
  cases listed : (executeCommandLists env commandLists).1.commandLists with
  | nil =>
    have none : commandLists = [] := by
      rw [← written_fst env commandLists, listed]
      rfl
    constructor
    · rintro ⟨final, returned, _⟩
      unfold submit executeWith at returned
      rw [listed] at returned
      simp [executeLists, programLastCommandListReturnBbStart, context_patch] at returned
    · exact fun condition => absurd none condition.1
  | cons first rest =>
    rw [executes_iff_jumps program env commandLists listed distinct]
    have some : commandLists ≠ [] := by
      rintro rfl
      have same := written_fst env []
      rw [listed] at same
      cases same
    simp only [some, ne_eq, not_false_eq_true, true_and]
    cases path : env.heaplessStateInitEnabled with
    | false =>
      simp only [Bool.false_eq_true, false_implies, iff_true]
      simp only [executeCommandLists, path, Bool.false_eq_true, if_false]
      cases silent : (regularContext env).globalInit with
      | false =>
        right
        rw [regular_preamble env commandLists silent]
        rfl
      | true =>
        left
        simp [jumps, silent]
    | true =>
      simp only [executeCommandLists, path, if_true] at listed ⊢
      have empty : first.2 = [] := by
        cases commandLists with
        | nil => cases listed
        | cons commandList commandLists =>
          cases listed
          rfl
      have jump : jumps program first.2 { forceBbStartJump := forceBbStartJump, ends := ends }
          (heaplessContext env) = (env.heaplessInit || forceBbStartJump) := by
        simp [jumps, empty, commandsOf, heaplessContext_globalInit]
      rw [jump, Bool.or_eq_true]
      cases silent : env.heaplessInit with
      | true => simp
      | false =>
        simp only [writtenHeapless, heapless_preamble env silent]
        simp only [Bool.false_eq_true, false_or, true_implies]
        exact or_comm.trans or_iff_not_imp_left

/-- The instruction cache is to be flushed; nothing else is due. -/
def flushing (heapless : Bool) : Environment :=
  { heaplessModeEnabled := heapless, heaplessStateInitEnabled := heapless, preambleSetFlag := true,
    pipelineSelectStateTracking := true, instructionCacheFlushRequired := true,
    isDispatchTaskCountPostSyncRequired := true }

/-- Two lists, with a pipeline to be selected before the second. -/
def twoLists : List CommandList :=
  [{ id := 3 }, { id := 5, flags := { propertyPsDirty := true } }]

theorem executes_iff_twoLists :
    (twoLists.map CommandList.id).Nodup ∧
      (executeCommandLists (flushing false) twoLists).1.expected (fun emission => [emission]) =
        [.command .instructionCacheFlush, .command .hardwareContext, .commandList 3,
          .command (.pipelineSelect (some 1)), .commandList 5, .command .taskCountPostSync] ∧
      Executes (fun emission => [emission]) (flushing false) twoLists false (fun _ => none) := by
  refine ⟨by decide, by decide, ?_⟩
  apply (executes_iff _ _ _ (by decide) _ _).mpr
  exact ⟨by decide, nofun⟩

/-- The heapless path writes the flush and submits the first list. -/
theorem not_executes_flushing :
    ¬ Executes (fun emission => [emission]) (flushing true) twoLists false (fun _ => none) := by
  rintro ⟨final, submitted, executed⟩
  have ran : Runs final.fetch final.startingCmdBuffer
      [.commandList 3, .commandList 5, .command Emission.taskCountPostSync] := by
    cases submitted
    exact .execute rfl (.execute rfl (.execute rfl (.stop rfl)))
  have equal := (executed _).mp ran
  exact absurd equal (by decide)

end ComputeRuntime.QueueExecution
