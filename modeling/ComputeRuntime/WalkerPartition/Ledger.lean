import ComputeRuntime.WalkerPartition.Workers

/-! Every step keeps the ledger of the partitions. -/
namespace ComputeRuntime.WalkerPartition

open Lockstep Transition

section Sharing

variable {tileCount : Nat} {fields : Fields} {partitionCount : Nat} {w : Workers tileCount}
  {execution : Nat} {tile : Fin tileCount}

/-- A step on which the partitions do not depend. -/
theorem Sharing.move (sharing : Sharing fields partitionCount w execution) {phase : Phase}
    {memory : Nat → Nat}
    (holds : ∀ partition, phase.holds partitionCount partition =
      (w.phase tile).holds partitionCount partition)
    (spent : phase.spent partitionCount = (w.phase tile).spent partitionCount)
    (returns : phase.returns partitionCount = (w.phase tile).returns partitionCount)
    (handed : memory fields.partitions = w.memory fields.partitions)
    (entered : memory fields.inTiles = w.memory fields.inTiles)
    (behind : ∀ partition, phase = .hold partition → partition < w.memory fields.partitions)
    (left : ∀ stage, phase = .after stage → partitionCount < w.memory fields.partitions) :
    Sharing fields partitionCount { w.move tile phase with memory := memory } execution := by
  have sums : ∀ weight : Phase → Nat, weight phase = weight (w.phase tile) →
      total weight (Function.update w.phase tile phase) = total weight w.phase := by
    intro weight same
    have changed := total_update weight w.phase tile phase
    omega
  constructor
  · intro partition
    simpa only [Workers.move, sums _ (holds partition), handed] using sharing.each partition
  · simpa only [Workers.move, sums _ spent, handed] using sharing.handed
  · simpa only [Workers.move, sums _ returns, handed, entered] using sharing.entered
  · intro other partition phaseOf
    simp only [Workers.move, Function.update_apply, handed] at phaseOf ⊢
    split at phaseOf
    · exact behind partition phaseOf
    · exact sharing.held other partition phaseOf
  · intro other stage phaseOf
    simp only [Workers.move, Function.update_apply, handed] at phaseOf ⊢
    split at phaseOf
    · exact left stage phaseOf
    · exact sharing.left other stage phaseOf

/-- A tile counts itself in again. -/
theorem Sharing.again (sharing : Sharing fields partitionCount w execution) (apart : fields.Apart)
    (few : tileCount + partitionCount ≤ 2 ^ 16) (here : w.phase tile = .enter true) :
    Sharing fields partitionCount { w.move tile (.entered true) with
      memory := (Op.increment fields.inTiles).run 32 w.memory } execution := by
  obtain ⟨-, partitionsIn, -, -, -, -⟩ := apart.ne
  obtain ⟨-, fits⟩ := sharing.fits few
  have handed : (Op.increment fields.inTiles).run 32 w.memory fields.partitions =
      w.memory fields.partitions := Function.update_of_ne partitionsIn ..
  have counted : (Op.increment fields.inTiles).run 32 w.memory fields.inTiles =
      w.memory fields.inTiles + 1 :=
    (Function.update_self ..).trans (Word.add_eq (by omega))
  have changed := fun weight : Phase → Nat => total_update weight w.phase tile (.entered true)
  constructor
  · intro partition
    have one := changed (Phase.holds partitionCount partition)
    have each := sharing.each partition
    rw [here] at one
    simp only [Workers.move, handed, Phase.holds] at one ⊢
    omega
  · have one := changed (Phase.spent partitionCount)
    have bound := sharing.handed
    rw [here] at one
    simp only [Workers.move, handed, Phase.spent] at one ⊢
    omega
  · have one := changed (Phase.returns partitionCount)
    have bound := sharing.entered
    rw [here] at one
    simp only [Workers.move, handed, counted, Phase.returns, if_pos] at one ⊢
    omega
  · intro other partition phaseOf
    simp only [Workers.move, Function.update_apply, handed] at phaseOf ⊢
    split at phaseOf
    · cases phaseOf
    · exact sharing.held other partition phaseOf
  · intro other stage phaseOf
    simp only [Workers.move, Function.update_apply, handed] at phaseOf ⊢
    split at phaseOf
    · cases phaseOf
    · exact sharing.left other stage phaseOf

/-- A tile takes the next partition. -/
theorem Sharing.fetch (sharing : Sharing fields partitionCount w execution) (apart : fields.Apart)
    (few : tileCount + partitionCount ≤ 2 ^ 16) (here : w.phase tile = .fetch) :
    Sharing fields partitionCount { w.move tile (.hold (w.memory fields.partitions)) with
      memory := (Op.increment fields.partitions).run 32 w.memory } execution := by
  obtain ⟨-, partitionsIn, -, -, -, -⟩ := apart.ne
  obtain ⟨fits, -⟩ := sharing.fits few
  have handed : (Op.increment fields.partitions).run 32 w.memory fields.partitions =
      w.memory fields.partitions + 1 :=
    (Function.update_self ..).trans (Word.add_eq (by omega))
  have counted : (Op.increment fields.partitions).run 32 w.memory fields.inTiles =
      w.memory fields.inTiles := Function.update_of_ne partitionsIn.symm ..
  have changed := fun weight : Phase → Nat =>
    total_update weight w.phase tile (.hold (w.memory fields.partitions))
  constructor
  · intro partition
    have one := changed (Phase.holds partitionCount partition)
    have each := sharing.each partition
    rw [here] at one
    simp only [Workers.move, handed, Phase.holds] at one ⊢
    -- Only the partition that is handed out counts as held now.
    by_cases same : w.memory fields.partitions = partition
    · subst same
      rw [if_neg (by omega)] at each
      split at one <;> split <;> omega
    · rw [if_neg (by omega)] at one
      split at each <;> split <;> omega
  · have one := changed (Phase.spent partitionCount)
    have bound := sharing.handed
    rw [here] at one
    simp only [Workers.move, handed, Phase.spent] at one ⊢
    split at one <;> omega
  · have one := changed (Phase.returns partitionCount)
    have bound := sharing.entered
    rw [here] at one
    simp only [Workers.move, handed, counted, Phase.returns] at one ⊢
    split at one <;> omega
  · intro other partition phaseOf
    simp only [Workers.move, Function.update_apply, handed] at phaseOf ⊢
    split at phaseOf
    · cases phaseOf
      exact Nat.lt_succ_self _
    · exact Nat.lt_succ_of_lt (sharing.held other partition phaseOf)
  · intro other stage phaseOf
    simp only [Workers.move, Function.update_apply, handed] at phaseOf ⊢
    split at phaseOf
    · cases phaseOf
    · exact Nat.lt_succ_of_lt (sharing.left other stage phaseOf)

/-- A tile executes the walker for the partition that it holds. -/
theorem Sharing.walk (sharing : Sharing fields partitionCount w execution) {held : Nat}
    (here : w.phase tile = .hold held) (present : held < partitionCount)
    (current : w.execution tile = execution) :
    Sharing fields partitionCount { w.move tile .back with
      walked := (w.execution tile, held) :: w.walked } execution := by
  have changed := fun weight : Phase → Nat => total_update weight w.phase tile .back
  constructor
  · intro partition
    have one := changed (Phase.holds partitionCount partition)
    rw [here] at one
    refine Eq.trans ?_ (sharing.each partition)
    simp only [Workers.move, Phase.holds, List.count_cons, current, beq_iff_eq, Prod.mk.injEq,
      true_and] at one ⊢
    by_cases same : held = partition
    · subst same
      rw [if_pos ⟨rfl, present⟩] at one
      rw [if_pos rfl]
      omega
    · rw [if_neg fun both => same both.1] at one
      rw [if_neg same]
      omega
  · have one := changed (Phase.spent partitionCount)
    have bound := sharing.handed
    rw [here] at one
    simp only [Workers.move, Phase.spent, if_pos present] at one ⊢
    omega
  · have one := changed (Phase.returns partitionCount)
    have bound := sharing.entered
    rw [here] at one
    simp only [Workers.move, Phase.returns, if_pos present] at one ⊢
    omega
  · intro other partition phaseOf
    simp only [Workers.move, Function.update_apply] at phaseOf ⊢
    split at phaseOf
    · cases phaseOf
    · exact sharing.held other partition phaseOf
  · intro other stage phaseOf
    simp only [Workers.move, Function.update_apply] at phaseOf ⊢
    split at phaseOf
    · cases phaseOf
    · exact sharing.left other stage phaseOf

end Sharing

section Steps

variable {tileCount : Nat} {fields : Fields} {partitionCount : Nat} {w w' : Workers tileCount}
  {r : Nat} {tile : Fin tileCount}

/-- The stage of a tile that waits at the meeting of a round. -/
def lastStage : Nat → Nat
  | 0 => 1
  | 1 => 5
  | 2 => 7
  | _ => 12

theorem lastStage_cases (n : Nat) : (n = 0 ∧ lastStage n = 1) ∨ (n = 1 ∧ lastStage n = 5) ∨
    (n = 2 ∧ lastStage n = 7) ∨ (3 ≤ n ∧ lastStage n = 12) := by
  rcases n with _ | _ | _ | n
  · exact Or.inl ⟨rfl, rfl⟩
  · exact Or.inr (Or.inl ⟨rfl, rfl⟩)
  · exact Or.inr (Or.inr (Or.inl ⟨rfl, rfl⟩))
  · exact Or.inr (Or.inr (Or.inr ⟨by omega, rfl⟩))

/-- A step stays in the round, or it is the first one out of a meeting at which all tiles wait. -/
theorem InStep.rounds (apart : fields.Apart) (few : tileCount + partitionCount ≤ 2 ^ 16)
    (inStep : InStep fields partitionCount w r)
    (step : w.next? fields partitionCount tile = some w') :
    let round := partitionedRound fields.inTiles fields.tiles fields.finalSync fields.cleared
      tileCount
    let start := partitionedStart fields.inTiles fields.tiles fields.finalSync fields.cleared
      tileCount
    InRound round start r (w'.meetings fields) ∨
      (InRound round start (r + 1) (w'.meetings fields) ∧ ∀ other,
        w.execution other = r / 4 ∧ (w.phase other).stage = lastStage (r % 4)) := by
  intro round start
  have meets := partitioned_meets tileCount apart.cleans (by omega)
  have unrolled := partitioned_unrolled fields.inTiles fields.tiles fields.finalSync fields.cleared
    tileCount
  have inRound := inStep.inRound
  cases inStep.change apart few step with
  | still same =>
    rw [same]
    exact Or.inl inRound
  | moves op found isOpen advances =>
    rcases inRound.stay_or_leave unrolled meets ⟨op, found, isOpen, advances⟩ with now | leaves
    · exact Or.inl now
    · obtain ⟨-, all, now⟩ := leaves
      refine Or.inr ⟨now, fun other => ?_⟩
      have past := all other
      have bounds := inStep.bounds other
      have stage := inStep.stage_le other
      have meeting := partitionedReady_cases fields.inTiles fields.tiles fields.finalSync
        fields.cleared tileCount r
      have length : fields.cleared.length = 3 := rfl
      simp only [length, Workers.meetings] at past meeting
      rcases meeting with ⟨mod, meeting⟩ | ⟨mod, meeting⟩ | ⟨mod, meeting⟩ | ⟨mod, meeting⟩ <;>
        rw [mod, lastStage] <;> omega

/-- What the operations behind the loop do to the counters of the loop. -/
theorem program_run (apart : fields.Apart) {stage : Nat} {op : Op Nat} (behind : 3 ≤ stage)
    (found : (fields.program tileCount)[stage]? = some op) (memory : Nat → Nat) :
    op.run 32 memory fields.partitions = (if stage = 8 then 0 else memory fields.partitions) ∧
      (stage ≠ 10 → op.run 32 memory fields.inTiles = memory fields.inTiles) := by
  obtain ⟨partitionsTiles, partitionsIn, partitionsFinal, tilesIn, tilesFinal, inFinal⟩ := apart.ne
  have inside := (program_tidy behind found).1
  interval_cases stage <;> cases found <;>
    simp [Op.run, bodyOp, partitionsTiles, partitionsIn, partitionsFinal, partitionsIn.symm,
      tilesIn.symm, inFinal]

/-- The ledger while partitions are shared. -/
theorem Ledger.shared (ledger : Ledger fields partitionCount w r) (mod : r % 4 = 1)
    (sharing : Sharing fields partitionCount w' (r / 4))
    (others : ∀ execution ≠ r / 4, ∀ partition,
      w'.walked.count (execution, partition) = w.walked.count (execution, partition)) :
    Ledger fields partitionCount w' r := by
  refine ⟨fun execution before partition => ?_, fun execution later partition => ?_, by omega,
    fun _ => sharing, by omega⟩
  · rw [others execution (by omega)]
    exact ledger.complete execution before partition
  · rw [others execution (by omega)]
    exact ledger.fresh execution later partition

theorem InStep.phase_of_one (inStep : InStep fields partitionCount w r)
    (one : (w.phase tile).stage = 1) : w.phase tile = .entered false := by
  cases here : w.phase tile with
  | enter again => cases again <;> simp [here, Phase.stage] at one
  | entered again => cases again <;> simp [here, Phase.stage] at one ⊢
  | after stage =>
    have behind := (inStep.staged tile stage here).1
    rw [here, Phase.stage] at one
    omega
  | _ => simp [here, Phase.stage] at one

theorem phase_of_behind
    (behind : 3 ≤ (w.phase tile).stage) :
    w.phase tile = .after (w.phase tile).stage := by
  cases here : w.phase tile with
  | enter again => cases again <;> simp [here, Phase.stage] at behind
  | entered again => cases again <;> simp [here, Phase.stage] at behind
  | after stage => rfl
  | _ => simp [here, Phase.stage] at behind

/-- The first tile out of the meeting in front of the loop finds the ledger of its execution
empty. -/
theorem InStep.begin (inStep : InStep fields partitionCount w r) (mod : r % 4 = 0)
    (all : ∀ other, (w.phase other).stage = 1) :
    Sharing fields partitionCount (w.move tile .fetch) (r / 4) := by
  obtain ⟨zero, most⟩ := inStep.ledger.entering mod
  have phases : ∀ other, (w.move tile .fetch).phase other = .entered false ∨
      (w.move tile .fetch).phase other = .fetch := by
    intro other
    simp only [Workers.move, Function.update_apply]
    split
    · exact Or.inr rfl
    · exact Or.inl (inStep.phase_of_one (all other))
  have none : ∀ weight : Phase → Nat, weight (.entered false) = 0 → weight .fetch = 0 →
      total weight (w.move tile .fetch).phase = 0 := fun weight first second =>
    total_eq_zero fun other => by
      rcases phases other with phase | phase
      · rw [phase, first]
      · rw [phase, second]
  constructor
  · intro partition
    have fresh := inStep.ledger.fresh (r / 4) (by omega) partition
    rw [none _ rfl rfl]
    simp [Workers.move, zero, fresh]
  · simp [Workers.move, zero]
  · rw [none _ rfl rfl]
    exact Nat.le_trans most (Nat.le_add_right _ _)
  · intro other partition phaseOf
    rcases phases other with phase | phase <;> cases phase.symm.trans phaseOf
  · intro other stage phaseOf
    rcases phases other with phase | phase <;> cases phase.symm.trans phaseOf

/-- Once all tiles are behind the loop, all partitions were executed once. -/
theorem InStep.finish (inStep : InStep fields partitionCount w r) (mod : r % 4 = 1)
    (all : ∀ other, 3 ≤ (w.phase other).stage) (tile : Fin tileCount) (partition : Nat) :
    w.walked.count (r / 4, partition) = if partition < partitionCount then 1 else 0 := by
  have sharing := inStep.ledger.sharing mod
  have each := sharing.each partition
  have past := sharing.left tile _ (phase_of_behind (all tile))
  rw [total_eq_zero fun other => by rw [phase_of_behind (all other)]; rfl,
    Nat.add_zero] at each
  rw [each]
  split <;> split <;> omega

/-- The ledger after a step behind the loop that stays in its round. -/
theorem InStep.behind (apart : fields.Apart) (inStep : InStep fields partitionCount w r)
    {stage : Nat} {op : Op Nat} (here : w.phase tile = .after stage)
    (found : (fields.program tileCount)[stage]? = some op) :
    Ledger fields partitionCount { w.move tile (.after (stage + 1)) with
      memory := op.run 32 w.memory } r := by
  have ledger := inStep.ledger
  have behind := (inStep.staged tile stage here).1
  have bounds := inStep.bounds tile
  rw [here, Phase.stage] at bounds
  obtain ⟨partitions, inTiles⟩ := program_run apart behind found w.memory
  refine ⟨ledger.complete, ledger.fresh, fun mod => ?_, fun mod => ?_, fun mod past => ?_⟩
  · obtain ⟨zero, most⟩ := ledger.entering mod
    constructor
    · exact partitions.trans (by rw [zero, ite_self])
    · exact (inTiles (by omega)).trans_le most
  · have sharing := ledger.sharing mod
    rw [if_neg (by omega)] at partitions
    exact sharing.move (fun _ => by rw [here]; rfl) (by rw [here]; rfl) (by rw [here]; rfl)
      partitions (inTiles (by omega)) (fun _ other => by cases other)
      fun _ _ => sharing.left tile stage here
  · refine partitions.trans ?_
    split
    · rfl
    next other =>
      obtain ⟨late, past⟩ := past
      refine ledger.cleaned mod ⟨late, ?_⟩
      simp only [Workers.move, Function.update_apply] at past
      split at past
      next same =>
        subst same
        rw [here]
        simp only [Phase.stage] at past ⊢
        omega
      next => exact past

/-- The ledger after the first step out of a meeting behind the loop. -/
theorem InStep.leave (apart : fields.Apart) (inStep : InStep fields partitionCount w r)
    {stage : Nat} {op : Op Nat} (here : w.phase tile = .after stage)
    (found : (fields.program tileCount)[stage]? = some op)
    (all : ∀ other, w.execution other = r / 4 ∧ (w.phase other).stage = lastStage (r % 4)) :
    Ledger fields partitionCount { w.move tile (.after (stage + 1)) with
      memory := op.run 32 w.memory } (r + 1) := by
  have ledger := inStep.ledger
  have behind := (inStep.staged tile stage here).1
  obtain ⟨partitions, inTiles⟩ := program_run apart behind found w.memory
  have own := (all tile).2
  rw [here, Phase.stage] at own
  have mods : r % 4 = 0 ∨ r % 4 = 1 ∨ r % 4 = 2 ∨ r % 4 = 3 := by omega
  rcases mods with mod | mod | mod | mod <;> rw [mod] at own all <;> simp only [lastStage] at own all
  · omega
  · refine ⟨fun execution before partition => ?_, fun execution later partition => ?_, by omega,
      by omega, by omega⟩
    · by_cases last : execution = r / 4
      · rw [last]
        exact inStep.finish mod (fun other => by have stage := (all other).2; omega) tile partition
      · exact ledger.complete execution (by omega) partition
    · exact ledger.fresh execution (by omega) partition
  · refine ⟨fun execution before partition => ledger.complete execution (by omega) partition,
      fun execution later partition => ledger.fresh execution (by omega) partition, by omega,
      by omega, fun _ past => ?_⟩
    obtain ⟨late, past⟩ := past
    have place := all late
    simp only [Workers.move, Function.update_apply] at past
    split at past
    · simp only [Phase.stage] at past
      omega
    · omega
  · refine ⟨fun execution before partition => ledger.complete execution (by omega) partition,
      fun execution later partition => ledger.fresh execution (by omega) partition, fun _ => ?_,
      by omega, by omega⟩
    have zero := ledger.cleaned mod ⟨tile, by have place := all tile; omega⟩
    -- All tiles have cleared the counter at which they came in.
    have start := (partitionedStart_execution fields.inTiles fields.tiles fields.finalSync
      fields.cleared tileCount (r / 4)).2.2.2
    rw [show 4 * (r / 4) + 3 = r by omega] at start
    rcases partitionedRound_cases fields.inTiles fields.tiles fields.finalSync fields.cleared
      tileCount r with ⟨other, -⟩ | ⟨other, -⟩ | ⟨other, -⟩ | ⟨-, round⟩ <;> try omega
    have cleared := inStep.inRound.cleared fields.inTiles ⟨2, tile, by rw [round]; rfl, by
      have place := all tile
      have length : fields.cleared.length = 3 := rfl
      rw [start, length, Workers.meetings]
      dsimp only
      omega⟩
    rw [round, if_neg apart.ne.2.2.2.2.2] at cleared
    simp only [Workers.meetings, meetingCounters, if_pos] at cleared
    have some : 0 < tileCount := tile.pos
    constructor
    · exact partitions.trans (by rw [zero, ite_self])
    · refine (inTiles (by omega)).trans_le ?_
      omega

/-- Every tile behind the loop is at a stage of its program. -/
theorem InStep.staged_next (inStep : InStep fields partitionCount w r)
    (step : w.next? fields partitionCount tile = some w') (other : Fin tileCount) (stage : Nat)
    (phaseOf : w'.phase other = .after stage) : 3 ≤ stage ∧ stage ≤ 13 := by
  have moved : ∃ phase, w'.phase = Function.update w.phase tile phase ∧
      ∀ stage, phase = .after stage → 3 ≤ stage ∧ stage ≤ 13 := by
    unfold Workers.next? at step
    cases here : w.phase tile with
    | enter again =>
      rw [here] at step
      cases step
      exact ⟨_, rfl, fun _ phase => by cases phase⟩
    | entered again =>
      rw [here] at step
      dsimp only at step
      split at step <;> cases step
      exact ⟨_, rfl, fun _ phase => by cases phase⟩
    | fetch =>
      rw [here] at step
      cases step
      exact ⟨_, rfl, fun _ phase => by cases phase⟩
    | hold partition =>
      rw [here] at step
      dsimp only at step
      split at step <;> cases step
      · exact ⟨_, rfl, fun _ phase => by cases phase⟩
      · refine ⟨_, rfl, fun _ phase => ?_⟩
        cases phase
        omega
    | back =>
      rw [here] at step
      cases step
      exact ⟨_, rfl, fun _ phase => by cases phase⟩
    | after stage =>
      rw [here] at step
      dsimp only at step
      have behind := (inStep.staged tile stage here).1
      split at step
      next op found =>
        split at step <;> cases step
        have inside := (program_tidy behind found).1
        refine ⟨_, rfl, fun _ phase => ?_⟩
        cases phase
        omega
      next =>
        cases step
        exact ⟨_, rfl, fun _ phase => by cases phase⟩
  obtain ⟨phase, moved, all⟩ := moved
  rw [moved, Function.update_apply] at phaseOf
  split at phaseOf
  · exact all stage phaseOf
  · exact inStep.staged other stage phaseOf

/-- Every step of a tile keeps the tiles in step. -/
theorem InStep.step (apart : fields.Apart) (few : tileCount + partitionCount ≤ 2 ^ 16)
    (inStep : InStep fields partitionCount w r)
    (step : w.next? fields partitionCount tile = some w') :
    InStep fields partitionCount w' r ∨ InStep fields partitionCount w' (r + 1) := by
  have staged := inStep.staged_next step
  have rounds := inStep.rounds apart few step
  have ledger := inStep.ledger
  have bounds := inStep.bounds tile
  suffices ledgers : Ledger fields partitionCount w' r ∧ ((∀ other,
      w.execution other = r / 4 ∧ (w.phase other).stage = lastStage (r % 4)) →
        Ledger fields partitionCount w' (r + 1)) by
    rcases rounds with now | ⟨now, all⟩
    · exact Or.inl ⟨now, staged, ledgers.1⟩
    · exact Or.inr ⟨now, staged, ledgers.2 all⟩
  have lasts := lastStage_cases (r % 4)
  -- A tile in the loop is not the first one out of a meeting.
  have looping : (w.phase tile).stage = 2 → Sharing fields partitionCount w' (r / 4) →
      (∀ execution ≠ r / 4, ∀ partition,
        w'.walked.count (execution, partition) = w.walked.count (execution, partition)) →
      Ledger fields partitionCount w' r ∧ ((∀ other,
        w.execution other = r / 4 ∧ (w.phase other).stage = lastStage (r % 4)) →
          Ledger fields partitionCount w' (r + 1)) := by
    intro loop sharing others
    refine ⟨ledger.shared (inStep.looping loop).1 sharing others, fun all => ?_⟩
    have own := (all tile).2
    omega
  unfold Workers.next? at step
  cases here : w.phase tile with
  | enter again =>
    rw [here] at step
    cases step
    cases again with
    | false =>
      obtain ⟨mod, fewer⟩ := inStep.entering_lt apart (by omega) here
      refine ⟨⟨ledger.complete, ledger.fresh, fun _ => ?_, by omega, by omega⟩, fun all => ?_⟩
      · have counted : (Op.increment fields.inTiles).run 32 w.memory fields.inTiles =
            w.memory fields.inTiles + 1 :=
          (Function.update_self ..).trans (Word.add_eq (by omega))
        exact ⟨(Function.update_of_ne apart.ne.2.1 ..).trans (ledger.entering mod).1,
          counted.trans_le fewer⟩
      · have own := (all tile).2
        rw [here, Phase.stage, if_neg (by decide)] at own
        omega
    | true =>
      have loop : (w.phase tile).stage = 2 := by simp [here, Phase.stage]
      exact looping loop ((ledger.sharing (inStep.looping loop).1).again apart few here)
        fun _ _ _ => rfl
  | entered again =>
    rw [here] at step
    dsimp only at step
    split at step <;> cases step
    cases again with
    | false =>
      rw [here, Phase.stage, if_neg (by decide)] at bounds
      refine ⟨⟨ledger.complete, ledger.fresh, ledger.entering, fun mod => ?_, by omega⟩,
        fun all => ?_⟩
      · exact (ledger.sharing mod).move (fun _ => by rw [here]; rfl) (by rw [here]; rfl)
          (by rw [here]; rfl) rfl rfl (fun _ other => by cases other) fun _ other => by cases other
      · have own := (all tile).2
        rw [here, Phase.stage, if_neg (by decide)] at own
        have mod : r % 4 = 0 := by omega
        refine ⟨fun execution before partition => ledger.complete execution (by omega) partition,
          fun execution later partition => ledger.fresh execution (by omega) partition, by omega,
          fun _ => ?_, by omega⟩
        rw [show (r + 1) / 4 = r / 4 by omega]
        exact inStep.begin mod fun other => by
          have stage := (all other).2
          omega
    | true =>
      have loop : (w.phase tile).stage = 2 := by simp [here, Phase.stage]
      refine looping loop ?_ fun _ _ _ => rfl
      exact (ledger.sharing (inStep.looping loop).1).move (fun _ => by rw [here]; rfl)
        (by rw [here]; rfl) (by rw [here]; rfl) rfl rfl (fun _ other => by cases other)
        fun _ other => by cases other
  | fetch =>
    rw [here] at step
    cases step
    have loop : (w.phase tile).stage = 2 := by simp [here, Phase.stage]
    exact looping loop ((ledger.sharing (inStep.looping loop).1).fetch apart few here)
      fun _ _ _ => rfl
  | hold partition =>
    rw [here] at step
    dsimp only at step
    have loop : (w.phase tile).stage = 2 := by simp [here, Phase.stage]
    obtain ⟨mod, current⟩ := inStep.looping loop
    split at step
    next present =>
      cases step
      refine looping loop ((ledger.sharing mod).walk here present current) ?_
      intro execution other partition
      rw [List.count_cons, current]
      simp [Ne.symm other]
    next absent =>
      cases step
      have sharing := ledger.sharing mod
      have handed := sharing.held tile partition here
      refine looping loop (sharing.move ?_ ?_ ?_ rfl rfl ?_ ?_) fun _ _ _ => rfl
      · intro other
        simp [here, Phase.holds, absent]
      · simp [here, Phase.spent, absent]
      · simp [here, Phase.returns, absent]
      · intro other phase
        cases phase
      · intro stage _
        omega
  | back =>
    rw [here] at step
    cases step
    have loop : (w.phase tile).stage = 2 := by simp [here, Phase.stage]
    refine looping loop ?_ fun _ _ _ => rfl
    exact (ledger.sharing (inStep.looping loop).1).move (fun _ => by rw [here]; rfl)
      (by rw [here]; rfl) (by rw [here]; rfl) rfl rfl (fun _ other => by cases other)
      fun _ other => by cases other
  | after stage =>
    rw [here] at step
    dsimp only at step
    split at step
    next op found =>
      split at step <;> cases step
      exact ⟨inStep.behind apart here found, inStep.leave apart here found⟩
    next none =>
      cases step
      have length : (opsOf (fields.rounds tileCount)).length = 13 := rfl
      have past := List.getElem?_eq_none_iff.mp none
      rw [here, Phase.stage] at bounds
      have mod : r % 4 = 0 := by omega
      refine ⟨⟨ledger.complete, ledger.fresh, ledger.entering, by omega, by omega⟩, fun all => ?_⟩
      have own := (all tile).2
      rw [here, Phase.stage] at own
      omega

theorem meetings_outside {memory : Nat → Nat} (outside : Outside fields w.memory memory) :
    ({ w with memory := memory } : Workers tileCount).meetings fields = w.meetings fields := by
  simp only [Outside, List.mem_cons, List.not_mem_nil, or_false, forall_eq_or_imp, forall_eq]
    at outside
  obtain ⟨-, tiles, inTiles, finalSync⟩ := outside
  have counters : meetingCounters fields tileCount memory =
      meetingCounters fields tileCount w.memory := by
    funext address
    rw [meetingCounters, meetingCounters]
    split
    next same => rw [same, inTiles]
    next =>
      split
      next known => rcases known with rfl | rfl <;> assumption
      next => rfl
  simp only [Workers.meetings, counters]

/-- What others write does not matter. -/
theorem InStep.outside (inStep : InStep fields partitionCount w r) {memory : Nat → Nat}
    (outside : Outside fields w.memory memory) :
    InStep fields partitionCount { w with memory := memory } r := by
  have meetings := meetings_outside outside
  simp only [Outside, List.mem_cons, List.not_mem_nil, or_false, forall_eq_or_imp, forall_eq]
    at outside
  obtain ⟨partitions, -, inTiles, -⟩ := outside
  obtain ⟨inRound, staged, ledger⟩ := inStep
  refine ⟨?_, staged, ledger.complete, ledger.fresh, fun mod => ?_, fun mod => ?_,
    fun mod past => ?_⟩
  · rw [meetings]
    exact inRound
  · have entering := ledger.entering mod
    rwa [← partitions, ← inTiles] at entering
  · obtain ⟨each, handed, entered, held, left⟩ := ledger.sharing mod
    simp only [← partitions, ← inTiles] at each handed entered held left
    exact ⟨each, handed, entered, held, left⟩
  · exact partitions.trans (ledger.cleaned mod past)

theorem meetings_start (initial : (workers fields partitionCount).init w) :
    w.meetings fields = ⟨fun _ => 0, fun _ => 0⟩ := by
  obtain ⟨starts, zero, none⟩ := initial
  simp only [Outside, List.mem_cons, List.not_mem_nil, or_false, forall_eq_or_imp, forall_eq]
    at zero
  have done : (w.meetings fields).done = fun _ => 0 := by
    funext tile
    simp [Workers.meetings, starts tile, Phase.stage]
  have counters : (w.meetings fields).counters = fun _ => 0 := by
    funext address
    simp only [Workers.meetings, meetingCounters]
    split
    next same => rw [same, zero.2.2.1, Nat.zero_min]
    next =>
      split
      next known =>
        rcases known with rfl | rfl
        · exact zero.2.1
        · exact zero.2.2.2
      next => rfl
  rw [← done, ← counters]

theorem inStep_start (initial : (workers fields partitionCount).init w) :
    InStep fields partitionCount w 0 := by
  have meetings := meetings_start initial
  obtain ⟨starts, zero, none⟩ := initial
  simp only [Outside, List.mem_cons, List.not_mem_nil, or_false, forall_eq_or_imp, forall_eq]
    at zero
  refine ⟨?_, fun tile stage phase => ?_, ?_⟩
  · rw [meetings]
    exact inRound_start (partitioned_unrolled _ _ _ _ _)
  · cases (starts tile).1.symm.trans phase
  · refine ⟨by omega, fun execution _ partition => by simp [none], fun _ => ?_, by omega, by omega⟩
    rw [zero.1, zero.2.2.1]
    exact ⟨rfl, Nat.zero_le _⟩

/-- In every run the tiles are in step. -/
theorem reachable_inStep (apart : fields.Apart) (few : tileCount + partitionCount ≤ 2 ^ 16)
    (reachable : Reachable (workers fields partitionCount) w) :
    ∃ r, InStep fields partitionCount w r := by
  induction reachable with
  | start initial => exact ⟨0, inStep_start initial⟩
  | @next _ _ label _ step ih =>
    obtain ⟨r, inStep⟩ := ih
    cases label with
    | none =>
      obtain ⟨memory, outside, rfl⟩ := step
      exact ⟨r, inStep.outside outside⟩
    | some tile =>
      rcases inStep.step apart few step with now | now
      · exact ⟨r, now⟩
      · exact ⟨r + 1, now⟩

/-- What the tiles do with the counters of their meetings is a run of their program. -/
theorem reachable_meetings (apart : fields.Apart) (few : tileCount + partitionCount ≤ 2 ^ 16)
    (reachable : Reachable (workers fields partitionCount) w) :
    Reachable (system 32 (fields.program tileCount)) (w.meetings fields) := by
  induction reachable with
  | start initial => exact .start (meetings_start initial)
  | @next _ _ label before step ih =>
    obtain ⟨r, inStep⟩ := reachable_inStep apart few before
    cases label with
    | none =>
      obtain ⟨memory, outside, rfl⟩ := step
      rw [meetings_outside outside]
      exact ih
    | some tile =>
      cases inStep.change apart few step with
      | still same =>
        rw [same]
        exact ih
      | moves op found isOpen advances => exact .next ih ⟨op, found, isOpen, advances⟩

/-! ### What holds in every run -/

/-- No partition is executed twice in one execution, and none that there is not. -/
theorem InStep.walked_once (inStep : InStep fields partitionCount w r)
    (execution partition : Nat) :
    w.walked.count (execution, partition) ≤ if partition < partitionCount then 1 else 0 := by
  by_cases early : execution < (r + 2) / 4
  · exact (inStep.ledger.complete execution early partition).le
  · by_cases late : (r + 3) / 4 ≤ execution
    · rw [inStep.ledger.fresh execution late partition]
      exact Nat.zero_le _
    · have mod : r % 4 = 1 := by omega
      have now : execution = r / 4 := by omega
      have each := (inStep.ledger.sharing mod).each partition
      rw [now]
      split at each <;> split <;> omega

/-- Behind the wait that follows the loop, all partitions have been executed. -/
theorem InStep.walked_all (inStep : InStep fields partitionCount w r) {execution : Nat}
    {tile : Fin tileCount}
    (past : 13 * execution + 6 ≤ 13 * w.execution tile + (w.phase tile).stage) (partition : Nat) :
    w.walked.count (execution, partition) = if partition < partitionCount then 1 else 0 := by
  have bounds := inStep.bounds tile
  exact inStep.ledger.complete execution (by omega) partition

/-- A tile in an execution has left all others of the executions before it behind. -/
theorem InStep.left_before (inStep : InStep fields partitionCount w r) {execution : Nat}
    {tile : Fin tileCount}
    (past : 13 * execution + 2 ≤ 13 * w.execution tile + (w.phase tile).stage)
    (other : Fin tileCount) :
    13 * execution < 13 * w.execution other + (w.phase other).stage := by
  have bounds := inStep.bounds tile
  have others := inStep.bounds other
  omega

/-- A tile waits on a counter. -/
def Waits (fields : Fields) (w : Workers tileCount) (tile : Fin tileCount) (counter : Nat) : Prop :=
  (counter = fields.inTiles ∧ ∃ again, w.phase tile = .entered again) ∨
    ∃ stage target, w.phase tile = .after stage ∧
      (fields.program tileCount)[stage]? = some (.wait counter target)

/-- A tile is about to clear a counter. -/
def Clears (fields : Fields) (w : Workers tileCount) (tile : Fin tileCount) (counter : Nat) : Prop :=
  ∃ stage, w.phase tile = .after stage ∧
    (fields.program tileCount)[stage]? = some (.clear counter)

theorem program_clear {stage counter : Nat}
    (found : (fields.program tileCount)[stage]? = some (.clear counter)) :
    (stage = 3 ∧ counter = fields.finalSync) ∨
      (8 ≤ stage ∧ stage ≤ 10 ∧ counter ∈ fields.cleared) := by
  have inside : stage < 13 := (List.getElem?_eq_some_iff.mp found).1
  interval_cases stage <;> cases found <;> simp [Fields.cleared]

theorem program_wait {stage counter target : Nat} (behind : 3 ≤ stage)
    (found : (fields.program tileCount)[stage]? = some (.wait counter target)) :
    (stage = 5 ∧ counter = fields.tiles) ∨
      ((stage = 7 ∨ stage = 12) ∧ counter = fields.finalSync) := by
  have inside : stage < 13 := (List.getElem?_eq_some_iff.mp found).1
  interval_cases stage <;> cases found <;> simp

/-- No tile clears a counter on which another one waits. -/
theorem InStep.considerate (apart : fields.Apart) (inStep : InStep fields partitionCount w r)
    {counter : Nat} (clears : Clears fields w tile counter) (other : Fin tileCount) :
    ¬Waits fields w other counter := by
  have cleans := apart.cleans
  obtain ⟨beforeAfter, beforeFinal, afterFinal⟩ := cleans.apart
  obtain ⟨stage, here, found⟩ := clears
  have cleared := program_clear found
  have bounds := inStep.bounds tile
  have others := inStep.bounds other
  rw [here, Phase.stage] at bounds
  rintro (⟨rfl, again, waits⟩ | ⟨late, target, waits, held⟩)
  · have early : (w.phase other).stage ≤ 2 := by
      rw [waits]
      cases again <;> decide
    rcases cleared with ⟨-, same⟩ | ⟨first, last, -⟩
    · exact beforeFinal same
    · omega
  · have waited := program_wait (inStep.staged other late waits).1 held
    rw [waits, Phase.stage] at others
    rcases cleared with ⟨first, rfl⟩ | ⟨first, last, member⟩
    · rcases waited with ⟨-, same⟩ | ⟨place, -⟩
      · exact afterFinal same.symm
      · omega
    · rcases waited with ⟨place, -⟩ | ⟨-, rfl⟩
      · omega
      · exact cleans.finalSync member

/-- A tile that cannot go on waits at a meeting to which another one has not come. -/
theorem stuck_behind (apart : fields.Apart) (few : tileCount + partitionCount ≤ 2 ^ 16)
    (reachable : Reachable (workers fields partitionCount) w)
    (stuck : w.next? fields partitionCount tile = none) :
    ∃ other, 13 * w.execution other + (w.phase other).stage <
      13 * w.execution tile + (w.phase tile).stage := by
  have cleans := apart.cleans
  obtain ⟨r, inStep⟩ := reachable_inStep apart few reachable
  have meetings := reachable_meetings apart few reachable
  have unrolled := partitioned_unrolled fields.inTiles fields.tiles fields.finalSync fields.cleared
    tileCount
  have meets := partitioned_meets tileCount cleans (by omega)
  have together := reachable_together unrolled meets
    (reachable_considerate (partitioned_calm tileCount cleans) unrolled meets meetings)
  suffices waits : ∃ counter target,
      opAt (fields.program tileCount) ((w.meetings fields).done tile) =
        some (.wait counter target) ∧ ¬target ≤ (w.meetings fields).counters counter by
    obtain ⟨counter, target, found, closed⟩ := waits
    have missing := mt (together.waits_iff unrolled meets found).mpr closed
    obtain ⟨other, behind⟩ := not_forall.mp missing
    exact ⟨other, Nat.lt_of_not_le behind⟩
  unfold Workers.next? at stuck
  cases here : w.phase tile with
  | entered again =>
    rw [here] at stuck
    dsimp only at stuck
    split at stuck
    next => cases stuck
    next closed =>
      cases again with
      | false =>
        refine ⟨fields.inTiles, tileCount, ?_, ?_⟩
        · rw [program_opAt w (by simp [here, Phase.stage]), here]
          rfl
        · simp only [Workers.meetings, meetingCounters, if_pos]
          omega
      | true =>
        have mod := (@InStep.looping _ _ _ _ _ inStep tile (by simp [here, Phase.stage])).1
        exact absurd (inStep.all_entered apart mod) closed
  | after stage =>
    rw [here] at stuck
    dsimp only at stuck
    split at stuck
    next op found =>
      split at stuck
      next => cases stuck
      next closed =>
        obtain ⟨inside, tidy⟩ := program_tidy (inStep.staged tile stage here).1 found
        have shut : ¬op.Open (w.meetings fields).counters :=
          mt (tidy_open_iff apart tidy w.memory).mp closed
        have held : opAt (fields.program tileCount) ((w.meetings fields).done tile) = some op := by
          rw [program_opAt w (by rwa [here]), here]
          exact found
        cases op with
        | wait counter target => exact ⟨counter, target, held, shut⟩
        | _ => exact absurd trivial shut
    next => cases stuck
  | hold partition =>
    rw [here] at stuck
    dsimp only at stuck
    split at stuck <;> cases stuck
  | _ =>
    rw [here] at stuck
    cases stuck

/-- When all tiles are between two executions, the cleaned counters are as they were at first. -/
theorem cleaned_between (apart : fields.Apart) (few : tileCount + partitionCount ≤ 2 ^ 16)
    (present : 0 < tileCount) (reachable : Reachable (workers fields partitionCount) w)
    (execution : Nat)
    (all : ∀ tile, 13 * w.execution tile + (w.phase tile).stage = 13 * execution) :
    ∀ counter ∈ fields.cleared, w.memory counter = 0 := by
  have cleans := apart.cleans
  obtain ⟨r, inStep⟩ := reachable_inStep apart few reachable
  have meetings := reachable_meetings apart few reachable
  have some : Nonempty (Fin tileCount) := ⟨⟨0, present⟩⟩
  have start := (partitionedStart_execution fields.inTiles fields.tiles fields.finalSync
    fields.cleared tileCount execution).1
  have length : fields.cleared.length = 3 := rfl
  have between := counters_between (partitioned_unrolled _ _ _ _ _)
    (partitioned_meets tileCount cleans (by omega)) meetings (4 * execution) fun tile => by
      rw [start, length]
      exact all tile
  obtain ⟨left, -⟩ := partitioned_before tileCount cleans (Fintype.card (Fin tileCount))
    (4 * execution)
  obtain ⟨inTiles, tiles⟩ := left (Nat.mul_mod_right 4 execution)
  have bounds := inStep.bounds ⟨0, present⟩
  have place := all ⟨0, present⟩
  have first := (between fields.inTiles).trans inTiles
  have second := (between fields.tiles).trans tiles
  simp only [Workers.meetings, meetingCounters, if_pos, if_neg cleans.apart.1.symm, true_or]
    at first second
  simp only [Fields.cleared, List.mem_cons, List.not_mem_nil, or_false]
  rintro counter (rfl | rfl | rfl)
  · exact (inStep.ledger.entering (by omega)).1
  · exact second
  · omega

end Steps

end ComputeRuntime.WalkerPartition
