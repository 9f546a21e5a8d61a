import ComputeRuntime.WalkerPartition.Tiles
import Mathlib.Data.List.Count
import Mathlib.Tactic.IntervalCases

/-! Tiles that share the partitions of a walker.

A tile takes the next partition from a counter until there is none left; then it meets the other
tiles, clears the counters with them and starts again. What the tiles do with the counters of their
meetings is a program of rounds: the loop is one operation of it that no such counter shows. -/
namespace ComputeRuntime.WalkerPartition

open Lockstep Transition

/-- The counters of a dynamically partitioned buffer. -/
structure Fields where
  partitions : Nat
  tiles : Nat
  inTiles : Nat
  finalSync : Nat

def Fields.Apart (fields : Fields) : Prop :=
  [fields.partitions, fields.tiles, fields.inTiles, fields.finalSync].Nodup

/-- Where a tile is: it counts itself in and waits, the first time or again, takes a partition, holds
it, comes back from the walker, or is behind the loop. -/
inductive Phase where
  | enter (again : Bool)
  | entered (again : Bool)
  | fetch
  | hold (partition : Nat)
  | back
  | after (stage : Nat)
  deriving DecidableEq

structure Workers (tileCount : Nat) where
  phase : Fin tileCount → Phase
  execution : Fin tileCount → Nat
  memory : Nat → Nat
  walked : List (Nat × Nat)

def Fields.cleared (fields : Fields) : List Nat :=
  [fields.partitions, fields.tiles, fields.inTiles]

def Fields.rounds (fields : Fields) (tileCount : Nat) : List (Round Nat) :=
  partitionedRounds fields.inTiles fields.tiles fields.finalSync fields.cleared tileCount

section Machine

variable {tileCount : Nat} (fields : Fields) (partitionCount : Nat)

def Workers.move (w : Workers tileCount) (tile : Fin tileCount) (phase : Phase) :
    Workers tileCount :=
  { w with phase := Function.update w.phase tile phase }

/-- What a tile does next, if it can go on. -/
def Workers.next? (w : Workers tileCount) (tile : Fin tileCount) : Option (Workers tileCount) :=
  match w.phase tile with
  | .enter again => some { w.move tile (.entered again) with
      memory := (Op.increment fields.inTiles).run 32 w.memory }
  | .entered _ => if tileCount ≤ w.memory fields.inTiles then some (w.move tile .fetch) else none
  | .fetch => some { w.move tile (.hold (w.memory fields.partitions)) with
      memory := (Op.increment fields.partitions).run 32 w.memory }
  | .hold partition =>
    if partition < partitionCount then
      some { w.move tile .back with walked := (w.execution tile, partition) :: w.walked }
    else some (w.move tile (.after 3))
  | .back => some (w.move tile (.enter true))
  | .after stage =>
    match (opsOf (fields.rounds tileCount))[stage]? with
    | some op =>
      if op.Open w.memory then
        some { w.move tile (.after (stage + 1)) with memory := op.run 32 w.memory }
      else none
    | none => some { w.move tile (.enter false) with
        execution := Function.update w.execution tile (w.execution tile + 1) }

/-- Memory changes outside of the counters. -/
def Outside (memory memory' : Nat → Nat) : Prop :=
  ∀ address ∈ [fields.partitions, fields.tiles, fields.inTiles, fields.finalSync],
    memory' address = memory address

/-- The tiles take their steps in any order; others write memory outside of the counters. -/
def workers : System (Workers tileCount) (Option (Fin tileCount)) where
  init := fun w => (∀ tile, w.phase tile = .enter false ∧ w.execution tile = 0) ∧
    Outside fields (fun _ => 0) w.memory ∧ w.walked = []
  step := fun w label w' => match label with
    | some tile => w.next? fields partitionCount tile = some w'
    | none => ∃ memory, Outside fields w.memory memory ∧ w' = { w with memory := memory }

def Phase.stage : Phase → Nat
  | .enter again => if again then 2 else 0
  | .entered again => if again then 2 else 1
  | .fetch | .hold _ | .back => 2
  | .after stage => stage

/-- What the meetings make of the counters: tiles that count themselves in again do not matter, and
no meeting is at the counter of the partitions. -/
def meetingCounters (tileCount : Nat) (memory : Nat → Nat) (address : Nat) : Nat :=
  if address = fields.inTiles then min (memory address) tileCount
  else if address = fields.tiles ∨ address = fields.finalSync then memory address
  else 0

def Workers.meetings (w : Workers tileCount) : State (Fin tileCount) Nat where
  done := fun tile => 13 * w.execution tile + (w.phase tile).stage
  counters := meetingCounters fields tileCount w.memory

end Machine

/-! ### What the tiles hold -/

section Totals

variable {tileCount : Nat} (partitionCount : Nat)

/-- A tile holds a partition that is still to be executed. -/
def Phase.holds (partition : Nat) : Phase → Nat
  | .hold held => if held = partition ∧ held < partitionCount then 1 else 0
  | _ => 0

/-- A tile has seen that there is no partition left. -/
def Phase.spent : Phase → Nat
  | .hold held => if held < partitionCount then 0 else 1
  | .after _ => 1
  | _ => 0

/-- A tile will count itself in again. -/
def Phase.returns : Phase → Nat
  | .hold held => if held < partitionCount then 1 else 0
  | .back => 1
  | .enter again => if again then 1 else 0
  | _ => 0

def total (weight : Phase → Nat) (phase : Fin tileCount → Phase) : Nat :=
  ∑ tile, weight (phase tile)

theorem total_update (weight : Phase → Nat) (phase : Fin tileCount → Phase) (tile : Fin tileCount)
    (now : Phase) : total weight (Function.update phase tile now) + weight (phase tile) =
      total weight phase + weight now := by
  have rest : ∑ other ∈ Finset.univ.erase tile, weight (Function.update phase tile now other) =
      ∑ other ∈ Finset.univ.erase tile, weight (phase other) :=
    Finset.sum_congr rfl fun other member => by
      rw [Function.update_of_ne (Finset.ne_of_mem_erase member)]
  have first := Finset.add_sum_erase Finset.univ (fun other => weight (phase other))
    (Finset.mem_univ tile)
  have second := Finset.add_sum_erase Finset.univ
    (fun other => weight (Function.update phase tile now other)) (Finset.mem_univ tile)
  rw [total, total, ← first, ← second, rest, Function.update_self]
  omega

theorem total_eq_zero {weight : Phase → Nat} {phase : Fin tileCount → Phase}
    (none : ∀ tile, weight (phase tile) = 0) : total weight phase = 0 :=
  Finset.sum_eq_zero fun tile _ => none tile

theorem total_spent_le (phase : Fin tileCount → Phase) :
    total (Phase.spent partitionCount) phase ≤ tileCount := by
  have each : ∀ tile ∈ Finset.univ, (phase tile).spent partitionCount ≤ 1 := by
    intro tile _
    cases phase tile with
    | hold held =>
      rw [Phase.spent]
      split <;> omega
    | after stage => exact Nat.le_refl _
    | _ => exact Nat.zero_le _
  have bound := Finset.sum_le_card_nsmul _ _ 1 each
  simpa [total] using bound

end Totals

/-! ### The ledger of the partitions -/

section Ledger

variable {tileCount : Nat} (fields : Fields) (partitionCount : Nat)

/-- While an execution shares its partitions, each that was handed out is held by one tile or was
executed once. -/
structure Sharing (w : Workers tileCount) (execution : Nat) : Prop where
  each : ∀ partition, w.walked.count (execution, partition) +
      total (Phase.holds partitionCount partition) w.phase =
    if partition < w.memory fields.partitions ∧ partition < partitionCount then 1 else 0
  handed : w.memory fields.partitions ≤
    partitionCount + total (Phase.spent partitionCount) w.phase
  entered : w.memory fields.inTiles + total (Phase.returns partitionCount) w.phase ≤
    tileCount + w.memory fields.partitions
  held : ∀ tile partition, w.phase tile = .hold partition →
    partition < w.memory fields.partitions
  left : ∀ tile stage, w.phase tile = .after stage → partitionCount < w.memory fields.partitions

/-- What was executed before and in a round. -/
structure Ledger (w : Workers tileCount) (r : Nat) : Prop where
  complete : ∀ execution < (r + 2) / 4, ∀ partition, w.walked.count (execution, partition) =
    if partition < partitionCount then 1 else 0
  fresh : ∀ execution ≥ (r + 3) / 4, ∀ partition, w.walked.count (execution, partition) = 0
  entering : r % 4 = 0 → w.memory fields.partitions = 0 ∧ w.memory fields.inTiles ≤ tileCount
  sharing : r % 4 = 1 → Sharing fields partitionCount w (r / 4)
  cleaned : r % 4 = 3 →
    (∃ tile, 13 * (r / 4) + 9 ≤ 13 * w.execution tile + (w.phase tile).stage) →
      w.memory fields.partitions = 0

/-- The tiles are in one round of their meetings, and the ledger of this round is right. -/
structure InStep (w : Workers tileCount) (r : Nat) : Prop where
  inRound : InRound
    (partitionedRound fields.inTiles fields.tiles fields.finalSync fields.cleared tileCount)
    (partitionedStart fields.inTiles fields.tiles fields.finalSync fields.cleared tileCount) r
    (w.meetings fields)
  staged : ∀ tile stage, w.phase tile = .after stage → 3 ≤ stage ∧ stage ≤ 13
  ledger : Ledger fields partitionCount w r

variable {fields partitionCount} {w : Workers tileCount} {r : Nat}

theorem Fields.Apart.ne (apart : fields.Apart) :
    fields.partitions ≠ fields.tiles ∧ fields.partitions ≠ fields.inTiles ∧
      fields.partitions ≠ fields.finalSync ∧ fields.tiles ≠ fields.inTiles ∧
      fields.tiles ≠ fields.finalSync ∧ fields.inTiles ≠ fields.finalSync := by
  simpa [Fields.Apart, and_assoc] using apart

theorem Fields.Apart.cleans (apart : fields.Apart) :
    Cleans fields.inTiles fields.tiles fields.finalSync fields.cleared := by
  obtain ⟨partitionsTiles, partitionsIn, partitionsFinal, tilesIn, tilesFinal, inFinal⟩ := apart.ne
  refine ⟨⟨tilesIn.symm, inFinal, tilesFinal⟩, ?_, ?_, ?_⟩ <;>
    simp [Fields.cleared, partitionsFinal.symm, tilesFinal.symm, inFinal.symm]

theorem InStep.stage_le (inStep : InStep fields partitionCount w r) (tile : Fin tileCount) :
    (w.phase tile).stage ≤ 13 := by
  cases phase : w.phase tile with
  | after stage => exact (inStep.staged tile stage phase).2
  | enter again => cases again <;> decide
  | entered again => cases again <;> decide
  | hold _ => exact Nat.le_of_ble_eq_true rfl
  | _ => decide

/-- Where the tiles of a round are, in their executions. -/
theorem InStep.bounds (inStep : InStep fields partitionCount w r) (tile : Fin tileCount) :
    (r % 4 = 0 ∧ 13 * (r / 4) ≤ 13 * w.execution tile + (w.phase tile).stage + 1 ∧
      13 * w.execution tile + (w.phase tile).stage ≤ 13 * (r / 4) + 1) ∨
    (r % 4 = 1 ∧ w.execution tile = r / 4 ∧ 1 ≤ (w.phase tile).stage ∧
      (w.phase tile).stage ≤ 5) ∨
    (r % 4 = 2 ∧ w.execution tile = r / 4 ∧ 5 ≤ (w.phase tile).stage ∧
      (w.phase tile).stage ≤ 7) ∨
    (r % 4 = 3 ∧ w.execution tile = r / 4 ∧ 7 ≤ (w.phase tile).stage ∧
      (w.phase tile).stage ≤ 12) := by
  have stage := inStep.stage_le tile
  have bounds := inRound_bounds inStep.inRound tile
  simp only [Workers.meetings, Fields.cleared, List.length_cons, List.length_nil] at bounds
  rcases bounds with ⟨mod, low, high⟩ | ⟨mod, low, high⟩ | ⟨mod, low, high⟩ | ⟨mod, low, high⟩
  · exact Or.inl ⟨mod, low, high⟩
  · have same : w.execution tile = r / 4 := by omega
    exact Or.inr (Or.inl ⟨mod, same, by omega, by omega⟩)
  · have same : w.execution tile = r / 4 := by omega
    exact Or.inr (Or.inr (Or.inl ⟨mod, same, by omega, by omega⟩))
  · have same : w.execution tile = r / 4 := by omega
    exact Or.inr (Or.inr (Or.inr ⟨mod, same, by omega, by omega⟩))

/-- A tile in the loop is in the round in which the partitions are shared. -/
theorem InStep.looping (inStep : InStep fields partitionCount w r) {tile : Fin tileCount}
    (loop : (w.phase tile).stage = 2) : r % 4 = 1 ∧ w.execution tile = r / 4 := by
  have bounds := inStep.bounds tile
  omega

/-- While the partitions are shared, all tiles have been counted in. -/
theorem InStep.all_entered (apart : fields.Apart) (inStep : InStep fields partitionCount w r)
    (sharing : r % 4 = 1) : tileCount ≤ w.memory fields.inTiles := by
  obtain ⟨-, -, -, tilesIn, -, inFinal⟩ := apart.ne
  have left := (partitioned_before tileCount apart.cleans (Fintype.card (Fin tileCount)) r).2.1
    sharing
  rcases partitionedRound_cases fields.inTiles fields.tiles fields.finalSync fields.cleared
    tileCount r with ⟨mod, -⟩ | ⟨-, round⟩ | ⟨mod, -⟩ | ⟨mod, -⟩ <;> try omega
  have uncleared : ¬Cleared
      (partitionedRound fields.inTiles fields.tiles fields.finalSync fields.cleared tileCount)
      (partitionedStart fields.inTiles fields.tiles fields.finalSync fields.cleared tileCount) r
      (w.meetings fields) fields.inTiles := by
    rintro ⟨j, tile, found, -⟩
    have member := List.mem_of_getElem? found
    rw [round] at member
    simp [inFinal] at member
  have kept := inStep.inRound.kept fields.inTiles uncleared
  rw [left.1, round, if_neg tilesIn.symm, Fintype.card_fin, Nat.add_zero] at kept
  simp only [Workers.meetings, meetingCounters, if_pos] at kept
  omega

/-- No counter of the loop wraps around. -/
theorem Sharing.fits {execution : Nat} (sharing : Sharing fields partitionCount w execution)
    (few : tileCount + partitionCount ≤ 2 ^ 16) :
    w.memory fields.partitions < 2 ^ 17 ∧ w.memory fields.inTiles < 2 ^ 18 := by
  have spent := @total_spent_le tileCount partitionCount w.phase
  have handed := sharing.handed
  have entered := sharing.entered
  omega

end Ledger

/-! ### Steps -/

section Steps

variable {tileCount : Nat} {fields : Fields} {partitionCount : Nat} {w w' : Workers tileCount}
  {r : Nat} {tile : Fin tileCount}

def Fields.program (fields : Fields) (tileCount : Nat) : List (Op Nat) :=
  opsOf (fields.rounds tileCount)

theorem program_opAt (w : Workers tileCount) (early : (w.phase tile).stage < 13) :
    opAt (fields.program tileCount) ((w.meetings fields).done tile) =
      (fields.program tileCount)[(w.phase tile).stage]? := by
  have length : (fields.program tileCount).length = 13 := rfl
  rw [opAt, length, Workers.meetings, Nat.mul_add_mod, Nat.mod_eq_of_lt early]

/-- A tile does not change the counters of the meetings, or takes the next step of its program. -/
inductive Change (fields : Fields) (w w' : Workers tileCount) (tile : Fin tileCount) : Prop where
  | still (same : w'.meetings fields = w.meetings fields)
  | moves (op : Op Nat)
    (found : opAt (fields.program tileCount) ((w.meetings fields).done tile) = some op)
    (isOpen : op.Open (w.meetings fields).counters)
    (advances : w'.meetings fields = (w.meetings fields).advance 32 tile op)

theorem meetings_still {phase : Phase} {memory : Nat → Nat} {walked : List (Nat × Nat)}
    (stays : phase.stage = (w.phase tile).stage)
    (counters : meetingCounters fields tileCount memory =
      meetingCounters fields tileCount w.memory) :
    ({ w.move tile phase with memory := memory, walked := walked } : Workers tileCount).meetings
      fields = w.meetings fields := by
  have done : (fun other => 13 * w.execution other +
      (Function.update w.phase tile phase other).stage) = (w.meetings fields).done := by
    funext other
    by_cases same : other = tile
    · subst same
      simp [Workers.meetings, stays]
    · simp [Workers.meetings, same]
  simp only [Workers.meetings, Workers.move] at done ⊢
  rw [done, counters]

theorem meetings_advance {phase : Phase} {memory : Nat → Nat} {walked : List (Nat × Nat)}
    {op : Op Nat} (next : phase.stage = (w.phase tile).stage + 1)
    (counters : meetingCounters fields tileCount memory =
      op.run 32 (meetingCounters fields tileCount w.memory)) :
    ({ w.move tile phase with memory := memory, walked := walked } : Workers tileCount).meetings
      fields = (w.meetings fields).advance 32 tile op := by
  have done : (fun other => 13 * w.execution other +
      (Function.update w.phase tile phase other).stage) =
        Function.update (w.meetings fields).done tile ((w.meetings fields).done tile + 1) := by
    funext other
    by_cases same : other = tile
    · subst same
      simp [Workers.meetings, next, Nat.add_assoc]
    · simp [Workers.meetings, same]
  simp only [Workers.meetings, Workers.move, State.advance] at done ⊢
  rw [done, counters]

/-! ### What steps do to the counters of the meetings -/

/-- What a tile does behind the loop. -/
inductive Tidy (fields : Fields) : Op Nat → Prop
  | clear (counter : Nat) (known : counter = fields.finalSync ∨ counter ∈ fields.cleared) :
    Tidy fields (.clear counter)
  | increment (counter : Nat) (known : counter = fields.tiles ∨ counter = fields.finalSync) :
    Tidy fields (.increment counter)
  | wait (counter target : Nat) (known : counter = fields.tiles ∨ counter = fields.finalSync) :
    Tidy fields (.wait counter target)

theorem program_tidy {stage : Nat} {op : Op Nat} (behind : 3 ≤ stage)
    (found : (fields.program tileCount)[stage]? = some op) : stage < 13 ∧ Tidy fields op := by
  have inside : stage < 13 := (List.getElem?_eq_some_iff.mp found).1
  refine ⟨inside, ?_⟩
  interval_cases stage <;> cases found
  · exact .clear _ (Or.inl rfl)
  · exact .increment _ (Or.inl rfl)
  · exact .wait _ _ (Or.inl rfl)
  · exact .increment _ (Or.inr rfl)
  · exact .wait _ _ (Or.inr rfl)
  · exact .clear _ (Or.inr (by simp [Fields.cleared]))
  · exact .clear _ (Or.inr (by simp [Fields.cleared]))
  · exact .clear _ (Or.inr (by simp [Fields.cleared]))
  · exact .increment _ (Or.inr rfl)
  · exact .wait _ _ (Or.inr rfl)

theorem meetingCounters_met (apart : fields.Apart) (memory : Nat → Nat) {counter : Nat}
    (known : counter = fields.tiles ∨ counter = fields.finalSync) :
    meetingCounters fields tileCount memory counter = memory counter := by
  obtain ⟨-, -, -, tilesIn, -, inFinal⟩ := apart.ne
  have other : counter ≠ fields.inTiles := by
    rcases known with rfl | rfl
    · exact tilesIn
    · exact inFinal.symm
  rw [meetingCounters, if_neg other, if_pos known]

theorem meetingCounters_tidy (apart : fields.Apart) {op : Op Nat} (tidy : Tidy fields op)
    (memory : Nat → Nat) : meetingCounters fields tileCount (op.run 32 memory) =
      op.run 32 (meetingCounters fields tileCount memory) := by
  funext address
  cases tidy with
  | clear counter known =>
    by_cases same : address = counter
    · subst same
      simp [meetingCounters, Op.run]
    · simp [meetingCounters, Op.run, same]
  | increment counter known =>
    by_cases same : address = counter
    · subst same
      simp only [Op.run, Function.update_self, meetingCounters_met apart _ known]
    · simp [meetingCounters, Op.run, same]
  | wait => rfl

theorem tidy_open_iff (apart : fields.Apart) {op : Op Nat} (tidy : Tidy fields op)
    (memory : Nat → Nat) :
    op.Open (meetingCounters fields tileCount memory) ↔ op.Open memory := by
  cases tidy with
  | clear => exact Iff.rfl
  | increment => exact Iff.rfl
  | wait counter target known =>
    rw [Op.Open, Op.Open, meetingCounters_met apart memory known]

theorem meetingCounters_partitions (apart : fields.Apart) (memory : Nat → Nat) :
    meetingCounters fields tileCount ((Op.increment fields.partitions).run 32 memory) =
      meetingCounters fields tileCount memory := by
  obtain ⟨partitionsTiles, partitionsIn, partitionsFinal, -, -, -⟩ := apart.ne
  funext address
  by_cases same : address = fields.partitions
  · subst same
    simp [meetingCounters, partitionsTiles, partitionsIn, partitionsFinal]
  · simp [meetingCounters, Op.run, same]

theorem meetingCounters_again {memory : Nat → Nat} (all : tileCount ≤ memory fields.inTiles)
    (fits : memory fields.inTiles + 1 < 2 ^ 32) :
    meetingCounters fields tileCount ((Op.increment fields.inTiles).run 32 memory) =
      meetingCounters fields tileCount memory := by
  funext address
  by_cases same : address = fields.inTiles
  · subst same
    simp only [meetingCounters, if_pos, Op.run, Function.update_self, Word.add_eq fits]
    omega
  · simp [meetingCounters, Op.run, same]

theorem meetingCounters_first {memory : Nat → Nat} (some : memory fields.inTiles < tileCount)
    (fits : memory fields.inTiles + 1 < 2 ^ 32) :
    meetingCounters fields tileCount ((Op.increment fields.inTiles).run 32 memory) =
      (Op.increment fields.inTiles).run 32 (meetingCounters fields tileCount memory) := by
  funext address
  by_cases same : address = fields.inTiles
  · subst same
    have less : min (memory fields.inTiles) tileCount = memory fields.inTiles :=
      Nat.min_eq_left some.le
    simp only [meetingCounters, if_pos, Op.run, Function.update_self, less, Word.add_eq fits]
    omega
  · simp [meetingCounters, Op.run, same]

/-- A tile that is about to be counted in was not counted yet. -/
theorem InStep.entering_lt (apart : fields.Apart) (small : tileCount < 2 ^ 31)
    (inStep : InStep fields partitionCount w r) (here : w.phase tile = .enter false) :
    r % 4 = 0 ∧ w.memory fields.inTiles < tileCount := by
  have bounds := inStep.bounds tile
  rw [here, Phase.stage, if_neg (by decide)] at bounds
  have mod : r % 4 = 0 := by omega
  rcases partitionedRound_cases fields.inTiles fields.tiles fields.finalSync fields.cleared
    tileCount r with ⟨-, round⟩ | ⟨other, -⟩ | ⟨other, -⟩ | ⟨other, -⟩ <;> try omega
  have openIff := inStep.inRound.open_iff (partitioned_meets tileCount apart.cleans small)
  have start := (partitionedStart_execution fields.inTiles fields.tiles fields.finalSync
    fields.cleared tileCount (r / 4)).1
  rw [show 4 * (r / 4) = r by omega] at start
  have length : fields.cleared.length = 3 := rfl
  simp only [ready, round, start, Workers.meetings, length, List.length_nil, meetingCounters, if_pos]
    at openIff
  refine ⟨mod, Nat.lt_of_not_le fun all => ?_⟩
  have passed := openIff.mp (by omega) tile
  rw [here, Phase.stage, if_neg (by decide)] at passed
  omega

/-- A step of a tile is seen by the meetings as one step, or not at all. -/
theorem InStep.change (apart : fields.Apart) (few : tileCount + partitionCount ≤ 2 ^ 16)
    (inStep : InStep fields partitionCount w r)
    (step : w.next? fields partitionCount tile = some w') : Change fields w w' tile := by
  unfold Workers.next? at step
  cases here : w.phase tile with
  | enter again =>
    rw [here] at step
    cases step
    cases again with
    | false =>
      obtain ⟨-, fewer⟩ := inStep.entering_lt apart (by omega) here
      have early : (w.phase tile).stage < 13 := by simp [here, Phase.stage]
      refine .moves (.increment fields.inTiles) ?_ trivial (meetings_advance ?_ ?_)
      · rw [program_opAt w early, here]
        rfl
      · simp [here, Phase.stage]
      · exact meetingCounters_first fewer (by omega)
    | true =>
      obtain ⟨mod, -⟩ := @InStep.looping _ _ _ _ _ inStep tile (by simp [here, Phase.stage])
      obtain ⟨-, fits⟩ := (inStep.ledger.sharing mod).fits few
      refine .still (meetings_still ?_ (meetingCounters_again (inStep.all_entered apart mod) ?_))
      · simp [here, Phase.stage]
      · omega
  | entered again =>
    rw [here] at step
    dsimp only at step
    split at step
    next isOpen =>
      cases step
      cases again with
      | false =>
        have early : (w.phase tile).stage < 13 := by simp [here, Phase.stage]
        refine .moves (.wait fields.inTiles tileCount) ?_ ?_ (meetings_advance ?_ rfl)
        · rw [program_opAt w early, here]
          rfl
        · simpa [Op.Open, Workers.meetings, meetingCounters] using isOpen
        · simp [here, Phase.stage]
      | true => exact .still (meetings_still (by simp [here, Phase.stage]) rfl)
    next => cases step
  | fetch =>
    rw [here] at step
    cases step
    exact .still (meetings_still (by simp [here, Phase.stage]) (meetingCounters_partitions apart _))
  | hold partition =>
    rw [here] at step
    dsimp only at step
    split at step
    next =>
      cases step
      exact .still (meetings_still (by simp [here, Phase.stage]) rfl)
    next =>
      cases step
      have early : (w.phase tile).stage < 13 := by simp [here, Phase.stage]
      refine .moves .pass ?_ trivial (meetings_advance ?_ rfl)
      · rw [program_opAt w early, here]
        rfl
      · simp [here, Phase.stage]
  | back =>
    rw [here] at step
    cases step
    exact .still (meetings_still (by simp [here, Phase.stage]) rfl)
  | after stage =>
    rw [here] at step
    dsimp only at step
    obtain ⟨behind, last⟩ := inStep.staged tile stage here
    split at step
    next op found =>
      split at step
      next isOpen =>
        cases step
        obtain ⟨inside, tidy⟩ := program_tidy behind found
        refine .moves op ?_ ((tidy_open_iff apart tidy _).mpr isOpen)
          (meetings_advance ?_ (meetingCounters_tidy apart tidy _))
        · rw [program_opAt w (by rwa [here]), here]
          exact found
        · simp [here, Phase.stage]
      next => cases step
    next none =>
      cases step
      have end13 : stage = 13 := by
        have length : (opsOf (fields.rounds tileCount)).length = 13 := rfl
        have past := List.getElem?_eq_none_iff.mp none
        omega
      subst end13
      refine .still ?_
      -- The end of an execution is the start of the next one.
      have done : (fun other => 13 * Function.update w.execution tile (w.execution tile + 1) other +
          (Function.update w.phase tile (.enter false) other).stage) =
            (w.meetings fields).done := by
        funext other
        by_cases same : other = tile
        · subst same
          simp [Workers.meetings, here, Phase.stage, Nat.mul_add]
        · simp [Workers.meetings, same]
      simp only [Workers.meetings, Workers.move] at done ⊢
      rw [done]

end Steps

end ComputeRuntime.WalkerPartition
