import ComputeRuntime.Library.Transition
import ComputeRuntime.Library.Word
import Mathlib.Data.Fintype.Card
import Mathlib.Data.Finset.Max
import Mathlib.Algebra.BigOperators.Group.Finset.Basic
import Mathlib.Algebra.Order.BigOperators.Group.Finset

/-! Parties that run one program side by side and meet at shared counters.

A party that comes to a meeting counts itself and waits until the counter says that all have come.
Between two meetings the counters of others may be cleared for the next time. The program repeats, so
that a party may already be in the next repetition while another one has not yet left the last
meeting. -/
namespace Lockstep

open Transition

universe u v

/-- What one party does to the counters. -/
inductive Op (κ : Type v) where
  | pass
  | clear (counter : κ)
  | increment (counter : κ)
  | wait (counter : κ) (target : ℕ)

/-- How many operations each party has done, and the counters. -/
structure State (ι : Type u) (κ : Type v) where
  done : ι → ℕ
  counters : κ → ℕ

section Machine

variable {ι : Type u} {κ : Type v} [DecidableEq ι] [DecidableEq κ]

/-- The operation after `n` others of a program that repeats. -/
def opAt (program : List (Op κ)) (n : ℕ) : Option (Op κ) := program[n % program.length]?

def Op.Open (counters : κ → ℕ) : Op κ → Prop
  | .wait counter target => target ≤ counters counter
  | _ => True

def Op.run (width : ℕ) (counters : κ → ℕ) : Op κ → κ → ℕ
  | .clear counter => Function.update counters counter 0
  | .increment counter =>
    Function.update counters counter (Word.add width (counters counter) 1)
  | _ => counters

def State.advance (width : ℕ) (s : State ι κ) (party : ι) (op : Op κ) : State ι κ where
  done := Function.update s.done party (s.done party + 1)
  counters := op.run width s.counters

/-- The parties take their steps in any order; a wait is only passed when it is open. -/
def system (width : ℕ) (program : List (Op κ)) : System (State ι κ) ι where
  init := fun s => s = ⟨fun _ => 0, fun _ => 0⟩
  step := fun s party t => ∃ op, opAt program (s.done party) = some op ∧ op.Open s.counters ∧
    t = s.advance width party op

instance (counters : κ → ℕ) : DecidablePred (Op.Open counters)
  | .pass => .isTrue trivial
  | .clear _ => .isTrue trivial
  | .increment _ => .isTrue trivial
  | .wait counter target => inferInstanceAs (Decidable (target ≤ counters counter))

/-- The state after the step of a party that can take one. -/
def State.advance? (width : ℕ) (program : List (Op κ)) (s : State ι κ) (party : ι) :
    Option (State ι κ) :=
  (opAt program (s.done party)).bind fun op =>
    if op.Open s.counters then some (s.advance width party op) else none

theorem system_step_iff {width : ℕ} {program : List (Op κ)} {s t : State ι κ} {party : ι} :
    (system width program).step s party t ↔ s.advance? width program party = some t := by
  rw [State.advance?, Option.bind_eq_some_iff]
  refine exists_congr fun op => and_congr_right fun _ => ?_
  split
  next isOpen => simp [isOpen, eq_comm]
  next isClosed => simp [isClosed]

/-- A party that clears a counter does so while no other waits on it. -/
def Considerate (program : List (Op κ)) (s : State ι κ) (party : ι) : Prop :=
  ∀ counter, opAt program (s.done party) = some (.clear counter) →
    ∀ other target, opAt program (s.done other) ≠ some (.wait counter target)

end Machine

/-! ### Programs that consist of rounds -/

/-- A round: counters are cleared, or something is done that no counter shows, and then all parties
meet. -/
structure Round (κ : Type v) where
  body : List (Option κ)
  counter : κ
  target : ℕ

section Rounds

variable {κ : Type v} [DecidableEq κ]

def bodyOp : Option κ → Op κ
  | none => .pass
  | some counter => .clear counter

def Round.ops (round : Round κ) : List (Op κ) :=
  round.body.map bodyOp ++ [.increment round.counter, .wait round.counter round.target]

def opsOf (rounds : List (Round κ)) : List (Op κ) := rounds.flatMap Round.ops

/-- The rounds of a program that repeats, one after the other. -/
structure Unrolled (program : List (Op κ)) (round : ℕ → Round κ) (start : ℕ → ℕ) : Prop where
  first : start 0 = 0
  next : ∀ r, start (r + 1) = start r + ((round r).body.length + 2)
  body : ∀ r j counter, (round r).body[j]? = some counter →
    opAt program (start r + j) = some (bodyOp counter)
  meets : ∀ r, opAt program (start r + (round r).body.length) =
    some (.increment (round r).counter)
  waits : ∀ r, opAt program (start r + ((round r).body.length + 1)) =
    some (.wait (round r).counter (round r).target)

/-- What the rounds before a round leave in a counter. -/
def before (parties : ℕ) (round : ℕ → Round κ) : ℕ → κ → ℕ
  | 0, _ => 0
  | r + 1, counter =>
    (if some counter ∈ (round r).body then 0 else before parties round r counter) +
      if counter = (round r).counter then parties else 0

/-- Every meeting waits for all parties, and no round clears the counter that it meets at. -/
structure Meets (parties width : ℕ) (round : ℕ → Round κ) : Prop where
  target : ∀ r, (round r).target = before parties round r (round r).counter + parties
  fits : ∀ r, (round r).target < 2 ^ width
  kept : ∀ r, some (round r).counter ∉ (round r).body

/-! ### Programs that repeat -/

variable (first : Round κ) (rest : List (Round κ))

def roundAt (r : ℕ) : Round κ :=
  (first :: rest).get ⟨r % (rest.length + 1), Nat.mod_lt _ (Nat.succ_pos _)⟩

def startAt : ℕ → ℕ
  | 0 => 0
  | r + 1 => startAt r + ((roundAt first rest r).body.length + 2)

/-- The operations of the first rounds of a program. -/
def offset (rounds : List (Round κ)) (s : ℕ) : ℕ := (opsOf (rounds.take s)).length

omit [DecidableEq κ] in
theorem ops_length (round : Round κ) : round.ops.length = round.body.length + 2 := by
  simp [Round.ops]

omit [DecidableEq κ] in
theorem offset_succ {rounds : List (Round κ)} {s : ℕ} (inside : s < rounds.length) :
    offset rounds (s + 1) = offset rounds s + ((rounds.get ⟨s, inside⟩).body.length + 2) := by
  rw [offset, List.take_add_one, List.getElem?_eq_getElem inside, Option.toList_some, opsOf,
    List.flatMap_append, List.length_append, List.flatMap_singleton, ops_length]
  rfl

omit [DecidableEq κ] in
/-- The operations split at the start of a round. -/
theorem opsOf_split {rounds : List (Round κ)} {s : ℕ} (inside : s < rounds.length) :
    opsOf rounds = opsOf (rounds.take s) ++
      ((rounds.get ⟨s, inside⟩).ops ++ opsOf (rounds.drop (s + 1))) := by
  have split : rounds = rounds.take s ++ rounds.get ⟨s, inside⟩ :: rounds.drop (s + 1) := by
    rw [List.get_eq_getElem, List.cons_getElem_drop_succ, List.take_append_drop]
  conv_lhs => rw [split]
  simp only [opsOf, List.flatMap_append, List.flatMap_cons]

omit [DecidableEq κ] in
theorem roundAt_of_mod {r k : ℕ} (inside : k < rest.length + 1) (mod : r % (rest.length + 1) = k) :
    roundAt first rest r = (first :: rest).get ⟨k, inside⟩ := by
  subst mod
  rfl

omit [DecidableEq κ] in
theorem startAt_add (k : ℕ) {s : ℕ} (inside : s ≤ rest.length + 1) :
    startAt first rest ((rest.length + 1) * k + s) =
      startAt first rest ((rest.length + 1) * k) + offset (first :: rest) s := by
  induction s with
  | zero => simp [offset, opsOf]
  | succ s ih =>
    have mod : ((rest.length + 1) * k + s) % (rest.length + 1) = s := by
      rw [Nat.mul_add_mod, Nat.mod_eq_of_lt inside]
    rw [← Nat.add_assoc, startAt, ih (Nat.le_of_succ_le inside),
      roundAt_of_mod first rest inside mod, offset_succ inside, Nat.add_assoc]

omit [DecidableEq κ] in
/-- Where the program starts again. -/
theorem startAt_mul (k : ℕ) : startAt first rest ((rest.length + 1) * k) =
    (opsOf (first :: rest)).length * k := by
  induction k with
  | zero => rfl
  | succ k ih =>
    rw [Nat.mul_succ, startAt_add first rest k (Nat.le_refl _), ih, Nat.mul_succ, offset,
      ← List.length_cons, List.take_length]

omit [DecidableEq κ] in
theorem startAt_mod (r : ℕ) : startAt first rest r % (opsOf (first :: rest)).length =
    offset (first :: rest) (r % (rest.length + 1)) := by
  induction r with
  | zero => simp [startAt, offset, opsOf]
  | succ r ih =>
    have inside : r % (rest.length + 1) < (first :: rest).length := Nat.mod_lt _ (Nat.succ_pos _)
    have step := offset_succ inside
    have length := congrArg List.length (opsOf_split inside)
    rw [List.length_append, List.length_append, ops_length, ← offset] at length
    rw [startAt, roundAt, ← Nat.mod_add_mod, ih, ← step, ← Nat.mod_add_mod r]
    by_cases last : r % (rest.length + 1) + 1 = rest.length + 1
    · rw [last, Nat.mod_self, offset, ← List.length_cons, List.take_length, Nat.mod_self]
      rfl
    · have later : r % (rest.length + 1) + 1 < (first :: rest).length :=
        Nat.lt_of_le_of_ne inside last
      have more := congrArg List.length (opsOf_split later)
      rw [List.length_append, List.length_append, ops_length, ← offset] at more
      have sameRound : (r % (rest.length + 1) + 1) % (rest.length + 1) =
          r % (rest.length + 1) + 1 := Nat.mod_eq_of_lt later
      rw [sameRound, Nat.mod_eq_of_lt (by omega)]

omit [DecidableEq κ] in
theorem opAt_startAt (r : ℕ) {j : ℕ} (inside : j < (roundAt first rest r).ops.length) :
    opAt (opsOf (first :: rest)) (startAt first rest r + j) = (roundAt first rest r).ops[j]? := by
  have present : r % (rest.length + 1) < (first :: rest).length := Nat.mod_lt _ (Nat.succ_pos _)
  have split := opsOf_split present
  have length := congrArg List.length split
  rw [List.length_append, List.length_append, ← offset] at length
  rw [roundAt] at inside ⊢
  rw [opAt, ← Nat.mod_add_mod, startAt_mod, Nat.mod_eq_of_lt (by omega), split, offset,
    List.getElem?_append_right (Nat.le_add_right _ _), Nat.add_sub_cancel_left,
    List.getElem?_append_left inside]

omit [DecidableEq κ] in
/-- A program that repeats is a sequence of rounds. -/
theorem unrolled_roundAt : Unrolled (opsOf (first :: rest)) (roundAt first rest)
    (startAt first rest) where
  first := rfl
  next _ := rfl
  body r j counter found := by
    have inside : j < (roundAt first rest r).body.length := (List.getElem?_eq_some_iff.mp found).1
    rw [opAt_startAt first rest r (by rw [ops_length]; omega), Round.ops,
      List.getElem?_append_left (by simpa using inside), List.getElem?_map, found, Option.map_some]
  meets r := by
    rw [opAt_startAt first rest r (by rw [ops_length]; omega), Round.ops,
      List.getElem?_append_right (by simp)]
    simp
  waits r := by
    rw [opAt_startAt first rest r (by rw [ops_length]; omega), Round.ops,
      List.getElem?_append_right (by simp)]
    simp

end Rounds

/-! ### All parties in one round -/

section Runs

set_option linter.unusedSectionVars false

variable {ι : Type u} {κ : Type v} [Fintype ι] [DecidableEq ι] [DecidableEq κ]
  {width : ℕ} {program : List (Op κ)} {round : ℕ → Round κ} {start : ℕ → ℕ} {s t : State ι κ}
  {r : ℕ}

/-- The operations before the one that counts a party in. -/
def ready (round : ℕ → Round κ) (start : ℕ → ℕ) (r : ℕ) : ℕ := start r + (round r).body.length

/-- How many parties have been counted in. -/
def arrived (round : ℕ → Round κ) (start : ℕ → ℕ) (r : ℕ) (s : State ι κ) : ℕ :=
  (Finset.univ.filter fun party => ready round start r < s.done party).card

/-- A party has cleared the counter in this round. -/
def Cleared (round : ℕ → Round κ) (start : ℕ → ℕ) (r : ℕ) (s : State ι κ) (counter : κ) : Prop :=
  ∃ j party, (round r).body[j]? = some (some counter) ∧ start r + j < s.done party

/-- All parties are in a round, from the wait that ends the one before it to its own. -/
structure InRound (round : ℕ → Round κ) (start : ℕ → ℕ) (r : ℕ) (s : State ι κ) : Prop where
  low : ∀ party, start r ≤ s.done party + 1
  high : ∀ party, s.done party ≤ ready round start r + 1
  cleared : ∀ counter, Cleared round start r s counter → s.counters counter =
    if counter = (round r).counter then arrived round start r s else 0
  kept : ∀ counter, ¬Cleared round start r s counter → s.counters counter =
    before (Fintype.card ι) round r counter +
      if counter = (round r).counter then arrived round start r s else 0

/-- No party has cleared the counter that another one still waits on. -/
def Patient (round : ℕ → Round κ) (start : ℕ → ℕ) (r : ℕ) (s : State ι κ) : Prop :=
  ∀ q party, r = q + 1 → s.done party + 1 = start r → ¬Cleared round start r s (round q).counter

theorem arrived_le (s : State ι κ) : arrived round start r s ≤ Fintype.card ι :=
  Finset.card_le_univ _

/-- All parties were counted in when their number says so. -/
theorem card_le_arrived_iff :
    Fintype.card ι ≤ arrived round start r s ↔ ∀ party, ready round start r < s.done party := by
  constructor
  · intro all party
    have full : (Finset.univ.filter fun other => ready round start r < s.done other) =
        Finset.univ := (Finset.card_eq_iff_eq_univ _).mp (Nat.le_antisymm (arrived_le s) all)
    have member := Finset.mem_univ party
    rw [← full] at member
    exact (Finset.mem_filter.mp member).2
  · intro all
    have full : (Finset.univ.filter fun party => ready round start r < s.done party) =
        Finset.univ := Finset.filter_true_of_mem fun party _ => all party
    rw [arrived, full, Finset.card_univ]

section Step

variable {party : ι} {op : Op κ}

theorem done_advance (s : State ι κ) (other : ι) : (s.advance width party op).done other =
    if other = party then s.done party + 1 else s.done other :=
  Function.update_apply ..

/-- A step that is not the one that counts a party in does not change how many were. -/
theorem arrived_advance (elsewhere : s.done party ≠ ready round start r) :
    arrived round start r (s.advance width party op) = arrived round start r s := by
  refine congrArg Finset.card (Finset.filter_congr fun other _ => ?_)
  rw [done_advance]
  split
  next same =>
    subst same
    omega
  next => exact Iff.rfl

theorem arrived_advance_ready (here : s.done party = ready round start r) :
    arrived round start r (s.advance width party op) = arrived round start r s + 1 := by
  have outside : party ∉ Finset.univ.filter fun other => ready round start r < s.done other := by
    simp [here]
  have grown : (Finset.univ.filter fun other =>
        ready round start r < (s.advance width party op).done other) =
      insert party (Finset.univ.filter fun other => ready round start r < s.done other) := by
    ext other
    rw [Finset.mem_filter, Finset.mem_insert, Finset.mem_filter, done_advance]
    by_cases same : other = party
    · simp [same, here]
    · simp [same]
  rw [arrived, grown, Finset.card_insert_of_notMem outside, arrived]

/-- A step outside of the body clears nothing. -/
theorem cleared_advance {counter : κ}
    (elsewhere : ∀ j < (round r).body.length, s.done party ≠ start r + j) :
    Cleared round start r (s.advance width party op) counter ↔ Cleared round start r s counter := by
  constructor
  · rintro ⟨j, other, found, past⟩
    have inside : j < (round r).body.length := (List.getElem?_eq_some_iff.mp found).1
    refine ⟨j, other, found, ?_⟩
    rw [done_advance] at past
    split at past
    next same =>
      subst same
      have here := elsewhere j inside
      omega
    next => exact past
  · rintro ⟨j, other, found, past⟩
    refine ⟨j, other, found, ?_⟩
    rw [done_advance]
    split
    next same =>
      subst same
      omega
    next => exact past

/-- A step of the body clears what it says. -/
theorem cleared_advance_body {j : ℕ} {cleared : Option κ} {counter : κ}
    (found : (round r).body[j]? = some cleared) (here : s.done party = start r + j) :
    Cleared round start r (s.advance width party op) counter ↔
      Cleared round start r s counter ∨ cleared = some counter := by
  constructor
  · rintro ⟨k, other, held, past⟩
    rw [done_advance] at past
    split at past
    next same =>
      subst same
      by_cases last : k = j
      · subst last
        exact Or.inr (Option.some.inj (found.symm.trans held))
      · exact Or.inl ⟨k, other, held, by omega⟩
    next => exact Or.inl ⟨k, other, held, past⟩
  · rintro (⟨k, other, held, past⟩ | rfl)
    · refine ⟨k, other, held, ?_⟩
      rw [done_advance]
      split
      next same =>
        subst same
        omega
      next => exact past
    · refine ⟨j, party, found, ?_⟩
      rw [done_advance, if_pos rfl]
      omega

end Step

/-- Where a party of a round is. -/
theorem InRound.position (inRound : InRound round start r s) (party : ι) :
    s.done party + 1 = start r ∨
      (∃ j < (round r).body.length, s.done party = start r + j) ∨
      s.done party = ready round start r ∨ s.done party = ready round start r + 1 := by
  have low := inRound.low party
  have high := inRound.high party
  rw [ready] at *
  by_cases early : s.done party + 1 = start r
  · exact Or.inl early
  · by_cases inside : s.done party < start r + (round r).body.length
    · exact Or.inr (Or.inl ⟨s.done party - start r, by omega, by omega⟩)
    · omega

theorem InRound.bounds_advance (inRound : InRound round start r s) {party : ι} {op : Op κ}
    (room : s.done party ≤ ready round start r) (other : ι) :
    start r ≤ (s.advance width party op).done other + 1 ∧
      (s.advance width party op).done other ≤ ready round start r + 1 := by
  have low := inRound.low other
  have high := inRound.high other
  rw [done_advance]
  split
  next same =>
    subst same
    omega
  next => exact ⟨low, high⟩

/-- A step that no counter shows. -/
theorem InRound.hidden (inRound : InRound round start r s) {party : ι} {op : Op κ}
    (room : s.done party ≤ ready round start r)
    (same : op.run width s.counters = s.counters)
    (arrivals : arrived round start r (s.advance width party op) = arrived round start r s)
    (clears : ∀ counter, Cleared round start r (s.advance width party op) counter ↔
      Cleared round start r s counter) :
    InRound round start r (s.advance width party op) where
  low other := (inRound.bounds_advance room other).1
  high other := (inRound.bounds_advance room other).2
  cleared counter cleared := by
    rw [arrivals, State.advance, same]
    exact inRound.cleared counter ((clears counter).mp cleared)
  kept counter kept := by
    rw [arrivals, State.advance, same]
    exact inRound.kept counter fun cleared => kept ((clears counter).mpr cleared)

/-- A party clears a counter, or does something that no counter shows. -/
theorem InRound.body (inRound : InRound round start r s)
    (kept : some (round r).counter ∉ (round r).body) {party : ι} {j : ℕ} {cleared : Option κ}
    (found : (round r).body[j]? = some cleared) (here : s.done party = start r + j) :
    InRound round start r (s.advance width party (bodyOp cleared)) := by
  have inside : j < (round r).body.length := (List.getElem?_eq_some_iff.mp found).1
  have room : s.done party ≤ ready round start r := by
    rw [ready]
    omega
  have arrivals : arrived round start r (s.advance width party (bodyOp cleared)) =
      arrived round start r s := arrived_advance (by rw [ready]; omega)
  have clears : ∀ counter, Cleared round start r (s.advance width party (bodyOp cleared)) counter ↔
      Cleared round start r s counter ∨ cleared = some counter := fun counter =>
    cleared_advance_body found here
  cases cleared with
  | none => exact inRound.hidden room rfl arrivals fun counter => by simpa using clears counter
  | some own =>
    have member : some own ∈ (round r).body := List.mem_of_getElem? found
    have other : own ≠ (round r).counter := fun same => kept (same ▸ member)
    refine ⟨fun k => (inRound.bounds_advance room k).1, fun k => (inRound.bounds_advance room k).2,
      fun counter now => ?_, fun counter never => ?_⟩
    · rw [arrivals]
      by_cases same : counter = own
      · subst same
        rw [if_neg other]
        exact Function.update_self ..
      · have old : Cleared round start r s counter :=
          ((clears counter).mp now).resolve_right fun equal => same (Option.some.inj equal).symm
        exact (Function.update_of_ne same ..).trans (inRound.cleared counter old)
    · rw [arrivals]
      have same : counter ≠ own := fun equal =>
        never ((clears counter).mpr (Or.inr (congrArg some equal.symm)))
      exact (Function.update_of_ne same ..).trans
        (inRound.kept counter fun cleared => never ((clears counter).mpr (Or.inl cleared)))

theorem not_cleared_counter (kept : some (round r).counter ∉ (round r).body) :
    ¬Cleared round start r s (round r).counter := by
  rintro ⟨j, party, found, past⟩
  exact kept (List.mem_of_getElem? found)

/-- What the counter of the meeting says. -/
theorem InRound.counter (inRound : InRound round start r s)
    (kept : some (round r).counter ∉ (round r).body) : s.counters (round r).counter =
      before (Fintype.card ι) round r (round r).counter + arrived round start r s := by
  rw [inRound.kept _ (not_cleared_counter kept), if_pos rfl]

/-- A party is counted in. -/
theorem InRound.meet (meets : Meets (Fintype.card ι) width round)
    (inRound : InRound round start r s) {party : ι}
    (here : s.done party = ready round start r) :
    InRound round start r (s.advance width party (.increment (round r).counter)) := by
  have arrivals : arrived round start r (s.advance width party (.increment (round r).counter)) =
      arrived round start r s + 1 := arrived_advance_ready here
  have clears : ∀ counter,
      Cleared round start r (s.advance width party (.increment (round r).counter)) counter ↔
        Cleared round start r s counter := fun counter =>
    cleared_advance fun j inside same => by rw [ready] at here; omega
  have count := inRound.counter (meets.kept r)
  -- The counter stays below the target, which fits its width.
  have room : s.counters (round r).counter + 1 < 2 ^ width := by
    have fits := meets.fits r
    have target := meets.target r
    have most : arrived round start r (s.advance width party (.increment (round r).counter)) ≤
        Fintype.card ι := arrived_le _
    omega
  have counted : (s.advance width party (.increment (round r).counter)).counters
      (round r).counter = s.counters (round r).counter + 1 :=
    (Function.update_self ..).trans (Word.add_eq room)
  refine ⟨fun k => (inRound.bounds_advance here.le k).1,
    fun k => (inRound.bounds_advance here.le k).2, fun counter now => ?_, fun counter never => ?_⟩
  · have old := (clears counter).mp now
    have same : counter ≠ (round r).counter := fun equal =>
      not_cleared_counter (meets.kept r) (equal ▸ old)
    have kept := inRound.cleared counter old
    rw [if_neg same] at kept ⊢
    exact (Function.update_of_ne same ..).trans kept
  · rw [arrivals]
    by_cases same : counter = (round r).counter
    · subst same
      rw [if_pos rfl, counted, count, Nat.add_assoc]
    · have kept := inRound.kept counter fun cleared => never ((clears counter).mpr cleared)
      rw [if_neg same] at kept ⊢
      exact (Function.update_of_ne same ..).trans kept

/-- The meeting is open once all parties have come to it. -/
theorem InRound.open_iff (meets : Meets (Fintype.card ι) width round)
    (inRound : InRound round start r s) :
    (round r).target ≤ s.counters (round r).counter ↔
      ∀ party, ready round start r < s.done party := by
  rw [inRound.counter (meets.kept r), meets.target r, Nat.add_le_add_iff_left,
    card_le_arrived_iff]

/-- A party leaves the meeting, to which all have come. -/
theorem InRound.leave (unrolled : Unrolled program round start)
    (meets : Meets (Fintype.card ι) width round) (inRound : InRound round start r s) {party : ι}
    (here : s.done party = ready round start r + 1)
    (isOpen : (round r).target ≤ s.counters (round r).counter) :
    InRound round start (r + 1)
      (s.advance width party (.wait (round r).counter (round r).target)) := by
  have all := (inRound.open_iff meets).mp isOpen
  have next := unrolled.next r
  have bounds : ∀ other, ready round start r + 1 ≤
        (s.advance width party (.wait (round r).counter (round r).target)).done other ∧
      (s.advance width party (.wait (round r).counter (round r).target)).done other ≤
        start (r + 1) := by
    intro other
    have low := all other
    have high := inRound.high other
    rw [ready] at *
    rw [done_advance]
    split <;> omega
  have full : arrived round start r s = Fintype.card ι :=
    Nat.le_antisymm (arrived_le s) (card_le_arrived_iff.mpr all)
  have none : arrived round start (r + 1)
      (s.advance width party (.wait (round r).counter (round r).target)) = 0 := by
    refine Finset.card_eq_zero.mpr (Finset.filter_eq_empty_iff.mpr fun other _ => ?_)
    have high := (bounds other).2
    rw [ready]
    omega
  have fresh : ∀ counter, ¬Cleared round start (r + 1)
      (s.advance width party (.wait (round r).counter (round r).target)) counter := by
    rintro counter ⟨j, other, -, past⟩
    have high := (bounds other).2
    omega
  -- All parties have gone through the whole body.
  have done : ∀ counter, Cleared round start r s counter ↔ some counter ∈ (round r).body := by
    intro counter
    constructor
    · rintro ⟨j, other, found, -⟩
      exact List.mem_of_getElem? found
    · intro member
      obtain ⟨j, found⟩ := List.mem_iff_getElem?.mp member
      have inside : j < (round r).body.length := (List.getElem?_eq_some_iff.mp found).1
      refine ⟨j, party, found, ?_⟩
      rw [ready] at here
      omega
  refine ⟨fun other => ?_, fun other => ?_, fun counter now => absurd now (fresh counter),
    fun counter _ => ?_⟩
  · have low := (bounds other).1
    rw [ready] at low
    omega
  · have high := (bounds other).2
    rw [ready]
    omega
  · rw [none, ite_self, Nat.add_zero, before]
    change s.counters counter = _
    by_cases cleared : Cleared round start r s counter
    · rw [inRound.cleared counter cleared, if_pos ((done counter).mp cleared), full, Nat.zero_add]
    · rw [inRound.kept counter cleared,
        if_neg fun member => cleared ((done counter).mpr member), full]

/-- A party that has not yet left the meeting of the round before. -/
theorem Unrolled.op_early (unrolled : Unrolled program round start) {n : ℕ}
    (early : n + 1 = start r) : ∃ q, r = q + 1 ∧
      opAt program n = some (.wait (round q).counter (round q).target) := by
  cases r with
  | zero =>
    have first := unrolled.first
    omega
  | succ q =>
    have next := unrolled.next q
    have here : n = start q + ((round q).body.length + 1) := by omega
    exact ⟨q, rfl, here ▸ unrolled.waits q⟩

theorem Unrolled.op_last (unrolled : Unrolled program round start) {n : ℕ}
    (last : n = ready round start r + 1) :
    opAt program n = some (.wait (round r).counter (round r).target) := by
  have waits := unrolled.waits r
  rwa [← Nat.add_assoc, ← ready, ← last] at waits

/-- One step, by where its party is. -/
inductive StepOf (width : ℕ) (round : ℕ → Round κ) (start : ℕ → ℕ) (r : ℕ) (s : State ι κ)
    (party : ι) : State ι κ → Prop
  | early (q : ℕ) (next : r = q + 1) (here : s.done party + 1 = start r)
    (isOpen : (round q).target ≤ s.counters (round q).counter) :
    StepOf width round start r s party
      (s.advance width party (.wait (round q).counter (round q).target))
  | body (j : ℕ) (cleared : Option κ) (found : (round r).body[j]? = some cleared)
    (here : s.done party = start r + j) :
    StepOf width round start r s party (s.advance width party (bodyOp cleared))
  | meet (here : s.done party = ready round start r) :
    StepOf width round start r s party (s.advance width party (.increment (round r).counter))
  | leave (here : s.done party = ready round start r + 1)
    (isOpen : (round r).target ≤ s.counters (round r).counter) :
    StepOf width round start r s party
      (s.advance width party (.wait (round r).counter (round r).target))

theorem InRound.stepOf (unrolled : Unrolled program round start)
    (inRound : InRound round start r s) {party : ι}
    (step : (system width program).step s party t) : StepOf width round start r s party t := by
  obtain ⟨op, found, isOpen, rfl⟩ := step
  rcases inRound.position party with early | ⟨j, inside, here⟩ | here | last
  · obtain ⟨q, next, waits⟩ := unrolled.op_early early
    cases found.symm.trans waits
    exact .early q next early isOpen
  · have held := List.getElem?_eq_getElem inside
    have body := unrolled.body r j _ held
    rw [here] at found
    cases found.symm.trans body
    exact .body j _ held here
  · have counts := unrolled.meets r
    rw [here] at found
    cases found.symm.trans counts
    exact .meet here
  · cases found.symm.trans (unrolled.op_last last)
    exact .leave last isOpen

/-- A step stays in the round, or it is the first one out of a meeting to which all have come. -/
theorem InRound.stay_or_leave (unrolled : Unrolled program round start)
    (meets : Meets (Fintype.card ι) width round) (inRound : InRound round start r s) {party : ι}
    (step : (system width program).step s party t) :
    InRound round start r t ∨ (s.done party = ready round start r + 1 ∧
      (∀ other, ready round start r < s.done other) ∧ InRound round start (r + 1) t) := by
  cases inRound.stepOf unrolled step with
  | early q next here isOpen =>
    have above : start r ≤ ready round start r := Nat.le_add_right _ _
    refine Or.inl (inRound.hidden (by omega) rfl (arrived_advance (by omega)) fun counter => ?_)
    exact cleared_advance fun j inside same => by omega
  | body j cleared found here => exact Or.inl (inRound.body (meets.kept r) found here)
  | meet here => exact Or.inl (inRound.meet meets here)
  | leave here isOpen => exact Or.inr ⟨here, (inRound.open_iff meets).mp isOpen,
      inRound.leave unrolled meets here isOpen⟩

theorem inRound_start (unrolled : Unrolled program round start) :
    InRound round start 0 (⟨fun _ => 0, fun _ => 0⟩ : State ι κ) := by
  have first := unrolled.first
  have none : arrived round start 0 (⟨fun _ => 0, fun _ => 0⟩ : State ι κ) = 0 :=
    Finset.card_eq_zero.mpr (Finset.filter_eq_empty_iff.mpr fun _ _ => Nat.not_lt_zero _)
  refine ⟨fun _ => by omega, fun _ => Nat.zero_le _, fun counter now => ?_, fun counter _ => ?_⟩
  · obtain ⟨j, party, -, past⟩ := now
    exact absurd past (Nat.not_lt_zero _)
  · rw [none, ite_self, before]

/-- In every run all parties are in one round. -/
theorem reachable_inRound (unrolled : Unrolled program round start)
    (meets : Meets (Fintype.card ι) width round)
    (reachable : Reachable (system width program) s) : ∃ r, InRound round start r s := by
  induction reachable with
  | start initial =>
    subst initial
    exact ⟨0, inRound_start unrolled⟩
  | next _ step ih =>
    obtain ⟨r, inRound⟩ := ih
    rcases inRound.stay_or_leave unrolled meets step with now | ⟨-, -, now⟩
    · exact ⟨r, now⟩
    · exact ⟨r + 1, now⟩

theorem ready_lt_start (unrolled : Unrolled program round start) {q : ℕ} (later : q < r) :
    ready round start q + 2 ≤ start r := by
  induction r with
  | zero => omega
  | succ p ih =>
    have next := unrolled.next p
    rcases Nat.lt_succ_iff_lt_or_eq.mp later with before | rfl
    · have below := ih before
      omega
    · rw [ready]
      omega

/-- No party leaves a meeting to which not all have come. -/
theorem meets_before_leaving (unrolled : Unrolled program round start)
    (meets : Meets (Fintype.card ι) width round)
    (reachable : Reachable (system width program) s) (q : ℕ) (party other : ι)
    (left : ready round start q + 1 < s.done party) :
    ready round start q < s.done other := by
  obtain ⟨r, inRound⟩ := reachable_inRound unrolled meets reachable
  have later : q < r := by
    have high := inRound.high party
    by_contra notLater
    rcases Nat.lt_or_eq_of_le (Nat.le_of_not_lt notLater) with more | rfl
    · have below := ready_lt_start unrolled more
      have above : start q ≤ ready round start q := Nat.le_add_right _ _
      omega
    · omega
  have below := ready_lt_start unrolled later
  have low := inRound.low other
  omega

theorem start_lt_start (unrolled : Unrolled program round start) {q : ℕ} (later : q < r) :
    start q + 2 ≤ start r := by
  have below := ready_lt_start unrolled later
  rw [ready] at below
  omega

/-- When all parties are between two rounds, the counters are as the rounds so far leave them. -/
theorem counters_between [Nonempty ι] (unrolled : Unrolled program round start)
    (meets : Meets (Fintype.card ι) width round)
    (reachable : Reachable (system width program) s) (r : ℕ) (all : ∀ party, s.done party = start r)
    (counter : κ) : s.counters counter = before (Fintype.card ι) round r counter := by
  obtain ⟨q, inRound⟩ := reachable_inRound unrolled meets reachable
  obtain ⟨party⟩ := ‹Nonempty ι›
  have same : q = r := by
    have low := inRound.low party
    have high := inRound.high party
    rw [all] at low high
    rcases Nat.lt_trichotomy q r with less | equal | more
    · have below := ready_lt_start unrolled less
      omega
    · exact equal
    · have below := start_lt_start unrolled more
      omega
  subst same
  have none : arrived round start q s = 0 := by
    refine Finset.card_eq_zero.mpr (Finset.filter_eq_empty_iff.mpr fun other _ => ?_)
    rw [all other, ready]
    omega
  have kept : ¬Cleared round start q s counter := by
    rintro ⟨j, other, -, past⟩
    rw [all other] at past
    omega
  rw [inRound.kept counter kept, none, ite_self, Nat.add_zero]

/-! ### No party is left behind -/

/-- All parties are in one round, and none has spoilt the meeting before it. -/
def Together (round : ℕ → Round κ) (start : ℕ → ℕ) (s : State ι κ) : Prop :=
  ∃ r, InRound round start r s ∧ Patient round start r s

theorem Together.step (unrolled : Unrolled program round start)
    (meets : Meets (Fintype.card ι) width round) (together : Together round start s) {party : ι}
    (considerate : Considerate program s party)
    (step : (system width program).step s party t) : Together round start t := by
  obtain ⟨r, inRound, patient⟩ := together
  have steps := inRound.stepOf unrolled step
  cases steps with
  | early q next here isOpen =>
    have above : start r ≤ ready round start r := Nat.le_add_right _ _
    have clears : ∀ counter, Cleared round start r
          (s.advance width party (.wait (round q).counter (round q).target)) counter ↔
        Cleared round start r s counter := fun counter =>
      cleared_advance fun j inside same => by omega
    refine ⟨r, inRound.hidden (by omega) rfl (arrived_advance (by omega)) clears,
      fun p other before behind now => ?_⟩
    refine patient p other before ?_ ((clears _).mp now)
    rw [done_advance] at behind
    split at behind
    · omega
    · exact behind
  | body j cleared found here =>
    refine ⟨r, inRound.body (meets.kept r) found here, fun p other before behind now => ?_⟩
    rw [done_advance] at behind
    split at behind
    next => omega
    next =>
      rcases (cleared_advance_body found here).mp now with old | rfl
      · exact patient p other before behind old
      · -- The party clears a counter on which another one still waits.
        subst before
        obtain ⟨p', equal, waits⟩ := unrolled.op_early behind
        cases equal
        have clears := unrolled.body _ j _ found
        rw [← here] at clears
        exact considerate _ clears other _ waits
  | meet here =>
    have clears : ∀ counter,
        Cleared round start r (s.advance width party (.increment (round r).counter)) counter ↔
          Cleared round start r s counter := fun counter =>
      cleared_advance fun j inside same => by rw [ready] at here; omega
    refine ⟨r, inRound.meet meets here, fun p other before behind now => ?_⟩
    refine patient p other before ?_ ((clears _).mp now)
    rw [done_advance] at behind
    split at behind
    · rw [ready] at here
      omega
    · exact behind
  | leave here isOpen =>
    have next := inRound.leave unrolled meets here isOpen
    refine ⟨r + 1, next, ?_⟩
    rintro p other before behind ⟨j, third, -, past⟩
    have high := inRound.high third
    have step := unrolled.next r
    rw [ready] at high here
    rw [done_advance] at past
    split at past <;> omega

theorem Together.start_state (unrolled : Unrolled program round start)
    (meets : Meets (Fintype.card ι) width round)
    (initial : (system width program).init s) : Together round start s := by
  obtain ⟨r, inRound⟩ := reachable_inRound unrolled meets (.start initial)
  refine ⟨r, inRound, ?_⟩
  subst initial
  rintro p other before behind ⟨j, third, -, past⟩
  exact absurd past (Nat.not_lt_zero _)

theorem reachable_together (unrolled : Unrolled program round start)
    (meets : Meets (Fintype.card ι) width round)
    (reachable : Reachable ((system width program).restrict (Considerate program)) s) :
    Together round start s := by
  induction reachable with
  | start initial => exact .start_state unrolled meets initial
  | next _ step ih => exact ih.step unrolled meets step.1 step.2

/-- A party that waits may go on exactly when all have come. -/
theorem Together.open_iff (unrolled : Unrolled program round start)
    (meets : Meets (Fintype.card ι) width round) (together : Together round start s) {q : ℕ}
    {party : ι} (here : s.done party = ready round start q + 1) :
    (round q).target ≤ s.counters (round q).counter ↔
      ∀ other, ready round start q < s.done other := by
  obtain ⟨r, inRound, patient⟩ := together
  have low := inRound.low party
  have high := inRound.high party
  have now : q = r ∨ q + 1 = r := by
    rcases Nat.lt_trichotomy q r with less | equal | more
    · right
      by_contra notNext
      have first := ready_lt_start unrolled (q := q) (r := q + 1) (by omega)
      have second := ready_lt_start unrolled (q := q + 1) (r := r) (by omega)
      have above : start (q + 1) ≤ ready round start (q + 1) := Nat.le_add_right _ _
      omega
    · exact Or.inl equal
    · have below := ready_lt_start unrolled more
      have above : start q ≤ ready round start q := Nat.le_add_right _ _
      omega
  rcases now with rfl | rfl
  · exact inRound.open_iff meets
  · have step := unrolled.next q
    refine iff_of_true ?_ fun other => ?_
    · have uncleared := patient q party rfl (by rw [ready] at here; omega)
      have kept := inRound.kept _ uncleared
      have target := meets.target q
      rw [before, if_neg (meets.kept q), if_pos rfl] at kept
      omega
    · have low := inRound.low other
      rw [ready]
      omega

/-- A party that waits may go on exactly when all others are at least as far. -/
theorem Together.waits_iff (unrolled : Unrolled program round start)
    (meets : Meets (Fintype.card ι) width round) (together : Together round start s) {party : ι}
    {counter : κ} {target : ℕ}
    (waiting : opAt program (s.done party) = some (.wait counter target)) :
    target ≤ s.counters counter ↔ ∀ other, s.done party ≤ s.done other := by
  obtain ⟨r, inRound, patient⟩ := together
  have meeting : ∃ q, s.done party = ready round start q + 1 ∧
      Op.wait counter target = .wait (round q).counter (round q).target := by
    rcases inRound.position party with early | ⟨j, inside, here⟩ | here | last
    · obtain ⟨q, next, waits⟩ := unrolled.op_early early
      have step := unrolled.next q
      refine ⟨q, ?_, Option.some.inj (waiting.symm.trans waits)⟩
      subst next
      rw [ready]
      omega
    · have body := unrolled.body r j _ (List.getElem?_eq_getElem inside)
      rw [here] at waiting
      have same := Option.some.inj (waiting.symm.trans body)
      cases own : (round r).body[j] with
      | none =>
        rw [own] at same
        cases same
      | some cleared =>
        rw [own] at same
        cases same
    · have counts := unrolled.meets r
      rw [here] at waiting
      cases waiting.symm.trans counts
    · exact ⟨r, last, Option.some.inj (waiting.symm.trans (unrolled.op_last last))⟩
  obtain ⟨q, here, same⟩ := meeting
  cases same
  rw [here]
  exact Together.open_iff unrolled meets ⟨r, inRound, patient⟩ here

/-- A party of a round spoils no meeting that others wait at, unless its round clears the counter of
the meeting before and some are still there. -/
theorem InRound.considerate (unrolled : Unrolled program round start)
    (meets : Meets (Fintype.card ι) width round) (inRound : InRound round start r s) {party : ι}
    (calm : ∀ q other, r = q + 1 → s.done other + 1 = start r → s.done party + 1 ≠ start r →
      some (round q).counter ∉ (round r).body) : Considerate program s party := by
  intro counter clears other target waits
  -- Only in the body does a party clear a counter.
  have member : some counter ∈ (round r).body ∧ s.done party + 1 ≠ start r := by
    rcases inRound.position party with early | ⟨j, inside, here⟩ | here | last
    · obtain ⟨q, -, waiting⟩ := unrolled.op_early early
      cases clears.symm.trans waiting
    · have held := List.getElem?_eq_getElem inside
      have body := unrolled.body r j _ held
      rw [here] at clears
      have same := clears.symm.trans body
      refine ⟨?_, by omega⟩
      cases own : (round r).body[j] with
      | none =>
        rw [own] at same
        cases same
      | some cleared =>
        rw [own] at same held
        cases same
        exact List.mem_of_getElem? held
    · have counts := unrolled.meets r
      rw [here] at clears
      cases clears.symm.trans counts
    · cases clears.symm.trans (unrolled.op_last last)
  rcases inRound.position other with early | ⟨j, inside, here⟩ | here | last
  · obtain ⟨q, next, waiting⟩ := unrolled.op_early early
    cases waits.symm.trans waiting
    exact calm q other next early member.2 member.1
  · have body := unrolled.body r j _ (List.getElem?_eq_getElem inside)
    rw [here] at waits
    have same := waits.symm.trans body
    cases own : (round r).body[j] with
    | none =>
      rw [own] at same
      cases same
    | some cleared =>
      rw [own] at same
      cases same
  · have counts := unrolled.meets r
    rw [here] at waits
    cases waits.symm.trans counts
  · cases waits.symm.trans (unrolled.op_last last)
    exact meets.kept r member.1

/-- The party that is behind all others can go on. -/
theorem Together.slowest (unrolled : Unrolled program round start)
    (meets : Meets (Fintype.card ι) width round) (together : Together round start s) {party : ι}
    (least : ∀ other, s.done party ≤ s.done other) :
    Considerate program s party ∧ ∃ t, (system width program).step s party t := by
  obtain ⟨r, inRound, patient⟩ := together
  constructor
  · refine inRound.considerate unrolled meets fun q other next early notEarly => ?_
    have behind := least other
    have low := inRound.low party
    omega
  · rcases inRound.position party with early | ⟨j, inside, here⟩ | here | last
    · obtain ⟨q, next, waits⟩ := unrolled.op_early early
      have step := unrolled.next q
      have meeting : s.done party = ready round start q + 1 := by
        subst next
        rw [ready]
        omega
      have all : ∀ other, ready round start q < s.done other := fun other => by
        have behind := least other
        omega
      have isOpen := (Together.open_iff unrolled meets ⟨r, inRound, patient⟩ meeting).mpr all
      exact ⟨_, _, waits, isOpen, rfl⟩
    · have body := unrolled.body r j _ (List.getElem?_eq_getElem inside)
      rw [← here] at body
      refine ⟨_, _, body, ?_, rfl⟩
      cases (round r).body[j] <;> trivial
    · have counts := unrolled.meets r
      rw [← ready, ← here] at counts
      exact ⟨_, _, counts, trivial, rfl⟩
    · have isOpen := (inRound.open_iff meets).mpr fun other => by
        have behind := least other
        omega
      exact ⟨_, _, unrolled.op_last last, isOpen, rfl⟩

/-- A run of steps that spoil no meeting. -/
def Continues (width : ℕ) (program : List (Op κ)) : State ι κ → State ι κ → Prop :=
  Relation.ReflTransGen fun s t => ∃ party, Considerate program s party ∧
    (system width program).step s party t

theorem step_done {party : ι} (step : (system width program).step s party t) :
    t.done = Function.update s.done party (s.done party + 1) := by
  obtain ⟨op, -, -, rfl⟩ := step
  rfl

/-- All parties come as far as one likes. -/
theorem Together.continues (unrolled : Unrolled program round start)
    (meets : Meets (Fintype.card ι) width round) (together : Together round start s) (n : ℕ) :
    ∃ t, Continues width program s t ∧ ∀ party, n ≤ t.done party := by
  induction measure : ∑ party, (n - s.done party) using Nat.strong_induction_on generalizing s with
  | _ m ih =>
    by_cases all : ∀ party, n ≤ s.done party
    · exact ⟨s, .refl, all⟩
    · obtain ⟨late, behind⟩ := not_forall.mp all
      obtain ⟨party, -, least⟩ := Finset.exists_min_image Finset.univ s.done ⟨late, Finset.mem_univ _⟩
      have least : ∀ other, s.done party ≤ s.done other := fun other =>
        least other (Finset.mem_univ _)
      obtain ⟨considerate, t, step⟩ := together.slowest unrolled meets least
      have done := step_done step
      have early := least late
      have less : ∑ other, (n - t.done other) < m := by
        rw [← measure]
        refine Finset.sum_lt_sum (fun other _ => ?_) ⟨party, Finset.mem_univ _, ?_⟩
        · rw [done, Function.update_apply]
          split
          next same =>
            subst same
            omega
          next => exact Nat.le_refl _
        · rw [done, Function.update_self]
          omega
      obtain ⟨last, continues, far⟩ :=
        ih _ less (together.step unrolled meets considerate step) rfl
      exact ⟨last, .head ⟨party, considerate, step⟩ continues, far⟩

section Calm

variable (calm : ∀ q, some (round q).counter ∉ (round (q + 1)).body)
include calm

/-- Where no round clears the counter of the meeting before it, no step spoils a meeting. -/
theorem considerate_of_calm (unrolled : Unrolled program round start)
    (meets : Meets (Fintype.card ι) width round)
    (reachable : Reachable (system width program) s) (party : ι) : Considerate program s party := by
  obtain ⟨r, inRound⟩ := reachable_inRound unrolled meets reachable
  refine inRound.considerate unrolled meets fun q other next _ _ => ?_
  subst next
  exact calm q

theorem reachable_considerate (unrolled : Unrolled program round start)
    (meets : Meets (Fintype.card ι) width round)
    (reachable : Reachable (system width program) s) :
    Reachable ((system width program).restrict (Considerate program)) s := by
  induction reachable with
  | start initial => exact .start initial
  | next before step ih => exact .next ih ⟨considerate_of_calm calm unrolled meets before _, step⟩

end Calm

end Runs

end Lockstep
