import ComputeRuntime.DirectSubmission.Barriers
import Mathlib.Data.List.Induction

/-! How the operations share the log: which semaphores wait for which unblocks. -/
namespace ComputeRuntime.DirectSubmission

/-- A semaphore with the number of its operation and the value it waits for. -/
def waitOf : Entry → Option (Nat × Nat)
  | ⟨operation, .write written⟩ => written.command.waitsFor.map fun value => (operation, value)
  | _ => none

def waits (log : List Entry) : List (Nat × Nat) := log.filterMap waitOf

def unblockOf : Entry → Option (Nat × Nat)
  | ⟨operation, .unblock value⟩ => some (operation, value)
  | _ => none

/-- The values that let the GPU go on, each with the number of the operation that stored it. -/
def unblocks (log : List Entry) : List (Nat × Nat) := log.filterMap unblockOf

/-- The command at a position and the operation that wrote it. -/
def WrittenBy (log : List Entry) (position operation : Nat) (written : Written) : Prop :=
  ∃ before, before ++ [⟨operation, .write written⟩] <+: log ∧ (writes before).length = position

/-- The CPU has let the GPU go on, or has started it, after it wrote the command. -/
def CompletelyWritten (log : List Entry) (position : Nat) : Prop :=
  ∃ before entry, before ++ [entry] <+: log ∧ writtenOf entry = none ∧
    position < (writes before).length

section Log

variable {log new : List Entry} {operation : Nat}

@[simp] theorem writes_nil : writes [] = [] := rfl

@[simp] theorem writes_append : writes (log ++ new) = writes log ++ writes new := by
  simp [writes]

@[simp] theorem waits_append : waits (log ++ new) = waits log ++ waits new := by
  simp [waits]

@[simp] theorem unblocks_append : unblocks (log ++ new) = unblocks log ++ unblocks new := by
  simp [unblocks]

@[simp] theorem submitted_append : submitted (log ++ new) = submitted log ++ submitted new := by
  simp [submitted]

@[simp] theorem writes_write (written : Written) :
    writes [⟨operation, .write written⟩] = [written] := rfl

@[simp] theorem writes_unblock (value : Nat) : writes [⟨operation, .unblock value⟩] = [] := rfl

@[simp] theorem writes_submit (position : Nat) : writes [⟨operation, .submit position⟩] = [] := rfl

@[simp] theorem writes_map (written : List Written) :
    writes (written.map fun w => ⟨operation, .write w⟩) = written := by
  induction written with
  | nil => rfl
  | cons w rest ih => exact congrArg (w :: ·) ih

@[simp] theorem submitted_map (written : List Written) :
    submitted (written.map fun w => ⟨operation, .write w⟩) = [] := by
  induction written with
  | nil => rfl
  | cons w rest ih => exact ih

@[simp] theorem waits_unblock (value : Nat) : waits [⟨operation, .unblock value⟩] = [] := rfl

@[simp] theorem waits_submit (position : Nat) : waits [⟨operation, .submit position⟩] = [] := rfl

@[simp] theorem waits_semaphore (ring offset size value limit : Nat) :
    waits [⟨operation, .write ⟨ring, offset, size, .semaphoreWait value, limit⟩⟩] =
      [(operation, value)] := rfl

theorem waits_plain {written : Written} (plain : written.command.Plain) :
    waits [⟨operation, .write written⟩] = [] := by
  simp [waits, waitOf, plain.waitsFor]

@[simp] theorem unblocks_write (written : Written) :
    unblocks [⟨operation, .write written⟩] = [] := rfl

@[simp] theorem unblocks_submit (position : Nat) :
    unblocks [⟨operation, .submit position⟩] = [] := rfl

@[simp] theorem unblocks_unblock (value : Nat) :
    unblocks [⟨operation, .unblock value⟩] = [(operation, value)] := rfl

@[simp] theorem submitted_write (written : Written) :
    submitted [⟨operation, .write written⟩] = [] := rfl

@[simp] theorem submitted_unblock (value : Nat) :
    submitted [⟨operation, .unblock value⟩] = [] := rfl

@[simp] theorem submitted_submit (position : Nat) :
    submitted [⟨operation, .submit position⟩] = [position] := rfl

@[simp] theorem queueWorkCount_write (written : Written) :
    queueWorkCount (log ++ [⟨operation, .write written⟩]) = queueWorkCount log := by
  simp [queueWorkCount]

@[simp] theorem queueWorkCount_submit (position : Nat) :
    queueWorkCount (log ++ [⟨operation, .submit position⟩]) = queueWorkCount log := by
  simp [queueWorkCount]

@[simp] theorem queueWorkCount_unblock (value : Nat) :
    queueWorkCount (log ++ [⟨operation, .unblock value⟩]) = value := by
  simp [queueWorkCount]

theorem waits_mono {wait : Nat × Nat} {count : Nat} (member : wait ∈ waits (log.take count)) :
    wait ∈ waits log :=
  ((List.take_sublist _ _).filterMap _).subset member

theorem unblocks_mono {unblock : Nat × Nat} {count : Nat}
    (member : unblock ∈ unblocks (log.take count)) : unblock ∈ unblocks log :=
  ((List.take_sublist _ _).filterMap _).subset member

/-- Nothing was stored yet, or the last unblock stored what is there. -/
theorem queueWorkCount_stored (log : List Entry) :
    queueWorkCount log = 0 ∨ ∃ operation, (operation, queueWorkCount log) ∈ unblocks log := by
  induction log using List.reverseRecOn with
  | nil => exact .inl rfl
  | append_singleton log entry ih =>
    rcases entry with ⟨operation, action⟩
    cases action with
    | write written => simpa using ih
    | submit position => simpa using ih
    | unblock value => exact .inr ⟨operation, by simp⟩

/-- What is there was stored by an operation that is as late as any that unblocked. -/
theorem exists_unblock (sorted : log.Pairwise fun earlier later =>
    earlier.operation ≤ later.operation) {unblock : Nat × Nat} (member : unblock ∈ unblocks log) :
    ∃ last ∈ unblocks log, unblock.1 ≤ last.1 ∧ last.2 = queueWorkCount log := by
  induction log using List.reverseRecOn with
  | nil => simp [unblocks] at member
  | append_singleton log entry ih =>
    rcases entry with ⟨operation, action⟩
    obtain ⟨sortedLog, -, earlier⟩ := List.pairwise_append.mp sorted
    cases action with
    | write written => simpa using ih sortedLog (by simpa using member)
    | submit position => simpa using ih sortedLog (by simpa using member)
    | unblock value =>
      refine ⟨(operation, value), by simp, ?_, by simp⟩
      rw [unblocks_append, List.mem_append] at member
      rcases member with old | new
      · obtain ⟨entry, inside, same⟩ := List.mem_filterMap.mp old
        have order := earlier entry inside _ List.mem_cons_self
        rcases entry with ⟨entryOperation, _ | _ | _⟩ <;> cases same
        exact order
      · obtain rfl : unblock = (operation, value) := by simpa using new
        exact Nat.le_refl _

theorem CompletelyWritten.mono {position : Nat} (written : CompletelyWritten log position)
    (more : log <+: new) : CompletelyWritten new position := by
  obtain ⟨before, entry, inside, release, behind⟩ := written
  exact ⟨before, entry, inside.trans more, release, behind⟩

theorem WrittenBy.getElem? {position : Nat} {written : Written}
    (here : WrittenBy log position operation written) :
    (writes log)[position]? = some written := by
  obtain ⟨before, ⟨rest, rfl⟩, rfl⟩ := here
  simp [writes, writtenOf]

theorem WrittenBy.mem_waits {position value : Nat} {written : Written}
    (here : WrittenBy log position operation written)
    (waiting : written.command.waitsFor = some value) : (operation, value) ∈ waits log := by
  obtain ⟨before, ⟨rest, rfl⟩, rfl⟩ := here
  simp [waits, waitOf, waiting]

end Log

/-- The last barrier in the log, which holds the GPU while this value is in memory. -/
structure Gated (log : List Entry) (count barrier : Nat) : Prop where
  closed : ∃ written, (writes log)[barrier]? = some written ∧ written.command.Closed count
  last : ∀ position written, barrier < position → (writes log)[position]? = some written →
    written.command.Plain

/-- What holds of the log when the CPU lets the GPU go on, or starts it: the GPU comes to the last
barrier and no further. -/
def ReleasedAt (log : List Entry) : Action → Prop
  | .write _ => True
  | .unblock value => ∃ barrier, Gated log value barrier
  | .submit position => ∃ barrier, position ≤ barrier ∧ Gated log (queueWorkCount log) barrier

/-- How the operations share the log. The last one may still be at work. -/
structure Paced (log : List Entry) (operation count : Nat) : Prop where
  operations : ∀ entry ∈ log, entry.operation ≤ operation
  sorted : log.Pairwise fun earlier later => earlier.operation ≤ later.operation
  released : ∀ before entry, before ++ [entry] <+: log → ReleasedAt before entry.action
  bounded : ∀ unblock ∈ unblocks log, unblock.2 ≤ count
  positive : ∀ wait ∈ waits log, 1 ≤ wait.2
  apart : ∀ wait ∈ waits log, ∀ unblock ∈ unblocks log,
    (unblock.1 ≤ wait.1 → unblock.2 < wait.2) ∧ (wait.1 < unblock.1 → wait.2 ≤ unblock.2)

section Paced

variable {log : List Entry} {operation count : Nat}

theorem Paced.nil : Paced [] operation count where
  operations := by simp
  sorted := .nil
  released := by simp
  bounded := by simp [unblocks]
  positive := by simp [waits]
  apart := by simp [waits]

theorem Paced.mono {operation' count' : Nat} (paced : Paced log operation count)
    (later : operation ≤ operation') (more : count ≤ count') : Paced log operation' count' where
  operations := fun entry member => (paced.operations entry member).trans later
  sorted := paced.sorted
  released := paced.released
  bounded := fun unblock member => (paced.bounded unblock member).trans more
  positive := paced.positive
  apart := paced.apart

/-- An action of the operation at work, from what it adds to the semaphores and the unblocks. -/
theorem Paced.concat (paced : Paced log operation count) {action : Action}
    (released : ReleasedAt log action)
    (bounded : ∀ unblock ∈ unblocks [⟨operation, action⟩], unblock.2 ≤ count)
    (positive : ∀ wait ∈ waits [⟨operation, action⟩], 1 ≤ wait.2)
    (apart : ∀ wait ∈ waits (log ++ [⟨operation, action⟩]),
      ∀ unblock ∈ unblocks (log ++ [⟨operation, action⟩]),
      (wait ∈ waits [⟨operation, action⟩] ∨ unblock ∈ unblocks [⟨operation, action⟩]) →
      (unblock.1 ≤ wait.1 → unblock.2 < wait.2) ∧ (wait.1 < unblock.1 → wait.2 ≤ unblock.2)) :
    Paced (log ++ [⟨operation, action⟩]) operation count where
  operations := by
    intro entry member
    rcases List.mem_append.mp member with old | new
    · exact paced.operations entry old
    · obtain rfl := List.mem_singleton.mp new
      exact Nat.le_refl _
  sorted := by
    apply List.pairwise_append.mpr
    refine ⟨paced.sorted, List.pairwise_singleton _ _, ?_⟩
    intro entry member later isNew
    obtain rfl := List.mem_singleton.mp isNew
    exact paced.operations entry member
  released := by
    intro before entry inside
    rcases List.prefix_concat_iff.mp inside with whole | old
    · obtain ⟨rfl, rfl⟩ := List.append_singleton_inj.mp whole
      exact released
    · exact paced.released before entry old
  bounded := by
    intro unblock member
    rcases List.mem_append.mp (unblocks_append ▸ member) with old | new
    · exact paced.bounded unblock old
    · exact bounded unblock new
  positive := by
    intro wait member
    rcases List.mem_append.mp (waits_append ▸ member) with old | new
    · exact paced.positive wait old
    · exact positive wait new
  apart := by
    intro wait waiting unblock unblocking
    rcases List.mem_append.mp (waits_append ▸ waiting) with oldWait | newWait
    · rcases List.mem_append.mp (unblocks_append ▸ unblocking) with oldUnblock | newUnblock
      · exact paced.apart wait oldWait unblock oldUnblock
      · exact apart wait waiting unblock unblocking (.inr newUnblock)
    · exact apart wait waiting unblock unblocking (.inl newWait)

/-- An action that neither waits nor unblocks. -/
theorem Paced.silent (paced : Paced log operation count) {action : Action}
    (released : ReleasedAt log action) (noWait : waits [⟨operation, action⟩] = [])
    (noUnblock : unblocks [⟨operation, action⟩] = []) :
    Paced (log ++ [⟨operation, action⟩]) operation count := by
  apply paced.concat released
  · simp [noUnblock]
  · simp [noWait]
  · simp [noWait, noUnblock]

/-- A semaphore of the operation at work waits for more than was ever stored. -/
theorem Paced.semaphore (paced : Paced log operation count) (ring offset size limit : Nat) :
    Paced (log ++ [⟨operation, .write ⟨ring, offset, size, .semaphoreWait (count + 1), limit⟩⟩])
      operation count := by
  apply paced.concat
  · trivial
  · simp
  · simp
  · intro wait _ unblock unblocking isNew
    have old : unblock ∈ unblocks log := by simpa using unblocking
    obtain rfl : wait = (operation, count + 1) := by simpa using isNew
    constructor
    · exact fun _ => Nat.lt_succ_of_le (paced.bounded unblock old)
    · intro later
      -- no operation is later than the one at work
      obtain ⟨entry, member, same⟩ := List.mem_filterMap.mp old
      have bound := paced.operations entry member
      rcases entry with ⟨entryOperation, action⟩
      cases action with
      | unblock value =>
        obtain rfl := Option.some.inj same
        exact absurd later (Nat.not_lt.mpr bound)
      | write => cases same
      | submit => cases same

/-- The CPU lets the GPU go on to the barrier it wrote last. -/
theorem Paced.unblock (paced : Paced log operation count) {barrier : Nat}
    (gated : Gated log count barrier)
    (waiting : ∀ wait ∈ waits log, (wait.1 < operation ∧ wait.2 ≤ count) ∨
      (wait.1 = operation ∧ count < wait.2)) :
    Paced (log ++ [⟨operation, .unblock count⟩]) operation count := by
  apply paced.concat
  · exact ⟨barrier, gated⟩
  · simp
  · simp
  · intro wait member unblock _ isNew
    obtain rfl : unblock = (operation, count) := by simpa using isNew
    have old : wait ∈ waits log := by simpa using member
    rcases waiting wait old with ⟨earlier, passed⟩ | ⟨same, closed⟩
    · exact ⟨fun later => absurd earlier (Nat.not_lt.mpr later), fun _ => passed⟩
    · exact ⟨fun _ => closed, fun later => absurd later (by simp [same])⟩

theorem Paced.queueWorkCount_le (paced : Paced log operation count) :
    queueWorkCount log ≤ count := by
  rcases queueWorkCount_stored log with zero | ⟨operation, stored⟩
  · exact zero ▸ Nat.zero_le _
  · exact paced.bounded _ stored

theorem waits_writes_plain {new : List Written} (plain : ∀ w ∈ new, w.command.Plain) :
    waits (new.map fun w => ⟨operation, .write w⟩) = [] := by
  simp only [waits, List.filterMap_eq_nil_iff, List.mem_map]
  rintro _ ⟨w, member, rfl⟩
  simp [waitOf, (plain w member).waitsFor]

theorem Paced.plains (paced : Paced log operation count) {new : List Written}
    (plain : ∀ w ∈ new, w.command.Plain) :
    Paced (log ++ new.map fun w => ⟨operation, .write w⟩) operation count := by
  induction new generalizing log with
  | nil => simpa using paced
  | cons w rest ih =>
    have first : Paced (log ++ [⟨operation, .write w⟩]) operation count :=
      paced.silent trivial (waits_plain (plain w List.mem_cons_self)) rfl
    simpa using ih first fun later member => plain later (List.mem_cons_of_mem w member)

theorem Gated.plains {barrier : Nat} (gated : Gated log count barrier) {new : List Written}
    (plain : ∀ w ∈ new, w.command.Plain) :
    Gated (log ++ new.map fun w => ⟨operation, .write w⟩) count barrier := by
  obtain ⟨⟨written, here, closed⟩, last⟩ := gated
  have inside : barrier < (writes log).length := (List.getElem?_eq_some_iff.mp here).1
  constructor
  · exact ⟨written, by simpa [List.getElem?_append_left inside] using here, closed⟩
  · intro position w later there
    rw [writes_append, writes_map] at there
    rcases Nat.lt_or_ge position (writes log).length with old | behind
    · rw [List.getElem?_append_left old] at there
      exact last position w later there
    · rw [List.getElem?_append_right behind] at there
      exact plain w (List.mem_of_getElem? there)

/-- A barrier that was just written is the last one. -/
theorem Gated.concat {written : Written} (closed : written.command.Closed count) :
    Gated (log ++ [⟨operation, .write written⟩]) count (writes log).length := by
  constructor
  · exact ⟨written, by simp, closed⟩
  · intro position w later there
    have inside := (List.getElem?_eq_some_iff.mp there).1
    simp only [writes_append, writes_write, List.length_append, List.length_singleton] at inside
    exact absurd later (Nat.not_lt.mpr (Nat.le_of_lt_succ inside))

end Paced

end ComputeRuntime.DirectSubmission
