import ComputeRuntime.DirectSubmission.Model
import ComputeRuntime.Library.Transition
import Mathlib.Logic.Function.Basic

/-! The GPU's tiles read the ring while the CPU writes it: every interleaving of the two. -/
namespace ComputeRuntime.DirectSubmission

/-- The value of `semaphoreData->queueWorkCount`: the last one that was stored there. -/
def queueWorkCount (log : List Entry) : Nat :=
  log.foldl (fun count entry =>
    match entry.action with
    | .unblock value => value
    | _ => count) 0

/-- The value a command waits for. -/
def Command.waitsFor : Command → Option Nat
  | .semaphoreWait value | .relaxedOrderingScheduler value => some value
  | _ => none

def submittedOf : Entry → Option Nat
  | ⟨_, .submit position⟩ => some position
  | _ => none

/-- The positions at which the GPU was started. -/
def submitted (log : List Entry) : List Nat := log.filterMap submittedOf

/-- A tile of the GPU: how many of its batches it has begun, the command it is at, the tag it last
wrote and the positions it has executed. -/
structure Tile where
  batches : Nat
  position : Option Nat
  tag : Nat
  executed : List Nat

def Tile.start : Tile := ⟨0, none, 0, []⟩

/-- A command that was passed, and where the tile goes on. -/
def Tile.advance (tile : Tile) (position : Nat) (next : Option Nat) : Tile :=
  { tile with position := next, executed := position :: tile.executed }

/-- The tile after it executed the command it is at. At a semaphore it waits for the value. -/
def Tile.execute (log : List Entry) (tile : Tile) (position : Nat) (command : Command) :
    Option Tile :=
  match command with
  | .semaphoreWait value | .relaxedOrderingScheduler value =>
    if value ≤ queueWorkCount log then some (tile.advance position (some (position + 1))) else none
  | .stopCommandBuffer => some (tile.advance position none)
  | .monitorFence tagValue =>
    some { tile.advance position (some (position + 1)) with tag := tagValue }
  | _ => some (tile.advance position (some (position + 1)))

/-- The next step of a tile, if it does not wait. -/
def Tile.step (log : List Entry) (tile : Tile) : Option Tile :=
  match tile.position with
  | none => (submitted log)[tile.batches]?.map fun position =>
      { tile with batches := tile.batches + 1, position := some position }
  | some position => (writes log)[position]?.bind fun written =>
      tile.execute log position written.command

/-- A command ends the batch, or it does not hold the tile. -/
theorem Tile.execute_cases {log : List Entry} {tile next : Tile} {position : Nat} {command : Command}
    (executes : tile.execute log position command = some next) :
    next.batches = tile.batches ∧
    (command = .stopCommandBuffer ∧ next.position = none ∨
    (command ≠ .stopCommandBuffer ∧
        ∀ value, command.waitsFor = some value → value ≤ queueWorkCount log) ∧
      next.position = some (position + 1)) := by
  cases command with
  | semaphoreWait value | relaxedOrderingScheduler value =>
    obtain ⟨opened, same⟩ := Option.ite_none_right_eq_some.mp executes
    cases same
    refine ⟨rfl, .inr ⟨⟨nofun, ?_⟩, rfl⟩⟩
    rintro _ ⟨⟩
    exact opened
  | stopCommandBuffer =>
    cases executes
    exact ⟨rfl, .inl ⟨rfl, rfl⟩⟩
  | _ =>
    cases executes
    exact ⟨rfl, .inr ⟨⟨nofun, nofun⟩, rfl⟩⟩

/-- All that a tile can do in a step. -/
theorem Tile.step_cases {log : List Entry} {tile next : Tile} (steps : tile.step log = some next) :
    (tile.position = none ∧ ∃ start, (submitted log)[tile.batches]? = some start ∧
      next = { tile with batches := tile.batches + 1, position := some start }) ∨
    ∃ position written, tile.position = some position ∧ (writes log)[position]? = some written ∧
      tile.execute log position written.command = some next := by
  unfold Tile.step at steps
  split at steps
  · rename_i idle
    obtain ⟨start, pending, rfl⟩ := Option.map_eq_some_iff.mp steps
    exact .inl ⟨idle, start, pending, rfl⟩
  · rename_i position here
    obtain ⟨written, there, executes⟩ := Option.bind_eq_some_iff.mp steps
    exact .inr ⟨position, written, here, there, executes⟩

/-- A tile goes on from a semaphore only if the value is there. -/
theorem Tile.step_opens {log : List Entry} {tile next : Tile} {position value : Nat}
    {written : Written} (steps : tile.step log = some next) (here : tile.position = some position)
    (there : (writes log)[position]? = some written)
    (waits : written.command.waitsFor = some value) : value ≤ queueWorkCount log := by
  rcases Tile.step_cases steps with ⟨idle, -⟩ | ⟨p, w, same, found, executes⟩
  · cases idle.symm.trans here
  obtain rfl : p = position := Option.some.inj (same.symm.trans here)
  obtain rfl : w = written := Option.some.inj (found.symm.trans there)
  rcases (Tile.execute_cases executes).2 with ⟨stop, -⟩ | ⟨⟨-, opened⟩, -⟩
  · simp [stop, Command.waitsFor] at waits
  · exact opened value waits

variable (settings : DirectSubmissionSettings)

/-- A dispatch that has not come to its check for space. -/
structure Dispatching where
  batchBuffer : BatchBuffer settings.sizes
  needStart : Bool

/-- The CPU's next stores are the actions of the log behind the first `performed` ones. -/
structure System where
  hw : DirectSubmissionHw
  performed : Nat
  dispatching : Option (Dispatching settings)
  tiles : Nat → Tile

variable {settings}

/-- What the GPU sees of the log. -/
def System.visible (system : System settings) : List Entry := system.hw.log.take system.performed

/-- The CPU has done all it decided to do. -/
def System.Settled (system : System settings) : Prop :=
  system.performed = system.hw.log.length

/-- All the tiles have written the tag that a ring buffer is completed at. -/
def System.Completed (activeTiles : Nat) (system : System settings) (ringBufferIndex : Nat) :
    Prop :=
  ∀ completionFence, system.hw.ringBuffers[ringBufferIndex]? = some completionFence →
    ∀ t < activeTiles, completionFence ≤ (system.tiles t).tag

/-- A dispatch is made in two parts, since its check for space reads the tags. -/
inductive Event (settings : DirectSubmissionSettings) where
  | stop
  | dispatch (batchBuffer : BatchBuffer settings.sizes) (restartNeeded : Bool)
  | finish (inputs : DispatchInputs)
  | perform
  | gpu (t : Nat)

inductive Step (activeTiles : Nat) : System settings → Event settings → System settings → Prop where
  | stop {system} (settled : system.Settled) (idle : system.dispatching = none) :
    Step activeTiles system .stop
      { system with hw := system.hw.nextOperation.stopRingBuffer settings }
  | dispatch {system batchBuffer restartNeeded hw} (settled : system.Settled)
      (idle : system.dispatching = none) (begun : hw =
        system.hw.nextOperation.handleRingRestartForUllsLightResidency settings restartNeeded) :
    Step activeTiles system (.dispatch batchBuffer restartNeeded)
      { system with hw, dispatching := some ⟨batchBuffer, !hw.ringStart⟩ }
  | finish {system dispatching inputs} (settled : system.Settled)
      (begun : system.dispatching = some dispatching)
      (completed : ∀ ringBufferIndex, inputs.isCompleted ringBufferIndex = true →
        system.Completed activeTiles ringBufferIndex) :
    Step activeTiles system (.finish inputs)
      { system with
        hw := system.hw.finishDispatch settings dispatching.batchBuffer dispatching.needStart inputs
        dispatching := none }
  | perform {system} (more : system.performed < system.hw.log.length) :
    Step activeTiles system .perform { system with performed := system.performed + 1 }
  | gpu {system t next} (steps : (system.tiles t).step system.visible = some next) :
    Step activeTiles system (.gpu t)
      { system with tiles := Function.update system.tiles t next }

/-- What can be told from the state when the submission was initialised. -/
inductive Initial (settings : DirectSubmissionSettings) : System settings → Prop where
  | initialised (systemMemoryFenceAddressSet submitOnInit submits : Bool) :
    Initial settings
      { hw := (DirectSubmissionHw.create settings systemMemoryFenceAddressSet).initializeRing
          settings submitOnInit submits
        performed := 0
        dispatching := none
        tiles := fun _ => .start }

def system (settings : DirectSubmissionSettings) (activeTiles : Nat) :
    Transition.System (System settings) (Event settings) where
  init := Initial settings
  step := Step activeTiles

/-- A dispatch that has begun did so in one operation of the CPU. -/
def Begun (state : System settings) : Prop :=
  ∀ dispatching, state.dispatching = some dispatching → ∃ hw restartNeeded,
    state.hw = DirectSubmissionHw.handleRingRestartForUllsLightResidency settings hw
      restartNeeded ∧ dispatching.needStart = !state.hw.ringStart

theorem begun_invariant (activeTiles : Nat) :
    Transition.Invariant (system settings activeTiles) Begun where
  initial := by
    rintro _ ⟨_, _, _⟩ _ ⟨⟩
  preserved := by
    rintro state event after _ begun step
    cases step with
    | stop settled idle =>
      intro dispatching isSome
      cases idle.symm.trans isSome
    | @dispatch batchBuffer restartNeeded hw settled idle begins =>
      rintro _ ⟨⟩
      exact ⟨_, restartNeeded, begins, rfl⟩
    | finish => rintro _ ⟨⟩
    | perform => exact begun
    | gpu => exact begun

/-- The two parts of a dispatch make up `dispatchCommandBuffer`, whatever happens between them. -/
theorem reachable_finish {activeTiles : Nat} {state after : System settings} {inputs : DispatchInputs}
    (reachable : Transition.Reachable (system settings activeTiles) state)
    (finishes : Step activeTiles state (.finish inputs) after) :
    ∃ hw batchBuffer restartNeeded, after.hw = DirectSubmissionHw.dispatchCommandBuffer settings hw
      batchBuffer { inputs with restartNeeded } := by
  cases finishes with
  | @finish dispatching inputs settled begun completed =>
    obtain ⟨hw, restartNeeded, same, start⟩ :=
      (begun_invariant activeTiles).holds reachable dispatching begun
    refine ⟨hw, dispatching.batchBuffer, restartNeeded, ?_⟩
    simp only [start, same]
    rfl

end ComputeRuntime.DirectSubmission
