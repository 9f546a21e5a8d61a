import ComputeRuntime.SynchronizedDispatch.Token

/-! Runs of synchronized dispatches: the tiles of one list exclude those of all others, the token
counts the tiles that still hold on to it, and it is free again at the end. -/
namespace ComputeRuntime.SynchronizedDispatch

open Transition

variable {Queue : Type} {tileCount : Nat} {setup : Setup Queue} {s s' : State Queue tileCount}

/-- All tiles have done all dispatches. -/
def State.Finished (setup : Setup Queue) (s : State Queue tileCount) : Prop :=
  ∀ queue tile, (s.tiles queue tile).dispatch = setup.dispatches queue ∧
    (s.tiles queue tile).position = 0

/-- What holds of the token and of the tiles that it lets in. -/
structure Sound (setup : Setup Queue) (s : State Queue tileCount) : Prop where
  exclusive : ∀ queue tile queue' tile', (s.tiles queue tile).Inside →
    (s.tiles queue' tile').Inside → queue = queue'
  owner : s.token = 0 ∨ ∃ queue, s.owner = queueId (setup.syncDispatchQueueId queue)
  counted : ∀ queue, s.owner = queueId (setup.syncDispatchQueueId queue) →
    s.count = s.remaining queue
  held : ∀ queue tile, (s.tiles queue tile).Inside →
    s.owner = queueId (setup.syncDispatchQueueId queue) ∧ 0 < s.count
  finished : s.Finished setup → s.token = 0

theorem Consistent.sound (valid : setup.Valid) (some : 0 < tileCount) (fits : tileCount < 2 ^ 32)
    (consistent : Consistent setup s) : Sound setup s := by
  constructor
  · intro queue tile queue' tile' inside inside'
    have own := (consistent.owned_of_inside inside).1.parts valid fits
    have own' := (consistent.owned_of_inside inside').1.parts valid fits
    exact valid.queueId_injective (own.1.symm.trans own'.1)
  · rcases consistent.token with ⟨free, _⟩ | ⟨owner, owned, _⟩
    · exact .inl free
    · exact .inr ⟨owner, (owned.parts valid fits).1⟩
  · intro queue own
    exact ((consistent.owned valid fits own).parts valid fits).2
  · intro queue tile inside
    obtain ⟨owned, _, acquired⟩ := consistent.owned_of_inside inside
    have parts := owned.parts valid fits
    constructor
    · exact parts.1
    · rw [parts.2]
      apply Nat.pos_of_ne_zero
      intro none
      have level := (s.released_iff queue).mpr none tile
      omega
  · intro finished
    rcases consistent.token with ⟨free, _⟩ | ⟨owner, owned, _⟩
    · exact free
    · have left : ∀ tile, (s.tiles owner tile).position = 0 := fun tile => (finished owner tile).2
      have first := (consistent.placed owner ⟨0, some⟩).first rfl
      have none : s.remaining owner = 0 := by
        apply (s.released_iff owner).mp
        intro tile
        rcases first.2.2 with position | acquired
        · rw [left] at position
          cases position
        · rw [acquired]
          simp [Tile.entered, Tile.decremented, endSectionPosition, decrementPosition, left,
            (finished owner _).1]
      obtain ⟨tile, position⟩ := owned.clearing none
      rw [left] at position
      cases position

variable [DecidableEq Queue]

theorem Consistent.step (valid : setup.Valid) (fits : tileCount < 2 ^ 32)
    {actor : Queue × Fin tileCount} (consistent : Consistent setup s)
    (fresh : Fresh setup s actor) (step : s.step setup actor.1 actor.2 = some s') :
    Consistent setup s' := by
  cases step_effect valid step with
  | walk walk kept => exact consistent.walk valid fits fresh walk kept
  | acquire current free => exact consistent.acquire valid fits current free
  | decrement current =>
    apply consistent.decrement current
    apply consistent.sub_one valid fits
    rw [current]
    simp [Tile.Inside, endSectionPosition, decrementPosition]
  | clear current last => exact consistent.clear valid fits current last

omit [DecidableEq Queue] in
theorem consistent_init (s : State Queue tileCount)
    (init : s = { token := 0, acquired := fun _ => 0, tiles := fun _ _ => {} }) :
    Consistent setup s := by
  subst init
  constructor
  · intro queue tile
    constructor <;> simp [Tile.entered, Tile.decremented, endSectionPosition]
  · left
    exact ⟨rfl, fun _ _ => Nat.zero_le _⟩

/-- Whatever the interleaving is, as long as no tile passes the test of the owner on a token that
was written for an earlier dispatch of its list. -/
theorem reachable_dispatches_sound (valid : setup.Valid) (tiles : 2 ≤ tileCount) (fits : tileCount < 2 ^ 32)
    (reachable : Reachable ((system setup tileCount).restrict (Fresh setup)) s) :
    Sound setup s := by
  have invariant : Invariant ((system setup tileCount).restrict (Fresh setup))
      (Consistent setup) := by
    constructor
    · exact consistent_init
    · intro s actor s' _ consistent step
      exact consistent.step valid fits step.1 step.2
  exact (invariant.holds reachable).sound valid (by omega) fits

/-! ### Two lists on two tiles -/

/-- Two dispatches of the first list, and one of the second. -/
def pair : Setup (Fin 2) where
  syncDispatchQueueId queue := queue.val
  dispatches queue := 2 - queue.val

theorem pair_valid : pair.Valid where
  distinct _ _ same := Fin.ext same
  bounded queue := Nat.lt_of_lt_of_le queue.isLt (by decide)

section Pair

variable (actors : List (Fin 2 × Fin 2))

def runPair : Option (State (Fin 2) 2) :=
  actors.foldlM (fun s actor => s.step pair actor.1 actor.2)
    { token := 0, acquired := fun _ => 0, tiles := fun _ _ => {} }

/-- A run that stops when a tile finds a token of an earlier dispatch. -/
def runPairFresh : Option (State (Fin 2) 2) :=
  actors.foldlM
    (fun s actor => if Fresh pair s actor then s.step pair actor.1 actor.2 else none)
    { token := 0, acquired := fun _ => 0, tiles := fun _ _ => {} }

variable {actors} {s : State (Fin 2) 2}

theorem reachable_of_runPair (run : runPair actors = some s) : Reachable (system pair 2) s :=
  Reachable.foldlM (fun _ _ _ step => step) (.start rfl) run

theorem reachable_of_runPairFresh (run : runPairFresh actors = some s) :
    Reachable ((system pair 2).restrict (Fresh pair)) s :=
  Reachable.foldlM (fun _ _ _ step => Option.ite_none_right_eq_some.mp step) (.start rfl) run

end Pair

local instance two_neZero : NeZero 2 := ⟨Nat.succ_ne_zero 1⟩

/-- A whole dispatch of the first list, then the second list on its first tile. -/
def oneByOne : List (Fin 2 × Fin 2) :=
  List.replicate 9 (0, 0) ++ List.replicate 8 (0, 1) ++ List.replicate 8 (1, 0)

theorem reachable_dispatches_sound_oneByOne :
    ∃ s, runPairFresh oneByOne = some s ∧ s.token = 2 <<< 32 + 1 ∧ Sound pair s := by
  have ran : (runPairFresh oneByOne).any (fun s => s.token = 2 <<< 32 + 1) = true := by
    decide +kernel
  obtain ⟨s, run, token⟩ := (Option.any_eq_true _ _).mp ran
  exact ⟨s, run, of_decide_eq_true token, reachable_dispatches_sound pair_valid (by decide) (by decide)
    (reachable_of_runPairFresh run)⟩

/-- The first tile has decremented the token, and stops before the last command of its cleanup. -/
def lateCleanup : List (Fin 2 × Fin 2) :=
  List.replicate 8 (0, 0) ++ List.replicate 8 (0, 1) ++ List.replicate 4 (1, 0)

/-- The first tile enters its second dispatch while the second one is still in the first. -/
def earlyEntry : List (Fin 2 × Fin 2) :=
  List.replicate 8 (0, 0) ++ List.replicate 6 (0, 1) ++ List.replicate 5 (0, 0) ++
    List.replicate 2 (0, 1) ++ List.replicate 4 (1, 0)

/-- A tile that has decremented the token but not yet ended its cleanup sees the other list come
in; and a tile that takes the token of its own last dispatch for that of its next one shares the
tiles with the other list, and then decrements a token that does not count it. -/
theorem dispatches_unsound_stated :
    (∃ s, Reachable ((system pair 2).restrict (Fresh pair)) s ∧
      (s.tiles 0 0).InsideCleanup ∧ (s.tiles 1 0).InsideCleanup) ∧
    (∃ s, Reachable (system pair 2) s ∧ (s.tiles 0 0).Inside ∧ (s.tiles 1 0).Inside) ∧
    ∃ s, Reachable (system pair 2) s ∧ s.owner = queueId (pair.syncDispatchQueueId 1) ∧
      s.count ≠ s.remaining 1 := by
  constructor
  · have ran : (runPairFresh lateCleanup).any (fun s =>
        (s.tiles 0 0).InsideCleanup ∧ (s.tiles 1 0).InsideCleanup) = true := by
      decide +kernel
    obtain ⟨s, run, both⟩ := (Option.any_eq_true _ _).mp ran
    exact ⟨s, reachable_of_runPairFresh run, of_decide_eq_true both⟩
  constructor
  · have ran : (runPair earlyEntry).any (fun s =>
        (s.tiles 0 0).Inside ∧ (s.tiles 1 0).Inside) = true := by
      decide +kernel
    obtain ⟨s, run, both⟩ := (Option.any_eq_true _ _).mp ran
    exact ⟨s, reachable_of_runPair run, of_decide_eq_true both⟩
  · have ran : (runPair (earlyEntry ++ List.replicate 4 (0, 0))).any (fun s =>
        s.owner = queueId (pair.syncDispatchQueueId 1) ∧ s.count ≠ s.remaining 1) = true := by
      decide +kernel
    obtain ⟨s, run, both⟩ := (Option.any_eq_true _ _).mp ran
    exact ⟨s, reachable_of_runPair run, of_decide_eq_true both⟩

end ComputeRuntime.SynchronizedDispatch
