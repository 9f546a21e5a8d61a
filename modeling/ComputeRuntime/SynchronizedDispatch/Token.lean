import ComputeRuntime.SynchronizedDispatch.Model

/-! The token of synchronized dispatches: who owns it, and how many tiles still hold on to it. A
tile that finds the owner of an earlier dispatch of its own list is not held back, so what follows
is about the runs in which that does not happen. -/
namespace ComputeRuntime.SynchronizedDispatch

/-! ### Commands and tiles -/

/-- The dispatch with its positions worked out. -/
theorem dispatchCommands_eq (syncDispatchQueueId partitionCount : Nat) :
    dispatchCommands syncDispatchQueueId partitionCount =
      [.conditionalBatchBufferStart 6 .workPartition 0 .notEqual,
        .miPredicateDisable,
        .atomicCmpWr 0 (Word.add 64 (queueIdToken syncDispatchQueueId) partitionCount),
        .conditionalBatchBufferStart 8 .syncTokenOwner (queueId syncDispatchQueueId) .equal,
        .miSemaphoreWait .syncTokenOwner 0,
        .batchBufferStart 1,
        .miPredicateDisable,
        .miSemaphoreWait .syncTokenOwner (queueId syncDispatchQueueId),
        .miPredicateDisable,
        .work,
        .signalInOrderCounter,
        .atomicDecrement,
        .atomicCmpWr (queueIdToken syncDispatchQueueId) 0] := rfl

@[simp] theorem CompareOperation.holds_equal (value compareData : Nat) :
    CompareOperation.equal.holds value compareData = true ↔ value = compareData := by
  simp [CompareOperation.holds]

@[simp] theorem CompareOperation.holds_notEqual (value compareData : Nat) :
    CompareOperation.notEqual.holds value compareData = true ↔ value ≠ compareData := by
  simp [CompareOperation.holds]

/-- Behind the initialization section. -/
def endSectionPosition : Nat := 8

def decrementPosition : Nat := 11

/-- The compare-and-write that ends the cleanup. -/
def clearPosition : Nat := 12

/-- How many initialization sections a tile has left behind. -/
def Tile.entered (tile : Tile) : Nat :=
  tile.dispatch + if endSectionPosition ≤ tile.position then 1 else 0

/-- How often a tile has decremented the token. -/
def Tile.decremented (tile : Tile) : Nat :=
  tile.dispatch + if decrementPosition < tile.position then 1 else 0

theorem Tile.decremented_le_entered (tile : Tile) : tile.decremented ≤ tile.entered := by
  unfold Tile.decremented Tile.entered decrementPosition endSectionPosition
  split <;> split <;> omega

/-- Between the initialization section and the decrement in the cleanup section. -/
def Tile.Inside (tile : Tile) : Prop :=
  endSectionPosition ≤ tile.position ∧ tile.position ≤ decrementPosition

/-- Between the initialization section and the end of the cleanup section. -/
def Tile.InsideCleanup (tile : Tile) : Prop := endSectionPosition ≤ tile.position

instance (tile : Tile) : Decidable tile.Inside :=
  inferInstanceAs (Decidable (_ ∧ _))

instance (tile : Tile) : Decidable tile.InsideCleanup :=
  inferInstanceAs (Decidable (_ ≤ _))

section States

variable {Queue : Type} {tileCount : Nat}

/-- The tiles that have not decremented the token since it was written for their list. -/
def State.remaining (s : State Queue tileCount) (queue : Queue) : Nat :=
  (Finset.univ.filter fun tile => (s.tiles queue tile).decremented < s.acquired queue).card

/-- No tile of the list holds on to the token. -/
def State.Released (s : State Queue tileCount) (queue : Queue) : Prop :=
  ∀ tile, s.acquired queue ≤ (s.tiles queue tile).decremented

theorem State.remaining_le (s : State Queue tileCount) (queue : Queue) :
    s.remaining queue ≤ tileCount := by
  have bound := Finset.card_filter_le Finset.univ fun tile =>
    (s.tiles queue tile).decremented < s.acquired queue
  simpa [State.remaining] using bound

theorem State.released_iff (s : State Queue tileCount) (queue : Queue) :
    s.Released queue ↔ s.remaining queue = 0 := by
  simp [State.Released, State.remaining, Finset.filter_eq_empty_iff]

/-- The token counts the tiles of one list; when it counts none of them, one is about to clear it. -/
structure State.Owned (setup : Setup Queue) (s : State Queue tileCount) (queue : Queue) :
    Prop where
  token : s.token = queueIdToken (setup.syncDispatchQueueId queue) + s.remaining queue
  clearing : s.remaining queue = 0 →
    ∃ tile, (s.tiles queue tile).position = clearPosition

/-- Where a tile can be when its list has acquired the token so many times. -/
structure Tile.Placed (primary : Prop) (acquired : Nat) (tile : Tile) : Prop where
  bounded : tile.position ≤ clearPosition
  entered : tile.entered ≤ acquired
  recent : acquired ≤ tile.decremented + 1
  first : primary →
    tile.position ≠ 6 ∧ tile.position ≠ 7 ∧ (tile.position = 3 ∨ acquired = tile.entered)
  others : ¬primary → tile.position = 0 ∨ 6 ≤ tile.position

structure Consistent (setup : Setup Queue) (s : State Queue tileCount) : Prop where
  placed : ∀ queue tile, (s.tiles queue tile).Placed (tile.val = 0) (s.acquired queue)
  token : (s.token = 0 ∧ ∀ queue, s.Released queue) ∨
    ∃ owner, s.Owned setup owner ∧ ∀ queue, queue ≠ owner → s.Released queue

/-- The queue ids a device hands out: distinct, and none at the end of the range. -/
structure Setup.Valid (setup : Setup Queue) : Prop where
  distinct : Function.Injective setup.syncDispatchQueueId
  bounded : ∀ queue, setup.syncDispatchQueueId queue < 2 ^ 32 - 2

/-- The owner is tested for a queue. -/
def Command.testsOwner (queueId : Nat) : Command → Bool
  | .conditionalBatchBufferStart _ .syncTokenOwner compareData _ => compareData = queueId
  | .miSemaphoreWait .syncTokenOwner data => data = queueId
  | _ => false

/-- A tile that finds its own list to be the owner has the token of the dispatch it is in. -/
def Fresh (setup : Setup Queue) (s : State Queue tileCount) (actor : Queue × Fin tileCount) :
    Prop :=
  let id := queueId (setup.syncDispatchQueueId actor.1)
  let tile := s.tiles actor.1 actor.2
  ∀ command ∈ (setup.commands actor.1 tileCount)[tile.position]?,
    command.testsOwner id = true → s.owner = id → tile.dispatch < s.acquired actor.1

instance (setup : Setup Queue) (s : State Queue tileCount) (actor : Queue × Fin tileCount) :
    Decidable (Fresh setup s actor) :=
  inferInstanceAs (Decidable (∀ command ∈ _, _))

/-! ### What a step can do -/

variable [DecidableEq Queue]

@[simp] theorem State.setTile_self (s : State Queue tileCount) (queue : Queue)
    (tile : Fin tileCount) (value : Tile) :
    (s.setTile queue tile value).tiles queue tile = value := by
  simp [State.setTile]

theorem State.setTile_other (s : State Queue tileCount) {queue queue' : Queue}
    {tile tile' : Fin tileCount} (value : Tile) (other : ¬(queue' = queue ∧ tile' = tile)) :
    (s.setTile queue tile value).tiles queue' tile' = s.tiles queue' tile' := by
  by_cases same : queue' = queue
  · subst same
    have different : tile' ≠ tile := fun equal => other ⟨rfl, equal⟩
    simp [State.setTile, different]
  · simp [State.setTile, same]

/-- A step of a tile that leaves the token alone. -/
inductive Walk (primary : Prop) (owner queueId : Nat) : Tile → Tile → Prop where
  | begin {dispatch signalled : Nat} (first : primary) :
    Walk primary owner queueId ⟨dispatch, 0, signalled⟩ ⟨dispatch, 1, signalled⟩
  | skip {dispatch signalled : Nat} (secondary : ¬primary) :
    Walk primary owner queueId ⟨dispatch, 0, signalled⟩ ⟨dispatch, 6, signalled⟩
  | next {dispatch position signalled : Nat} (quiet : position ∈ [1, 2, 4, 6, 8, 9]) :
    Walk primary owner queueId ⟨dispatch, position, signalled⟩ ⟨dispatch, position + 1, signalled⟩
  | signal {dispatch signalled : Nat} :
    Walk primary owner queueId ⟨dispatch, 10, signalled⟩ ⟨dispatch, 11, signalled + 1⟩
  | retry {dispatch signalled : Nat} (taken : owner ≠ queueId) :
    Walk primary owner queueId ⟨dispatch, 3, signalled⟩ ⟨dispatch, 4, signalled⟩
  | pass {dispatch position signalled : Nat} (test : position = 3 ∨ position = 7)
      (own : owner = queueId) :
    Walk primary owner queueId ⟨dispatch, position, signalled⟩ ⟨dispatch, 8, signalled⟩
  | loop {dispatch signalled : Nat} :
    Walk primary owner queueId ⟨dispatch, 5, signalled⟩ ⟨dispatch, 1, signalled⟩
  | leave {dispatch signalled : Nat} :
    Walk primary owner queueId ⟨dispatch, 12, signalled⟩ ⟨dispatch + 1, 0, signalled⟩

/-- What a step does to the token: it leaves it alone, or acquires, decrements or clears it. -/
inductive Effect (setup : Setup Queue) (s : State Queue tileCount) (queue : Queue)
    (tile : Fin tileCount) : State Queue tileCount → Prop where
  | walk {value : Tile}
      (walk : Walk (tile.val = 0) s.owner (queueId (setup.syncDispatchQueueId queue))
        (s.tiles queue tile) value)
      (kept : (s.tiles queue tile).position = clearPosition →
        s.token ≠ queueIdToken (setup.syncDispatchQueueId queue)) :
    Effect setup s queue tile (s.setTile queue tile value)
  | acquire {dispatch signalled : Nat} (current : s.tiles queue tile = ⟨dispatch, 2, signalled⟩)
      (free : s.token = 0) :
    Effect setup s queue tile { s.setTile queue tile ⟨dispatch, 3, signalled⟩ with
      token := Word.add 64 (queueIdToken (setup.syncDispatchQueueId queue)) tileCount
      acquired := Function.update s.acquired queue (s.acquired queue + 1) }
  | decrement {dispatch signalled : Nat}
      (current : s.tiles queue tile = ⟨dispatch, 11, signalled⟩) :
    Effect setup s queue tile { s.setTile queue tile ⟨dispatch, 12, signalled⟩ with
      token := Word.sub 64 s.token 1 }
  | clear {dispatch signalled : Nat} (current : s.tiles queue tile = ⟨dispatch, 12, signalled⟩)
      (last : s.token = queueIdToken (setup.syncDispatchQueueId queue)) :
    Effect setup s queue tile { s.setTile queue tile ⟨dispatch + 1, 0, signalled⟩ with token := 0 }

omit [DecidableEq Queue] in
/-- The id is at least 1, so that no token of a list is 0. -/
theorem Setup.Valid.queueId_pos {setup : Setup Queue} (valid : setup.Valid) (queue : Queue) :
    queueId (setup.syncDispatchQueueId queue) = setup.syncDispatchQueueId queue + 1 := by
  have bounded := valid.bounded queue
  have fits : setup.syncDispatchQueueId queue + 1 < 2 ^ 32 := by omega
  rw [queueId, Word.add_eq fits]

omit [DecidableEq Queue] in
theorem Setup.Valid.queueIdToken_eq {setup : Setup Queue} (valid : setup.Valid) (queue : Queue) :
    queueIdToken (setup.syncDispatchQueueId queue) =
      (setup.syncDispatchQueueId queue + 1) * 2 ^ 32 := by
  unfold queueIdToken
  rw [valid.queueId_pos]
  exact Nat.shiftLeft_eq _ _

theorem step_effect {setup : Setup Queue} (valid : setup.Valid) {s s' : State Queue tileCount}
    {queue : Queue} {tile : Fin tileCount} (step : s.step setup queue tile = some s') :
    Effect setup s queue tile s' := by
  have token : queueIdToken (setup.syncDispatchQueueId queue) ≠ 0 := by
    have shifted := valid.queueIdToken_eq queue
    omega
  simp only [State.step] at step
  split at step
  next =>
    obtain ⟨command, fetched, executed⟩ := Option.bind_eq_some_iff.mp step
    rcases current : s.tiles queue tile with ⟨dispatch, position, signalled⟩
    rw [current] at fetched
    have walk : ∀ value,
        Walk (tile.val = 0) s.owner (queueId (setup.syncDispatchQueueId queue))
          ⟨dispatch, position, signalled⟩ value →
        (position = clearPosition → s.token ≠ queueIdToken (setup.syncDispatchQueueId queue)) →
        Effect setup s queue tile (s.setTile queue tile value) := by
      intro value moved kept
      exact .walk (current ▸ moved) (by rw [current]; exact kept)
    have placed := List.mk_mem_zipIdx_iff_getElem?.mpr fetched
    have length : (setup.commands queue tileCount).length = 13 := rfl
    rw [length] at executed
    simp only [Setup.commands, dispatchCommands_eq, List.zipIdx_cons, List.zipIdx_nil,
      List.mem_cons, Prod.mk.injEq, List.not_mem_nil, or_false, Nat.reduceAdd] at placed
    -- One case for each command of the dispatch.
    rcases placed with ⟨rfl, rfl⟩ | ⟨rfl, rfl⟩ | ⟨rfl, rfl⟩ | ⟨rfl, rfl⟩ | ⟨rfl, rfl⟩ | ⟨rfl, rfl⟩ |
      ⟨rfl, rfl⟩ | ⟨rfl, rfl⟩ | ⟨rfl, rfl⟩ | ⟨rfl, rfl⟩ | ⟨rfl, rfl⟩ | ⟨rfl, rfl⟩ | ⟨rfl, rfl⟩ <;>
      simp only [State.execute, current, Tile.advance, Nat.reduceAdd, Nat.reduceLT, if_true,
        if_false, State.read, CompareOperation.holds_equal, CompareOperation.holds_notEqual,
        token, Option.some.injEq] at executed
    · split at executed <;> rw [Option.some.injEq] at executed <;> subst executed
      next secondary => exact walk _ (.skip secondary) nofun
      next primary => exact walk _ (.begin (not_not.mp primary)) nofun
    · subst executed
      exact walk _ (.next (by decide)) nofun
    · split at executed <;> rw [Option.some.injEq] at executed <;> subst executed
      next free => exact .acquire current free
      next => exact walk _ (.next (by decide)) nofun
    · split at executed <;> rw [Option.some.injEq] at executed <;> subst executed
      next own => exact walk _ (.pass (.inl rfl) own) nofun
      next taken => exact walk _ (.retry taken) nofun
    · split at executed
      next =>
        rw [Option.some.injEq] at executed
        subst executed
        exact walk _ (.next (by decide)) nofun
      next => cases executed
    · subst executed
      exact walk _ .loop nofun
    · subst executed
      exact walk _ (.next (by decide)) nofun
    · split at executed
      next own =>
        rw [Option.some.injEq] at executed
        subst executed
        exact walk _ (.pass (.inr rfl) own) nofun
      next => cases executed
    · subst executed
      exact walk _ (.next (by decide)) nofun
    · subst executed
      exact walk _ (.next (by decide)) nofun
    · subst executed
      exact walk _ .signal nofun
    · subst executed
      exact .decrement current
    · split at executed <;> rw [Option.some.injEq] at executed <;> subst executed
      next last => exact .clear current last
      next other => exact walk _ .leave (fun _ => other)
  next => cases step

/-! ### What a step preserves -/

theorem Walk.decremented_eq {primary : Prop} {owner queueId : Nat} {tile value : Tile}
    (walk : Walk primary owner queueId tile value) : value.decremented = tile.decremented := by
  cases walk with
  | next quiet =>
    simp only [List.mem_cons, List.not_mem_nil, or_false] at quiet
    rcases quiet with rfl | rfl | rfl | rfl | rfl | rfl <;> rfl
  | pass test => rcases test with rfl | rfl <;> rfl
  | _ => rfl

/-- A tile stays where it can be: it passes the test of the owner for a dispatch that has been
acquired, and is sent back by it only when its list has let the token go. -/
theorem Walk.placed {primary : Prop} {owner queueId acquired : Nat} {tile value : Tile}
    (walk : Walk primary owner queueId tile value) (placed : tile.Placed primary acquired)
    (fresh : tile.position = 3 ∨ tile.position = 7 → owner = queueId → tile.dispatch < acquired)
    (retry : owner ≠ queueId → acquired ≤ tile.decremented) :
    value.Placed primary acquired := by
  obtain ⟨bounded, entered, recent, first, others⟩ := placed
  have same := walk.decremented_eq
  cases walk with
  | next quiet =>
    simp only [List.mem_cons, List.not_mem_nil, or_false] at quiet
    rcases quiet with rfl | rfl | rfl | rfl | rfl | rfl <;> constructor <;>
      simp [Tile.entered, Tile.decremented, endSectionPosition, decrementPosition, clearPosition]
        at * <;> omega
  | pass test own =>
    rcases test with rfl | rfl <;> constructor <;>
      simp [Tile.entered, Tile.decremented, endSectionPosition, decrementPosition, clearPosition]
        at * <;> omega
  | _ =>
    constructor <;>
      simp [Tile.entered, Tile.decremented, endSectionPosition, decrementPosition, clearPosition]
        at * <;> omega

section Steps

variable {setup : Setup Queue} {s s' : State Queue tileCount} {queue : Queue}
  {tile : Fin tileCount}

omit [DecidableEq Queue] in
theorem Fresh.dispatch_lt (fresh : Fresh setup s (queue, tile))
    (test : (s.tiles queue tile).position = 3 ∨ (s.tiles queue tile).position = 7)
    (own : s.owner = queueId (setup.syncDispatchQueueId queue)) :
    (s.tiles queue tile).dispatch < s.acquired queue := by
  have tests := fun command fetched => fresh command fetched
  simp only [Setup.commands, dispatchCommands_eq] at tests
  rcases test with test | test <;> rw [test] at tests
  · exact tests _ rfl (decide_eq_true rfl) own
  · exact tests _ rfl (decide_eq_true rfl) own

omit [DecidableEq Queue] in
theorem State.Owned.parts (valid : setup.Valid) (fits : tileCount < 2 ^ 32)
    (owned : s.Owned setup queue) :
    s.owner = queueId (setup.syncDispatchQueueId queue) ∧ s.count = s.remaining queue := by
  have token := owned.token
  have remaining := s.remaining_le queue
  rw [valid.queueIdToken_eq queue] at token
  rw [valid.queueId_pos queue]
  unfold State.owner State.count
  omega

omit [DecidableEq Queue] in
theorem Setup.Valid.queueId_injective (valid : setup.Valid) {queue' : Queue}
    (same : queueId (setup.syncDispatchQueueId queue) =
      queueId (setup.syncDispatchQueueId queue')) : queue = queue' := by
  rw [valid.queueId_pos, valid.queueId_pos, Nat.add_right_cancel_iff] at same
  exact valid.distinct same

omit [DecidableEq Queue] in
/-- The list whose tiles still count is the owner. -/
theorem Consistent.owned (valid : setup.Valid) (fits : tileCount < 2 ^ 32)
    (consistent : Consistent setup s)
    (own : s.owner = queueId (setup.syncDispatchQueueId queue)) : s.Owned setup queue := by
  rcases consistent.token with ⟨free, _⟩ | ⟨owner, owned, _⟩
  · have id := valid.queueId_pos queue
    rw [State.owner, free, Nat.zero_div] at own
    omega
  · have parts := owned.parts valid fits
    rw [valid.queueId_injective (own.symm.trans parts.1)]
    exact owned

omit [DecidableEq Queue] in
theorem Consistent.released (valid : setup.Valid) (fits : tileCount < 2 ^ 32)
    (consistent : Consistent setup s)
    (other : s.owner ≠ queueId (setup.syncDispatchQueueId queue)) : s.Released queue := by
  rcases consistent.token with ⟨_, released⟩ | ⟨owner, owned, released⟩
  · exact released queue
  · apply released queue
    rintro rfl
    exact other (owned.parts valid fits).1

omit [DecidableEq Queue] in
theorem State.remaining_congr (acquired : s'.acquired queue = s.acquired queue)
    (same : ∀ tile, (s'.tiles queue tile).decremented = (s.tiles queue tile).decremented) :
    s'.remaining queue = s.remaining queue := by
  simp only [State.remaining, acquired, same]

/-- A tile that moves on without decrementing leaves all counts alone. -/
theorem State.decremented_setTile {value : Tile}
    (same : value.decremented = (s.tiles queue tile).decremented) (queue' : Queue)
    (tile' : Fin tileCount) :
    ((s.setTile queue tile value).tiles queue' tile').decremented =
      (s.tiles queue' tile').decremented := by
  by_cases moved : queue' = queue ∧ tile' = tile
  · obtain ⟨rfl, rfl⟩ := moved
    rw [setTile_self, same]
  · rw [setTile_other s value moved]

theorem Consistent.walk (valid : setup.Valid) (fits : tileCount < 2 ^ 32)
    (consistent : Consistent setup s) (fresh : Fresh setup s (queue, tile)) {value : Tile}
    (walk : Walk (tile.val = 0) s.owner (queueId (setup.syncDispatchQueueId queue))
      (s.tiles queue tile) value)
    (kept : (s.tiles queue tile).position = clearPosition →
      s.token ≠ queueIdToken (setup.syncDispatchQueueId queue)) :
    Consistent setup (s.setTile queue tile value) := by
  have same := State.decremented_setTile walk.decremented_eq
  have remaining : ∀ queue', (s.setTile queue tile value).remaining queue' =
      s.remaining queue' := fun queue' => State.remaining_congr rfl (same queue')
  have released : ∀ queue', s.Released queue' →
      (s.setTile queue tile value).Released queue' := by
    intro queue' before
    rw [State.released_iff] at before ⊢
    rw [remaining, before]
  constructor
  · intro queue' tile'
    by_cases moved : queue' = queue ∧ tile' = tile
    · obtain ⟨rfl, rfl⟩ := moved
      rw [State.setTile_self]
      apply walk.placed (consistent.placed queue' tile') fresh.dispatch_lt
      intro other
      exact consistent.released valid fits other tile'
    · rw [State.setTile_other s value moved]
      exact consistent.placed queue' tile'
  · rcases consistent.token with ⟨free, all⟩ | ⟨owner, owned, others⟩
    · left
      constructor
      · exact free
      · exact fun queue' => released queue' (all queue')
    · right
      refine ⟨owner, ⟨?_, ?_⟩, fun queue' other => released queue' (others queue' other)⟩
      · rw [remaining]
        exact owned.token
      · intro none
        rw [remaining] at none
        obtain ⟨clearing, position⟩ := owned.clearing none
        -- The tile that is to clear the token is not the one that moves.
        refine ⟨clearing, ?_⟩
        by_cases moved : owner = queue ∧ clearing = tile
        · obtain ⟨rfl, rfl⟩ := moved
          exact absurd (by rw [owned.token, none, Nat.add_zero]) (kept position)
        · rw [State.setTile_other s value moved]
          exact position

/-- The primary tile takes the free token for all tiles of its list. -/
theorem Consistent.acquire (valid : setup.Valid) (fits : tileCount < 2 ^ 32)
    (consistent : Consistent setup s) {dispatch signalled : Nat}
    (current : s.tiles queue tile = ⟨dispatch, 2, signalled⟩) (free : s.token = 0) :
    Consistent setup { s.setTile queue tile ⟨dispatch, 3, signalled⟩ with
      token := Word.add 64 (queueIdToken (setup.syncDispatchQueueId queue)) tileCount
      acquired := Function.update s.acquired queue (s.acquired queue + 1) } := by
  have all : ∀ queue', s.Released queue' := by
    rcases consistent.token with ⟨_, all⟩ | ⟨owner, owned, _⟩
    · exact all
    · have parts := owned.parts valid fits
      have id := valid.queueId_pos owner
      rw [State.owner, free, Nat.zero_div] at parts
      omega
  have same := @State.decremented_setTile _ _ _ s queue tile ⟨dispatch, 3, signalled⟩
    (by rw [current]; rfl)
  -- All tiles of the list have let go of the token of the dispatch before.
  have level : ∀ tile', (s.tiles queue tile').decremented = s.acquired queue := by
    intro tile'
    have entered := (consistent.placed queue tile').entered
    have order := (s.tiles queue tile').decremented_le_entered
    have released := all queue tile'
    omega
  have placed := consistent.placed queue tile
  have primary : tile.val = 0 := by
    by_contra secondary
    have others := placed.others secondary
    simp [current] at others
  constructor
  · intro queue' tile'
    by_cases moved : queue' = queue ∧ tile' = tile
    · obtain ⟨rfl, rfl⟩ := moved
      have entered := level tile'
      rw [current] at placed entered
      simp only [State.setTile_self, Function.update_self]
      constructor <;> simp [Tile.entered, Tile.decremented, endSectionPosition,
        decrementPosition, clearPosition, primary] at * <;> omega
    · change ((s.setTile queue tile _).tiles queue' tile').Placed _ _
      rw [State.setTile_other s _ moved]
      have before := consistent.placed queue' tile'
      by_cases here : queue' = queue
      · subst here
        have secondary : ¬tile'.val = 0 := by
          intro zero
          exact moved ⟨rfl, Fin.ext (zero.trans primary.symm)⟩
        simp only [Function.update_self]
        constructor
        · exact before.bounded
        · exact Nat.le_succ_of_le before.entered
        · rw [level tile']
        · exact fun zero => absurd zero secondary
        · exact before.others
      · simp only [Function.update_of_ne here]
        exact before
  · right
    have id := valid.bounded queue
    have token := valid.queueIdToken_eq queue
    have counted : ∀ tile', ((s.setTile queue tile ⟨dispatch, 3, signalled⟩).tiles queue
        tile').decremented < s.acquired queue + 1 := by
      intro tile'
      rw [same queue tile', level tile']
      exact Nat.lt_succ_self _
    refine ⟨queue, ⟨?_, ?_⟩, ?_⟩
    · simp only [State.remaining, Function.update_self, counted, Finset.filter_true,
        Finset.card_univ, Fintype.card_fin]
      exact Word.add_eq (by omega)
    · intro none
      simp only [State.remaining, Function.update_self, counted, Finset.filter_true,
        Finset.card_univ, Fintype.card_fin] at none
      exact absurd none (Nat.ne_of_gt tile.pos)
    · intro queue' other tile'
      simp only [Function.update_of_ne other]
      rw [same queue' tile']
      exact all queue' tile'

omit [DecidableEq Queue] in
/-- A tile that is inside is counted by the token. -/
theorem Consistent.owned_of_inside (consistent : Consistent setup s)
    (inside : (s.tiles queue tile).Inside) :
    s.Owned setup queue ∧ (∀ queue', queue' ≠ queue → s.Released queue') ∧
      s.acquired queue = (s.tiles queue tile).decremented + 1 := by
  have placed := consistent.placed queue tile
  have entered : (s.tiles queue tile).entered = (s.tiles queue tile).decremented + 1 := by
    simp [Tile.entered, Tile.decremented, inside.1, Nat.not_lt.mpr inside.2]
  have acquired : s.acquired queue = (s.tiles queue tile).decremented + 1 := by
    apply Nat.le_antisymm placed.recent
    rw [← entered]
    exact placed.entered
  have held : ¬s.Released queue := by
    intro released
    have level := released tile
    omega
  rcases consistent.token with ⟨_, all⟩ | ⟨owner, owned, others⟩
  · exact absurd (all queue) held
  · have same : queue = owner := by
      by_contra other
      exact held (others queue other)
    subst same
    exact ⟨owned, others, acquired⟩

omit [DecidableEq Queue] in
/-- A decrement does not borrow from the owner, since the tile is counted. -/
theorem Consistent.sub_one (valid : setup.Valid) (fits : tileCount < 2 ^ 32)
    (consistent : Consistent setup s) (inside : (s.tiles queue tile).Inside) :
    Word.sub 64 s.token 1 + 1 = s.token := by
  obtain ⟨owned, _, acquired⟩ := consistent.owned_of_inside inside
  have held : ¬s.Released queue := by
    intro released
    have level := released tile
    omega
  rw [State.released_iff] at held
  have bound := valid.bounded queue
  have shifted := valid.queueIdToken_eq queue
  have few := s.remaining_le queue
  have token := owned.token
  rw [Word.sub_eq (by omega) (by omega)]
  omega

theorem Consistent.decrement (consistent : Consistent setup s) {dispatch signalled : Nat}
    (current : s.tiles queue tile = ⟨dispatch, 11, signalled⟩) {less : Nat}
    (token : less + 1 = s.token) :
    Consistent setup { s.setTile queue tile ⟨dispatch, 12, signalled⟩ with token := less } := by
  have inside : (s.tiles queue tile).Inside := by
    rw [current]
    simp [Tile.Inside, endSectionPosition, decrementPosition]
  obtain ⟨owned, others, acquired⟩ := consistent.owned_of_inside inside
  have before : (s.tiles queue tile).decremented = dispatch := by
    rw [current]
    rfl
  rw [before] at acquired
  have held : tile ∈ Finset.univ.filter fun tile' =>
      (s.tiles queue tile').decremented < s.acquired queue := by
    simp [before, acquired]
  constructor
  · intro queue' tile'
    by_cases moved : queue' = queue ∧ tile' = tile
    · obtain ⟨rfl, rfl⟩ := moved
      have placed := consistent.placed queue' tile'
      rw [current] at placed
      simp only [State.setTile_self]
      change Tile.Placed _ (s.acquired queue') _
      rw [acquired]
      obtain ⟨_, _, _, first, _⟩ := placed
      constructor <;> simp [Tile.entered, Tile.decremented, endSectionPosition,
        decrementPosition, clearPosition]
    · change ((s.setTile queue tile _).tiles queue' tile').Placed _ _
      rw [State.setTile_other s _ moved]
      exact consistent.placed queue' tile'
  · right
    let next := s.setTile queue tile ⟨dispatch, 12, signalled⟩
    have counted : next.remaining queue + 1 = s.remaining queue := by
      have rest : (Finset.univ.filter fun tile' =>
          (next.tiles queue tile').decremented < next.acquired queue) =
          (Finset.univ.filter fun tile' =>
            (s.tiles queue tile').decremented < s.acquired queue).erase tile := by
        ext tile'
        by_cases moved : tile' = tile
        · subst moved
          have level : next.acquired queue = dispatch + 1 := acquired
          simp [next, level, Tile.decremented, decrementPosition]
        · have kept : next.tiles queue tile' = s.tiles queue tile' :=
            State.setTile_other s _ fun both => moved both.2
          have same : next.acquired queue = s.acquired queue := rfl
          simp [kept, same, moved]
      rw [State.remaining, rest]
      exact Finset.card_erase_add_one held
    refine ⟨queue, ⟨?_, ?_⟩, ?_⟩
    · have whole := owned.token
      change less = queueIdToken (setup.syncDispatchQueueId queue) + next.remaining queue
      omega
    · intro _
      exact ⟨tile, by simp [clearPosition]⟩
    · intro queue' other tile'
      have kept : next.tiles queue' tile' = s.tiles queue' tile' :=
        State.setTile_other s _ fun both => other both.1
      change s.acquired queue' ≤ (next.tiles queue' tile').decremented
      rw [kept]
      exact others queue' other tile'

theorem Consistent.clear (valid : setup.Valid) (fits : tileCount < 2 ^ 32)
    (consistent : Consistent setup s) {dispatch signalled : Nat}
    (current : s.tiles queue tile = ⟨dispatch, 12, signalled⟩)
    (last : s.token = queueIdToken (setup.syncDispatchQueueId queue)) :
    Consistent setup { s.setTile queue tile ⟨dispatch + 1, 0, signalled⟩ with token := 0 } := by
  have id := valid.queueId_pos queue
  have shifted := valid.queueIdToken_eq queue
  have own : s.owner = queueId (setup.syncDispatchQueueId queue) := by
    unfold State.owner
    omega
  have owned := consistent.owned valid fits own
  have none : s.remaining queue = 0 := by
    have token := owned.token
    omega
  have walk : Walk (tile.val = 0) s.owner (queueId (setup.syncDispatchQueueId queue))
      (s.tiles queue tile) ⟨dispatch + 1, 0, signalled⟩ := by
    rw [current]
    exact .leave
  have same := State.decremented_setTile walk.decremented_eq
  have all : ∀ queue', s.Released queue' := by
    intro queue'
    by_cases here : queue' = queue
    · subst here
      exact (s.released_iff queue').mpr none
    · apply consistent.released valid fits
      intro other
      exact here (valid.queueId_injective (other.symm.trans own))
  constructor
  · intro queue' tile'
    by_cases moved : queue' = queue ∧ tile' = tile
    · obtain ⟨rfl, rfl⟩ := moved
      simp only [State.setTile_self]
      apply walk.placed (consistent.placed queue' tile')
      · intro test
        simp [current] at test
      · exact fun other => absurd own other
    · change ((s.setTile queue tile _).tiles queue' tile').Placed _ _
      rw [State.setTile_other s _ moved]
      exact consistent.placed queue' tile'
  · left
    constructor
    · rfl
    · intro queue' tile'
      change s.acquired queue' ≤ ((s.setTile queue tile _).tiles queue' tile').decremented
      rw [same queue' tile']
      exact all queue' tile'

end Steps

end States

end ComputeRuntime.SynchronizedDispatch
