import ComputeRuntime.TagAllocator.Nodes
import Mathlib.Data.Prod.Lex

/-! Runs of the tag allocator with any number of threads. -/
namespace ComputeRuntime.TagAllocator

open Tally Transition

/-- A thread that has refilled the list of free nodes finds one in it, and no count overflows. -/
def Allowed (s : State) (action : Nat × Action) : Prop :=
  match s.threads[action.1]?, action.2 with
  | some .takeRefilled, .proceed _ => s.freeTags ≠ []
  | some .idle, .incRefCount node => s.refCount node + 1 < 2 ^ 32
  | _, _ => True

/-- A step starts a call of an idle thread, adds a reference, or goes on with a call. -/
theorem step_cases {s s' : State} {tagCount t : Nat} {a : Action}
    (step : s.step tagCount t a = some s') :
    (s.threads[t]? = some .idle ∧ ∃ new, (new = .peek ∨ new = .detach .nothing) ∧
      s' = s.goto t new) ∨
    (∃ node, a = .returnTag node ∧ s.threads[t]? = some .idle ∧ 0 < s.references node ∧
      s' = (s.setReferences node (s.references node - 1)).goto t (.refCountFetchSub node)) ∨
    (∃ node, a = .incRefCount node ∧ s.threads[t]? = some .idle ∧ 0 < s.references node ∧
      s' = ((s.setRefCount node (Word.add 32 (s.refCount node) 1)).setReferences node
        (s.references node + 1)).goto t .idle) ∨
    ∃ stage released, a = .proceed released ∧ s.threads[t]? = some stage ∧
      s.proceed tagCount t released stage = some s' := by
  unfold State.step at step
  split at step
  next => cases step
  next idle =>
    cases step
    exact .inl ⟨idle, .peek, .inl rfl, rfl⟩
  next idle =>
    cases step
    exact .inl ⟨idle, .detach .nothing, .inr rfl, rfl⟩
  next node idle =>
    obtain ⟨held, ⟨⟩⟩ := Option.ite_none_right_eq_some.mp step
    exact .inr (.inl ⟨node, rfl, idle, held, rfl⟩)
  next node idle =>
    obtain ⟨held, ⟨⟩⟩ := Option.ite_none_right_eq_some.mp step
    exact .inr (.inr (.inl ⟨node, rfl, idle, held, rfl⟩))
  next stage released current => exact .inr (.inr (.inr ⟨stage, released, rfl, current, step⟩))
  next => cases step

/-- A reference is given up: its thread counts as a reference until it has lowered the count. -/
theorem Tracked.returnTag {s : State} {node n t : Nat} (tracked : Tracked s node)
    (current : s.threads[t]? = some .idle) (held : 0 < s.references n) :
    Tracked ((s.setReferences n (s.references n - 1)).goto t (.refCountFetchSub n)) node := by
  by_cases same : n = node
  · subst same
    refine tracked.move current rfl rfl ?_ rfl tracked.out tracked.word
    simp [State.setReferences, Stage.releasing]
    omega
  · have kept := tracked.other current same (s.refCount n) (s.references n - 1) s.log
      (.refCountFetchSub n) rfl rfl rfl (by simp [Stage.releasing, same])
    simpa [State.setRefCount, State.setReferences] using kept

theorem Tracked.addReference {s : State} {node n t : Nat} (tracked : Tracked s node)
    (current : s.threads[t]? = some .idle) (held : 0 < s.references n)
    (fits : s.refCount n + 1 < 2 ^ 32) :
    Tracked (((s.setRefCount n (Word.add 32 (s.refCount n) 1)).setReferences n
      (s.references n + 1)).goto t .idle) node := by
  rw [Word.add_eq fits]
  by_cases same : n = node
  · subst same
    have referenced := tracked.referenced
    refine tracked.move current rfl rfl ?_ ?_ ?_ ?_
    · simp [State.setRefCount, State.setReferences]
      omega
    · simp [State.setRefCount, State.setReferences]
      omega
    · simp [State.setRefCount, State.setReferences, tracked.out]
      omega
    · simpa [State.setRefCount, State.setReferences] using fits
  · exact tracked.other current same (s.refCount n + 1) (s.references n + 1) s.log .idle rfl rfl
      rfl rfl

theorem Tracked.step {s s' : State} {node tagCount t : Nat} {a : Action}
    (tracked : Tracked s node) (allowed : Allowed s (t, a))
    (step : s.step tagCount t a = some s') : Tracked s' node := by
  rcases step_cases step with ⟨idle, new, started, rfl⟩ | ⟨n, rfl, idle, held, rfl⟩ |
    ⟨n, rfl, idle, held, rfl⟩ | ⟨stage, released, rfl, current, step⟩
  · rcases started with rfl | rfl <;>
      exact tracked.shift idle rfl ⟨rfl, rfl, rfl⟩ rfl rfl rfl
  · exact tracked.returnTag idle held
  · have fits : s.refCount n + 1 < 2 ^ 32 := by simpa [Allowed, idle] using allowed
    exact tracked.addReference idle held fits
  · exact tracked.proceed current step

/-- The calls of `getTag` never share a node: between two that return it, its last reference was
given back. -/
def NeverShared (log : List Event) : Prop :=
  ∀ node newer between older,
    log = newer ++ .got node :: (between ++ .got node :: older) → .final node ∈ between

theorem final_mem {node : Nat} {between older : List Event}
    (back : outstanding node (between ++ .got node :: older) = false) :
    .final node ∈ between := by
  induction between with
  | nil => simp [outstanding] at back
  | cons event between ih =>
    cases event with
    | got other =>
      simp only [List.cons_append, outstanding, Bool.or_eq_false_iff] at back
      exact List.mem_cons_of_mem _ (ih back.2)
    | final other =>
      by_cases same : other = node
      · subst same
        simp
      · simp only [List.cons_append, outstanding, ne_eq, same, not_false_eq_true, decide_true,
          Bool.true_and] at back
        exact List.mem_cons_of_mem _ (ih back)

theorem NeverShared.cons {log : List Event} (apart : NeverShared log) {event : Event}
    (first : ∀ node, event = .got node → outstanding node log = false) :
    NeverShared (event :: log) := by
  intro node newer between older whole
  cases newer with
  | nil =>
    simp only [List.nil_append, List.cons.injEq] at whole
    obtain ⟨rfl, rfl⟩ := whole
    exact final_mem (first node rfl)
  | cons other newer =>
    simp only [List.cons_append, List.cons.injEq] at whole
    exact apart node newer between older whole.2

/-- The stages at which a thread has `allocatorMutex`. -/
@[simp] def Stage.owns : Stage → Bool
  | .populate _ | .takeRefilled | .unlock _ => true
  | _ => false

/-- The stages at which a thread works with the null pointer. -/
@[simp] def Stage.null : Stage → Bool
  | .unlock none | .pushUsed none => true
  | _ => false

/-- How far the call of a thread is from its end: the steps that follow, and the nodes that the
loop of the present one has not reached. -/
@[simp] def Stage.left : Stage → Nat ×ₗ Nat
  | .idle => toLex (0, 0)
  | .peek => toLex (14, 0)
  | .detach _ => toLex (13, 0)
  | .classify _ nodes _ _ => toLex (12, nodes.length)
  | .spliceFree _ _ _ => toLex (11, 0)
  | .spliceDeferred _ _ => toLex (10, 0)
  | .takeFront => toLex (9, 0)
  | .lock => toLex (8, 0)
  | .populate nodes => toLex (7, nodes.length)
  | .takeRefilled => toLex (6, 0)
  | .unlock _ => toLex (5, 0)
  | .pushUsed _ => toLex (4, 0)
  | .incRefCount _ => toLex (1, 0)
  | .refCountFetchSub _ => toLex (4, 0)
  | .canBeReleased _ => toLex (3, 0)
  | .removeToFree _ | .removeToDeferred _ => toLex (2, 0)
  | .pushFree _ | .pushDeferred _ => toLex (1, 0)

/-- What a step of a call does beside moving nodes. -/
structure Effect (s s' : State) (t : Nat) (stage new : Stage) : Prop where
  threads : s'.threads = s.threads.set t new
  log : s'.log = s.log ∨ (∃ node, stage = .incRefCount node ∧ s'.log = .got node :: s.log) ∨
    ∃ node, s'.log = .final node :: s.log
  /-- the null pointer comes from an empty list alone -/
  null : new.null = true → stage.null = true ∨ stage = .takeRefilled ∧ s.freeTags = []
  mutex : s'.allocatorMutex = s.allocatorMutex ∧ new.owns = stage.owns ∨
    s'.allocatorMutex = true ∧ new.owns = true ∨ stage.owns = true ∧ s'.allocatorMutex = false
  closer : new.left < stage.left

theorem proceed_effect {s s' : State} {tagCount t : Nat} {released : Bool} {stage : Stage}
    (step : s.proceed tagCount t released stage = some s') : ∃ new, Effect s s' t stage new := by
  cases stage with
  | idle => cases step
  | peek | canBeReleased =>
    simp only [State.proceed] at step
    split at step <;> cases step <;> refine ⟨_, rfl, ?_, ?_, ?_, ?_⟩ <;>
      simp [State.goto, Prod.Lex.toLex_lt_toLex]
  | detach | spliceFree | incRefCount | removeToFree | pushFree | removeToDeferred |
    pushDeferred =>
    cases step
    refine ⟨_, rfl, ?_, ?_, ?_, ?_⟩ <;>
      simp [State.goto, State.setReferences, State.setRefCount, Prod.Lex.toLex_lt_toLex]
  | classify after nodes =>
    cases nodes with
    | nil =>
      cases step
      refine ⟨_, rfl, ?_, ?_, ?_, ?_⟩ <;>
        simp [State.goto, Prod.Lex.toLex_lt_toLex]
    | cons n nodes =>
      simp only [State.proceed] at step
      split at step <;> cases step <;> refine ⟨_, rfl, ?_, ?_, ?_, ?_⟩ <;>
        simp [State.goto, Prod.Lex.toLex_lt_toLex]
  | spliceDeferred after =>
    cases step
    refine ⟨_, rfl, ?_, ?_, ?_, ?_⟩ <;> cases after <;>
      simp [State.goto, After.stage, Prod.Lex.toLex_lt_toLex]
  | takeFront =>
    simp only [State.proceed] at step
    split at step <;> cases step <;> refine ⟨_, rfl, ?_, ?_, ?_, ?_⟩ <;>
      simp [State.goto, Prod.Lex.toLex_lt_toLex]
  | lock =>
    simp only [State.proceed] at step
    split at step
    next => cases step
    next =>
      cases step
      refine ⟨_, rfl, ?_, ?_, ?_, ?_⟩ <;>
        simp [State.goto, Prod.Lex.toLex_lt_toLex]
  | populate nodes =>
    cases nodes <;> cases step <;> refine ⟨_, rfl, ?_, ?_, ?_, ?_⟩ <;>
      simp [State.goto, Prod.Lex.toLex_lt_toLex]
  | takeRefilled =>
    simp only [State.proceed] at step
    split at step
    next empty =>
      cases step
      refine ⟨_, rfl, ?_, ?_, ?_, ?_⟩ <;>
        simp [State.goto, Prod.Lex.toLex_lt_toLex, empty]
    next =>
      cases step
      refine ⟨_, rfl, ?_, ?_, ?_, ?_⟩ <;>
        simp [State.goto, Prod.Lex.toLex_lt_toLex]
  | unlock n =>
    cases step
    refine ⟨_, rfl, ?_, ?_, ?_, ?_⟩ <;> cases n <;>
      simp [State.goto, Prod.Lex.toLex_lt_toLex]
  | pushUsed n =>
    cases n with
    | none => cases step
    | some n =>
      cases step
      refine ⟨_, rfl, ?_, ?_, ?_, ?_⟩ <;>
        simp [State.goto, Prod.Lex.toLex_lt_toLex]
  | refCountFetchSub n =>
    simp only [State.proceed] at step
    split at step <;> cases step <;> refine ⟨_, rfl, ?_, ?_, ?_, ?_⟩ <;>
      simp [State.goto, State.setRefCount, Prod.Lex.toLex_lt_toLex]

/-- What every step keeps. -/
structure Inv (s : State) : Prop where
  tracked : ∀ node, Tracked s node
  apart : NeverShared s.log
  sound : ∀ stage ∈ s.threads, stage.null = false
  held : s.allocatorMutex = true → ∃ stage ∈ s.threads, stage.owns = true

theorem mem_set_of_mem {threads : List Stage} {t : Nat} {stage other : Stage}
    (current : threads[t]? = some stage) (member : other ∈ threads) (new : Stage) :
    other = stage ∨ other ∈ threads.set t new := by
  obtain ⟨i, here⟩ := List.mem_iff_getElem?.mp member
  by_cases same : t = i
  · subst same
    rw [here] at current
    exact .inl (Option.some.inj current)
  · right
    apply List.mem_iff_getElem?.mpr
    exact ⟨i, by rwa [List.getElem?_set_ne same]⟩

/-- A thread that does not have the mutex moves on without it. -/
theorem Inv.held_set {s : State} (inv : Inv s) {t : Nat} {stage new : Stage}
    (current : s.threads[t]? = some stage) (owns : stage.owns = true → new.owns = true)
    (locked : s.allocatorMutex = true) : ∃ other ∈ s.threads.set t new, other.owns = true := by
  obtain ⟨other, member, has⟩ := inv.held locked
  have inside : t < s.threads.length := (List.getElem?_eq_some_iff.mp current).1
  rcases mem_set_of_mem current member new with rfl | kept
  · exact ⟨new, List.mem_set inside new, owns has⟩
  · exact ⟨other, kept, has⟩

theorem sound_set {threads : List Stage} {t : Nat} {new : Stage}
    (sound : ∀ stage ∈ threads, stage.null = false) (fine : new.null = false) :
    ∀ stage ∈ threads.set t new, stage.null = false := by
  intro stage member
  rcases List.mem_or_eq_of_mem_set member with old | rfl
  · exact sound stage old
  · exact fine

theorem Inv.step {s s' : State} {tagCount t : Nat} {a : Action} (inv : Inv s)
    (allowed : Allowed s (t, a)) (step : s.step tagCount t a = some s') : Inv s' := by
  have tracked := fun node => (inv.tracked node).step allowed step
  rcases step_cases step with ⟨idle, new, started, rfl⟩ | ⟨n, rfl, idle, -, rfl⟩ |
    ⟨n, rfl, idle, -, rfl⟩ | ⟨stage, released, rfl, current, step⟩
  · have fine : new.null = false := by rcases started with rfl | rfl <;> rfl
    exact ⟨tracked, inv.apart, sound_set inv.sound fine,
      fun locked => inv.held_set idle nofun locked⟩
  · exact ⟨tracked, inv.apart, sound_set inv.sound rfl,
      fun locked => inv.held_set idle nofun locked⟩
  · exact ⟨tracked, inv.apart, sound_set inv.sound rfl,
      fun locked => inv.held_set idle nofun locked⟩
  · obtain ⟨new, threads, log, null, mutex, -⟩ := proceed_effect step
    have before := inv.sound stage (List.mem_of_getElem? current)
    refine ⟨tracked, ?_, ?_, ?_⟩
    · rcases log with same | ⟨node, rfl, got⟩ | ⟨node, final⟩
      · exact same ▸ inv.apart
      · rw [got]
        apply inv.apart.cons
        rintro other ⟨⟩
        have zero := ((inv.tracked node).of_pending current rfl).1
        rw [(inv.tracked node).out, zero]
        rfl
      · rw [final]
        exact inv.apart.cons nofun
    · rw [threads]
      apply sound_set inv.sound
      by_contra wrong
      rcases null (by simpa using wrong) with old | ⟨rfl, empty⟩
      · rw [before] at old
        cases old
      · -- the step is one that the run does not make
        have some : s.freeTags ≠ [] := by simpa [Allowed, current] using allowed
        exact some empty
    · intro locked
      rw [threads]
      rcases mutex with ⟨same, owns⟩ | ⟨-, owns⟩ | ⟨-, open_⟩
      · exact inv.held_set current (fun has => owns.trans has) (same ▸ locked)
      · have inside : t < s.threads.length := (List.getElem?_eq_some_iff.mp current).1
        exact ⟨new, List.mem_set inside new, owns⟩
      · rw [open_] at locked
        cases locked

theorem inv_initial (tagCount threads : Nat) : Inv (.initial tagCount threads) where
  tracked := by
    intro node
    have none : ∀ part : Stage → List Nat, part .idle = [] →
        tally part (.replicate threads .idle) node = 0 := by
      intro part empty
      apply tally_eq_zero
      intro stage member
      rw [(List.mem_replicate.mp member).2, empty]
    constructor
    · have count := count_range' node 0 tagCount
      rw [← List.range_eq_range'] at count
      simp [State.initial, none Stage.transit rfl, count]
      rfl
    · simp [State.initial, none Stage.releasing rfl]
    · simp [State.initial, none Stage.pending rfl]
    · rfl
    · simp [State.initial]
  apart := by
    intro node newer between older whole
    simp [State.initial] at whole
  sound := by
    intro stage member
    rw [(List.mem_replicate.mp member).2]
    rfl
  held := nofun

theorem reachable_inv {tagCount : Nat} {s : State}
    (reachable : Reachable ((system tagCount).restrict Allowed) s) : Inv s := by
  induction reachable with
  | start initial =>
    obtain ⟨threads, rfl⟩ := initial
    exact inv_initial tagCount threads
  | next before step ih => exact ih.step step.1 step.2

namespace State

end State

instance (s : State) (action : Nat × Action) : Decidable (Allowed s action) := by
  unfold Allowed
  split <;> infer_instance

end ComputeRuntime.TagAllocator
