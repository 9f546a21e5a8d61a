import ComputeRuntime.TagAllocator.Model
import ComputeRuntime.Library.Tally

/-! Where the nodes of a tag allocator are: in one of its lists or in the hands of one thread. For
every node this is a count that no step changes. -/
namespace ComputeRuntime.TagAllocator

open Tally Transition

namespace Stage

/-- The nodes a thread has taken out of all lists. -/
def transit : Stage → List Nat
  | .classify _ nodes pendingFreeTags pendingDeferredTags =>
    nodes ++ pendingFreeTags ++ pendingDeferredTags
  | .spliceFree _ pendingFreeTags pendingDeferredTags => pendingFreeTags ++ pendingDeferredTags
  | .spliceDeferred _ pendingDeferredTags => pendingDeferredTags
  | .populate nodes => nodes
  | .unlock node | .pushUsed node => node.toList
  | .pushFree node | .pushDeferred node => [node]
  | _ => []

/-- The used node without references that a thread takes or gives back. -/
def pending : Stage → List Nat
  | .incRefCount node | .canBeReleased node | .removeToFree node | .removeToDeferred node => [node]
  | _ => []

/-- The node to which a thread still counts as a reference that its caller has given up. -/
def releasing : Stage → List Nat
  | .refCountFetchSub node => [node]
  | _ => []

end Stage

/-- A node is out after a call of `getTag` has returned it, until its last reference is given
back. -/
def outstanding (node : Nat) : List Event → Bool
  | [] => false
  | .got other :: log => other = node || outstanding node log
  | .final other :: log => other ≠ node && outstanding node log

/-- What holds of one node in every state: it is in one place, its count is the number of its
references, and it is used while it has references or a thread is about to take or return it. -/
structure Tracked (s : State) (node : Nat) : Prop where
  placed : s.freeTags.count node + s.usedTags.count node + s.deferredTags.count node +
    tally Stage.transit s.threads node = if node < s.created then 1 else 0
  referenced : s.refCount node = s.references node + tally Stage.releasing s.threads node
  inUse : s.usedTags.count node =
    (if 0 < s.refCount node then 1 else 0) + tally Stage.pending s.threads node
  out : outstanding node s.log = decide (0 < s.refCount node)
  word : s.refCount node < 2 ^ 32

section Move

variable {s moved : State} {node t : Nat} {old new : Stage}

/-- A thread moves on: it is enough to compare what it had before with what it has now. -/
theorem Tracked.move (tracked : Tracked s node) (current : s.threads[t]? = some old)
    (threads : moved.threads = s.threads)
    (placed : moved.freeTags.count node + moved.usedTags.count node + moved.deferredTags.count node +
        new.transit.count node + (if node < s.created then 1 else 0) =
      s.freeTags.count node + s.usedTags.count node + s.deferredTags.count node +
        old.transit.count node + (if node < moved.created then 1 else 0))
    (referenced : moved.refCount node + s.references node + old.releasing.count node =
      s.refCount node + moved.references node + new.releasing.count node)
    (inUse : moved.usedTags.count node + (if 0 < s.refCount node then 1 else 0) +
        old.pending.count node =
      s.usedTags.count node + (if 0 < moved.refCount node then 1 else 0) + new.pending.count node)
    (out : outstanding node moved.log = decide (0 < moved.refCount node))
    (word : moved.refCount node < 2 ^ 32) : Tracked (moved.goto t new) node := by
  rw [← threads] at current
  have transit := tally_set Stage.transit current new node
  have pending := tally_set Stage.pending current new node
  have releasing := tally_set Stage.releasing current new node
  have before := tracked.placed
  have references := tracked.referenced
  have used := tracked.inUse
  rw [← threads] at before references used
  have placed' : moved.freeTags.count node + moved.usedTags.count node +
      moved.deferredTags.count node + tally Stage.transit (moved.threads.set t new) node =
        if node < moved.created then 1 else 0 := by omega
  have referenced' : moved.refCount node =
      moved.references node + tally Stage.releasing (moved.threads.set t new) node := by omega
  have inUse' : moved.usedTags.count node = (if 0 < moved.refCount node then 1 else 0) +
      tally Stage.pending (moved.threads.set t new) node := by omega
  exact ⟨placed', referenced', inUse', out, word⟩

/-- A step that changes no count and no reference. -/
theorem Tracked.shift (tracked : Tracked s node) (current : s.threads[t]? = some old)
    (threads : moved.threads = s.threads)
    (counts : moved.refCount = s.refCount ∧ moved.references = s.references ∧ moved.log = s.log)
    (releasing : new.releasing = old.releasing)
    (placed : moved.freeTags.count node + moved.usedTags.count node + moved.deferredTags.count node +
        new.transit.count node + (if node < s.created then 1 else 0) =
      s.freeTags.count node + s.usedTags.count node + s.deferredTags.count node +
        old.transit.count node + (if node < moved.created then 1 else 0))
    (inUse : moved.usedTags.count node + old.pending.count node =
      s.usedTags.count node + new.pending.count node) : Tracked (moved.goto t new) node := by
  obtain ⟨refCount, references, log⟩ := counts
  apply tracked.move current threads placed
  · rw [refCount, references, releasing]
  · rw [refCount]
    omega
  · rw [refCount, log]
    exact tracked.out
  · rw [refCount]
    exact tracked.word

end Move

theorem count_range' (node start size : Nat) :
    (List.range' start size).count node = if start ≤ node ∧ node < start + size then 1 else 0 := by
  rw [(List.nodup_range' 1).count]
  simp [List.mem_range'_1]

section Counted

variable {s : State} {node t n : Nat}

/-- While a thread is about to take or return a node, the node is used and has no references. -/
theorem Tracked.of_pending (tracked : Tracked s n) {stage : Stage}
    (current : s.threads[t]? = some stage) (pending : stage.pending = [n]) :
    s.refCount n = 0 ∧ 0 < s.usedTags.count n := by
  have here := le_tally Stage.pending (List.mem_of_getElem? current) n
  have placed := tracked.placed
  have inUse := tracked.inUse
  rw [pending, List.count_singleton_self] at here
  split_ifs at placed inUse <;> omega

theorem Tracked.removeUsed (tracked : Tracked s node) {stage new : Stage}
    (current : s.threads[t]? = some stage) (pending : stage.pending = [n])
    (transit : stage.transit = []) (transit' : new.transit = [n]) (pending' : new.pending = [])
    (releasing : new.releasing = stage.releasing) :
    Tracked ({ s with usedTags := s.usedTags.erase n }.goto t new) node := by
  have count : (s.usedTags.erase n).count node + [n].count node = s.usedTags.count node := by
    by_cases same : n = node
    · subst same
      have used := (tracked.of_pending current pending).2
      rw [List.count_erase_self, List.count_singleton_self]
      omega
    · rw [List.count_erase_of_ne (Ne.symm same), List.count_singleton]
      simp [same]
  refine tracked.shift current rfl ⟨rfl, rfl, rfl⟩ releasing ?_ ?_
  · simp only [transit, transit', List.count_nil]
    omega
  · simp only [pending, pending', List.count_nil]
    omega

/-- A count of another node changes. -/
theorem Tracked.other (tracked : Tracked s node) {stage : Stage}
    (current : s.threads[t]? = some stage) (differ : n ≠ node) (count references : Nat)
    (log : List Event) (new : Stage) (events : outstanding node log = outstanding node s.log)
    (transit : new.transit = stage.transit)
    (pending : new.pending.count node = stage.pending.count node)
    (releasing : new.releasing.count node = stage.releasing.count node) :
    Tracked ((({ s with log := log }.setRefCount n count).setReferences n references).goto t new)
      node := by
  have counted : Function.update s.refCount n count node = s.refCount node :=
    Function.update_of_ne (Ne.symm differ) _ _
  have referred : Function.update s.references n references node = s.references node :=
    Function.update_of_ne (Ne.symm differ) _ _
  refine tracked.move current rfl ?_ ?_ ?_ ?_ ?_
  · simp only [State.setRefCount, State.setReferences, transit]
    rfl
  · simp only [State.setRefCount, State.setReferences, counted, referred, releasing]
  · simp only [State.setRefCount, State.setReferences, counted, pending]
  · simp only [State.setRefCount, State.setReferences, counted, events, tracked.out]
  · simp only [State.setRefCount, State.setReferences, counted, tracked.word]

/-- A thread takes a node: its first reference. -/
theorem Tracked.incRefCount (tracked : Tracked s node)
    (current : s.threads[t]? = some (.incRefCount n)) :
    Tracked (({ s with log := .got n :: s.log }.setRefCount n (Word.add 32 (s.refCount n) 1)
      |>.setReferences n (s.references n + 1)).goto t .idle) node := by
  by_cases same : n = node
  · subst same
    obtain ⟨zero, -⟩ := tracked.of_pending current rfl
    have one : Word.add 32 (s.refCount n) 1 = 1 := by rw [zero]; rfl
    rw [one]
    refine tracked.move current rfl rfl ?_ ?_ ?_ ?_
    · simp [State.setRefCount, State.setReferences, Stage.releasing, zero]
      omega
    · simp [State.setRefCount, State.setReferences, Stage.pending, zero]
    · simp [State.setRefCount, State.setReferences, outstanding]
    · simp [State.setRefCount, State.setReferences]
  · apply tracked.other current same
    · simp [outstanding, same]
    · rfl
    · simp [Stage.pending, same]
    · rfl

/-- The last reference is given back. -/
theorem Tracked.release_last (tracked : Tracked s node)
    (current : s.threads[t]? = some (.refCountFetchSub n)) (last : s.refCount n = 1) :
    Tracked (({ s with log := .final n :: s.log }.setRefCount n 0).goto t (.canBeReleased n))
      node := by
  by_cases same : n = node
  · subst same
    refine tracked.move current rfl rfl ?_ ?_ ?_ ?_
    · simp [State.setRefCount, Stage.releasing, last]
      omega
    · simp [State.setRefCount, Stage.pending, last]
    · simp [State.setRefCount, outstanding]
    · simp [State.setRefCount]
  · have kept := tracked.other current same 0 (s.references n) (.final n :: s.log)
      (.canBeReleased n) (by simp [outstanding, same]) rfl (by simp [Stage.pending, same])
      (by simp [Stage.releasing, same])
    simpa [State.setRefCount, State.setReferences] using kept

/-- A reference that is not the last one is given back. -/
theorem Tracked.release_shared (tracked : Tracked s node)
    (current : s.threads[t]? = some (.refCountFetchSub n)) (shared : s.refCount n ≠ 1) :
    Tracked ((s.setRefCount n (Word.sub 32 (s.refCount n) 1)).goto t .idle) node := by
  by_cases same : n = node
  · subst same
    have here := le_tally Stage.releasing (List.mem_of_getElem? current) n
    have referenced := tracked.referenced
    have word := tracked.word
    simp only [Stage.releasing, List.count_singleton_self] at here
    rw [Word.sub_eq (by omega) word]
    refine tracked.move current rfl rfl ?_ ?_ ?_ ?_
    · simp [State.setRefCount, Stage.releasing]
      omega
    · simp [State.setRefCount, Stage.pending]
      split_ifs <;> omega
    · simp [State.setRefCount, tracked.out]
      omega
    · simp [State.setRefCount]
      omega
  · have kept := tracked.other current same (Word.sub 32 (s.refCount n) 1) (s.references n)
      s.log .idle rfl rfl rfl (by simp [Stage.releasing, same])
    simpa [State.setRefCount, State.setReferences] using kept

end Counted

/-- One step of a call, as the node sees it. -/
theorem Tracked.proceed {s s' : State} {node tagCount t : Nat} {released : Bool} {stage : Stage}
    (tracked : Tracked s node) (current : s.threads[t]? = some stage)
    (step : s.proceed tagCount t released stage = some s') : Tracked s' node := by
  cases stage with
  | idle => cases step
  | peek =>
    simp only [State.proceed] at step
    split at step <;> cases step <;> exact tracked.shift current rfl ⟨rfl, rfl, rfl⟩ rfl rfl rfl
  | detach after =>
    cases step
    refine tracked.shift current rfl ⟨rfl, rfl, rfl⟩ rfl ?_ ?_
    · simp [Stage.transit]
    · rfl
  | classify after nodes pendingFree pendingDeferred =>
    cases nodes with
    | nil =>
      cases step
      exact tracked.shift current rfl ⟨rfl, rfl, rfl⟩ rfl (by simp [Stage.transit]) rfl
    | cons n nodes =>
      simp only [State.proceed] at step
      split at step <;> cases step <;> refine tracked.shift current rfl ⟨rfl, rfl, rfl⟩ rfl ?_ ?_
      all_goals simp [Stage.transit, Stage.pending, List.count_cons]
      all_goals omega
  | spliceFree after pendingFree pendingDeferred =>
    cases step
    refine tracked.shift current rfl ⟨rfl, rfl, rfl⟩ rfl ?_ ?_
    · simp [Stage.transit]
      omega
    · rfl
  | spliceDeferred after pendingDeferred =>
    cases step
    refine tracked.shift current rfl ⟨rfl, rfl, rfl⟩ ?_ ?_ ?_
    · cases after <;> rfl
    · cases after <;> simp [Stage.transit, After.stage] <;> omega
    · cases after <;> rfl
  | takeFront =>
    simp only [State.proceed] at step
    split at step
    next => 
      cases step
      exact tracked.shift current rfl ⟨rfl, rfl, rfl⟩ rfl rfl rfl
    next n freeTags front =>
      cases step
      refine tracked.shift current rfl ⟨rfl, rfl, rfl⟩ rfl ?_ ?_
      · simp [Stage.transit, front, List.count_cons]
        omega
      · rfl
  | lock =>
    simp only [State.proceed] at step
    split at step
    next => cases step
    next =>
      cases step
      refine tracked.shift current rfl ⟨rfl, rfl, rfl⟩ rfl ?_ ?_
      · simp only [Stage.transit, count_range', List.count_nil]
        split_ifs <;> omega
      · rfl
  | populate nodes =>
    cases nodes with
    | nil =>
      cases step
      exact tracked.shift current rfl ⟨rfl, rfl, rfl⟩ rfl rfl rfl
    | cons n nodes =>
      cases step
      refine tracked.shift current rfl ⟨rfl, rfl, rfl⟩ rfl ?_ ?_
      · simp [Stage.transit, List.count_cons]
        omega
      · rfl
  | takeRefilled =>
    simp only [State.proceed] at step
    split at step
    next =>
      cases step
      exact tracked.shift current rfl ⟨rfl, rfl, rfl⟩ rfl rfl rfl
    next n freeTags front =>
      cases step
      refine tracked.shift current rfl ⟨rfl, rfl, rfl⟩ rfl ?_ ?_
      · simp [Stage.transit, front, List.count_cons]
        omega
      · rfl
  | unlock n =>
    cases step
    exact tracked.shift current rfl ⟨rfl, rfl, rfl⟩ rfl rfl rfl
  | pushUsed n =>
    cases n with
    | none => cases step
    | some n =>
      cases step
      refine tracked.shift current rfl ⟨rfl, rfl, rfl⟩ rfl ?_ ?_
      · simp [Stage.transit, List.count_cons]
        omega
      · simp [Stage.pending, List.count_cons]
  | incRefCount n =>
    cases step
    exact tracked.incRefCount current
  | refCountFetchSub n =>
    simp only [State.proceed] at step
    split at step
    next last =>
      cases step
      exact tracked.release_last current last
    next shared =>
      cases step
      exact tracked.release_shared current shared
  | canBeReleased n =>
    simp only [State.proceed] at step
    split at step <;> cases step <;> exact tracked.shift current rfl ⟨rfl, rfl, rfl⟩ rfl rfl rfl
  | removeToFree n =>
    cases step
    exact tracked.removeUsed current rfl rfl rfl rfl rfl
  | pushFree n =>
    cases step
    refine tracked.shift current rfl ⟨rfl, rfl, rfl⟩ rfl ?_ ?_
    · simp [Stage.transit, List.count_cons]
      omega
    · rfl
  | removeToDeferred n =>
    cases step
    exact tracked.removeUsed current rfl rfl rfl rfl rfl
  | pushDeferred n =>
    cases step
    refine tracked.shift current rfl ⟨rfl, rfl, rfl⟩ rfl ?_ ?_
    · simp [Stage.transit, List.count_cons]
      omega
    · rfl

end ComputeRuntime.TagAllocator
