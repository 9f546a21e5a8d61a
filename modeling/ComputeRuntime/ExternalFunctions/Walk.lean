import ComputeRuntime.ExternalFunctions.Model
import ComputeRuntime.Library.FirstPath
import ComputeRuntime.Library.Outcome
import ComputeRuntime.Library.Propagation
import Mathlib.Data.Finset.Card
import Mathlib.Data.Finset.SDiff

/-! The depth-first walk. It ends, it comes to every function on the first path to it, and it leaves
a function after those it calls, but for the ones on that path. -/
namespace ComputeRuntime.ExternalFunctions

/-- One function of the graph calls another. -/
def Edge (graph : List (List Nat)) (v w : Nat) : Prop := w ∈ graph.getD v []

/-- A function that the walk has come to and not left. -/
def DependencyResolver.Pending (resolver : DependencyResolver) (x : Nat) : Prop :=
  x ∈ resolver.seen ∧ x ∉ resolver.resolved

/-- What every part of the walk keeps: it leaves all functions that it comes to. -/
structure DependencyResolver.Extends (before after : DependencyResolver) : Prop where
  seen : before.seen ⊆ after.seen
  resolved : before.resolved ⊆ after.resolved
  pending : ∀ x, after.Pending x → before.Pending x

namespace DependencyResolver

variable {before mid after : DependencyResolver}

theorem Extends.refl (resolver : DependencyResolver) : Extends resolver resolver := by
  constructor
  · exact List.Subset.refl _
  · exact List.Subset.refl _
  · exact fun _ pending => pending

theorem Extends.trans (first : Extends before mid) (next : Extends mid after) :
    Extends before after := by
  constructor
  · exact List.Subset.trans first.seen next.seen
  · exact List.Subset.trans first.resolved next.resolved
  · exact fun x pending => first.pending x (next.pending x pending)

/-- The functions the walk has yet to come to. -/
def unseen (count : Nat) (resolver : DependencyResolver) : Nat :=
  (Finset.range count \ resolver.seen.toFinset).card

theorem unseen_le (count : Nat) (grows : Extends before after) :
    unseen count after ≤ unseen count before := by
  apply Finset.card_le_card
  apply Finset.sdiff_subset_sdiff (Finset.Subset.refl _)
  intro x member
  exact List.mem_toFinset.mpr (grows.seen (List.mem_toFinset.mp member))

/-- The walk comes to a function. -/
def enter (resolver : DependencyResolver) (nodeId : Nat) : DependencyResolver :=
  { resolver with seen := resolver.seen ++ [nodeId] }

/-- The walk leaves a function. -/
def leave (resolver : DependencyResolver) (nodeId : Nat) : DependencyResolver :=
  { resolver with resolved := resolver.resolved ++ [nodeId] }

variable {nodeId x : Nat}

theorem pending_enter (pending : (before.enter nodeId).Pending x) :
    x = nodeId ∨ before.Pending x := by
  obtain ⟨seen, unresolved⟩ := pending
  rcases List.mem_append.mp seen with earlier | now
  · exact .inr ⟨earlier, unresolved⟩
  · exact .inl (List.mem_singleton.mp now)

theorem unseen_enter {count : Nat} (inside : nodeId < count) (fresh : nodeId ∉ before.seen) :
    unseen count (before.enter nodeId) < unseen count before := by
  apply Finset.card_lt_card
  constructor
  · intro y member
    simp only [enter, List.toFinset_append, Finset.mem_sdiff, Finset.mem_union, not_or] at member ⊢
    exact ⟨member.1, member.2.1⟩
  · intro subset
    have member : nodeId ∈ Finset.range count \ before.seen.toFinset := by simp [inside, fresh]
    have gone := subset member
    simp [enter] at gone

/-- A part of the walk between coming to a function and leaving it. -/
theorem Extends.around (grows : Extends (before.enter nodeId) after) :
    Extends before (after.leave nodeId) ∧ nodeId ∈ (after.leave nodeId).seen ∧
      nodeId ∈ (after.leave nodeId).resolved := by
  have entered : nodeId ∈ (before.enter nodeId).seen := by simp [enter]
  refine ⟨⟨?_, ?_, ?_⟩, grows.seen entered, by simp [leave]⟩
  · intro y member
    exact grows.seen (List.mem_append_left _ member)
  · intro y member
    exact List.mem_append_left _ (grows.resolved member)
  · rintro y ⟨seen, unresolved⟩
    simp only [leave, List.mem_append, List.mem_singleton, not_or] at unresolved
    rcases pending_enter (grows.pending y ⟨seen, unresolved.1⟩) with same | pending
    · exact absurd same unresolved.2
    · exact pending

end DependencyResolver

open DependencyResolver

section Calls

variable {graph : List (List Nat)} {fuel v : Nat} {resolver after : DependencyResolver}

/-- The body of the walk's loops. -/
def visit (graph : List (List Nat)) (fuel : Nat) (resolver : DependencyResolver) (edgeId : Nat) :
    Result DependencyResolver :=
  if edgeId ∉ resolver.resolved ∧ edgeId ∉ resolver.seen then
    resolveDependency graph fuel edgeId resolver
  else .ok resolver

theorem resolveDependency_succ (graph : List (List Nat)) (fuel nodeId : Nat)
    (resolver : DependencyResolver) : resolveDependency graph (fuel + 1) nodeId resolver =
      (graph.getD nodeId []).foldlM (visit graph fuel) (resolver.enter nodeId) >>= fun resolver =>
        .ok (resolver.leave nodeId) := rfl

/-- A call comes to its function and leaves it. -/
theorem resolveDependency_extends (graph : List (List Nat)) (fuel v : Nat)
    (resolver : DependencyResolver) :
    Outcome.Holds (fun after => Extends resolver after ∧ v ∈ after.seen ∧ v ∈ after.resolved)
      (fun _ => True) (resolveDependency graph fuel v resolver) := by
  induction fuel generalizing v resolver with
  | zero => trivial
  | succ fuel ih =>
    rw [resolveDependency_succ]
    apply Outcome.andThen (P := Extends (resolver.enter v))
    · apply Outcome.foldlM_keeps (.refl _)
      intro edgeId _ mid grows
      unfold visit
      split
      next =>
        apply Outcome.imp (ih edgeId mid)
        · exact fun _ call => grows.trans call.1
        · exact fun _ _ => trivial
      next => exact grows
    · exact fun mid grows => grows.around

/-- More depth than is needed changes nothing. -/
theorem resolveDependency_mono (ran : resolveDependency graph fuel v resolver = .ok after)
    (more : Nat) : resolveDependency graph (fuel + more) v resolver = .ok after := by
  induction fuel generalizing v resolver after with
  | zero => cases ran
  | succ fuel ih =>
    rw [Nat.succ_add, resolveDependency_succ]
    rw [resolveDependency_succ] at ran
    obtain ⟨mid, loop, left⟩ := Outcome.bind_eq_ok.mp ran
    refine Outcome.bind_eq_ok.mpr ⟨mid, Outcome.foldlM_eq_ok ?_ loop, left⟩
    intro s edgeId t round
    unfold visit at round ⊢
    split
    next fresh =>
      rw [if_pos fresh] at round
      exact ih round
    next old =>
      rw [if_neg old] at round
      exact round

/-- As deep as there are functions to come to, the walk returns. -/
theorem resolveDependency_returns
    (closed : ∀ v w, Edge graph v w → w < graph.length) (inside : v < graph.length)
    (fresh : v ∉ resolver.seen) (enough : unseen graph.length resolver ≤ fuel) :
    ∃ after, resolveDependency graph fuel v resolver = .ok after := by
  suffices returns : Outcome.Holds (fun _ => True) (fun _ => False)
      (resolveDependency graph fuel v resolver) by
    cases ran : resolveDependency graph fuel v resolver with
    | ok after => exact ⟨after, rfl⟩
    | error _ =>
      rw [ran] at returns
      exact returns.elim
  induction fuel generalizing v resolver with
  | zero =>
    have left := unseen_enter inside fresh
    omega
  | succ fuel ih =>
    rw [resolveDependency_succ]
    apply Outcome.andThen (P := Extends (resolver.enter v))
    · apply Outcome.foldlM_keeps (.refl _)
      intro edgeId edge mid grows
      unfold visit
      split
      next new =>
        have less := unseen_enter inside fresh
        have left := unseen_le graph.length grows
        have call := ih (closed v edgeId edge) new.2 (by omega)
        cases ran : resolveDependency graph fuel edgeId mid with
        | ok after =>
          exact grows.trans (Outcome.of_ok (resolveDependency_extends graph fuel edgeId mid) ran).1
        | error _ =>
          rw [ran] at call
          exact call.elim
      next => exact grows
    · exact fun _ _ => trivial

/-- The functions that a function of the graph calls, in order. -/
abbrev edges (graph : List (List Nat)) (v : Nat) : List Nat := graph.getD v []

/-- The walk where it has come along a path. What it has left has been left in the right order. -/
structure Standing (graph : List (List Nat)) (path : List Nat) (resolver : DependencyResolver) :
    Prop where
  pending : ∀ x, resolver.Pending x ↔ x ∈ path
  subset : resolver.resolved ⊆ resolver.seen
  once : resolver.resolved.Nodup
  closed : ∀ x ∈ resolver.resolved, ∀ w ∈ edges graph x, w ∈ resolver.seen
  explored : FirstPath.Explored (List.range graph.length) (edges graph) resolver.seen path
  isPath : FirstPath.IsPath (List.range graph.length) (edges graph) path
  nodup : path.Nodup
  left : ∀ u ∈ resolver.resolved,
    ∃ first, FirstPath.First (List.range graph.length) (edges graph) first u ∧
      ∀ w ∈ edges graph u, Propagation.Precedes resolver.resolved w u ↔ w ∉ first

namespace Standing

variable {path : List Nat}

/-- The walk comes to a function when it has seen all in front of it. -/
theorem enter (standing : Standing graph path resolver) (fresh : v ∉ resolver.seen)
    (next : v ∈ FirstPath.choices (List.range graph.length) (edges graph) path)
    (before : ∀ y ∈ FirstPath.inFront
      (FirstPath.choices (List.range graph.length) (edges graph) path) v, y ∈ resolver.seen) :
    Standing graph (path ++ [v]) (resolver.enter v) ∧
      FirstPath.First (List.range graph.length) (edges graph) (path ++ [v]) v := by
  have grows : resolver.seen ⊆ (resolver.enter v).seen := List.subset_append_left _ _
  have apart : v ∉ path := fun member => fresh ((standing.pending v).mpr member).1
  have nodup : (path ++ [v]).Nodup := by
    simpa [List.nodup_append] using ⟨standing.nodup, fun x member => by
      rintro rfl
      exact apart member⟩
  have explored := standing.explored.concat (v := v) (fun x seen outside w edge => by
    -- what is seen and not on the path has been left
    have left : x ∈ resolver.resolved := by
      by_contra unresolved
      exact outside ((standing.pending x).mp ⟨seen, unresolved⟩)
    exact standing.closed x left w edge) before
  have isPath := standing.isPath.concat next
  constructor
  · refine ⟨fun x => ?_, fun x left => grows (standing.subset left), standing.once,
      fun x left w edge => grows (standing.closed x left w edge), explored.mono grows, isPath,
      nodup, standing.left⟩
    rw [List.mem_append, List.mem_singleton, ← standing.pending x]
    constructor
    · exact fun pending => (pending_enter pending).symm
    · rintro (pending | rfl)
      · exact ⟨grows pending.1, pending.2⟩
      · exact ⟨by simp [DependencyResolver.enter], fun left => fresh (standing.subset left)⟩
  · exact .of_explored isPath nodup List.getLast?_concat explored fresh

/-- The walk leaves a function when it has seen all that it calls. -/
theorem leave (standing : Standing graph (path ++ [v]) resolver)
    (first : FirstPath.First (List.range graph.length) (edges graph) (path ++ [v]) v)
    (seen : ∀ w ∈ edges graph v, w ∈ resolver.seen)
    (explored : FirstPath.Explored (List.range graph.length) (edges graph) resolver.seen path) :
    Standing graph path (resolver.leave v) := by
  have pending := (standing.pending v).mpr (by simp)
  have apart : v ∉ path := fun member =>
    (List.nodup_append.mp standing.nodup).2.2 v member v (by simp) rfl
  have once : (resolver.resolved ++ [v]).Nodup := by
    simpa [List.nodup_append] using ⟨standing.once, fun x member => by
      rintro rfl
      exact pending.2 member⟩
  refine ⟨fun x => ?_, ?_, once, ?_, explored, standing.isPath.left,
    (List.nodup_append.mp standing.nodup).1, ?_⟩
  · have was := standing.pending x
    simp only [Pending, DependencyResolver.leave, List.mem_append, List.mem_singleton,
      not_or] at was ⊢
    constructor
    · exact fun still => (was.mp ⟨still.1, still.2.1⟩).resolve_right still.2.2
    · intro member
      have still := was.mpr (.inl member)
      refine ⟨still.1, still.2, ?_⟩
      rintro rfl
      exact apart member
  · intro x left
    rcases List.mem_append.mp left with earlier | now
    · exact standing.subset earlier
    · exact List.mem_singleton.mp now ▸ pending.1
  · intro x left w edge
    rcases List.mem_append.mp left with earlier | now
    · exact standing.closed x earlier w edge
    · exact seen w (List.mem_singleton.mp now ▸ edge)
  · intro u left
    rcases List.mem_append.mp left with earlier | now
    · obtain ⟨path', first', order⟩ := standing.left u earlier
      refine ⟨path', first', fun w edge => ?_⟩
      rw [← order w edge]
      obtain ⟨front, rest, whole⟩ := List.append_of_mem earlier
      simp only [DependencyResolver.leave]
      rw [whole] at once ⊢
      rw [List.append_assoc, List.cons_append] at once ⊢
      rw [Propagation.precedes_iff once, Propagation.precedes_iff (whole ▸ standing.once)]
    · obtain rfl := List.mem_singleton.mp now
      refine ⟨path ++ [u], first, fun w edge => ?_⟩
      rw [← standing.pending w, DependencyResolver.leave, Propagation.precedes_iff once]
      simp [Pending, seen w edge]

end Standing

/-- A call of the walk. -/
theorem resolveDependency_standing {path : List Nat} (standing : Standing graph path resolver)
    (fresh : v ∉ resolver.seen)
    (next : v ∈ FirstPath.choices (List.range graph.length) (edges graph) path)
    (before : ∀ y ∈ FirstPath.inFront
      (FirstPath.choices (List.range graph.length) (edges graph) path) v, y ∈ resolver.seen)
    (ran : resolveDependency graph fuel v resolver = .ok after) : Standing graph path after := by
  induction fuel generalizing v resolver after path with
  | zero => cases ran
  | succ fuel ih =>
    rw [resolveDependency_succ] at ran
    obtain ⟨mid, loop, left⟩ := Outcome.bind_eq_ok.mp ran
    cases left
    obtain ⟨entered, first⟩ := standing.enter fresh next before
    have walked : Outcome.Holds (fun mid => Extends (resolver.enter v) mid ∧
        Standing graph (path ++ [v]) mid ∧ ∀ w ∈ edges graph v, w ∈ mid.seen) (fun _ => True)
        ((graph.getD v []).foldlM (visit graph fuel) (resolver.enter v)) := by
      apply Outcome.foldlM (P := fun done mid => Extends (resolver.enter v) mid ∧
        Standing graph (path ++ [v]) mid ∧ ∀ w ∈ done, w ∈ mid.seen)
      · exact ⟨.refl _, entered, by simp⟩
      · rintro done edgeId mid known ⟨grows, standing, seen⟩
        have edge : edgeId ∈ edges graph v := known.subset (by simp)
        unfold visit
        split
        next new =>
          cases called : resolveDependency graph fuel edgeId mid with
          | error _ => trivial
          | ok after =>
            obtain ⟨further, edgeSeen, _⟩ :=
              Outcome.of_ok (resolveDependency_extends graph fuel edgeId mid) called
            refine ⟨grows.trans further, ?_, ?_⟩
            · apply ih standing new.2 _ _ called
              · rw [FirstPath.choices_concat]
                exact edge
              · rw [FirstPath.choices_concat]
                obtain ⟨rest, whole⟩ := known
                rw [List.append_assoc] at whole
                intro y inFront
                change y ∈ FirstPath.inFront (edges graph v) edgeId at inFront
                rw [← whole] at inFront
                exact seen y (FirstPath.inFront_subset done rest edgeId inFront)
            · intro w member
              rcases List.mem_append.mp member with earlier | last
              · exact further.seen (seen w earlier)
              · exact List.mem_singleton.mp last ▸ edgeSeen
        next old =>
          refine ⟨grows, standing, ?_⟩
          intro w member
          rcases List.mem_append.mp member with earlier | last
          · exact seen w earlier
          · obtain rfl := List.mem_singleton.mp last
            by_contra unseen
            exact old ⟨fun left => unseen (standing.subset left), unseen⟩
    obtain ⟨grows, inside, seen⟩ := Outcome.of_ok walked loop
    refine inside.leave first seen (standing.explored.mono ?_)
    exact List.Subset.trans (List.subset_append_left _ _) grows.seen

end Calls

section Whole

variable {graph : List (List Nat)} {fuel : Nat} {order : List Nat}

/-- The body of the outer loop. -/
def start (graph : List (List Nat)) (fuel : Nat) (resolver : DependencyResolver) (i : Nat) :
    Result DependencyResolver :=
  if i ∉ resolver.seen then resolveDependency graph fuel i resolver else .ok resolver

theorem resolveDependencies_eq (fuel : Nat) (graph : List (List Nat)) :
    resolveDependencies fuel graph =
      (List.range graph.length).foldlM (start graph fuel) {} >>= fun resolver =>
        .ok resolver.resolved := rfl

theorem resolveDependencies_mono (ran : resolveDependencies fuel graph = .ok order) (more : Nat) :
    resolveDependencies (fuel + more) graph = .ok order := by
  rw [resolveDependencies_eq] at ran ⊢
  obtain ⟨resolver, loop, same⟩ := Outcome.bind_eq_ok.mp ran
  refine Outcome.bind_eq_ok.mpr ⟨resolver, Outcome.foldlM_eq_ok ?_ loop, same⟩
  intro s i t round
  unfold start at round ⊢
  split
  next fresh =>
    rw [if_pos fresh] at round
    exact resolveDependency_mono round more
  next old =>
    rw [if_neg old] at round
    exact round

theorem resolveDependencies_returns (closed : ∀ v w, Edge graph v w → w < graph.length)
    (enough : graph.length ≤ fuel) : ∃ order, resolveDependencies fuel graph = .ok order := by
  have returns : Outcome.Holds (fun _ => True) (fun _ => False)
      ((List.range graph.length).foldlM (start graph fuel) {}) := by
    apply Outcome.foldlM_keeps trivial
    intro i inside resolver _
    unfold start
    split
    next fresh =>
      have few : unseen graph.length resolver ≤ graph.length := by
        apply Nat.le_trans (Finset.card_le_card Finset.sdiff_subset)
        rw [Finset.card_range]
      obtain ⟨after, ran⟩ := resolveDependency_returns closed (List.mem_range.mp inside) fresh
        (Nat.le_trans few enough)
      rw [ran]
      trivial
    next => trivial
  rw [resolveDependencies_eq]
  cases loop : (List.range graph.length).foldlM (start graph fuel) {} with
  | ok resolver => exact ⟨resolver.resolved, rfl⟩
  | error _ =>
    rw [loop] at returns
    exact returns.elim

/-- The order has every function once, behind those it calls that are not on the first path to
it. -/
theorem resolveDependencies_ordered (ran : resolveDependencies fuel graph = .ok order) :
    order.Nodup ∧ ∀ u < graph.length, u ∈ order ∧
      ∃ first, FirstPath.First (List.range graph.length) (edges graph) first u ∧
        ∀ w ∈ edges graph u, Propagation.Precedes order w u ↔ w ∉ first := by
  rw [resolveDependencies_eq] at ran
  obtain ⟨resolver, loop, same⟩ := Outcome.bind_eq_ok.mp ran
  cases same
  have walked : Outcome.Holds (fun resolver : DependencyResolver => Standing graph [] resolver ∧
      ∀ v ∈ List.range graph.length, v ∈ resolver.seen) (fun _ => True)
      ((List.range graph.length).foldlM (start graph fuel) {}) := by
    apply Outcome.foldlM (P := fun done (resolver : DependencyResolver) =>
      Standing graph [] resolver ∧ ∀ v ∈ done, v ∈ resolver.seen)
    · refine ⟨⟨by simp [Pending], List.Subset.refl _, List.nodup_nil, by simp,
        FirstPath.explored_nil, FirstPath.isPath_nil, List.nodup_nil, by simp⟩, by simp⟩
    · rintro done i resolver known ⟨standing, seen⟩
      unfold start
      split
      next fresh =>
        cases called : resolveDependency graph fuel i resolver with
        | error _ => trivial
        | ok after =>
          obtain ⟨grows, new, _⟩ :=
            Outcome.of_ok (resolveDependency_extends graph fuel i resolver) called
          refine ⟨resolveDependency_standing standing fresh (known.subset (by simp)) ?_ called, ?_⟩
          · obtain ⟨rest, whole⟩ := known
            rw [List.append_assoc] at whole
            intro y inFront
            change y ∈ FirstPath.inFront (List.range graph.length) i at inFront
            rw [← whole] at inFront
            exact seen y (FirstPath.inFront_subset done rest i inFront)
          · intro v member
            rcases List.mem_append.mp member with earlier | last
            · exact grows.seen (seen v earlier)
            · exact List.mem_singleton.mp last ▸ new
      next old =>
        refine ⟨standing, ?_⟩
        intro v member
        rcases List.mem_append.mp member with earlier | last
        · exact seen v earlier
        · exact List.mem_singleton.mp last ▸ not_not.mp old
  obtain ⟨standing, seen⟩ := Outcome.of_ok walked loop
  refine ⟨standing.once, fun u inside => ?_⟩
  have left : u ∈ resolver.resolved := by
    by_contra unresolved
    exact List.not_mem_nil
      ((standing.pending u).mp ⟨seen u (List.mem_range.mpr inside), unresolved⟩)
  exact ⟨left, standing.left u left⟩

end Whole

end ComputeRuntime.ExternalFunctions
