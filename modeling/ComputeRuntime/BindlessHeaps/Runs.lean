import ComputeRuntime.BindlessHeaps.Slots
import Mathlib.Data.List.Nodup
import Mathlib.Data.List.Pairwise

/-! Runs of the helper: every slot is in one place, and none is handed out again before all contexts
were invalidated. -/
namespace ComputeRuntime.BindlessHeaps

open Transition BindlessHeapsHelper

variable {setup : Setup} {w w' : World} {history : List Event} {slot : SurfaceStateInHeapInfo}

/-! ### The history -/

def Event.invalidates : Event → Bool
  | .allocated _ _ invalidated => invalidated
  | _ => false

/-- Since each release of the slot all contexts were invalidated. -/
def Invalidated (history : List Event) (slot : SurfaceStateInHeapInfo) : Prop :=
  ∀ front back, history = front ++ .released slot :: back → ∃ event ∈ back, event.invalidates = true

/-- Between a release of a slot and each time that it is handed out again all contexts are
invalidated, at the latest in that step. -/
def Revalidated (history : List Event) : Prop :=
  ∀ front slot between ssSize invalidated back,
    history = front ++ .released slot :: between ++ .allocated ssSize (some slot) invalidated :: back →
      ∃ event ∈ between ++ [.allocated ssSize (some slot) invalidated], event.invalidates = true

theorem Invalidated.concat (known : Invalidated history slot) {event : Event}
    (other : event ≠ .released slot) : Invalidated (history ++ [event]) slot := by
  intro front back split
  rcases List.eq_nil_or_concat' back with rfl | ⟨back, last, rfl⟩
  · obtain ⟨_, same⟩ := List.append_inj' split rfl
    cases same
    exact absurd rfl other
  · rw [← List.cons_append, ← List.append_assoc] at split
    obtain ⟨rfl, _⟩ := List.append_inj' split rfl
    obtain ⟨found, member, invalidates⟩ := known front back rfl
    exact ⟨found, List.mem_append_left _ member, invalidates⟩

/-- An invalidation covers all slots. -/
theorem invalidated_concat {event : Event} (invalidates : event.invalidates = true) :
    Invalidated (history ++ [event]) slot := by
  intro front back split
  rcases List.eq_nil_or_concat' back with rfl | ⟨back, last, rfl⟩
  · obtain ⟨_, same⟩ := List.append_inj' split rfl
    cases same
    cases invalidates
  · rw [← List.cons_append, ← List.append_assoc] at split
    obtain ⟨_, same⟩ := List.append_inj' split rfl
    cases same
    exact ⟨event, List.mem_append_right _ (List.mem_singleton_self _), invalidates⟩

theorem Revalidated.concat (known : Revalidated history) {event : Event}
    (covered : ∀ ssSize slot invalidated, event = .allocated ssSize (some slot) invalidated →
      invalidated = true ∨ Invalidated history slot) :
    Revalidated (history ++ [event]) := by
  intro front slot between ssSize invalidated back split
  rcases List.eq_nil_or_concat' back with rfl | ⟨back, last, rfl⟩
  · obtain ⟨before, same⟩ := List.append_inj' split rfl
    cases same
    rcases covered ssSize slot invalidated rfl with now | earlier
    · exact ⟨_, List.mem_append_right _ (List.mem_singleton_self _), now⟩
    · obtain ⟨found, member, invalidates⟩ := earlier front between before
      exact ⟨found, List.mem_append_left _ member, invalidates⟩
  · rw [← List.cons_append, ← List.append_assoc] at split
    obtain ⟨before, _⟩ := List.append_inj' split rfl
    exact known front slot between ssSize invalidated back before

/-! ### All slots -/

structure World.Consistent (setup : Setup) (w : World) : Prop where
  conserved : ∀ slot, w.held.count slot + w.helper.pooled slot = w.carved.count slot
  sized : w.helper.Sized setup
  phased : w.helper.Phased
  below : ∀ slot ∈ w.carved, Below w.helper.surfaceStateHeap slot ∧ 0 < slot.ssSize
  apart : w.carved.Pairwise Apart
  released : ∀ slot, .released slot ∈ w.history → slot ∈ w.carved
  invalidated : w.helper.allocateFromReusePool = true → ∀ index,
    ∀ slot ∈ w.helper.surfaceStateInHeapVectorReuse w.helper.allocatePoolIndex index,
      Invalidated w.history slot
  revalidated : Revalidated w.history
  requested : ∀ ssSize slot invalidated,
    .allocated ssSize (some slot) invalidated ∈ w.history → slot.ssSize = ssSize

theorem consistent_init : World.Consistent setup {} where
  conserved _ := rfl
  sized := by
    intro pool index slot member
    cases member
  phased := ⟨nofun, fun _ _ _ _ => rfl⟩
  below := by simp
  apart := List.Pairwise.nil
  released := by simp
  invalidated := nofun
  revalidated := by
    intro front slot between ssSize invalidated back split
    simp at split
  requested := by simp

theorem mem_pooled {helper : BindlessHeapsHelper} {pool index : Fin 2}
    (member : slot ∈ helper.surfaceStateInHeapVectorReuse pool index) : 0 < helper.pooled slot := by
  have some := List.count_pos_iff.mpr member
  unfold pooled
  rcases zero_or_one pool with rfl | rfl
  · rcases zero_or_one index with rfl | rfl <;> omega
  · rcases zero_or_one index with rfl | rfl <;> omega

/-- No two carved slots are the same. -/
theorem World.Consistent.nodup (consistent : w.Consistent setup) : w.carved.Nodup := by
  apply List.Pairwise.imp_of_mem _ consistent.apart
  rintro slot slot' member _ apart rfl
  have positive := (consistent.below slot member).2
  rcases apart with allocation | order
  · exact allocation rfl
  · omega

theorem World.Consistent.count_le (consistent : w.Consistent setup)
    (slot : SurfaceStateInHeapInfo) : w.held.count slot + w.helper.pooled slot ≤ 1 := by
  rw [consistent.conserved slot]
  exact List.nodup_iff_count_le_one.mp consistent.nodup slot

/-! ### Steps -/

/-- The slots that can be handed out again in a step are covered by it or by an earlier one. -/
theorem World.Consistent.reusable (consistent : w.Consistent setup)
    (reusing : (w.helper.exchangePools setup).allocateFromReusePool = true) (index : Fin 2) :
    ∀ slot ∈ w.helper.surfaceStateInHeapVectorReuse
        (w.helper.exchangePools setup).allocatePoolIndex index,
      w.helper.exchanges setup = true ∨ Invalidated w.history slot := by
  intro slot member
  cases exchanges : w.helper.exchanges setup with
  | true => exact .inl rfl
  | false =>
    have same : w.helper.exchangePools setup = w.helper := by
      unfold exchangePools
      rw [exchanges]
      exact if_neg Bool.false_ne_true
    rw [same] at reusing member
    exact .inr (consistent.invalidated reusing index slot member)

theorem exchangePools_vectors (helper : BindlessHeapsHelper) :
    (helper.exchangePools setup).surfaceStateInHeapVectorReuse =
      helper.surfaceStateInHeapVectorReuse := by
  unfold exchangePools
  split <;> rfl

theorem exchangePools_heap (helper : BindlessHeapsHelper) :
    (helper.exchangePools setup).surfaceStateHeap = helper.surfaceStateHeap := by
  unfold exchangePools
  split <;> rfl

theorem exchangePools_dirty {helper : BindlessHeapsHelper}
    (exchanges : helper.exchanges setup = true) :
    (helper.exchangePools setup).stateCacheDirtyForContext = BitVec.allOnes 64 := by
  unfold exchangePools
  rw [if_pos exchanges]

/-- The history of a step that hands out a slot, or none. -/
theorem World.Consistent.allocated (consistent : w.Consistent setup) (ssSize : Nat)
    (result : Option SurfaceStateInHeapInfo) {helper' : BindlessHeapsHelper}
    (dirty : helper'.stateCacheDirtyForContext =
      (w.helper.exchangePools setup).stateCacheDirtyForContext)
    (covered : ∀ slot, result = some slot →
      w.helper.exchanges setup = true ∨ Invalidated w.history slot) :
    (∀ slot, w.helper.exchanges setup = true ∨ Invalidated w.history slot →
      Invalidated (w.history ++ [.allocated ssSize result (w.helper.exchanges setup &&
        helper'.stateCacheDirtyForContext = BitVec.allOnes 64)]) slot) ∧
    Revalidated (w.history ++ [.allocated ssSize result (w.helper.exchanges setup &&
        helper'.stateCacheDirtyForContext = BitVec.allOnes 64)]) := by
  have invalidates : w.helper.exchanges setup = true → (w.helper.exchanges setup &&
      decide (helper'.stateCacheDirtyForContext = BitVec.allOnes 64)) = true := by
    intro exchanges
    rw [dirty, exchangePools_dirty exchanges, exchanges]
    rfl
  constructor
  · rintro slot (now | before)
    · exact invalidated_concat (invalidates now)
    · exact before.concat nofun
  · apply consistent.revalidated.concat
    intro size slot invalidated equal
    cases equal
    exact (covered slot rfl).imp_left invalidates

/-- A slot from a pool. -/
theorem World.Consistent.reuse (consistent : w.Consistent setup) {ssSize : Nat} {index : Fin 2}
    {helper' : BindlessHeapsHelper}
    (reusing : (w.helper.exchangePools setup).allocateFromReusePool = true)
    (size : setup.getReusedSshVectorIndex ssSize = some index)
    (popped : (w.helper.exchangePools setup).popReused index = some (slot, helper')) :
    World.Consistent setup {
      helper := helper'
      carved := w.carved
      held := w.held ++ [slot]
      history := w.history ++ [.allocated ssSize (some slot) (w.helper.exchanges setup &&
        helper'.stateCacheDirtyForContext = BitVec.allOnes 64)] } := by
  have sized : (w.helper.exchangePools setup).Sized setup := by
    intro pool index
    rw [exchangePools_vectors]
    exact consistent.sized pool index
  have taken := popReused_popped consistent.phased.exchangePools sized reusing popped
  have reusable := consistent.reusable reusing
  have history := consistent.allocated ssSize (some slot) taken.dirty (by
    intro slot' equal
    cases equal
    have member := taken.member
    rw [exchangePools_vectors] at member
    exact reusable index slot member)
  constructor
  · intro other
    have before := consistent.conserved other
    have moved := taken.conserved other
    have same : (w.helper.exchangePools setup).pooled other = w.helper.pooled other := by
      unfold pooled
      rw [exchangePools_vectors]
    simp only [List.count_append]
    omega
  · exact taken.sized
  · exact taken.phased
  · intro other member
    rw [taken.heap, exchangePools_heap]
    exact consistent.below other member
  · exact consistent.apart
  · intro other member
    rcases List.mem_append.mp member with before | now
    · exact consistent.released other before
    · cases List.mem_singleton.mp now
  · intro stays index' other member
    obtain ⟨pool, remaining⟩ := taken.remaining stays
    rw [pool] at member
    have earlier := remaining index' other member
    rw [exchangePools_vectors] at earlier
    exact history.1 other (reusable index' other earlier)
  · exact history.2
  · intro size' slot' invalidated member
    rcases List.mem_append.mp member with before | now
    · exact consistent.requested size' slot' invalidated before
    · cases List.mem_singleton.mp now
      have fits := sized _ index slot taken.member
      exact index_eq_of_size fits size

/-- A slot from the heap, or none. -/
theorem World.Consistent.carve (consistent : w.Consistent setup) {ssSize : Nat} {grows : Bool}
    {result : Option SurfaceStateInHeapInfo} {helper' : BindlessHeapsHelper}
    (positive : 0 < ssSize)
    (carved : (w.helper.exchangePools setup).carve setup ssSize grows = some (result, helper')) :
    World.Consistent setup {
      helper := helper'
      carved := w.carved ++
        if helper'.surfaceStateHeap = w.helper.surfaceStateHeap then [] else result.toList
      held := w.held ++ result.toList
      history := w.history ++ [.allocated ssSize result (w.helper.exchanges setup &&
        helper'.stateCacheDirtyForContext = BitVec.allOnes 64)] } := by
  have sized : (w.helper.exchangePools setup).Sized setup := by
    intro pool index
    rw [exchangePools_vectors]
    exact consistent.sized pool index
  have phased : (w.helper.exchangePools setup).Phased := consistent.phased.exchangePools
  have same : ∀ slot, (w.helper.exchangePools setup).pooled slot = w.helper.pooled slot := by
    intro slot
    unfold pooled
    rw [exchangePools_vectors]
  have released : ∀ slot, Event.released slot ∈ w.history ++
      [.allocated ssSize result (w.helper.exchanges setup &&
        helper'.stateCacheDirtyForContext = BitVec.allOnes 64)] → slot ∈ w.carved := by
    intro slot member
    rcases List.mem_append.mp member with before | now
    · exact consistent.released slot before
    · cases List.mem_singleton.mp now
  rcases carve_cases carved with ⟨rfl, rfl⟩ | ⟨slot, heap, rfl, new, rfl⟩
  · have history := consistent.allocated ssSize none rfl nofun
    rw [exchangePools_heap, if_pos rfl, List.append_nil]
    constructor
    · intro other
      simp only [Option.toList_none, List.append_nil, same]
      exact consistent.conserved other
    · exact sized
    · exact phased
    · intro other member
      rw [exchangePools_heap]
      exact consistent.below other member
    · exact consistent.apart
    · exact released
    · intro reusing index other member
      simp only [exchangePools_vectors] at member
      exact history.1 other (consistent.reusable reusing index other member)
    · exact history.2
    · intro size slot invalidated member
      rcases List.mem_append.mp member with before | now
      · exact consistent.requested size slot invalidated before
      · cases List.mem_singleton.mp now
  · rw [exchangePools_heap] at new
    have behind : ∀ other ∈ w.carved, Below heap other ∧ Apart other slot := fun other member =>
      new.behind other (consistent.below other member).1
    have fresh : slot ∉ w.carved := by
      intro member
      rcases (behind slot member).2 with allocation | order
      · exact allocation rfl
      · rw [new.size] at order
        omega
    have covered : ∀ slot', some slot = some slot' →
        w.helper.exchanges setup = true ∨ Invalidated w.history slot' := by
      intro slot' equal
      cases equal
      right
      intro front back split
      apply absurd (consistent.released slot _) fresh
      rw [split]
      exact List.mem_append_right _ List.mem_cons_self
    have dirty : ({ w.helper.exchangePools setup with
        surfaceStateHeap := heap } : BindlessHeapsHelper).stateCacheDirtyForContext =
        (w.helper.exchangePools setup).stateCacheDirtyForContext := rfl
    have history := consistent.allocated ssSize (some slot) dirty covered
    rw [if_neg (new.grows positive)]
    constructor
    · intro other
      have before := consistent.conserved other
      have vectors := same other
      simp only [Option.toList_some, List.count_append]
      unfold pooled at vectors before ⊢
      simp only at vectors ⊢
      omega
    · exact sized
    · exact ⟨phased.reusing, phased.collecting⟩
    · intro other member
      rcases List.mem_append.mp member with before | now
      · exact ⟨(behind other before).1, (consistent.below other before).2⟩
      · cases List.mem_singleton.mp now
        exact ⟨new.below, new.size ▸ positive⟩
    · rw [List.pairwise_append]
      refine ⟨consistent.apart, List.pairwise_singleton _ _, ?_⟩
      intro other member slot' now
      cases List.mem_singleton.mp now
      exact (behind other member).2
    · exact fun other member => List.mem_append_left _ (released other member)
    · intro reusing index other member
      simp only [exchangePools_vectors] at member
      exact history.1 other (consistent.reusable reusing index other member)
    · exact history.2
    · intro size slot' invalidated member
      rcases List.mem_append.mp member with before | now
      · exact consistent.requested size slot' invalidated before
      · cases List.mem_singleton.mp now
        exact new.size

theorem World.Consistent.release (consistent : w.Consistent setup) {helper' : BindlessHeapsHelper}
    (holds : slot ∈ w.held) (releases : w.helper.releaseSSToReusePool setup slot = some helper') :
    World.Consistent setup { w with
      helper := helper'
      held := w.held.erase slot
      history := w.history ++ [.released slot] } := by
  obtain ⟨index, size, rfl⟩ := Option.map_eq_some_iff.mp releases
  have once := consistent.count_le slot
  have some := List.count_pos_iff.mpr holds
  have unpooled : ∀ pool index', slot ∉ w.helper.surfaceStateInHeapVectorReuse pool index' := by
    intro pool index' member
    have pooled := mem_pooled member
    omega
  have carved : slot ∈ w.carved := by
    apply List.count_pos_iff.mp
    rw [← consistent.conserved slot]
    omega
  constructor
  · intro other
    have before := consistent.conserved other
    have moved := pooled_setVector w.helper w.helper.releasePoolIndex index
      (w.helper.surfaceStateInHeapVectorReuse w.helper.releasePoolIndex index ++ [slot]) other
    rw [List.count_append] at moved
    simp only [List.count_erase]
    by_cases same : slot = other
    · subst same
      simp only [List.count_singleton_self] at moved
      simp only [beq_self_eq_true, if_true]
      omega
    · have none : [slot].count other = 0 := List.count_eq_zero.mpr (by simpa using Ne.symm same)
      rw [none] at moved
      have differs : (slot == other) = false := by simpa using same
      simp only [differs, Bool.false_eq_true, if_false]
      omega
  · apply consistent.sized.setVector
    intro other member
    rcases List.mem_append.mp member with before | now
    · exact consistent.sized _ index other before
    · cases List.mem_singleton.mp now
      exact size
  · constructor
    · exact consistent.phased.reusing
    · intro collecting pool different index'
      exact (setVector_pool different index index' _).trans
        (consistent.phased.collecting collecting pool different index')
  · exact consistent.below
  · exact consistent.apart
  · intro other member
    rcases List.mem_append.mp member with before | now
    · exact consistent.released other before
    · cases List.mem_singleton.mp now
      exact carved
  · intro reusing index' other member
    have member : other ∈
        w.helper.surfaceStateInHeapVectorReuse w.helper.allocatePoolIndex index' := by
      rw [← setVector_pool (consistent.phased.reusing reusing) index index']
      exact member
    apply (consistent.invalidated reusing index' other member).concat
    intro same
    cases same
    exact unpooled _ index' member
  · apply consistent.revalidated.concat
    intro _ _ _ same
    cases same
  · intro size' slot' invalidated member
    rcases List.mem_append.mp member with before | now
    · exact consistent.requested size' slot' invalidated before
    · cases List.mem_singleton.mp now

theorem World.Consistent.clear (consistent : w.Consistent setup) (contextId : Fin 64) :
    World.Consistent setup { w with
      helper := w.helper.clearStateDirtyForContext contextId
      history := w.history ++ [.cleared contextId] } := by
  constructor
  · exact consistent.conserved
  · exact consistent.sized
  · exact ⟨consistent.phased.reusing, consistent.phased.collecting⟩
  · exact consistent.below
  · exact consistent.apart
  · intro other member
    rcases List.mem_append.mp member with before | now
    · exact consistent.released other before
    · cases List.mem_singleton.mp now
  · exact fun reusing index other member =>
      (consistent.invalidated reusing index other member).concat nofun
  · apply consistent.revalidated.concat
    intro _ _ _ same
    cases same
  · intro size slot invalidated member
    rcases List.mem_append.mp member with before | now
    · exact consistent.requested size slot invalidated before
    · cases List.mem_singleton.mp now

/-! ### Runs -/

theorem consistent_invariant : Invariant (system setup) (World.Consistent setup) where
  initial := by
    rintro w rfl
    exact consistent_init
  preserved := by
    intro w action w' _ consistent step
    cases action with
    | allocate ssSize grows =>
      simp only [system, World.step] at step
      split at step
      next size =>
        obtain ⟨⟨result, helper'⟩, allocated, rfl⟩ := Option.map_eq_some_iff.mp step
        have positive : 0 < ssSize := by
          have state := setup.positive
          unfold bindlessImageSlotMax at size
          omega
        rcases allocate_cases allocated with ⟨slot, index, rfl, reusing, fits, popped⟩ | carved
        · have reused := consistent.reuse reusing fits popped
          have sized : (w.helper.exchangePools setup).Sized setup := by
            intro pool index
            rw [exchangePools_vectors]
            exact consistent.sized pool index
          have taken := popReused_popped consistent.phased.exchangePools sized reusing popped
          simpa only [taken.heap, exchangePools_heap, if_true, List.append_nil,
            Option.toList_some] using reused
        · exact consistent.carve positive carved
      next => cases step
    | release slot =>
      simp only [system, World.step] at step
      split at step
      next holds =>
        obtain ⟨helper', releases, rfl⟩ := Option.map_eq_some_iff.mp step
        exact consistent.release holds releases
      next => cases step
    | clear contextId =>
      cases step
      exact consistent.clear contextId

/-- What the claims of callers on their slots need. -/
structure World.Sound (w : World) : Prop where
  places : ∀ slot, w.held.count slot +
    (w.helper.surfaceStateInHeapVectorReuse 0 0).count slot +
    (w.helper.surfaceStateInHeapVectorReuse 0 1).count slot +
    (w.helper.surfaceStateInHeapVectorReuse 1 0).count slot +
    (w.helper.surfaceStateInHeapVectorReuse 1 1).count slot = if slot ∈ w.carved then 1 else 0
  apart : w.held.Pairwise Apart
  requested : ∀ ssSize slot invalidated,
    .allocated ssSize (some slot) invalidated ∈ w.history → slot.ssSize = ssSize
  revalidated : Revalidated w.history

theorem World.Consistent.sound (consistent : w.Consistent setup) : w.Sound := by
  constructor
  · intro slot
    have conserved := consistent.conserved slot
    have counted := List.Nodup.count consistent.nodup (a := slot)
    unfold pooled at conserved
    rw [← counted]
    omega
  · have nodup : w.held.Nodup := by
      apply List.nodup_iff_count_le_one.mpr
      intro slot
      have once := consistent.count_le slot
      omega
    apply List.Nodup.pairwise_of_forall_ne nodup
    intro slot holds slot' holds' different
    have carved : ∀ slot ∈ w.held, slot ∈ w.carved := by
      intro slot holds
      have some := List.count_pos_iff.mpr holds
      apply List.count_pos_iff.mp
      rw [← consistent.conserved slot]
      omega
    exact consistent.apart.forall (carved slot holds) (carved slot' holds') different
  · exact consistent.requested
  · exact consistent.revalidated

/-- In every run each slot is in one place, and it is only handed out again after all contexts were
invalidated. -/
theorem slots_conserved (reachable : Reachable (system setup) w) : w.Sound :=
  (consistent_invariant.holds reachable).sound

/-- A helper that exchanges its pools behind two released slots. -/
def smallSetup : Setup where
  surfaceStateSize := 64
  positive := by decide
  reuseSlotCountThreshold := 1
  gpuAddress allocation := 65536 * (allocation + 1)
  gpuBaseAddress _ := 0

/-- Two slots are released, and the last of them is handed out again. -/
def reuses : List Action :=
  [.allocate 64 true, .allocate 64 true, .release ⟨0, 65536, 0, 64⟩, .release ⟨0, 65600, 64, 64⟩,
    .allocate 64 true]

theorem slots_conserved_reuses :
    ∃ w, reuses.foldlM (World.step smallSetup) {} = some w ∧
      w.held = [⟨0, 65600, 64, 64⟩] ∧ w.carved.length = 2 ∧ w.Sound := by
  have ran : (reuses.foldlM (World.step smallSetup) {}).any
      (fun w => w.held = [⟨0, 65600, 64, 64⟩] ∧ w.carved.length = 2) = true := by
    decide +kernel
  obtain ⟨w, run, found⟩ := (Option.any_eq_true _ _).mp ran
  obtain ⟨held, carved⟩ := of_decide_eq_true found
  exact ⟨w, run, held, carved,
    slots_conserved (Reachable.foldlM (fun _ _ _ step => step) (.start rfl) run)⟩

end ComputeRuntime.BindlessHeaps
