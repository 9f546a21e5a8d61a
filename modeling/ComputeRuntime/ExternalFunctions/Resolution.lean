import ComputeRuntime.ExternalFunctions.Walk
import Mathlib.Order.Bounds.Image
import Mathlib.Data.Fintype.Order
import Mathlib.Order.Lattice.Nat

/-! What resolving leaves behind: the attributes of a function are those that came to it in the
order of the walk. -/
namespace ComputeRuntime.ExternalFunctions

/-- The attributes that are handed on, ordered by the barrier count and by the flag. -/
def attributes (infos : List ExternalFunctionInfo) (i : Nat) : Nat × Bool :=
  ((infos.getD i {}).barrierCount, (infos.getD i {}).hasRTCalls)

def KernelAttributes.pair (kernelAttributes : KernelAttributes) : Nat × Bool :=
  (kernelAttributes.barrierCount, kernelAttributes.hasRTCalls)

/-- One function calls another, by the names of a dependency. -/
def Calls (infos : List ExternalFunctionInfo) (funcDependencies : List ExternalFunctionUsageExtFunc)
    (f g : Nat) : Prop :=
  ∃ funcDep ∈ funcDependencies, funcNameToId infos funcDep.callerFuncName = some f ∧
    funcNameToId infos funcDep.usedFuncName = some g

abbrev Reaches (infos : List ExternalFunctionInfo)
    (funcDependencies : List ExternalFunctionUsageExtFunc) : Nat → Nat → Prop :=
  Relation.ReflTransGen (Calls infos funcDependencies)

/-- The functions that a function calls, in the order of the dependencies. -/
def callees (ids : FuncNameToIdMapT) (funcDependencies : List ExternalFunctionUsageExtFunc)
    (f : Nat) : List Nat :=
  funcDependencies.filterMap fun funcDep =>
    if ids funcDep.callerFuncName = some f then ids funcDep.usedFuncName else none

/-- The functions that call a function. -/
def callers (ids : FuncNameToIdMapT) (funcDependencies : List ExternalFunctionUsageExtFunc)
    (g : Nat) : List Nat :=
  funcDependencies.filterMap fun funcDep =>
    if ids funcDep.usedFuncName = some g then ids funcDep.callerFuncName else none

def Known (infos : List ExternalFunctionInfo) (name : String) : Prop :=
  ∃ info ∈ infos, info.functionName = name

/-- The largest barrier count, and whether there is a flag among them. -/
structure Combines (s : Set (Nat × Bool)) (barrierCount : Nat) (hasRTCalls : Bool) : Prop where
  max : IsGreatest (Prod.fst '' s) barrierCount
  any : hasRTCalls = true ↔ ∃ x ∈ s, x.2 = true

section Names

variable {infos : List ExternalFunctionInfo} {name : String} {i : Nat}

theorem funcNameToId_concat (infos : List ExternalFunctionInfo) (info : ExternalFunctionInfo) :
    funcNameToId (infos ++ [info]) =
      Function.update (funcNameToId infos) info.functionName (some infos.length) := by
  simp [funcNameToId, List.zipIdx_append]

theorem funcNameToId_lt (found : funcNameToId infos name = some i) : i < infos.length := by
  induction infos using List.reverseRecOn with
  | nil => cases found
  | append_singleton infos info ih =>
    rw [funcNameToId_concat, Function.update_apply] at found
    rw [List.length_append, List.length_singleton]
    split at found
    next =>
      cases found
      exact Nat.lt_succ_self _
    next => exact Nat.lt_succ_of_lt (ih found)

theorem funcNameToId_isSome : (funcNameToId infos name).isSome = true ↔ Known infos name := by
  induction infos using List.reverseRecOn with
  | nil => simp [funcNameToId, Known]
  | append_singleton infos info ih =>
    rw [funcNameToId_concat, Function.update_apply]
    split
    next same =>
      constructor
      · exact fun _ => ⟨info, by simp, same.symm⟩
      · exact fun _ => rfl
    next other =>
      rw [ih]
      constructor
      · rintro ⟨known, member, same⟩
        exact ⟨known, List.mem_append_left _ member, same⟩
      · rintro ⟨known, member, same⟩
        rcases List.mem_append.mp member with earlier | last
        · exact ⟨known, earlier, same⟩
        · rw [List.mem_singleton.mp last] at same
          exact absurd same.symm other

end Names

section Graph

variable {ids : FuncNameToIdMapT} {funcDependencies : List ExternalFunctionUsageExtFunc}
  {out : Dependencies}

theorem mem_callees {infos : List ExternalFunctionInfo} {f g : Nat} :
    g ∈ callees (funcNameToId infos) funcDependencies f ↔ Calls infos funcDependencies f g := by
  simp [callees, Calls, List.mem_filterMap]

theorem mem_callers {infos : List ExternalFunctionInfo} {f g : Nat} :
    f ∈ callers (funcNameToId infos) funcDependencies g ↔ Calls infos funcDependencies f g := by
  simp [callers, Calls, List.mem_filterMap, and_comm]

theorem getD_modify {lists : List (List Nat)} {i : Nat} (inside : i < lists.length) (j y : Nat) :
    (lists.modify i (· ++ [y])).getD j [] =
      if i = j then lists.getD j [] ++ [y] else lists.getD j [] := by
  rw [List.getD_eq_getElem?_getD, List.getD_eq_getElem?_getD, List.getElem?_modify]
  by_cases same : i = j
  · subst same
    simp [List.getElem?_eq_getElem inside]
  · simp [same]

/-- A dependency between known functions is an edge in both lists, behind those before it. -/
theorem getExtFuncDependencies_known
    (known : ∀ funcDep ∈ funcDependencies, (ids funcDep.callerFuncName).isSome = true ∧
      (ids funcDep.usedFuncName).isSome = true)
    (inCallers : ∀ name i, ids name = some i → i < out.outDependencies.length)
    (inCallees : ∀ name i, ids name = some i → i < out.outCalledBy.length) :
    ∃ out', getExtFuncDependencies ids funcDependencies out = (.resolveSuccess, out') ∧
      out'.outDependencies.length = out.outDependencies.length ∧
      (∀ f, out'.outDependencies.getD f [] =
        out.outDependencies.getD f [] ++ callees ids funcDependencies f) ∧
      ∀ g, out'.outCalledBy.getD g [] =
        out.outCalledBy.getD g [] ++ callers ids funcDependencies g := by
  induction funcDependencies generalizing out with
  | nil => exact ⟨out, rfl, rfl, by simp [callees], by simp [callers]⟩
  | cons funcDep rest ih =>
    obtain ⟨⟨callerId, caller⟩, ⟨calleeId, callee⟩⟩ :
        (∃ i, ids funcDep.callerFuncName = some i) ∧ ∃ i, ids funcDep.usedFuncName = some i := by
      have both := known funcDep List.mem_cons_self
      exact ⟨Option.isSome_iff_exists.mp both.1, Option.isSome_iff_exists.mp both.2⟩
    obtain ⟨out', ran, length, edges, backEdges⟩ :=
      @ih ⟨out.outDependencies.modify callerId (· ++ [calleeId]),
        out.outCalledBy.modify calleeId (· ++ [callerId])⟩
        (fun dep member => known dep (List.mem_cons_of_mem _ member))
        (by simpa using inCallers) (by simpa using inCallees)
    refine ⟨out', ?_, ?_, fun f => ?_, fun g => ?_⟩
    · simp only [getExtFuncDependencies, caller, callee]
      exact ran
    · simpa using length
    · rw [edges, getD_modify (inCallers _ _ caller)]
      by_cases same : callerId = f
      · simp [callees, caller, callee, same]
      · simp [callees, caller, same]
    · rw [backEdges, getD_modify (inCallees _ _ callee)]
      by_cases same : calleeId = g
      · simp [callers, caller, callee, same]
      · simp [callers, callee, same]

theorem getExtFuncDependencies_unknown
    (unknown : ¬ ∀ funcDep ∈ funcDependencies, (ids funcDep.callerFuncName).isSome = true ∧
      (ids funcDep.usedFuncName).isSome = true) :
    (getExtFuncDependencies ids funcDependencies out).1 = .errorExternalFunctionInfoMissing := by
  induction funcDependencies generalizing out with
  | nil => exact absurd (by simp) unknown
  | cons funcDep rest ih =>
    unfold getExtFuncDependencies
    split
    next callerId calleeId caller callee =>
      apply ih
      intro known
      apply unknown
      intro dep member
      rcases List.mem_cons.mp member with rfl | later
      · simp [caller, callee]
      · exact known dep later
    next => rfl

end Graph

section Values

variable {infos : List ExternalFunctionInfo} {calledBy : List (List Nat)} {order : List Nat}

theorem attributes_require {u : Nat} (inside : u < infos.length) (callee : ExternalFunctionInfo) :
    attributes (infos.modify u (·.require callee)) =
      Propagation.absorb (attributes infos) u (callee.barrierCount, callee.hasRTCalls) := by
  funext i
  simp only [attributes, List.getD_eq_getElem?_getD, List.getElem?_modify, Propagation.absorb,
    Function.update_apply]
  by_cases same : u = i
  · subst same
    simp [List.getElem?_eq_getElem inside, ExternalFunctionInfo.require]
  · simp [same, Ne.symm same]

theorem attributes_updateCallers {v : Nat}
    (inside : ∀ u ∈ calledBy.getD v [], u < infos.length) :
    attributes (updateCallers calledBy infos v) =
      Propagation.push (calledBy.getD v []) (attributes infos) v := by
  unfold updateCallers Propagation.push
  generalize calledBy.getD v [] = callers at inside ⊢
  induction callers generalizing infos with
  | nil => rfl
  | cons u rest ih =>
    rw [List.foldl_cons, List.foldl_cons, ih, attributes_require (inside u List.mem_cons_self)]
    · rfl
    · intro w member
      rw [List.length_modify]
      exact inside w (List.mem_cons_of_mem _ member)

@[simp] theorem updateCallers_length (calledBy : List (List Nat))
    (infos : List ExternalFunctionInfo) (v : Nat) :
    (updateCallers calledBy infos v).length = infos.length := by
  unfold updateCallers
  induction calledBy.getD v [] generalizing infos with
  | nil => rfl
  | cons u rest ih => rw [List.foldl_cons, ih, List.length_modify]

/-- The loop over the walk's order passes the attributes on. -/
theorem attributes_pass (inside : ∀ v, ∀ u ∈ calledBy.getD v [], u < infos.length) :
    attributes (order.foldl (updateCallers calledBy) infos) =
      Propagation.pass (fun v => calledBy.getD v []) order (attributes infos) := by
  induction order generalizing infos with
  | nil => rfl
  | cons v order ih =>
    rw [List.foldl_cons, ih, attributes_updateCallers (inside v)]
    · rfl
    · simpa using inside

theorem combines_of_isLUB {s : Set (Nat × Bool)} {barrierCount : Nat} {hasRTCalls : Bool}
    (nonempty : s.Nonempty) (lub : IsLUB s (barrierCount, hasRTCalls)) :
    Combines s barrierCount hasRTCalls := by
  obtain ⟨counts, flags⟩ := isLUB_prod.mp lub
  constructor
  · refine ⟨?_, counts.1⟩
    -- below the least upper bound there is no other one
    by_contra missing
    obtain ⟨x, member⟩ := nonempty
    have below : barrierCount - 1 ∈ upperBounds (Prod.fst '' s) := by
      intro count reached
      have le := counts.1 reached
      have ne : count ≠ barrierCount := by
        rintro rfl
        exact missing reached
      exact Nat.le_sub_one_of_lt (Nat.lt_of_le_of_ne le ne)
    have le := counts.2 below
    have first := counts.1 (Set.mem_image_of_mem _ member)
    have ne : x.1 ≠ barrierCount := fun same => missing (same ▸ Set.mem_image_of_mem _ member)
    change x.1 ≤ barrierCount at first
    change barrierCount ≤ barrierCount - 1 at le
    omega
  · constructor
    · rintro set
      by_contra none_set
      have below : false ∈ upperBounds (Prod.snd '' s) := by
        rintro flag ⟨x, member, rfl⟩
        cases flag : x.2 with
        | false => exact Bool.le_refl _
        | true => exact absurd ⟨x, member, flag⟩ none_set
      have le := flags.2 below
      subst set
      exact Bool.noConfusion (Bool.eq_true_of_true_le le)
    · rintro ⟨x, member, set⟩
      have le : x.2 ≤ hasRTCalls := flags.1 (Set.mem_image_of_mem _ member)
      rw [set] at le
      exact Bool.eq_true_of_true_le le

theorem updateCallers_names (calledBy : List (List Nat)) (infos : List ExternalFunctionInfo)
    (v : Nat) : (updateCallers calledBy infos v).map (·.functionName) =
      infos.map (·.functionName) := by
  unfold updateCallers
  induction calledBy.getD v [] generalizing infos with
  | nil => rfl
  | cons u rest ih =>
    rw [List.foldl_cons, ih]
    apply List.ext_getElem?
    intro i
    simp only [List.getElem?_map, List.getElem?_modify]
    split
    all_goals cases infos[i]? <;> rfl

theorem pass_names (calledBy : List (List Nat)) (order : List Nat)
    (infos : List ExternalFunctionInfo) :
    (order.foldl (updateCallers calledBy) infos).map (·.functionName) =
      infos.map (·.functionName) := by
  induction order generalizing infos with
  | nil => rfl
  | cons v order ih => rw [List.foldl_cons, ih, updateCallers_names]

end Values

section Kernels

variable {infos : List ExternalFunctionInfo} {ids : FuncNameToIdMapT}
  {kernelDependencies : List ExternalFunctionUsageKernel} {kernels : KernelDescriptorMapT}

/-- What a kernel needs: what it needed itself, and what the functions it calls need. -/
def kernelNeeds (needs : Nat → Set (Nat × Bool)) (ids : FuncNameToIdMapT)
    (kernelDependencies : List ExternalFunctionUsageKernel) (name : String)
    (own : KernelAttributes) : Set (Nat × Bool) :=
  {x | x = own.pair ∨ ∃ kernelDep ∈ kernelDependencies, kernelDep.kernelName = name ∧
    ∃ f, ids kernelDep.usedFuncName = some f ∧ x ∈ needs f}

theorem pair_require (own : KernelAttributes) (infos : List ExternalFunctionInfo) (f : Nat) :
    (own.require (infos.getD f {})).pair = own.pair ⊔ attributes infos f := by
  apply Prod.ext
  · exact Nat.max_comm _ _
  · rfl

theorem resolveKernelDependencies_known
    (known : ∀ kernelDep ∈ kernelDependencies, (ids kernelDep.usedFuncName).isSome = true ∧
      (kernels kernelDep.kernelName).isSome = true) :
    ∃ kernels', resolveKernelDependencies infos ids kernelDependencies kernels =
        (.resolveSuccess, kernels') ∧
      ∀ name, (kernels name = none → kernels' name = none) ∧
        ∀ own, kernels name = some own → ∃ after, kernels' name = some after ∧
          IsLUB (kernelNeeds (fun f => {attributes infos f}) ids kernelDependencies name own)
            after.pair := by
  induction kernelDependencies generalizing kernels with
  | nil =>
    refine ⟨kernels, rfl, fun name => ⟨id, fun own found => ⟨own, found, ?_⟩⟩⟩
    have single : kernelNeeds (fun f => {attributes infos f}) ids [] name own = {own.pair} := by
      ext x
      simp [kernelNeeds]
    rw [single]
    exact isLUB_singleton
  | cons kernelDep rest ih =>
    obtain ⟨⟨f, used⟩, ⟨before, kernel⟩⟩ : (∃ f, ids kernelDep.usedFuncName = some f) ∧
        ∃ before, kernels kernelDep.kernelName = some before := by
      have both := known kernelDep List.mem_cons_self
      exact ⟨Option.isSome_iff_exists.mp both.1, Option.isSome_iff_exists.mp both.2⟩
    have still : ∀ dep ∈ rest, (ids dep.usedFuncName).isSome = true ∧
        (Function.update kernels kernelDep.kernelName
          (some (before.require (infos.getD f {}))) dep.kernelName).isSome = true := by
      intro dep member
      have both := known dep (List.mem_cons_of_mem _ member)
      refine ⟨both.1, ?_⟩
      rw [Function.update_apply]
      split
      next => rfl
      next => exact both.2
    obtain ⟨kernels', ran, kept⟩ := ih still
    refine ⟨kernels', ?_, fun name => ⟨fun missing => ?_, fun own found => ?_⟩⟩
    · simp only [resolveKernelDependencies, used, kernel]
      exact ran
    · apply (kept name).1
      rw [Function.update_apply, if_neg]
      · exact missing
      · rintro rfl
        cases missing.symm.trans kernel
    · by_cases same : name = kernelDep.kernelName
      · subst same
        cases found.symm.trans kernel
        obtain ⟨after, found', lub⟩ :=
          (kept kernelDep.kernelName).2 _ (Function.update_self ..)
        refine ⟨after, found', (isLUB_congr ?_).mp lub⟩
        -- the first dependency's function counts as the kernel's own need
        ext bound
        simp only [upperBounds, kernelNeeds, Set.mem_ofPred_eq, Set.mem_singleton_iff, List.mem_cons,
          exists_eq_or_imp, pair_require, used, Option.some.injEq, true_and, exists_eq_left']
        constructor
        · rintro all x (rfl | rfl | later)
          · exact le_sup_left.trans (all (.inl rfl))
          · exact le_sup_right.trans (all (.inl rfl))
          · exact all (.inr later)
        · rintro all x (rfl | later)
          · exact sup_le (all (.inl rfl)) (all (.inr (.inl rfl)))
          · exact all (.inr (.inr later))
      · obtain ⟨after, found', lub⟩ := (kept name).2 own
          ((Function.update_of_ne same _ _).trans found)
        refine ⟨after, found', (isLUB_congr ?_).mp lub⟩
        have other : ¬ kernelDep.kernelName = name := fun eq => same eq.symm
        simp only [kernelNeeds, List.mem_cons, exists_eq_or_imp, other, false_and, false_or]

theorem resolveKernelDependencies_unknown
    (unknown : ¬ ∀ kernelDep ∈ kernelDependencies, (ids kernelDep.usedFuncName).isSome = true ∧
      (kernels kernelDep.kernelName).isSome = true) :
    (resolveKernelDependencies infos ids kernelDependencies kernels).1 ≠ .resolveSuccess := by
  induction kernelDependencies generalizing kernels with
  | nil => exact absurd (by simp) unknown
  | cons kernelDep rest ih =>
    unfold resolveKernelDependencies
    split
    next => exact fun same => nomatch same
    next f used =>
      split
      next => exact fun same => nomatch same
      next before kernel =>
        apply ih
        intro known
        apply unknown
        intro dep member
        rcases List.mem_cons.mp member with rfl | later
        · simp [used, kernel]
        · refine ⟨(known dep later).1, ?_⟩
          have found := (known dep later).2
          rw [Function.update_apply] at found
          split at found
          next same => rw [same, kernel]; rfl
          next => exact found

end Kernels

end ComputeRuntime.ExternalFunctions
