import ComputeRuntime.ExternalFunctions.Resolution

/-! Resolving along the whole call graph. It takes in everything that can be reached exactly when
the order of the walk carries as much as there is. -/
namespace ComputeRuntime.ExternalFunctions

/-- The attributes of the functions that can be reached from a function, its own with them. -/
def reachable (infos : List ExternalFunctionInfo)
    (funcDependencies : List ExternalFunctionUsageExtFunc) (f : Nat) : Set (Nat × Bool) :=
  {x | ∃ g, Reaches infos funcDependencies f g ∧ attributes infos g = x}

/-- Every dependency is between functions and kernels there are. -/
def AllKnown (infos : List ExternalFunctionInfo)
    (kernelDependencies : List ExternalFunctionUsageKernel)
    (funcDependencies : List ExternalFunctionUsageExtFunc) (kernels : KernelDescriptorMapT) :
    Prop :=
  (∀ funcDep ∈ funcDependencies, Known infos funcDep.callerFuncName ∧
    Known infos funcDep.usedFuncName) ∧
  ∀ kernelDep ∈ kernelDependencies, Known infos kernelDep.usedFuncName ∧
    (kernels kernelDep.kernelName).isSome = true

/-- Functions and kernels need what all functions they can reach need. -/
structure Resolved (infos infos' : List ExternalFunctionInfo)
    (kernelDependencies : List ExternalFunctionUsageKernel)
    (funcDependencies : List ExternalFunctionUsageExtFunc)
    (kernels kernels' : KernelDescriptorMapT) : Prop where
  names : infos'.map (·.functionName) = infos.map (·.functionName)
  functions : ∀ f < infos.length, Combines (reachable infos funcDependencies f)
    (infos'.getD f {}).barrierCount (infos'.getD f {}).hasRTCalls
  missing : ∀ name, kernels name = none → kernels' name = none
  kernels : ∀ name own, kernels name = some own → ∃ after, kernels' name = some after ∧
    Combines (kernelNeeds (reachable infos funcDependencies) (funcNameToId infos)
      kernelDependencies name own) after.barrierCount after.hasRTCalls

/-- Resolving returns; it succeeds exactly when all names are known, and then nothing that a
function or a kernel can reach is left out. -/
def ResolvesAll (infos : List ExternalFunctionInfo)
    (kernelDependencies : List ExternalFunctionUsageKernel)
    (funcDependencies : List ExternalFunctionUsageExtFunc) (kernels : KernelDescriptorMapT) :
    Prop :=
  ∀ fuel, infos.length ≤ fuel → ∃ error infos' kernels',
    resolveExternalDependencies fuel infos kernelDependencies funcDependencies kernels =
      .ok (error, infos', kernels') ∧
    (error = .resolveSuccess ↔ AllKnown infos kernelDependencies funcDependencies kernels) ∧
    (error = .resolveSuccess →
      Resolved infos infos' kernelDependencies funcDependencies kernels kernels')

/-- The lists that the walk and the loop over its order use. -/
def callGraph (infos : List ExternalFunctionInfo)
    (funcDependencies : List ExternalFunctionUsageExtFunc) : Dependencies :=
  (getExtFuncDependencies (funcNameToId infos) funcDependencies
    ⟨.replicate infos.length [], .replicate infos.length []⟩).2

/-- A call that does not go back to a function on the first path to the caller: of the paths along
the calls to a function that come to none twice, that is the one that at every function takes the
earliest dependency it can, and at the start the earliest function. -/
def Onward (infos : List ExternalFunctionInfo)
    (funcDependencies : List ExternalFunctionUsageExtFunc) (f g : Nat) : Prop :=
  Calls infos funcDependencies f g ∧
    ¬ ∃ path, FirstPath.First (List.range infos.length)
      (callees (funcNameToId infos) funcDependencies) path f ∧ g ∈ path

/-- The attributes of a function and of those it reaches by a call and then by calls that do not go
back. -/
def reachedOnward (infos : List ExternalFunctionInfo)
    (funcDependencies : List ExternalFunctionUsageExtFunc) (f : Nat) : Set (Nat × Bool) :=
  {x | ∃ g, (f = g ∨ ∃ h, Calls infos funcDependencies f h ∧
    Relation.ReflTransGen (Onward infos funcDependencies) h g) ∧ attributes infos g = x}

/-- A barrier count as large as any that can be reached is reached without going back, and so is a
flag. -/
def NothingLost (infos : List ExternalFunctionInfo)
    (funcDependencies : List ExternalFunctionUsageExtFunc) : Prop :=
  ∀ f < infos.length, ∀ x ∈ reachable infos funcDependencies f,
    (∃ y ∈ reachedOnward infos funcDependencies f, x.1 ≤ y.1) ∧
    (x.2 = true → ∃ y ∈ reachedOnward infos funcDependencies f, y.2 = true)

section Resolving

variable {infos : List ExternalFunctionInfo}
  {kernelDependencies : List ExternalFunctionUsageKernel}
  {funcDependencies : List ExternalFunctionUsageExtFunc} {kernels : KernelDescriptorMapT}
  {fuel f g : Nat} {order : List Nat}

def FunctionsKnown (infos : List ExternalFunctionInfo)
    (funcDependencies : List ExternalFunctionUsageExtFunc) : Prop :=
  ∀ funcDep ∈ funcDependencies, (funcNameToId infos funcDep.callerFuncName).isSome = true ∧
    (funcNameToId infos funcDep.usedFuncName).isSome = true

theorem allKnown_iff : AllKnown infos kernelDependencies funcDependencies kernels ↔
    FunctionsKnown infos funcDependencies ∧
    ∀ kernelDep ∈ kernelDependencies,
      (funcNameToId infos kernelDep.usedFuncName).isSome = true ∧
      (kernels kernelDep.kernelName).isSome = true := by
  simp only [AllKnown, FunctionsKnown, funcNameToId_isSome]

/-- The lists hold the calls, from both sides. -/
theorem callGraph_known (known : FunctionsKnown infos funcDependencies) :
    getExtFuncDependencies (funcNameToId infos) funcDependencies
        ⟨.replicate infos.length [], .replicate infos.length []⟩ =
      (.resolveSuccess, callGraph infos funcDependencies) ∧
    (callGraph infos funcDependencies).outDependencies.length = infos.length ∧
    edges (callGraph infos funcDependencies).outDependencies =
      callees (funcNameToId infos) funcDependencies ∧
    ∀ f g, f ∈ (callGraph infos funcDependencies).outCalledBy.getD g [] ↔
      Calls infos funcDependencies f g := by
  have inside : ∀ name i, funcNameToId infos name = some i →
      i < (List.replicate infos.length ([] : List Nat)).length := by
    intro name i found
    rw [List.length_replicate]
    exact funcNameToId_lt found
  obtain ⟨out, ran, length, outEdges, backEdges⟩ :=
    @getExtFuncDependencies_known _ _
      ⟨.replicate infos.length [], .replicate infos.length []⟩ known inside inside
  have empty : ∀ f : Nat, (List.replicate infos.length ([] : List Nat)).getD f [] = [] := by
    intro f
    rw [List.getD_eq_getElem?_getD, List.getElem?_replicate]
    split <;> rfl
  have same : callGraph infos funcDependencies = out := congrArg Prod.snd ran
  rw [same]
  refine ⟨ran, ?_, funext fun f => ?_, fun f g => ?_⟩
  · rw [length, List.length_replicate]
  · rw [edges, outEdges, empty, List.nil_append]
  · rw [backEdges, empty, List.nil_append, mem_callers]

theorem calls_lt (call : Calls infos funcDependencies f g) :
    f < infos.length ∧ g < infos.length := by
  obtain ⟨funcDep, _, caller, used⟩ := call
  exact ⟨funcNameToId_lt caller, funcNameToId_lt used⟩

/-- What comes to a function in the order of the walk is what it reaches without going back. -/
theorem carries_iff_onward (known : FunctionsKnown infos funcDependencies)
    (walk : resolveDependencies fuel (callGraph infos funcDependencies).outDependencies =
      .ok order) :
    Propagation.Carries (Calls infos funcDependencies) order f g ↔
      f = g ∨ ∃ h, Calls infos funcDependencies f h ∧
        Relation.ReflTransGen (Onward infos funcDependencies) h g := by
  obtain ⟨_, length, outEdges, _⟩ := callGraph_known known
  obtain ⟨once, all⟩ := resolveDependencies_ordered walk
  rw [length, outEdges] at all
  apply Propagation.carries_iff once
  · exact fun u v call => (all v (calls_lt call).2).1
  · intro u v call
    obtain ⟨_, path, first, before⟩ := all u (calls_lt call).1
    rw [before v (mem_callees.mpr call)]
    constructor
    · rintro outside ⟨other, otherFirst, member⟩
      exact outside (first.unique otherFirst ▸ member)
    · exact fun outside member => outside ⟨path, first, member⟩

/-- With all functions known, what resolving the functions leaves behind. -/
theorem resolveExtFuncDependencies_known (known : FunctionsKnown infos funcDependencies) :
    ∃ infos',
      (∀ fuel, infos.length ≤ fuel →
        resolveExtFuncDependencies fuel infos (funcNameToId infos) funcDependencies =
          .ok (.resolveSuccess, infos')) ∧
      infos'.map (·.functionName) = infos.map (·.functionName) ∧
      ∀ f, IsLUB (reachedOnward infos funcDependencies f) (attributes infos' f) := by
  obtain ⟨ran, length, outEdges, backEdges⟩ := callGraph_known known
  have closed : ∀ v w, Edge (callGraph infos funcDependencies).outDependencies v w →
      w < (callGraph infos funcDependencies).outDependencies.length := by
    intro v w edge
    change w ∈ edges (callGraph infos funcDependencies).outDependencies v at edge
    rw [outEdges] at edge
    rw [length]
    exact (calls_lt (mem_callees.mp edge)).2
  obtain ⟨order, walk⟩ := resolveDependencies_returns closed (Nat.le_of_eq length)
  refine ⟨order.foldl (updateCallers (callGraph infos funcDependencies).outCalledBy) infos,
    fun fuel enough => ?_, pass_names _ _ _, fun f => ?_⟩
  · have more := resolveDependencies_mono walk (fuel - infos.length)
    rw [Nat.add_sub_cancel' enough] at more
    simp only [resolveExtFuncDependencies, ran, more, bind, Except.bind]
  · have callersInside : ∀ v, ∀ u ∈ (callGraph infos funcDependencies).outCalledBy.getD v [],
        u < infos.length := fun v u caller => (calls_lt ((backEdges u v).mp caller)).1
    rw [attributes_pass callersInside]
    have lub := Propagation.pass_isLUB backEdges order (attributes infos) f
    simp only [carries_iff_onward known walk] at lub
    exact lub

theorem resolveExtFuncDependencies_unknown (unknown : ¬ FunctionsKnown infos funcDependencies)
    (fuel : Nat) : resolveExtFuncDependencies fuel infos (funcNameToId infos) funcDependencies =
      .ok (.errorExternalFunctionInfoMissing, infos) := by
  have failed := @getExtFuncDependencies_unknown (funcNameToId infos) funcDependencies
    ⟨.replicate infos.length [], .replicate infos.length []⟩ unknown
  unfold resolveExtFuncDependencies
  split
  next dependencies ran =>
    rw [ran] at failed
    exact nomatch failed
  next error dependencies other ran =>
    rw [ran] at failed
    change error = _ at failed
    rw [failed]

/-- What comes to a function can be reached from it. -/
theorem reachedOnward_subset (infos : List ExternalFunctionInfo)
    (funcDependencies : List ExternalFunctionUsageExtFunc) (f : Nat) :
    reachedOnward infos funcDependencies f ⊆ reachable infos funcDependencies f := by
  rintro x ⟨g, rfl | ⟨h, call, onward⟩, same⟩
  · exact ⟨f, .refl, same⟩
  · exact ⟨g, .head call (onward.lift id fun _ _ edge => edge.1), same⟩

theorem own_reachedOnward (infos : List ExternalFunctionInfo)
    (funcDependencies : List ExternalFunctionUsageExtFunc) (f : Nat) :
    (reachedOnward infos funcDependencies f).Nonempty :=
  ⟨attributes infos f, f, .inl rfl, rfl⟩

/-- Where nothing is lost, the attributes in the end bound all that can be reached. -/
theorem reachable_isLUB {infos' : List ExternalFunctionInfo}
    (lub : IsLUB (reachedOnward infos funcDependencies f) (attributes infos' f))
    (kept : ∀ x ∈ reachable infos funcDependencies f,
      (∃ y ∈ reachedOnward infos funcDependencies f, x.1 ≤ y.1) ∧
      (x.2 = true → ∃ y ∈ reachedOnward infos funcDependencies f, y.2 = true)) :
    IsLUB (reachable infos funcDependencies f) (attributes infos' f) := by
  constructor
  · intro x member
    obtain ⟨⟨y, reachesCount, more⟩, flags⟩ := kept x member
    constructor
    · exact more.trans (lub.1 reachesCount).1
    · cases set : x.2 with
      | false => exact Bool.false_le _
      | true =>
        obtain ⟨z, reachesFlag, flag⟩ := flags set
        have le := (lub.1 reachesFlag).2
        rwa [flag] at le
  · intro bound above
    exact lub.2 fun x member => above (reachedOnward_subset _ _ _ member)

/-- A kernel that needs what its functions need needs what they can reach. -/
theorem kernelNeeds_isLUB {needs : Nat → Set (Nat × Bool)} {value : Nat → Nat × Bool}
    {ids : FuncNameToIdMapT} {name : String} {own : KernelAttributes} {bound : Nat × Bool}
    (values : ∀ kernelDep ∈ kernelDependencies, ∀ f, ids kernelDep.usedFuncName = some f →
      IsLUB (needs f) (value f))
    (lub : IsLUB (kernelNeeds (fun f => {value f}) ids kernelDependencies name own) bound) :
    IsLUB (kernelNeeds needs ids kernelDependencies name own) bound := by
  constructor
  · rintro x (rfl | ⟨kernelDep, member, same, f, used, needed⟩)
    · exact lub.1 (.inl rfl)
    · exact ((values kernelDep member f used).1 needed).trans
        (lub.1 (.inr ⟨kernelDep, member, same, f, used, rfl⟩))
  · intro other above
    apply lub.2
    rintro x (rfl | ⟨kernelDep, member, same, f, used, rfl⟩)
    · exact above (.inl rfl)
    · exact (values kernelDep member f used).2 fun y needed =>
        above (.inr ⟨kernelDep, member, same, f, used, needed⟩)

/-- The run with everything known. -/
theorem resolveExternalDependencies_known
    (known : AllKnown infos kernelDependencies funcDependencies kernels) :
    ∃ infos' kernels',
      (∀ fuel, infos.length ≤ fuel →
        resolveExternalDependencies fuel infos kernelDependencies funcDependencies kernels =
          .ok (.resolveSuccess, infos', kernels')) ∧
      infos'.map (·.functionName) = infos.map (·.functionName) ∧
      (∀ f, IsLUB (reachedOnward infos funcDependencies f) (attributes infos' f)) ∧
      ∀ name, (kernels name = none → kernels' name = none) ∧
        ∀ own, kernels name = some own → ∃ after, kernels' name = some after ∧
          IsLUB (kernelNeeds (fun f => {attributes infos' f}) (funcNameToId infos)
            kernelDependencies name own) after.pair := by
  obtain ⟨functionsKnown, kernelsKnown⟩ := allKnown_iff.mp known
  obtain ⟨infos', runs, names, lub⟩ := resolveExtFuncDependencies_known functionsKnown
  obtain ⟨kernels', ran, kept⟩ :=
    @resolveKernelDependencies_known infos' (funcNameToId infos) kernelDependencies kernels
      kernelsKnown
  refine ⟨infos', kernels', fun fuel enough => ?_, names, lub, kept⟩
  simp only [resolveExternalDependencies, runs fuel enough, ran, bind, Except.bind]

theorem resolveExternalDependencies_unknown
    (unknown : ¬ AllKnown infos kernelDependencies funcDependencies kernels)
    (enough : infos.length ≤ fuel) : ∃ error infos' kernels', error ≠ .resolveSuccess ∧
      resolveExternalDependencies fuel infos kernelDependencies funcDependencies kernels =
        .ok (error, infos', kernels') := by
  by_cases functionsKnown : FunctionsKnown infos funcDependencies
  · have kernelsUnknown := fun kernelsKnown =>
      unknown (allKnown_iff.mpr ⟨functionsKnown, kernelsKnown⟩)
    obtain ⟨infos', runs, _, _⟩ := resolveExtFuncDependencies_known functionsKnown
    have failed := @resolveKernelDependencies_unknown infos' _ _ _ kernelsUnknown
    refine ⟨_, infos', (resolveKernelDependencies infos' (funcNameToId infos) kernelDependencies
      kernels).2, failed, ?_⟩
    simp only [resolveExternalDependencies, runs fuel enough, bind, Except.bind]
  · refine ⟨.errorExternalFunctionInfoMissing, infos, kernels, by decide, ?_⟩
    simp only [resolveExternalDependencies, resolveExtFuncDependencies_unknown functionsKnown,
      bind, Except.bind]

/-- Everything that can be reached is taken in exactly when it is reached without going back. -/
theorem resolveExternalDependencies_iff (infos : List ExternalFunctionInfo)
    (kernelDependencies : List ExternalFunctionUsageKernel)
    (funcDependencies : List ExternalFunctionUsageExtFunc) (kernels : KernelDescriptorMapT) :
    ResolvesAll infos kernelDependencies funcDependencies kernels ↔
      (AllKnown infos kernelDependencies funcDependencies kernels →
        NothingLost infos funcDependencies) := by
  constructor
  · intro resolves known f inside x member
    obtain ⟨infos', kernels', runs, _, lub, _⟩ := resolveExternalDependencies_known known
    obtain ⟨error, infos'', kernels'', ran, success, resolved⟩ :=
      resolves infos.length (Nat.le_refl _)
    -- both runs are the same run
    cases ran.symm.trans (runs infos.length (Nat.le_refl _))
    have whole := (resolved rfl).functions f inside
    have came := combines_of_isLUB (own_reachedOnward infos funcDependencies f) (lub f)
    constructor
    · obtain ⟨y, reaches, same⟩ := came.max.1
      exact ⟨y, reaches, same ▸ whole.max.2 (Set.mem_image_of_mem _ member)⟩
    · intro flag
      exact came.any.mp (whole.any.mpr ⟨x, member, flag⟩)
  · intro lossless fuel enough
    by_cases known : AllKnown infos kernelDependencies funcDependencies kernels
    · obtain ⟨infos', kernels', runs, names, lub, kept⟩ :=
        resolveExternalDependencies_known known
      have all : ∀ f < infos.length,
          IsLUB (reachable infos funcDependencies f) (attributes infos' f) :=
        fun f inside => reachable_isLUB (lub f) (lossless known f inside)
      refine ⟨_, infos', kernels', runs fuel enough, by simp [known], fun _ => ⟨names, ?_, ?_, ?_⟩⟩
      · intro f inside
        exact combines_of_isLUB ⟨attributes infos f, f, .refl, rfl⟩ (all f inside)
      · exact fun name => (kept name).1
      · intro name own found
        obtain ⟨after, found', needs⟩ := (kept name).2 own found
        refine ⟨after, found', combines_of_isLUB ⟨own.pair, .inl rfl⟩ ?_⟩
        exact kernelNeeds_isLUB (fun kernelDep _ f used => all f (funcNameToId_lt used)) needs
    · obtain ⟨error, infos', kernels', failed, ran⟩ :=
        resolveExternalDependencies_unknown known enough
      exact ⟨error, infos', kernels', ran, by simp [failed, known], fun same => absurd same failed⟩

/-- Where no function can reach itself through a call, nothing is lost. -/
theorem nothingLost_of_acyclic
    (acyclic : ∀ f g, Calls infos funcDependencies f g → ¬ Reaches infos funcDependencies g f) :
    NothingLost infos funcDependencies := by
  have onward : ∀ f g, Calls infos funcDependencies f g → Onward infos funcDependencies f g := by
    intro f g call
    refine ⟨call, ?_⟩
    rintro ⟨path, first, member⟩
    exact acyclic f g call ((first.reaches member).lift id fun _ _ edge => mem_callees.mp edge)
  rintro f inside _ ⟨g, reaches, rfl⟩
  have reached : f = g ∨ ∃ h, Calls infos funcDependencies f h ∧
      Relation.ReflTransGen (Onward infos funcDependencies) h g := by
    rcases reaches.cases_head with same | ⟨h, call, further⟩
    · exact .inl same
    · exact .inr ⟨h, call, further.lift id onward⟩
  constructor
  · exact ⟨_, ⟨g, reached, rfl⟩, Nat.le_refl _⟩
  · exact fun flag => ⟨_, ⟨g, reached, rfl⟩, flag⟩

end Resolving

section Cycle

/-- Three functions that call each other in a circle. -/
def circle : List ExternalFunctionInfo :=
  [⟨"fun0", 1, false⟩, ⟨"fun1", 0, false⟩, ⟨"fun2", 0, false⟩]

def circleCalls : List ExternalFunctionUsageExtFunc :=
  [⟨"fun1", "fun0"⟩, ⟨"fun2", "fun1"⟩, ⟨"fun0", "fun2"⟩]

/-- The second function calls the first one through the third, and does not get its barriers. -/
theorem circle_loses_barriers :
    resolveExternalDependencies 3 circle [] circleCalls (fun _ => none) =
      .ok (.resolveSuccess, [⟨"fun0", 1, false⟩, ⟨"fun1", 0, false⟩, ⟨"fun2", 1, false⟩],
        fun _ => none) ∧
    ¬ ResolvesAll circle [] circleCalls (fun _ => none) := by
  have ran : resolveExternalDependencies 3 circle [] circleCalls (fun _ => none) =
      .ok (.resolveSuccess, [⟨"fun0", 1, false⟩, ⟨"fun1", 0, false⟩, ⟨"fun2", 1, false⟩],
        fun _ => none) := by
    rfl
  refine ⟨ran, fun resolves => ?_⟩
  obtain ⟨error, infos', kernels', ran', _, resolved⟩ := resolves 3 (Nat.le_refl _)
  cases ran'.symm.trans ran
  have first : Calls circle circleCalls 1 2 := ⟨⟨"fun2", "fun1"⟩, by decide, by decide, by decide⟩
  have second : Calls circle circleCalls 2 0 := ⟨⟨"fun0", "fun2"⟩, by decide, by decide, by decide⟩
  have reaches : Reaches circle circleCalls 1 0 := .head first (.single second)
  have most := ((resolved rfl).functions 1 (by decide)).max.2
    (Set.mem_image_of_mem _ ⟨0, reaches, rfl⟩)
  exact absurd most (by decide)

end Cycle

end ComputeRuntime.ExternalFunctions
