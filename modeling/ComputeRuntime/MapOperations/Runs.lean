import ComputeRuntime.MapOperations.Handler
import Mathlib.Data.List.Induction
import Mathlib.Data.List.Nodup
import Mathlib.Data.List.Perm.Subperm

/-! Runs of calls to the handler of mappings. Each mapping is followed together with the number of
the call that added it, since the vector does not keep the order of the additions. -/
namespace ComputeRuntime.MapOperations

open SwapRemove

inductive Call where
  | add (arguments : AddArguments)
  | find (mappedPtr : ℕ)
  | findInfoForHostPtr (ptr size : ℕ)
  | remove (mappedPtr : ℕ)
  deriving DecidableEq

/-- What a call leaves of the handler. -/
def Call.run (handler : MapOperationsHandler) : Call → MapOperationsHandler
  | .add arguments => (handler.add arguments).2
  | .find _ => handler
  | .findInfoForHostPtr _ _ => handler
  | .remove mappedPtr => handler.remove mappedPtr

def Call.Valid : Call → Prop
  | .add arguments => arguments.mapInfo.Valid
  | .find _ => True
  | .findInfoForHostPtr ptr size => 0 < size ∧ ptr + size < 2 ^ 64
  | .remove _ => True

/-- The live mappings, each with the number of the call that added it. -/
structure World where
  live : List (ℕ × MapInfo) := []
  calls : ℕ := 0

namespace World

def handler (w : World) : MapOperationsHandler := ⟨w.live.map Prod.snd⟩

def step (w : World) (call : Call) : World where
  live :=
    match call with
    | .add arguments =>
      if w.handler.isOverlapping arguments.mapInfo then w.live
      else w.live ++ [(w.calls, arguments.mapInfo)]
    | .find _ => w.live
    | .findInfoForHostPtr _ _ => w.live
    | .remove mappedPtr => swapRemove (fun entry => entry.2.ptr == mappedPtr) w.live
  calls := w.calls + 1

def after (calls : List Call) : World := calls.foldl step {}

variable {w : World} {call : Call}

/-- The numbers are only watched: the handler is that of the code. -/
theorem step_handler : (w.step call).handler = call.run w.handler := by
  cases call with
  | add arguments =>
    by_cases refused : w.handler.isOverlapping arguments.mapInfo = true
    · have live : (w.step (.add arguments)).live = w.live := if_pos refused
      have code : (w.handler.add arguments).2 = w.handler := by
        rw [MapOperationsHandler.add, if_pos refused]
      rw [handler, live, Call.run, code, handler]
    · have live : (w.step (.add arguments)).live = w.live ++ [(w.calls, arguments.mapInfo)] :=
        if_neg refused
      have code : (w.handler.add arguments).2 =
          ⟨w.handler.mappedPointers ++ [arguments.mapInfo]⟩ := by
        rw [MapOperationsHandler.add, if_neg refused]
      rw [handler, live, Call.run, code, List.map_append]
      rfl
  | find mappedPtr => rfl
  | findInfoForHostPtr ptr size => rfl
  | remove mappedPtr =>
    exact congrArg MapOperationsHandler.mk
      (@swapRemove_map _ _ (fun mapInfo : MapInfo => mapInfo.ptr == mappedPtr) Prod.snd w.live)

/-- Of two live mappings that share a byte, the one added later is read-only. -/
def Ordered (w : World) : Prop :=
  ∀ x ∈ w.live, ∀ y ∈ w.live, x.1 < y.1 → x.2.Shares y.2 → y.2.readOnly = true

structure Inv (w : World) : Prop where
  valid : ∀ x ∈ w.live, x.2.Valid
  earlier : ∀ x ∈ w.live, x.1 < w.calls
  distinct : (w.live.map Prod.fst).Nodup
  ordered : w.Ordered

theorem Inv.mapped (inv : w.Inv) : ∀ mapInfo ∈ w.handler.mappedPointers, mapInfo.Valid := by
  intro mapInfo member
  obtain ⟨x, live, rfl⟩ := List.mem_map.mp member
  exact inv.valid x live

/-- Fewer mappings, later. -/
theorem Inv.of_subperm {live : List (ℕ × MapInfo)} (inv : w.Inv) (fewer : live.Subperm w.live) :
    Inv ⟨live, w.calls + 1⟩ where
  valid := fun x member => inv.valid x (fewer.subset member)
  earlier := fun x member => Nat.lt_succ_of_lt (inv.earlier x (fewer.subset member))
  distinct := by
    obtain ⟨kept, perm, sublist⟩ := fewer
    exact (perm.map Prod.fst).nodup_iff.mp (inv.distinct.sublist (sublist.map Prod.fst))
  ordered := fun x memberX y memberY =>
    inv.ordered x (fewer.subset memberX) y (fewer.subset memberY)

theorem swapRemove_subperm (fits : ℕ × MapInfo → Bool) (live : List (ℕ × MapInfo)) :
    (swapRemove fits live).Subperm live := by
  rcases swapRemove_cases fits live with ⟨_, same⟩ | ⟨x, _, _, perm⟩
  · rw [same]
  · exact (List.sublist_cons_self x _).subperm.trans perm.symm.subperm

/-- A mapping that is let in conflicts with none that is there. -/
theorem Inv.add (inv : w.Inv) {info : MapInfo} (valid : info.Valid)
    (clear : ¬ w.handler.Conflicts info) : Inv ⟨w.live ++ [(w.calls, info)], w.calls + 1⟩ where
  valid := by
    intro x member
    rcases List.mem_append.mp member with old | new
    · exact inv.valid x old
    · obtain rfl := List.mem_singleton.mp new
      exact valid
  earlier := by
    intro x member
    rcases List.mem_append.mp member with old | new
    · exact Nat.lt_succ_of_lt (inv.earlier x old)
    · obtain rfl := List.mem_singleton.mp new
      exact Nat.lt_succ_self _
  distinct := by
    rw [List.map_append]
    refine List.nodup_append.mpr ⟨inv.distinct, List.nodup_singleton _, ?_⟩
    rintro a old b new rfl
    obtain ⟨x, member, rfl⟩ := List.mem_map.mp old
    obtain same : x.1 = w.calls := List.mem_singleton.mp new
    exact absurd (inv.earlier x member) (by omega)
  ordered := by
    intro x memberX y memberY before shares
    rcases List.mem_append.mp memberY with oldY | newY
    · rcases List.mem_append.mp memberX with oldX | newX
      · exact inv.ordered x oldX y oldY before shares
      · obtain rfl := List.mem_singleton.mp newX
        exact absurd (inv.earlier y oldY) (Nat.not_lt.mpr (Nat.le_of_lt before))
    · obtain rfl := List.mem_singleton.mp newY
      rcases List.mem_append.mp memberX with oldX | newX
      · by_contra writable
        refine clear ⟨Bool.eq_false_iff.mpr writable, x.2, ?_, MapInfo.shares_comm.mp shares⟩
        exact List.mem_map_of_mem oldX
      · obtain rfl := List.mem_singleton.mp newX
        exact absurd before (Nat.lt_irrefl _)

theorem Inv.step (inv : w.Inv) (valid : call.Valid) : (w.step call).Inv := by
  cases call with
  | add arguments =>
    rw [World.step]
    by_cases refused : w.handler.isOverlapping arguments.mapInfo = true
    · rw [if_pos refused]
      exact inv.of_subperm (List.Subperm.refl _)
    · rw [if_neg refused]
      refine inv.add valid fun conflicts => refused ?_
      exact (isOverlapping_iff valid inv.mapped).mpr (Or.inl conflicts)
  | find mappedPtr => exact inv.of_subperm (List.Subperm.refl _)
  | findInfoForHostPtr ptr size => exact inv.of_subperm (List.Subperm.refl _)
  | remove mappedPtr => exact inv.of_subperm (swapRemove_subperm _ _)

theorem after_inv {calls : List Call} (valid : ∀ call ∈ calls, call.Valid) : (after calls).Inv := by
  induction calls using List.reverseRecOn with
  | nil =>
    constructor
    · rintro x ⟨⟩
    · rintro x ⟨⟩
    · exact List.nodup_nil
    · rintro x ⟨⟩
  | append_singleton calls call ih =>
    obtain ⟨before, last⟩ := List.forall_mem_append.mp valid
    rw [after, List.foldl_append]
    exact (ih before).step (last call (List.mem_singleton.mpr rfl))

/-- The handler after a run is that of the code. -/
theorem after_handler (calls : List Call) : (after calls).handler = calls.foldl Call.run {} := by
  induction calls using List.reverseRecOn with
  | nil => rfl
  | append_singleton calls call ih =>
    rw [after, List.foldl_append, List.foldl_append, ← ih]
    exact step_handler

end World

/-- What a call returns and leaves is what it is meant to. -/
def Call.Right (handler : MapOperationsHandler) : Call → Prop
  | .add arguments =>
    ((handler.add arguments).1 = false ↔ handler.Conflicts arguments.mapInfo) ∧
    ((handler.add arguments).1 = false → (handler.add arguments).2 = handler) ∧
    ((handler.add arguments).1 = true → (handler.add arguments).2.mappedPointers.Perm
      (arguments.mapInfo :: handler.mappedPointers))
  | .find mappedPtr =>
    ((handler.find mappedPtr).isSome ↔ ∃ info ∈ handler.mappedPointers, info.ptr = mappedPtr) ∧
    ∀ found, handler.find mappedPtr = some found →
      found ∈ handler.mappedPointers ∧ found.ptr = mappedPtr
  | .findInfoForHostPtr ptr size =>
    ((handler.findInfoForHostPtr ptr size).isSome ↔
      ∃ info ∈ handler.mappedPointers, info.Contains ptr size) ∧
    ∀ found, handler.findInfoForHostPtr ptr size = some found →
      found ∈ handler.mappedPointers ∧ found.Contains ptr size
  | .remove mappedPtr =>
    ((∀ info ∈ handler.mappedPointers, info.ptr ≠ mappedPtr) ∧ handler.remove mappedPtr = handler) ∨
    ∃ info ∈ handler.mappedPointers, info.ptr = mappedPtr ∧
      handler.mappedPointers.Perm (info :: (handler.remove mappedPtr).mappedPointers)

/-- A mapping for writing does not end where a live mapping starts, unless it also shares a byte
with a live mapping. -/
def Call.Clear (handler : MapOperationsHandler) : Call → Prop
  | .add arguments => arguments.mapInfo.readOnly = false → handler.Touches arguments.mapInfo →
    handler.Conflicts arguments.mapInfo
  | _ => True

theorem Call.right_iff {handler : MapOperationsHandler} {call : Call} (valid : call.Valid)
    (live : ∀ mapInfo ∈ handler.mappedPointers, mapInfo.Valid) :
    call.Right handler ↔ call.Clear handler := by
  cases call with
  | add arguments =>
    have refused := isOverlapping_iff valid live
    simp only [Call.Right, Call.Clear, MapOperationsHandler.add]
    cases overlapping : handler.isOverlapping arguments.mapInfo with
    | true =>
      have cause := refused.mp overlapping
      simp only [if_true, true_iff, Bool.false_eq_true]
      tauto
    | false =>
      have none : ¬ _ := fun cause => Bool.false_ne_true (overlapping.symm.trans (refused.mpr cause))
      simp only [Bool.false_eq_true, if_false, Bool.true_eq_false, false_iff]
      have perm : (handler.mappedPointers ++ [arguments.mapInfo]).Perm
          (arguments.mapInfo :: handler.mappedPointers) := List.perm_append_comm
      tauto
  | find mappedPtr =>
    refine iff_of_true ⟨?_, ?_⟩ trivial
    · rw [MapOperationsHandler.find, List.find?_isSome]
      simp only [beq_iff_eq]
    · intro found result
      have here := List.find?_some result
      exact ⟨List.mem_of_find?_eq_some result, beq_iff_eq.mp here⟩
  | findInfoForHostPtr ptr size =>
    refine iff_of_true ⟨findInfoForHostPtr_isSome_iff valid.2 live, ?_⟩ trivial
    intro found result
    exact findInfoForHostPtr_contains valid.2 live result
  | remove mappedPtr =>
    refine iff_of_true ?_ trivial
    rcases swapRemove_cases (fun mapInfo => mapInfo.ptr == mappedPtr) handler.mappedPointers with
      ⟨none, same⟩ | ⟨info, member, here, perm⟩
    · refine Or.inl ⟨fun info member => ?_, ?_⟩
      · exact fun here => Bool.false_ne_true ((none info member).symm.trans (beq_iff_eq.mpr here))
      · exact congrArg MapOperationsHandler.mk same
    · exact Or.inr ⟨info, member, beq_iff_eq.mp here, perm⟩

/-- Every call of a run does what it is meant to, and at every moment of the run no mapping for
writing shares a byte with one that was there before it: the handler's mappings, with the numbers
of the calls that added them, are so ordered. -/
structure RunRight (run : List Call) : Prop where
  calls : ∀ done call rest, run = done ++ call :: rest → call.Right (done.foldl Call.run {})
  states : ∀ done rest, run = done ++ rest → (World.after done).handler = done.foldl Call.run {} ∧
    (World.after done).Ordered ∧ ((World.after done).live.map Prod.fst).Nodup

/-- A run of calls is right exactly when no mapping for writing is only refused because it ends
where a live mapping starts. -/
theorem mapOperations_right_iff (calls : List Call) (valid : ∀ call ∈ calls, call.Valid) :
    RunRight calls ↔
      ∀ done call rest, calls = done ++ call :: rest → call.Clear (done.foldl Call.run {}) := by
  have inv (done rest : List Call) (split : calls = done ++ rest) : (World.after done).Inv := by
    apply World.after_inv
    intro call member
    exact valid call (split ▸ List.mem_append_left rest member)
  have step (done : List Call) (call : Call) (rest : List Call) (split : calls = done ++ call :: rest) :
      call.Right (done.foldl Call.run {}) ↔ call.Clear (done.foldl Call.run {}) := by
    rw [← World.after_handler]
    apply Call.right_iff _ (inv done _ split).mapped
    exact valid call (split ▸ List.mem_append_right done List.mem_cons_self)
  constructor
  · intro right done call rest split
    exact (step done call rest split).mp (right.calls done call rest split)
  · intro clear
    refine ⟨fun done call rest split => ?_, fun done rest split => ?_⟩
    · exact (step done call rest split).mpr (clear done call rest split)
    · exact ⟨World.after_handler done, (inv done rest split).ordered, (inv done rest split).distinct⟩

/-- A page and the page behind it, both for writing, in the order of their addresses. -/
def ascending : List Call :=
  [.add { ptr := 0x1000, ptrLength := 0x1000, mapFlags := 2 },
    .add { ptr := 0x2000, ptrLength := 0x1000, mapFlags := 2 }]

theorem mapOperations_right_ascending : RunRight ascending := by
  refine (mapOperations_right_iff ascending ?_).mpr ?_
  · simp only [ascending, List.forall_mem_cons]
    refine ⟨?_, ?_, by simp⟩ <;> constructor <;> decide
  · intro done call rest split
    rcases done with _ | ⟨first, _ | ⟨second, done⟩⟩
    · obtain ⟨rfl, rfl⟩ := List.cons.inj split
      rintro _ ⟨info, member, _⟩
      cases member
    · obtain ⟨rfl, last⟩ := List.cons.inj split
      obtain ⟨rfl, rfl⟩ := List.cons.inj last
      rintro _ ⟨info, member, touch⟩
      obtain rfl := List.mem_singleton.mp member
      exact absurd touch (by decide)
    · have lengths := congrArg List.length split
      simp [ascending] at lengths

/-- The same pages in the other order. -/
def descending : List Call :=
  [.add { ptr := 0x2000, ptrLength := 0x1000, mapFlags := 2 },
    .add { ptr := 0x1000, ptrLength := 0x1000, mapFlags := 2 }]

/-- The second mapping is refused, although it shares no byte with the first. -/
theorem mapOperations_wrong_descending : (∀ call ∈ descending, call.Valid) ∧
    ¬ RunRight descending := by
  constructor
  · simp only [descending, List.forall_mem_cons]
    refine ⟨?_, ?_, by simp⟩ <;> constructor <;> decide
  · intro right
    obtain ⟨refused, _⟩ := right.calls [descending[0]] descending[1] [] rfl
    obtain ⟨_, info, member, shares⟩ := refused.mp (by decide)
    obtain rfl := List.mem_singleton.mp member
    obtain ⟨address, inFirst, inSecond⟩ := shares
    revert inFirst inSecond
    simp [AddArguments.mapInfo]
    omega

end ComputeRuntime.MapOperations
