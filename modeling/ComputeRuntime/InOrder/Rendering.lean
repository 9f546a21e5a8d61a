import ComputeRuntime.InOrder.Model

/-! The stream of a recorded list as a function of the amounts that its values are raised by:
patching renders the same items with other amounts. -/
namespace ComputeRuntime.InOrder

/-- What is recorded: waits and signals by their base values. -/
inductive Item where
  | barrier
  | wait (dependency : Dependency) (offset partition base : Nat)
  | signal (operation offset base : Nat) (type : PatchCmdType)
  deriving DecidableEq

/-- The amount of the list itself, and those of the lists that it waits for. -/
structure Amounts where
  own : Nat
  external : Nat → Nat

def Item.value (amounts : Amounts) : Item → Nat
  | .barrier => 0
  | .wait dependency _ _ base =>
    base + if dependency.implicit then amounts.own else amounts.external dependency.commandList
  | .signal _ _ base _ => base + amounts.own

variable (device : Device)

def Item.render (amounts : Amounts) : Item → List Command
  | .barrier => [.barrier]
  | .wait dependency offset partition base =>
    let value := (Item.wait dependency offset partition base).value amounts
    if device.isQwordInOrderCounter then
      [.loadRegisterImm false (getLowPart value), .loadRegisterImm true (getHighPart value),
        .semaphoreWait dependency offset partition 0 true]
    else [.semaphoreWait dependency offset partition (value % 2 ^ 32) false]
  | .signal operation offset base _ => [.signal operation offset (base + amounts.own)]

def Item.size : Item → Nat
  | .wait .. => if device.isQwordInOrderCounter then 3 else 1
  | _ => 1

def Item.patches (start : Nat) : Item → List PatchCmd
  | .barrier => []
  | .wait dependency _ _ base =>
    let info := if dependency.implicit then none else some dependency.commandList
    if device.isQwordInOrderCounter then
      [{ inOrderExecInfo := info, cmd1 := start, cmd2 := start + 1, baseCounterValue := base,
         patchCmdType := .lri64b }]
    else
      [{ inOrderExecInfo := info, cmd1 := start, baseCounterValue := base,
         patchCmdType := .semaphore }]
  | .signal _ _ base type =>
    [{ inOrderExecInfo := none, cmd1 := start, baseCounterValue := base, patchCmdType := type }]

def renderAll (amounts : Amounts) (items : List Item) : List Command :=
  items.flatMap (Item.render device amounts)

def patchesAll : Nat → List Item → List PatchCmd
  | _, [] => []
  | start, item :: items => item.patches device start ++ patchesAll (start + item.size device) items

variable {device}

@[simp] theorem length_render (amounts : Amounts) (item : Item) :
    (item.render device amounts).length = item.size device := by
  cases item with
  | wait => cases h : device.isQwordInOrderCounter <;> simp [Item.render, Item.size, h]
  | _ => rfl

theorem renderAll_append (amounts : Amounts) (items items' : List Item) :
    renderAll device amounts (items ++ items') =
      renderAll device amounts items ++ renderAll device amounts items' := by
  simp [renderAll]

theorem patchesAll_append (amounts : Amounts) (start : Nat) (items items' : List Item) :
    patchesAll device start (items ++ items') = patchesAll device start items ++
      patchesAll device (start + (renderAll device amounts items).length) items' := by
  induction items generalizing start with
  | nil => simp [patchesAll, renderAll]
  | cons item items ih =>
    simp only [List.cons_append, patchesAll, ih, List.append_assoc, renderAll, List.flatMap_cons,
      List.length_append, length_render, Nat.add_assoc]

/-! ### Patching -/

theorem modify_middle {α : Type*} (front : List α) (a : α) (back : List α) (f : α → α) :
    (front ++ a :: back).modify front.length f = front ++ f a :: back := by
  induction front with
  | nil => rfl
  | cons b front ih => simpa using ih

theorem modify_middle_succ {α : Type*} (front : List α) (a b : α) (back : List α) (f : α → α) :
    (front ++ a :: b :: back).modify (front.length + 1) f = front ++ a :: f b :: back := by
  have middle := modify_middle (front ++ [a]) b back f
  simpa using middle

/-- The amounts behind the patches of an execution. -/
def Amounts.patched (amounts : Amounts) (infos : Nat → InOrderExecInfo) (own : InOrderExecInfo) :
    Amounts where
  own := getAppendCounterValue own
  external id :=
    if getAppendCounterValue (infos id) = 0 then amounts.external id
    else getAppendCounterValue (infos id)

variable {infos : Nat → InOrderExecInfo} {own : InOrderExecInfo} {amounts : Amounts}

/-- The first execution patches nothing of the list's own. -/
theorem getAppendCounterValue_eq_zero (once : ¬ 1 < own.regularCmdListSubmissionCounter) :
    getAppendCounterValue own = 0 := by
  simp [getAppendCounterValue, once]

/-- The patches of one item. -/
theorem patch_item (device : Device) (item : Item)
    (small : item.value (amounts.patched infos own) < 2 ^ 64)
    (first : ¬ 1 < own.regularCmdListSubmissionCounter → amounts.own = 0)
    (patchable : ∀ operation offset base type, item = .signal operation offset base type →
      type = .sdi ∨ type = .walker ∨ type = .pipeControl)
    (front back : List Command) :
    patchInOrderCmds infos own (item.patches device front.length)
        (front ++ (item.render device amounts ++ back)) =
      front ++ (item.render device (amounts.patched infos own) ++ back) := by
  cases item with
  | barrier => rfl
  | signal operation offset base type =>
    have value : (base + getAppendCounterValue own) % 2 ^ 64 = base + getAppendCounterValue own :=
      Nat.mod_eq_of_lt small
    simp only [Item.patches, Item.render, patchInOrderCmds, List.foldl_cons, List.foldl_nil,
      PatchCmd.isExternalDependency, Option.isSome_none, Bool.false_or, decide_eq_true_eq,
      List.singleton_append, Amounts.patched]
    split
    next => rcases patchable _ _ _ _ rfl with rfl | rfl | rfl <;>
      simp only [PatchCmd.patch, Bool.false_eq_true, if_false, modify_middle, Command.setData, value]
    next once => rw [first once, getAppendCounterValue_eq_zero once]
  | wait dependency offset partition base =>
    simp only [Item.value, Amounts.patched] at small
    cases implicit : dependency.implicit with
    | true =>
      simp only [implicit, if_true] at small
      have value := Nat.mod_eq_of_lt small
      by_cases once : 1 < own.regularCmdListSubmissionCounter
      · cases qword : device.isQwordInOrderCounter <;>
          simp [-Nat.reducePow, Item.patches, Item.render, Item.value, patchInOrderCmds, PatchCmd.patch,
            PatchCmd.waitValue, PatchCmd.isExternalDependency, implicit, once, qword, value,
            modify_middle, modify_middle_succ, Command.setData, Amounts.patched]
      · cases qword : device.isQwordInOrderCounter <;>
          simp [-Nat.reducePow, Item.patches, Item.render, Item.value, patchInOrderCmds,
            PatchCmd.isExternalDependency, implicit, once, qword, Amounts.patched, first once,
            getAppendCounterValue_eq_zero once]
    | false =>
      simp only [implicit, Bool.false_eq_true, if_false] at small
      by_cases none : getAppendCounterValue (infos dependency.commandList) = 0
      · cases qword : device.isQwordInOrderCounter <;>
          simp [-Nat.reducePow, Item.patches, Item.render, Item.value, patchInOrderCmds, PatchCmd.patch,
            PatchCmd.waitValue, PatchCmd.isExternalDependency, implicit, none, qword,
            Amounts.patched]
      · simp only [none, if_false] at small
        have value := Nat.mod_eq_of_lt small
        cases qword : device.isQwordInOrderCounter <;>
          simp [-Nat.reducePow, Item.patches, Item.render, Item.value, patchInOrderCmds, PatchCmd.patch,
            PatchCmd.waitValue, PatchCmd.isExternalDependency, implicit, none, qword, value,
            modify_middle, modify_middle_succ, Command.setData, Amounts.patched]

/-- What can be recorded: signals are stores, walkers and pipe controls. -/
def Item.Patchable (item : Item) : Prop :=
  ∀ operation offset base type, item = .signal operation offset base type →
    type = .sdi ∨ type = .walker ∨ type = .pipeControl

/-- The patches of a list render it with the new amounts. -/
theorem patch_items (device : Device) (infos : Nat → InOrderExecInfo) (own : InOrderExecInfo)
    (amounts : Amounts) (items : List Item)
    (small : ∀ item ∈ items, item.value (amounts.patched infos own) < 2 ^ 64)
    (first : ¬ 1 < own.regularCmdListSubmissionCounter → amounts.own = 0)
    (patchable : ∀ item ∈ items, item.Patchable) (front : List Command) :
    patchInOrderCmds infos own (patchesAll device front.length items)
        (front ++ renderAll device amounts items) =
      front ++ renderAll device (amounts.patched infos own) items := by
  induction items generalizing front with
  | nil => simp [patchesAll, renderAll, patchInOrderCmds]
  | cons item items ih =>
    have one := patch_item device item (small item List.mem_cons_self) first
      (patchable item List.mem_cons_self) front (renderAll device amounts items)
    have rest := ih (fun item member => small item (List.mem_cons_of_mem _ member))
      (fun item member => patchable item (List.mem_cons_of_mem _ member))
      (front ++ item.render device (amounts.patched infos own))
    rw [List.length_append, length_render] at rest
    simp only [renderAll, List.flatMap_cons, patchesAll] at one rest ⊢
    unfold patchInOrderCmds at one rest ⊢
    rw [List.foldl_append, one, ← List.append_assoc, rest, List.append_assoc]

/-! ### Accesses -/

/-- The number of bits of a counter. -/
def Device.bits (device : Device) : Nat := if device.isQwordInOrderCounter then 64 else 32

def Item.access (amounts : Amounts) (item : Item) : Option Access :=
  match item with
  | .barrier => none
  | .wait dependency _ _ _ => some (.wait dependency (item.value amounts))
  | .signal operation _ _ _ => some (.signal operation (item.value amounts))

theorem parts_eq {value : Nat} (small : value < 2 ^ 64) :
    getHighPart value * 2 ^ 32 + getLowPart value = value := by
  unfold getHighPart getLowPart
  have high : value / 2 ^ 32 < 2 ^ 32 := by
    apply Nat.div_lt_of_lt_mul
    simpa [← Nat.pow_add] using small
  rw [Nat.mod_eq_of_lt high]
  exact Nat.div_add_mod' value (2 ^ 32)

/-- Values that fit into the counter are accessed as they are. -/
theorem accesses_render (items : List Item)
    (small : ∀ item ∈ items, item.value amounts < 2 ^ device.bits) (registers : Nat × Nat) :
    accesses device registers (renderAll device amounts items) =
      items.filterMap (Item.access amounts) := by
  induction items generalizing registers with
  | nil => rfl
  | cons item items ih =>
    have rest := fun registers =>
      ih (fun item member => small item (List.mem_cons_of_mem _ member)) registers
    have fits := small item List.mem_cons_self
    simp only [renderAll] at rest
    unfold Device.bits at fits
    cases item with
    | barrier => simp [-Nat.reducePow, renderAll, Item.render, accesses, Item.access, List.filterMap_cons, rest]
    | wait dependency offset partition base =>
      cases qword : device.isQwordInOrderCounter with
      | true =>
        rw [qword, if_pos rfl] at fits
        simp [-Nat.reducePow, renderAll, Item.render, accesses, Item.access, rest, qword, parts_eq fits]
      | false =>
        rw [qword, if_neg Bool.false_ne_true] at fits
        simp [-Nat.reducePow, renderAll, Item.render, accesses, Item.access, rest, qword,
          Nat.mod_eq_of_lt fits]
    | signal operation offset base type =>
      simp only [Item.value] at fits
      cases qword : device.isQwordInOrderCounter with
      | true =>
        simp [-Nat.reducePow, renderAll, Item.render, accesses, Item.access, Item.value, rest, qword]
      | false =>
        rw [qword, if_neg Bool.false_ne_true] at fits
        simp [-Nat.reducePow, renderAll, Item.render, accesses, Item.access, Item.value, rest, qword,
          Nat.mod_eq_of_lt fits]

end ComputeRuntime.InOrder
