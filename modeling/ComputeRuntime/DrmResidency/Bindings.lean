import ComputeRuntime.DrmResidency.Model

/-! What the calls of the kernel do to the bindings, and how far `bindInfo` follows them. -/
namespace ComputeRuntime.DrmResidency

variable {device : Device} {s s' s'' : State}

/-- `bindInfo` says of every context and tile what the kernel has bound. -/
def State.Synced (device : Device) (s : State) : Prop :=
  ∀ osContext tile bo, s.isBound device osContext tile bo = s.vms (device.vmOf osContext tile) bo

/-- The engine's context needs the allocation: its eviction test stops there. -/
def State.Needs (s : State) (engine : OsContext) (a : Nat) : Prop :=
  s.isAlwaysResident a engine.contextId = true ∨ s.lockedMemory a = true ∨
    s.isUsedByOsContext a engine.contextId = true ∧
      s.taskCount a engine.contextId > s.tag engine.contextId

instance (engine : OsContext) (a : Nat) : Decidable (s.Needs engine a) :=
  inferInstanceAs (Decidable (_ ∨ _))

theorem Device.vmOf_eq_iff (osContext other : OsContext) (tile tile' : Nat) :
    device.vmOf osContext tile = device.vmOf other tile' ↔
      device.getOsContextId osContext = device.getOsContextId other ∧ tile = tile' := by
  unfold Device.vmOf Device.getOsContextId
  by_cases perContext : device.perContextVmsUsed
  · simp [perContext]
  · simp [perContext]

/-- A step takes away only bindings of `may` and adds only bindings of `new`. -/
structure Moves (device : Device) (may new : Vm → Nat → Prop) (s s' : State) : Prop where
  lost : ∀ v bo, s.vms v bo = true → s'.vms v bo = true ∨ may v bo
  gained : ∀ v bo, s'.vms v bo = true → s.vms v bo = true ∨ new v bo
  synced : s.Synced device → s'.Synced device
  results : ∀ result ∈ s'.results, result ∈ s.results

variable {may may' new new' : Vm → Nat → Prop}

theorem Moves.refl : Moves device may new s s where
  lost := fun _ _ => .inl
  gained := fun _ _ => .inl
  synced := id
  results := fun _ => id

theorem Moves.trans (first : Moves device may new s s') (second : Moves device may new s' s'') :
    Moves device may new s s'' where
  lost v bo bound := by
    rcases first.lost v bo bound with bound | lost
    · exact second.lost v bo bound
    · exact .inr lost
  gained v bo bound := by
    rcases second.gained v bo bound with bound | gained
    · exact first.gained v bo bound
    · exact .inr gained
  synced := second.synced ∘ first.synced
  results result member := first.results result (second.results result member)

theorem Moves.weaken (moves : Moves device may new s s') (lost : ∀ v bo, may v bo → may' v bo)
    (gained : ∀ v bo, new v bo → new' v bo) : Moves device may' new' s s' where
  lost v bo bound := (moves.lost v bo bound).imp_right (lost v bo)
  gained v bo bound := (moves.gained v bo bound).imp_right (gained v bo)
  synced := moves.synced
  results := moves.results

/-- Steps that touch neither bindings nor `bindInfo`. -/
theorem Moves.of_eq (vms : s'.vms = s.vms) (bindInfo : s'.bindInfo = s.bindInfo)
    (results : s'.results = s.results) : Moves device may new s s' where
  lost v bo bound := .inl (by rw [vms]; exact bound)
  gained v bo bound := .inl (by rw [vms] at bound; exact bound)
  synced synced osContext tile bo := by
    have before := synced osContext tile bo
    simp only [State.isBound] at before ⊢
    rw [vms, bindInfo]
    exact before
  results result member := by
    rw [results] at member
    exact member

/-- A step leaves the lists of the memory manager alone, and contexts need what they needed. -/
structure Keeps (s s' : State) : Prop where
  needs : ∀ engine a, s.Needs engine a → s'.Needs engine a
  sysMemAllocs : s'.sysMemAllocs = s.sysMemAllocs
  localMemAllocs : s'.localMemAllocs = s.localMemAllocs

theorem Keeps.refl : Keeps s s where
  needs := fun _ _ => id
  sysMemAllocs := rfl
  localMemAllocs := rfl

theorem Keeps.trans (first : Keeps s s') (second : Keeps s' s'') : Keeps s s'' where
  needs engine a needs := second.needs engine a (first.needs engine a needs)
  sysMemAllocs := second.sysMemAllocs.trans first.sysMemAllocs
  localMemAllocs := second.localMemAllocs.trans first.localMemAllocs

/-! ### One call of the kernel -/

theorem changeBufferObjectBinding_keeps (device : Device) (s : State) (osContext : OsContext)
    (tile bo : Nat) (bind : Bool) :
    Keeps s (s.changeBufferObjectBinding device osContext tile bo bind).1 ∧
      (s.changeBufferObjectBinding device osContext tile bo bind).1.resident = s.resident := by
  unfold State.changeBufferObjectBinding
  by_cases succeeds : s.results.headD true
  · rw [if_pos succeeds]
    exact ⟨⟨fun _ _ => id, rfl, rfl⟩, rfl⟩
  · rw [if_neg succeeds]
    exact ⟨⟨fun _ _ => id, rfl, rfl⟩, rfl⟩

/-- A call that fails changes no binding, and takes a failure from the results. -/
theorem changeBufferObjectBinding_failed {osContext : OsContext} {tile bo : Nat} {bind : Bool}
    (failed : s.changeBufferObjectBinding device osContext tile bo bind = (s', false)) :
    false ∈ s.results ∧ s' = { s with results := s.results.tail } := by
  unfold State.changeBufferObjectBinding at failed
  cases found : s.results with
  | nil => simp [found] at failed
  | cons result results =>
    cases result with
    | true => simp [found] at failed
    | false =>
      simp only [found, List.headD_cons, Bool.false_eq_true, if_false, Prod.mk.injEq,
        and_true] at failed
      exact ⟨List.mem_cons_self, failed.symm⟩

theorem changeBufferObjectBinding_succeeded {osContext : OsContext} {tile bo : Nat} {bind : Bool}
    (succeeded : s.changeBufferObjectBinding device osContext tile bo bind = (s', true)) :
    s' = { s with
      results := s.results.tail
      vms := fun v b => if v = device.vmOf osContext tile ∧ b = bo then bind else s.vms v b } := by
  unfold State.changeBufferObjectBinding at succeeded
  by_cases succeeds : s.results.headD true
  · simp only [succeeds, if_true, Prod.mk.injEq, and_true] at succeeded
    exact succeeded.symm
  · rw [if_neg succeeds] at succeeded
    exact Bool.noConfusion (congrArg Prod.snd succeeded)

/-- Once `bindInfo` is set as the kernel was called, it is in step again. -/
theorem synced_setBindInfo {osContext : OsContext} {tile bo : Nat} {bind : Bool}
    (synced : s.Synced device)
    (succeeded : s.changeBufferObjectBinding device osContext tile bo bind = (s', true)) :
    (s'.setBindInfo device osContext tile bo bind).Synced device := by
  intro other tile' b
  have before := synced other tile' b
  rw [changeBufferObjectBinding_succeeded succeeded]
  simp only [State.isBound, State.setBindInfo, Device.vmOf_eq_iff] at before ⊢
  by_cases same : b = bo ∧ device.getOsContextId other = device.getOsContextId osContext ∧
      tile' = tile
  · rw [if_pos same, if_pos ⟨⟨same.2.1, same.2.2⟩, same.1⟩]
  · rw [if_neg same, if_neg fun at_ => same ⟨at_.2, at_.1.1, at_.1.2⟩]
    exact before

/-- What a call that succeeds and the flag set after it amount to. -/
theorem succeeded_moves {osContext : OsContext} {tile bo : Nat} {bind : Bool}
    (succeeded : s.changeBufferObjectBinding device osContext tile bo bind = (s', true)) :
    Moves device (fun v b => bind = false ∧ v = device.vmOf osContext tile ∧ b = bo)
        (fun v b => bind = true ∧ v = device.vmOf osContext tile ∧ b = bo) s
        (s'.setBindInfo device osContext tile bo bind) ∧
      (s'.setBindInfo device osContext tile bo bind).vms (device.vmOf osContext tile) bo = bind := by
  have result := changeBufferObjectBinding_succeeded succeeded
  constructor
  · refine ⟨?_, ?_, fun synced => synced_setBindInfo synced succeeded, ?_⟩
    · intro v b bound
      rw [result]
      simp only [State.setBindInfo]
      by_cases same : v = device.vmOf osContext tile ∧ b = bo
      · rw [if_pos same]
        cases bind with
        | true => exact .inl rfl
        | false => exact .inr ⟨rfl, same⟩
      · rw [if_neg same]
        exact .inl bound
    · intro v b bound
      rw [result] at bound
      simp only [State.setBindInfo] at bound
      by_cases same : v = device.vmOf osContext tile ∧ b = bo
      · rw [if_pos same] at bound
        exact .inr ⟨bound, same⟩
      · rw [if_neg same] at bound
        exact .inl bound
    · intro r member
      rw [result] at member
      exact List.mem_of_mem_tail member
  · rw [result]
    simp [State.setBindInfo]

theorem failed_moves {osContext : OsContext} {tile bo : Nat} {bind : Bool}
    (failed : s.changeBufferObjectBinding device osContext tile bo bind = (s', false)) :
    Moves device may new s s' := by
  obtain ⟨_, rfl⟩ := changeBufferObjectBinding_failed failed
  exact ⟨fun _ _ => .inl, fun _ _ => .inl, id, fun _ => List.mem_of_mem_tail⟩

/-! ### Loops over buffer objects -/

/-- What every call keeps, the whole loop keeps, failed or not. -/
theorem forEach_related (related : State → State → Prop) (refl : ∀ s, related s s)
    (trans : ∀ s s' s'', related s s' → related s' s'' → related s s'')
    {op : State → Nat → State × Bool} {bos : List Nat}
    (each : ∀ s, ∀ bo ∈ bos, related s (op s bo).1) (s : State) :
    related s (s.forEach op bos).1 := by
  induction bos generalizing s with
  | nil => exact refl s
  | cons bo bos ih =>
    have first := each s bo List.mem_cons_self
    rw [State.forEach]
    match ran : op s bo with
    | (after, true) =>
      rw [ran] at first
      exact trans _ _ _ first (ih (fun s bo member => each s bo (.tail _ member)) after)
    | (after, false) =>
      rw [ran] at first
      exact first

/-- After a loop without failure every call was made, each from a state that satisfies what the
calls keep, and what a call does to its buffer object lasts when the later calls keep it. -/
theorem forEach_done (kept : State → Prop) (done : Nat → State → Prop)
    {op : State → Nat → State × Bool} {bos : List Nat}
    (each : ∀ s, kept s → ∀ bo ∈ bos, (op s bo).2 = true → kept (op s bo).1 ∧ done bo (op s bo).1)
    (lasts : ∀ s, kept s → ∀ bo ∈ bos, (op s bo).2 = true → ∀ other, done other s →
      done other (op s bo).1)
    (initial : kept s) (succeeded : (s.forEach op bos).2 = true) :
    kept (s.forEach op bos).1 ∧ (∀ bo ∈ bos, done bo (s.forEach op bos).1) ∧
      ∀ other, done other s → done other (s.forEach op bos).1 := by
  induction bos generalizing s with
  | nil => exact ⟨initial, fun _ member => absurd member List.not_mem_nil, fun _ => id⟩
  | cons bo bos ih =>
    have first := each s initial bo List.mem_cons_self
    have later := lasts s initial bo List.mem_cons_self
    rw [State.forEach] at succeeded ⊢
    match ran : op s bo with
    | (after, false) => simp [ran] at succeeded
    | (after, true) =>
      rw [ran] at first later
      simp only [ran] at succeeded
      obtain ⟨kept, fresh⟩ := first rfl
      obtain ⟨kept, all, rest⟩ := ih (fun s at_ bo member => each s at_ bo (.tail _ member))
        (fun s at_ bo member => lasts s at_ bo (.tail _ member)) kept succeeded
      refine ⟨kept, ?_, fun other before => rest other (later rfl other before)⟩
      intro b member
      rcases List.mem_cons.mp member with rfl | member
      · exact rest b fresh
      · exact all b member

end ComputeRuntime.DrmResidency
