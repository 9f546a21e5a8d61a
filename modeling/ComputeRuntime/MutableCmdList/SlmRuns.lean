import ComputeRuntime.MutableCmdList.SlmPlacement
import Mathlib.Data.List.Induction

/-! Runs of updates and kernel switches of a command, beside what the caller has asked for: when
the arguments of the current kernel lie where they should. -/
namespace ComputeRuntime.MutableCmdList.Slm

open Layout

/-- What the caller has asked for: the current kernel, the sizes that were set since it is current,
and which kernels were switched away from. -/
structure Asked where
  current : ℕ
  sizes : ℕ → Option ℕ
  switched : ℕ → Bool

def Asked.update (count : ℕ) (a : Asked) : Update → Asked
  | .argument index size => { a with sizes := Function.update a.sizes index (some size) }
  | .kernel index =>
    if index = a.current ∨ count ≤ index then a
    else
      { current := index
        sizes := fun _ => none
        switched := Function.update a.switched a.current true }

/-- The kernel the command is appended with has the sizes that were set before. -/
def asked (kernels : List Kernel) (first : ℕ) (updates : List Update) : Asked :=
  updates.foldl (Asked.update kernels.length)
    { current := first
      sizes := fun i => (kernels[first]?.bind fun k => k.args[i]?).map SlmArg.slmArgSize
      switched := fun _ => false }

namespace Kernel

variable (k : Kernel)

def alignments : List ℕ := k.args.map SlmArg.requiredSlmAlignment

/-- The recorded offset of the first argument. -/
def base : ℕ := (k.args.head?.map SlmArg.slmArgOffsetValue).getD 0

/-- The kernel's arguments with some sizes. -/
def items (sizes : List ℕ) : List Item := k.alignments.zip sizes

/-- The alignment of what comes behind the first argument. -/
def secondAlignment : ℕ := k.alignments.tail.head?.getD MemoryConstants.kiloByte

/-- The undefined offset stands in for the recorded one without a difference: the end of the first
argument is rounded to the same number. -/
def RoundsAlike (sizes : List ℕ) : Prop :=
  ∀ size ∈ sizes.head?, alignUpSlm (Word.add 32 undefinedSlmOffset size) k.secondAlignment =
    alignUpSlm (Word.add 32 k.base size) k.secondAlignment

end Kernel

/-- The arguments lie one after the other, apart and inside the total. -/
structure Laid (k : Kernel) (sizes : List ℕ) (m : MutableKernel) : Prop where
  offsets : m.kernelVariables.map SlmVariable.payload = (layout k.base (k.items sizes)).map Prod.fst
  total : k.args ≠ [] → m.slmArgsTotalSize = layoutTotal k.base (k.items sizes)
  apart : (layout k.base (k.items sizes)).Pairwise fun x y => x.1 + x.2.size ≤ y.1
  inside : ∀ x ∈ layout k.base (k.items sizes), x.1 + x.2.size ≤ layoutTotal k.base (k.items sizes)

/-- What was recorded of a kernel's arguments is what its payload holds. -/
structure Kernel.Recorded (k : Kernel) : Prop where
  offsets : ∀ arg ∈ k.args, arg.slmArgOffsetValue = arg.slmOffset
  laid : Laid k (k.args.map SlmArg.slmArgSize) k.capture
  fits : layoutTotal k.base (k.items (k.args.map SlmArg.slmArgSize)) < 2 ^ 32

section Layout

variable {next : ℕ} {items : List Item}

theorem layout_apart (base : ℕ) (aligned : ∀ item ∈ items, 0 < item.alignment) :
    (layout base items).Pairwise fun x y => x.1 + x.2.size ≤ y.1 := by
  cases items with
  | nil => exact List.Pairwise.nil
  | cons first rest =>
    have aligned := List.forall_mem_cons.mp aligned
    exact List.pairwise_cons.mpr
      ⟨fun y member => (mem_pack aligned.2 member).1, pack_pairwise aligned.2⟩

theorem layout_inside (base : ℕ) (aligned : ∀ item ∈ items, 0 < item.alignment) :
    ∀ x ∈ layout base items, x.1 + x.2.size ≤ layoutTotal base items := by
  intro x member
  refine Nat.le_trans ?_ (le_kiloByte _)
  cases items with
  | nil => cases member
  | cons first rest =>
    have aligned := List.forall_mem_cons.mp aligned
    rcases List.mem_cons.mp member with rfl | later
    · exact le_packEnd aligned.2 _
    · exact (mem_pack aligned.2 later).2

/-- A layout that was placed links the variables that took it over. -/
theorem linked_of_packed {total : ℕ} {vs : List SlmVariable}
    (aligned : ∀ v ∈ vs, SlmAlignment v.slmAlignment)
    (offsets : vs.map SlmVariable.slmOffsetValue = (pack Item.size Item.alignment next
      ((vs.map SlmVariable.slmAlignment).zip (vs.map SlmVariable.slmSize))).map Prod.fst)
    (laid : total = roundUp (packEnd Item.size Item.alignment next
      ((vs.map SlmVariable.slmAlignment).zip (vs.map SlmVariable.slmSize)))
        MemoryConstants.kiloByte)
    (fits : total < 2 ^ 32) : Next total next vs ∧ Linked total vs := by
  induction vs generalizing next with
  | nil =>
    refine ⟨?_, trivial⟩
    rw [Next, laid]
    exact (kiloByte_alignUp_eq (laid ▸ fits)).symm
  | cons v vs ih =>
    have aligned := List.forall_mem_cons.mp aligned
    simp only [List.map_cons, List.zip_cons_cons, packEnd, pack, List.cons.injEq] at offsets laid
    have end_le := le_chainEnd aligned.2 (roundUp next v.slmAlignment + v.slmSize)
    have below := Nat.lt_of_le_of_lt (Nat.le_trans end_le (le_kiloByte _)) (laid ▸ fits)
    have offset : v.slmOffsetValue = roundUp next v.slmAlignment := offsets.1
    have rest := ih aligned.2 offsets.2 laid
    refine ⟨offset.trans (aligned.1.alignUp_eq (by omega)).symm, fun _ => ?_, rest.2⟩
    rw [offset, Word.add_eq below]
    exact rest.1

end Layout

section InOrder

theorem patchSlmOffsets_alignments (slmOffset : ℕ) (args : List SlmArg) :
    (patchSlmOffsets slmOffset args).1.map SlmArg.requiredSlmAlignment =
      args.map SlmArg.requiredSlmAlignment := by
  induction args generalizing slmOffset with
  | nil => rfl
  | cons arg args ih => exact congrArg (List.cons arg.requiredSlmAlignment) (ih _)

/-- An argument is set without a change to those in front of it. -/
theorem setArgs_append (argSize : ℕ) (done rest : List SlmArg) :
    setArgs argSize done.length (done ++ rest) =
      (done ++ (setArgs argSize 0 rest).1, (setArgs argSize 0 rest).2) := by
  induction done with
  | nil => rfl
  | cons arg done ih =>
    rw [List.length_cons, List.cons_append, setArgs, ih]
    rfl

/-- The arguments from one on are set in order, behind those that were set before: each finds its
offset in the payload, where the one in front of it has put it. -/
theorem setInOrder_rest {sizes : List ℕ} {arg : SlmArg} {rest : List SlmArg}
    (length : sizes.length = rest.length + 1)
    (aligned : ∀ a ∈ arg :: rest, SlmAlignment a.requiredSlmAlignment)
    (fits : layoutTotal arg.slmOffset
      (((arg :: rest).map SlmArg.requiredSlmAlignment).zip sizes) < 2 ^ 32)
    (done : List SlmArg) (total : ℕ) :
    ∃ args, (Kernel.mk (done ++ arg :: rest) total).setInOrder done.length sizes =
        ⟨done ++ args, layoutTotal arg.slmOffset
          (((arg :: rest).map SlmArg.requiredSlmAlignment).zip sizes)⟩ ∧
      args.map SlmArg.requiredSlmAlignment = (arg :: rest).map SlmArg.requiredSlmAlignment ∧
      args.map SlmArg.slmArgSize = sizes ∧ (∀ a ∈ args, a.slmArgOffsetValue = a.slmOffset) ∧
      args.map SlmArg.slmOffset = (layout arg.slmOffset
        (((arg :: rest).map SlmArg.requiredSlmAlignment).zip sizes)).map Prod.fst := by
  induction sizes generalizing arg rest done total with
  | nil => cases length
  | cons size sizes ih =>
    have positive : ∀ item ∈ (rest.map SlmArg.requiredSlmAlignment).zip sizes,
        0 < Item.alignment item := by
      rintro ⟨alignment, size⟩ member
      obtain ⟨a, inside, rfl⟩ := List.mem_map.mp (List.of_mem_zip member).1
      exact (aligned a (List.mem_cons_of_mem _ inside)).pos
    have end_le : arg.slmOffset + size ≤ packEnd Item.size Item.alignment (arg.slmOffset + size)
      ((rest.map SlmArg.requiredSlmAlignment).zip sizes) := le_packEnd positive _
    have below : arg.slmOffset + size < 2 ^ 32 :=
      Nat.lt_of_le_of_lt (Nat.le_trans end_le (le_kiloByte _)) fits
    have word : size % 2 ^ 32 = size := Nat.mod_eq_of_lt (by omega)
    have set : (Kernel.mk (done ++ arg :: rest) total).setArgBuffer done.length size =
        ⟨done ++ { arg with slmArgSize := size, slmArgOffsetValue := arg.slmOffset } ::
            (patchSlmOffsets (arg.slmOffset + size) rest).1,
          alignUpSlm (patchSlmOffsets (arg.slmOffset + size) rest).2 MemoryConstants.kiloByte⟩ := by
      simp only [Kernel.setArgBuffer, setArgs_append, setArgs, word, Word.add_eq below]
    rw [Kernel.setInOrder, set]
    cases rest with
    | nil =>
      obtain rfl := List.eq_nil_of_length_eq_zero (Nat.succ.inj length)
      refine ⟨[{ arg with slmArgSize := size, slmArgOffsetValue := arg.slmOffset }],
        congrArg (Kernel.mk _) (kiloByte_alignUp_eq fits), rfl, rfl, ?_, rfl⟩
      simp
    | cons next rest =>
      have alignment := aligned next (List.mem_cons_of_mem _ List.mem_cons_self)
      cases sizes with
      | nil => cases Nat.succ.inj length
      | cons following sizes =>
        have tail_le : roundUp (arg.slmOffset + size) next.requiredSlmAlignment + following ≤
            packEnd Item.size Item.alignment (arg.slmOffset + size)
              (((next :: rest).map SlmArg.requiredSlmAlignment).zip (following :: sizes)) :=
          le_packEnd (fun item member => positive item (List.mem_cons_of_mem _ member)) _
        have total_lt := Nat.lt_of_le_of_lt (Nat.le_trans tail_le (le_kiloByte _)) fits
        -- the next argument comes to lie where the layout has it
        have offset : alignUpSlm (arg.slmOffset + size) next.requiredSlmAlignment =
            roundUp (arg.slmOffset + size) next.requiredSlmAlignment :=
          alignment.alignUp_eq (by omega)
        have alignments := patchSlmOffsets_alignments (arg.slmOffset + size) (next :: rest)
        rw [patchSlmOffsets] at alignments ⊢
        simp only [offset] at alignments ⊢
        generalize (patchSlmOffsets (Word.add 32 (roundUp (arg.slmOffset + size)
          next.requiredSlmAlignment) next.slmArgSize) rest) = patched at alignments ⊢
        have same : patched.1.map SlmArg.requiredSlmAlignment =
            rest.map SlmArg.requiredSlmAlignment := (List.cons.inj alignments).2
        have lengths := congrArg List.length same
        rw [List.length_map, List.length_map] at lengths
        have all : ∀ a ∈ { next with
            slmOffset := roundUp (arg.slmOffset + size) next.requiredSlmAlignment } :: patched.1,
            SlmAlignment a.requiredSlmAlignment := by
          intro a member
          have known := List.mem_map_of_mem (f := SlmArg.requiredSlmAlignment) member
          rw [alignments] at known
          obtain ⟨b, inside, equal⟩ := List.mem_map.mp known
          exact equal ▸ aligned b (List.mem_cons_of_mem _ inside)
        obtain ⟨args, run, kept, given, recorded, offsets⟩ := @ih _ _
          (by rw [lengths]; exact Nat.succ.inj length) all (by rw [alignments]; exact fits)
          (done ++ [{ arg with slmArgSize := size, slmArgOffsetValue := arg.slmOffset }])
          (alignUpSlm patched.2 MemoryConstants.kiloByte)
        rw [List.length_append, List.append_assoc, List.append_assoc, alignments] at run
        rw [alignments] at kept offsets
        refine ⟨_ :: args, run, congrArg (List.cons _) kept, congrArg (List.cons _) given, ?_,
          congrArg (List.cons _) offsets⟩
        exact List.forall_mem_cons.mpr ⟨rfl, recorded⟩

/-- Arguments that are set in order are recorded as they lie in the payload. -/
theorem setInOrder_recorded {k : Kernel} {sizes : List ℕ} (length : sizes.length = k.args.length)
    (aligned : ∀ arg ∈ k.args, SlmAlignment arg.requiredSlmAlignment)
    (fits : layoutTotal ((k.args.head?.map SlmArg.slmOffset).getD 0) (k.items sizes) < 2 ^ 32) :
    (k.setInOrder 0 sizes).Recorded := by
  obtain ⟨args, total⟩ := k
  cases args with
  | nil =>
    obtain rfl := List.eq_nil_of_length_eq_zero length
    exact ⟨by simp [Kernel.setInOrder], ⟨rfl, by simp [Kernel.setInOrder], .nil, by
      simp [Kernel.setInOrder, Kernel.items, Kernel.alignments, layout]⟩, fits⟩
  | cons arg rest =>
    obtain ⟨args, run, alignments, given, recorded, offsets⟩ :=
      setInOrder_rest length aligned fits [] total
    have set : (Kernel.mk (arg :: rest) total).setInOrder 0 sizes = ⟨args, _⟩ := run
    rw [set]
    have items (total : ℕ) : (Kernel.mk args total).items (args.map SlmArg.slmArgSize) =
        ((arg :: rest).map SlmArg.requiredSlmAlignment).zip sizes := by
      rw [given, Kernel.items, Kernel.alignments, alignments]
    have base (total : ℕ) : (Kernel.mk args total).base = arg.slmOffset := by
      cases args with
      | nil => cases alignments
      | cons a as =>
        cases sizes with
        | nil => cases length
        | cons size sizes => exact (recorded a List.mem_cons_self).trans (List.cons.inj offsets).1
    have positive : ∀ item ∈ ((arg :: rest).map SlmArg.requiredSlmAlignment).zip sizes,
        0 < Item.alignment item := by
      rintro ⟨alignment, size⟩ member
      obtain ⟨a, inside, rfl⟩ := List.mem_map.mp (List.of_mem_zip member).1
      exact (aligned a inside).pos
    refine ⟨recorded, ?_, ?_⟩
    · constructor
      · rw [base, items, ← offsets, Kernel.capture, List.map_map]
        rfl
      · intro _
        rw [base, items]
        rfl
      · rw [base, items]
        exact layout_apart _ positive
      · rw [base, items]
        exact layout_inside _ positive
    · rw [base, items]
      exact fits

end InOrder

section Invariant

/-- What a run keeps of a kernel of the group. -/
structure Keeps (k : Kernel) (switched : Bool) (current : Prop) (m : MutableKernel) : Prop where
  alignments : m.kernelVariables.map SlmVariable.slmAlignment = k.alignments
  template : m.template = k.args.map SlmArg.slmOffset
  linked : Linked m.slmArgsTotalSize m.kernelVariables
  head : ∀ v ∈ m.kernelVariables.head?,
    v.slmOffsetValue = if switched then undefinedSlmOffset else k.base
  /-- The template can be copied without a patch being missed. -/
  apart : ¬current → List.Forall₂
    (fun v t => v.slmOffsetValue = t ∨ v.slmOffsetValue = undefinedSlmOffset) m.kernelVariables
    m.template
  first : current → ∀ v ∈ m.kernelVariables.head?, v.payload = k.base
  patched : current → ∀ v ∈ m.kernelVariables.tail, Patched v

variable {k : Kernel} {switched : Bool} {current : Prop} {m : MutableKernel}

theorem capture_keeps (aligned : ∀ arg ∈ k.args, SlmAlignment arg.requiredSlmAlignment)
    (recorded : k.Recorded) (current : Prop) : Keeps k false current k.capture := by
  have same : k.capture.kernelVariables.map SlmVariable.slmOffsetValue =
      k.capture.kernelVariables.map SlmVariable.payload := by
    simp only [Kernel.capture, List.map_map]
    exact List.map_congr_left fun arg member => recorded.offsets arg member
  have patched : ∀ v ∈ k.capture.kernelVariables, v.payload = v.slmOffsetValue := by
    intro v member
    obtain ⟨arg, inside, rfl⟩ := List.mem_map.mp member
    exact (recorded.offsets arg inside).symm
  have head : ∀ v ∈ k.capture.kernelVariables.head?, v.slmOffsetValue = k.base := by
    simp only [Kernel.capture, List.head?_map, Option.mem_def, Option.map_eq_some_iff]
    rintro v ⟨arg, first, rfl⟩
    simp [Kernel.base, first]
  constructor
  · simp [Kernel.capture, Kernel.alignments]
  · rfl
  · have laid := recorded.laid
    have fits := recorded.fits
    have offsets := laid.offsets
    rw [← same] at offsets
    cases args : k.args with
    | nil => simp [Kernel.capture, args, Linked]
    | cons arg rest =>
      have total := laid.total (by simp [args])
      simp only [Kernel.capture, Kernel.items, Kernel.alignments, args, List.map_cons,
        List.zip_cons_cons, layoutTotal, layoutEnd, layout, List.cons.injEq] at offsets total fits ⊢
      have aligned := List.forall_mem_cons.mp (args ▸ aligned)
      have capture : k.capture.kernelVariables.tail = rest.map fun arg =>
          ⟨arg.requiredSlmAlignment, arg.slmArgSize, arg.slmArgOffsetValue, arg.slmOffset⟩ := by
        rw [Kernel.capture, args]
        rfl
      have all : ∀ v ∈ k.capture.kernelVariables.tail, SlmAlignment v.slmAlignment := by
        rw [capture]
        intro v member
        obtain ⟨other, inside, rfl⟩ := List.mem_map.mp member
        exact aligned.2 other inside
      have links : Next k.slmArgsTotalSize (k.base + arg.slmArgSize)
          k.capture.kernelVariables.tail ∧
          Linked k.slmArgsTotalSize k.capture.kernelVariables.tail := by
        apply linked_of_packed all
        · rw [capture]
          simpa [Function.comp_def, Item.size] using offsets.2
        · rw [capture]
          simpa [Function.comp_def, Item.size] using total
        · rw [total]
          exact fits
      have end_le := le_chainEnd all (k.base + arg.slmArgSize)
      rw [capture] at links end_le
      refine ⟨fun _ => ?_, links.2⟩
      rw [offsets.1, Word.add_eq ?_]
      · exact links.1
      · simp only [List.map_map, Function.comp_def] at end_le
        exact Nat.lt_of_le_of_lt (Nat.le_trans end_le (le_kiloByte _)) fits
  · simpa using head
  · intro _
    rw [Kernel.capture, List.forall₂_map_left_iff, List.forall₂_map_right_iff]
    exact List.forall₂_same.mpr fun arg member => Or.inl (recorded.offsets arg member)
  · intro _ v first
    rw [patched v (List.mem_of_head? first), head v first]
  · exact fun _ v member => Or.inl (patched v (List.mem_of_mem_tail member))

theorem Keeps.setSlmArgument (keeps : Keeps k switched current m) (is : current)
    (argument size : ℕ) : Keeps k switched current (m.setSlmArgument argument size) := by
  have same := set_head size argument m.kernelVariables
  have kept : ∀ v ∈ (m.setSlmArgument argument size).kernelVariables.head?,
      ∃ w ∈ m.kernelVariables.head?,
        v.slmOffsetValue = w.slmOffsetValue ∧ v.payload = w.payload := by
    intro v first
    rw [Option.mem_def] at first
    simp only [MutableKernel.setSlmArgument] at first
    rw [first, Option.map_some] at same
    obtain ⟨w, first, equal⟩ := Option.map_eq_some_iff.mp same.symm
    exact ⟨w, first, (congrArg Prod.fst equal).symm, (congrArg Prod.snd equal).symm⟩
  constructor
  · exact (set_alignments size argument _).trans keeps.alignments
  · exact keeps.template
  · exact set_linked size argument keeps.linked
  · intro v first
    obtain ⟨w, before, offset, _⟩ := kept v first
    exact offset.trans (keeps.head w before)
  · exact fun other => absurd is other
  · intro _ v first
    obtain ⟨w, before, _, payload⟩ := kept v first
    exact payload.trans (keeps.first is w before)
  · exact fun _ => set_tail_patched size argument (keeps.patched is)

/-- A kernel that is switched away from has no sizes and no offsets. -/
theorem Keeps.resetSlmVariables (keeps : Keeps k switched current m) {now : Prop} (isNot : ¬now) :
    Keeps k true now m.resetSlmVariables := by
  have undefined : ∀ v ∈ m.resetSlmVariables.kernelVariables,
      v.slmOffsetValue = undefinedSlmOffset ∧ v.slmSize = undefinedSlmOffset := by
    intro v member
    obtain ⟨w, _, rfl⟩ := List.mem_map.mp member
    exact ⟨rfl, rfl⟩
  constructor
  · rw [← keeps.alignments, MutableKernel.resetSlmVariables, List.map_map]
    rfl
  · exact keeps.template
  · have linked (total : ℕ) (vs : List SlmVariable)
        (all : ∀ v ∈ vs, v.slmSize = undefinedSlmOffset) : Linked total vs := by
      induction vs with
      | nil => trivial
      | cons v vs ih =>
        have all := List.forall_mem_cons.mp all
        exact ⟨fun known => absurd all.1 known, ih all.2⟩
    exact linked _ _ fun v member => (undefined v member).2
  · exact fun v first => (undefined v (List.mem_of_head? first)).1
  · intro _
    have lengths := congrArg List.length keeps.alignments
    have templates := congrArg List.length keeps.template
    rw [List.length_map, Kernel.alignments, List.length_map] at lengths
    rw [List.length_map] at templates
    apply List.forall₂_iff_get.mpr
    refine ⟨by simp [MutableKernel.resetSlmVariables, lengths, templates], ?_⟩
    intro i inside _
    exact Or.inr (undefined _ (List.get_mem _ _)).1
  · exact fun is => absurd is isNot
  · exact fun is => absurd is isNot

/-- The template is copied over the payload. -/
theorem copy_spec {vs : List SlmVariable} {ts : List ℕ} (total : ℕ) (related : List.Forall₂
    (fun v t => v.slmOffsetValue = t ∨ v.slmOffsetValue = undefinedSlmOffset) vs ts) :
    let ws := List.zipWith (fun (v : SlmVariable) t => { v with payload := t }) vs ts
    ws.map SlmVariable.slmAlignment = vs.map SlmVariable.slmAlignment ∧
      (Linked total vs → Linked total ws) ∧ (∀ next, Next total next vs → Next total next ws) ∧
      (∀ w ∈ ws, Patched w) ∧
      ws.head?.map SlmVariable.slmOffsetValue = vs.head?.map SlmVariable.slmOffsetValue ∧
      ws.head?.map SlmVariable.payload = ts.head? := by
  induction related with
  | nil => exact ⟨rfl, id, fun _ => id, by simp, rfl, rfl⟩
  | cons first _ ih =>
    obtain ⟨alignments, linked, next, patched, _, _⟩ := ih
    refine ⟨congrArg (List.cons _) alignments, fun links => ⟨?_, linked links.2⟩, fun _ => id,
      List.forall_mem_cons.mpr ⟨first.imp Eq.symm id, patched⟩, rfl, rfl⟩
    exact fun known => next _ (links.1 known)

theorem Keeps.copyTemplate (keeps : Keeps k switched current m) (wasNot : ¬current)
    (recorded : k.Recorded) {now : Prop} (is : now) :
    Keeps k switched now m.copyTemplateViewIndirectData := by
  obtain ⟨alignments, linked, _, patched, offset, payload⟩ :=
    copy_spec m.slmArgsTotalSize (keeps.apart wasNot)
  constructor
  · exact alignments.trans keeps.alignments
  · exact keeps.template
  · exact linked keeps.linked
  · intro v first
    rw [Option.mem_def] at first
    simp only [MutableKernel.copyTemplateViewIndirectData] at first
    rw [first, Option.map_some] at offset
    obtain ⟨w, before, same⟩ := Option.map_eq_some_iff.mp offset.symm
    exact same.symm.trans (keeps.head w before)
  · exact fun other => absurd is other
  · intro _ v first
    rw [Option.mem_def] at first
    simp only [MutableKernel.copyTemplateViewIndirectData] at first
    rw [first, Option.map_some, keeps.template, List.head?_map] at payload
    obtain ⟨arg, before, same⟩ := Option.map_eq_some_iff.mp payload.symm
    rw [← same, Kernel.base, before, Option.map_some, Option.getD_some]
    exact (recorded.offsets arg (List.mem_of_head? before)).symm
  · exact fun _ v member => patched v (List.mem_of_mem_tail member)

theorem Keeps.congr (keeps : Keeps k switched current m) {now : Prop} (same : now ↔ current) :
    Keeps k switched now m := by
  rw [propext same]
  exact keeps

end Invariant

/-- The command is where the caller believes it to be. -/
structure Follows (kernels : List Kernel) (a : Asked) (g : MutableKernelGroup) : Prop where
  length : g.kernels.length = kernels.length
  current : g.current = a.current
  keeps : ∀ i k m, kernels[i]? = some k → g.kernels[i]? = some m → k.Recorded →
    Keeps k (a.switched i) (i = a.current) m
  sized : ∀ m, g.kernels[a.current]? = some m → ∀ i size, a.sizes i = some size →
    ∀ s ∈ (m.kernelVariables.map SlmVariable.slmSize)[i]?, s = size ∨ s = size % 2 ^ 32

section Runs

variable {kernels : List Kernel} {a : Asked} {g : MutableKernelGroup}

theorem Follows.argument (follows : Follows kernels a g) (index size : ℕ) :
    Follows kernels (a.update kernels.length (.argument index size))
      (g.update (.argument index size)) where
  length := (List.length_modify _ _ _).trans follows.length
  current := follows.current
  keeps := by
    intro i k m kernel found recorded
    simp only [MutableKernelGroup.update, List.getElem?_modify, Option.map_eq_map,
      Option.map_eq_some_iff, follows.current] at found
    obtain ⟨before, found, rfl⟩ := found
    have keeps := follows.keeps i k before kernel found recorded
    split
    next here => exact keeps.setSlmArgument here.symm index size
    next => exact keeps
  sized := by
    intro m found i asked given s known
    simp only [MutableKernelGroup.update, follows.current, Asked.update, List.getElem?_modify_eq,
      Option.map_eq_map, Option.map_eq_some_iff] at found
    obtain ⟨before, found, rfl⟩ := found
    simp only [MutableKernel.setSlmArgument, set_sizes] at known
    simp only [Asked.update] at given
    by_cases here : i = index
    · subst here
      rw [Function.update_self, Option.some.injEq] at given
      rw [List.getElem?_set_self'] at known
      obtain ⟨_, _, rfl⟩ := Option.map_eq_some_iff.mp known
      exact Or.inr (by rw [← given]; rfl)
    · rw [Function.update_of_ne here] at given
      rw [List.getElem?_set_ne (Ne.symm here)] at known
      exact follows.sized before found i asked given s known

theorem Follows.kernel (follows : Follows kernels a g) (index : ℕ) :
    Follows kernels (a.update kernels.length (.kernel index)) (g.update (.kernel index)) := by
  simp only [Asked.update, MutableKernelGroup.update, follows.current, follows.length]
  split
  next => exact follows
  next other =>
    obtain ⟨other, -⟩ := not_or.mp other
    constructor
    · simp [follows.length]
    · rfl
    · intro i k m kernel found recorded
      simp only [List.getElem?_modify, Option.map_eq_map, Option.map_eq_some_iff] at found
      obtain ⟨_, ⟨before, found, rfl⟩, rfl⟩ := found
      have keeps := follows.keeps i k before kernel found recorded
      dsimp only
      by_cases here : index = i
      · subst here
        rw [if_pos rfl, if_neg (Ne.symm other), Function.update_of_ne other]
        exact keeps.copyTemplate other recorded rfl
      · rw [if_neg here]
        by_cases left : a.current = i
        · subst left
          rw [if_pos rfl, Function.update_self]
          exact keeps.resetSlmVariables (Ne.symm here)
        · rw [if_neg left, Function.update_of_ne (Ne.symm left)]
          exact keeps.congr (by simp [Ne.symm here, Ne.symm left])
    · simp

/-- The command follows what the caller asks for, in every run. -/
theorem run_follows (aligned : ∀ k ∈ kernels, ∀ arg ∈ k.args,
      SlmAlignment arg.requiredSlmAlignment) (first : ℕ) (updates : List Update) :
    Follows kernels (asked kernels first updates) ((append kernels first).run updates) := by
  induction updates using List.reverseRecOn with
  | nil =>
    constructor
    · simp [MutableKernelGroup.run, append]
    · rfl
    · intro i k m kernel found recorded
      simp only [MutableKernelGroup.run, append, List.foldl_nil, List.getElem?_map, kernel,
        Option.map_some, Option.some.injEq] at found
      subst found
      exact capture_keeps (aligned k (List.mem_of_getElem? kernel)) recorded _
    · intro m found i size given s known
      simp only [MutableKernelGroup.run, append, asked, List.foldl_nil, List.getElem?_map,
        Option.map_eq_some_iff] at found given
      obtain ⟨k, kernel, rfl⟩ := found
      obtain ⟨arg, here, rfl⟩ := given
      rw [kernel, Option.bind_some] at here
      rw [Option.mem_def] at known
      simp only [Kernel.capture, List.map_map, List.getElem?_map, here, Option.map_some,
        Function.comp_apply, Option.some.injEq] at known
      exact Or.inl known.symm
  | append_singleton updates update ih =>
    rw [asked, MutableKernelGroup.run, List.foldl_append, List.foldl_append]
    cases update with
    | argument index size => exact ih.argument index size
    | kernel index => exact ih.kernel index

end Runs

section Result

variable {k : Kernel} {m : MutableKernel} {sizes : List ℕ}

theorem pack_items (next : ℕ) (items : List Item) :
    (pack Item.size Item.alignment next items).map Prod.snd = items := by
  induction items generalizing next with
  | nil => rfl
  | cons item rest ih => exact congrArg (List.cons item) (ih _)

theorem layout_items (base : ℕ) (items : List Item) : (layout base items).map Prod.snd = items := by
  cases items with
  | nil => rfl
  | cons first rest => exact congrArg (List.cons first) (pack_items _ rest)

theorem items_aligned (sizes : List ℕ)
    (aligned : ∀ arg ∈ k.args, SlmAlignment arg.requiredSlmAlignment) :
    ∀ item ∈ k.items sizes, 0 < Item.alignment item := by
  rintro ⟨alignment, size⟩ member
  obtain ⟨arg, inside, rfl⟩ := List.mem_map.mp (List.of_mem_zip member).1
  exact (aligned arg inside).pos

/-- A size of the layout is at most its total. -/
theorem size_le (aligned : ∀ arg ∈ k.args, SlmAlignment arg.requiredSlmAlignment)
    (length : sizes.length = k.args.length) :
    ∀ size ∈ sizes, size ≤ layoutTotal k.base (k.items sizes) := by
  intro size member
  have lengths : sizes.length ≤ k.alignments.length := by
    rw [length, Kernel.alignments, List.length_map]
  rw [← List.map_snd_zip lengths] at member
  obtain ⟨item, there, rfl⟩ := List.mem_map.mp member
  have items : item ∈ (layout k.base (k.items sizes)).map Prod.snd := by
    rw [layout_items]
    exact there
  obtain ⟨x, placed, rfl⟩ := List.mem_map.mp items
  have inside := layout_inside k.base (items_aligned sizes aligned) x placed
  exact Nat.le_trans (Nat.le_add_left _ _) inside

theorem Next.congr {total a b : ℕ} {vs : List SlmVariable} (fixed : Next total a vs)
    (same : alignUpSlm a ((vs.map SlmVariable.slmAlignment).head?.getD MemoryConstants.kiloByte) =
      alignUpSlm b ((vs.map SlmVariable.slmAlignment).head?.getD MemoryConstants.kiloByte)) :
    Next total b vs := by
  cases vs with
  | nil => exact Eq.trans fixed same
  | cons v vs => exact Eq.trans fixed same

/-- When all sizes are set, the arguments lie where they should. -/
theorem Keeps.laid {switched : Bool} (keeps : Keeps k switched True m)
    (aligned : ∀ arg ∈ k.args, SlmAlignment arg.requiredSlmAlignment)
    (same : m.kernelVariables.map SlmVariable.slmSize = sizes)
    (fits : layoutTotal k.base (k.items sizes) < 2 ^ 32)
    (rounds : switched = true → k.RoundsAlike sizes) : Laid k sizes m := by
  have apart := layout_apart k.base (items_aligned sizes aligned)
  have inside := layout_inside k.base (items_aligned sizes aligned)
  suffices laid : m.kernelVariables.map SlmVariable.payload =
      (layout k.base (k.items sizes)).map Prod.fst ∧
      (k.args ≠ [] → m.slmArgsTotalSize = layoutTotal k.base (k.items sizes)) from
    ⟨laid.1, laid.2, apart, inside⟩
  have alignments := keeps.alignments
  have all : ∀ v ∈ m.kernelVariables, SlmAlignment v.slmAlignment := by
    intro v member
    have alignment := List.mem_map_of_mem (f := SlmVariable.slmAlignment) member
    rw [alignments] at alignment
    obtain ⟨arg, there, equal⟩ := List.mem_map.mp alignment
    exact equal ▸ aligned arg there
  cases chain : m.kernelVariables with
  | nil =>
    rw [chain] at alignments
    have none : k.args = [] := by simpa [Kernel.alignments] using alignments.symm
    exact ⟨by simp [Kernel.items, Kernel.alignments, none, layout], fun some => absurd none some⟩
  | cons v vs =>
    have linked := keeps.linked
    have head := keeps.head
    have first := keeps.first trivial
    have patched := keeps.patched trivial
    rw [chain] at same alignments linked head first patched all
    have all := List.forall_mem_cons.mp all
    rw [List.map_cons] at same
    subst same
    have base := first v rfl
    have behind : k.secondAlignment =
        (vs.map SlmVariable.slmAlignment).head?.getD MemoryConstants.kiloByte := by
      rw [Kernel.secondAlignment, ← alignments]
      rfl
    have items : k.items (v.slmSize :: vs.map SlmVariable.slmSize) =
        (v.slmAlignment, v.slmSize) ::
          (vs.map SlmVariable.slmAlignment).zip (vs.map SlmVariable.slmSize) := by
      rw [Kernel.items, ← alignments]
      rfl
    rw [items] at fits ⊢
    have end_le := le_chainEnd all.2 (k.base + v.slmSize)
    have total := Nat.le_trans end_le (le_kiloByte _)
    have below : k.base + v.slmSize < 2 ^ 32 := Nat.lt_of_le_of_lt total fits
    have known : v.slmSize ≠ undefinedSlmOffset := by
      have small := lt_undefined fits total
      omega
    have fixed : Next m.slmArgsTotalSize (k.base + v.slmSize) vs := by
      have fixed := linked.1 known
      rw [head v rfl] at fixed
      cases switched with
      | false =>
        rw [if_neg Bool.false_ne_true, Word.add_eq below] at fixed
        exact fixed
      | true =>
        have alike := rounds rfl v.slmSize rfl
        rw [behind, Word.add_eq below] at alike
        exact fixed.congr alike
    have rest := packed_of_linked all.2 rfl linked.2 fixed patched fits
    exact ⟨congrArg₂ List.cons base rest.1, fun _ => rest.2⟩

end Result

/-- In every run the arguments of the current kernel lie one after the other when all of them were
set since it is current, provided that the kernel was recorded as it was set, that the layout fits,
and that a kernel which is selected again does not depend on its first offset. -/
theorem slmArguments_laid (kernels : List Kernel) (first : ℕ) (updates : List Update)
    (aligned : ∀ k ∈ kernels, ∀ arg ∈ k.args, SlmAlignment arg.requiredSlmAlignment)
    (k : Kernel) (recorded : k.Recorded) (m : MutableKernel) (sizes : List ℕ)
    (kernel : kernels[(asked kernels first updates).current]? = some k)
    (current : ((append kernels first).run updates).kernels[
      ((append kernels first).run updates).current]? = some m)
    (length : sizes.length = k.args.length)
    (given : ∀ i < sizes.length, (asked kernels first updates).sizes i = sizes[i]?)
    (fits : layoutTotal k.base (k.items sizes) < 2 ^ 32)
    (rounds : (asked kernels first updates).switched (asked kernels first updates).current = true →
      k.RoundsAlike sizes) : Laid k sizes m := by
  have follows := run_follows aligned first updates
  generalize asked kernels first updates = a at follows kernel given rounds
  generalize (append kernels first).run updates = g at follows current
  rw [follows.current] at current
  have aligned := aligned k (List.mem_of_getElem? kernel)
  have is : True ↔ a.current = a.current := by simp
  have keeps := (follows.keeps _ k m kernel current recorded).congr is
  refine keeps.laid aligned ?_ fits rounds
  have lengths := congrArg List.length keeps.alignments
  rw [List.length_map, Kernel.alignments, List.length_map] at lengths
  apply List.ext_getElem
  · rw [List.length_map, lengths, length]
  · intro i inside here
    have asked := given i here
    rw [List.getElem?_eq_getElem here] at asked
    have bound := size_le aligned length _ (List.getElem_mem here)
    rcases follows.sized m current i _ asked _ (List.getElem?_eq_getElem inside) with same | same
    · exact same
    · rw [same, Nat.mod_eq_of_lt (by omega)]

/-- A kernel with two arguments that were set in order. -/
def twoArgs : Kernel := ((Kernel.mk [⟨16, 0, 0, 0⟩, ⟨64, 0, 0, 0⟩] 0).setArgBuffer 0 64).setArgBuffer 1 32

theorem twoArgs_aligned : ∀ k ∈ [twoArgs, twoArgs], ∀ arg ∈ k.args,
    SlmAlignment arg.requiredSlmAlignment := by
  simp only [List.forall_mem_cons, twoArgs, Kernel.setArgBuffer, setArgs, patchSlmOffsets]
  have sixteen : SlmAlignment 16 := ⟨4, by decide, rfl⟩
  have sixtyFour : SlmAlignment 64 := ⟨6, by decide, rfl⟩
  simp [sixteen, sixtyFour]

theorem twoArgs_recorded : twoArgs.Recorded :=
  @setInOrder_recorded ⟨[⟨16, 0, 0, 0⟩, ⟨64, 0, 0, 0⟩], 0⟩ [64, 32] rfl
    (by
      have sixteen : SlmAlignment 16 := ⟨4, by decide, rfl⟩
      have sixtyFour : SlmAlignment 64 := ⟨6, by decide, rfl⟩
      simp [sixteen, sixtyFour]) (by decide)

/-- The kernel is selected again, and both arguments are set in the other order. -/
theorem slmArguments_laid_again : Laid twoArgs [100, 32]
    ⟨[0, 64], [⟨16, 100, undefinedSlmOffset, 0⟩, ⟨64, 32, 128, 128⟩], 1024⟩ :=
  slmArguments_laid [twoArgs, twoArgs] 0 [.kernel 1, .kernel 0, .argument 1 32, .argument 0 100]
    twoArgs_aligned twoArgs twoArgs_recorded _ [100, 32] rfl (by decide) rfl (by decide) (by decide)
    fun _ size first => by
      obtain rfl : 100 = size := by simpa using first
      decide

/-- Arguments that were set in another order when the command is appended. -/
def outOfOrder : Kernel := ((Kernel.mk [⟨16, 0, 0, 0⟩, ⟨64, 0, 0, 0⟩] 0
  ).setArgBuffer 0 128).setArgBuffer 1 32 |>.setArgBuffer 0 64

/-- A kernel that is selected again computes from an undefined first offset, so that its second
argument comes to lie in the first one; and so it does when the offset that is remembered for it is
not the one in the payload. -/
theorem slmArguments_overlap :
    (¬∀ (kernels : List Kernel) (first : ℕ) (updates : List Update),
      (∀ k ∈ kernels, ∀ arg ∈ k.args, SlmAlignment arg.requiredSlmAlignment) →
      (∀ k ∈ kernels, k.Recorded) → ∀ (k : Kernel) (m : MutableKernel) (sizes : List ℕ),
      kernels[(asked kernels first updates).current]? = some k →
      ((append kernels first).run updates).kernels[
        ((append kernels first).run updates).current]? = some m →
      sizes.length = k.args.length →
      (∀ i < sizes.length, (asked kernels first updates).sizes i = sizes[i]?) →
      layoutTotal k.base (k.items sizes) < 2 ^ 32 → Laid k sizes m) ∧
    ∃ m, ((append [outOfOrder] 0).run [.argument 0 128]).kernels[0]? = some m ∧
      ¬Laid outOfOrder [128, 32] m := by
  constructor
  · intro all
    have laid := all [twoArgs, twoArgs] 0
      [.kernel 1, .kernel 0, .argument 0 65, .argument 1 32] twoArgs_aligned
      (by simp [twoArgs_recorded]) twoArgs
      ⟨[0, 64], [⟨16, 65, undefinedSlmOffset, 0⟩, ⟨64, 32, 64, 64⟩], 1024⟩ [65, 32] rfl (by decide) rfl (by decide) (by decide)
    exact absurd laid.offsets (by decide)
  · refine ⟨⟨[0, 64], [⟨16, 128, 0, 0⟩, ⟨64, 32, 128, 64⟩], 1024⟩, by decide, fun laid => ?_⟩
    exact absurd laid.offsets (by decide)

end ComputeRuntime.MutableCmdList.Slm
