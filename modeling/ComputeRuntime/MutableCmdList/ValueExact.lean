import ComputeRuntime.MutableCmdList.ValueCopies
import Mathlib.Data.List.Induction

/-! When an update of an immediate argument writes its payload exactly: every byte that the caller
gives and no other one, and nothing on an error. -/
namespace ComputeRuntime.MutableCmdList.Immediate

open Memory

/-- A byte of the payload stands for a byte of the argument that the caller gives. -/
def Payload.Wants (p : Payload) (elements : List Element) (size argVal a s : ℕ) : Prop :=
  ∃ e ∈ elements, ∃ i < e.length, e.source + i < size ∧ a = p.place e i ∧
    s = argVal + (e.source + i)

/-- What an update has to do, whatever the memory holds. -/
structure WritesExactly (p : Payload) (elements : List Element) (size argVal : ℕ)
    (set : ZeResult × List Piece) : Prop where
  written : set.1 = .success → ∀ memory : ℕ → UInt8, ∀ a s, p.Wants elements size argVal a s →
    perform set.2 memory a = memory s
  kept : set.1 = .success → ∀ memory : ℕ → UInt8, ∀ a,
    (∀ s, ¬p.Wants elements size argVal a s) → perform set.2 memory a = memory a
  readsInside : set.1 = .success → ∀ q ∈ set.2, ∀ a s, q.Takes a s →
    argVal ≤ s ∧ s < argVal + size
  unchanged : set.1 ≠ .success → ∀ memory : ℕ → UInt8, perform set.2 memory = memory

/-- When every element is given a byte, those that are split are given whole; and when one is not,
nothing lies before it. -/
structure Served (p : Payload) (elements : List Element) (size : ℕ) : Prop where
  whole : (∀ e ∈ elements, e.source < size) →
    ∀ e ∈ elements, p.Split e → e.source + e.length ≤ size
  first : (∃ e ∈ elements, size ≤ e.source) → ∀ e ∈ updated size elements, e.length = 0

section Wants

variable {p : Payload} {elements : List Element} {size argVal a b s t : ℕ}

theorem Valid.wants_one (valid : Valid p elements size argVal)
    (first : p.Wants elements size argVal a s) (second : p.Wants elements size argVal a t) :
    s = t := by
  obtain ⟨e, member, i, small, -, here, rfl⟩ := first
  obtain ⟨f, member', j, small', -, there, rfl⟩ := second
  rw [valid.one e member i small f member' j small' (here.symm.trans there)]

theorem Valid.wants_apart (valid : Valid p elements size argVal)
    (first : p.Wants elements size argVal a s) (second : p.Wants elements size argVal b t) :
    s ≠ b := by
  rintro rfl
  obtain ⟨e, _, i, _, below, _, rfl⟩ := first
  obtain ⟨f, member, j, small, _, there, _⟩ := second
  apply valid.apart f member j small
  rw [← there]
  omega

end Wants

section Success

variable {p : Payload} {elements : List Element} {size argVal : ℕ}

/-- The bytes of the argument hold one, all others zero. -/
def marked (size argVal : ℕ) : ℕ → UInt8 := fun a => if argVal ≤ a ∧ a < argVal + size then 1 else 0

theorem updated_all (given : ∀ e ∈ elements, e.source < size) :
    updated size elements = elements := by
  apply List.takeWhile_eq_self_iff.mpr
  intro e member
  simpa using given e member

theorem exact_of_whole {set : ZeResult × List Piece} (valid : Valid p elements size argVal)
    (copies : set.2 = elements.flatMap (p.elementCopies size argVal))
    (success : set.1 = .success) (given : ∀ e ∈ elements, e.source < size)
    (whole : ∀ e ∈ elements, p.Split e → e.source + e.length ≤ size) :
    WritesExactly p elements size argVal set := by
  have takes (e : Element) (member : e ∈ elements) (a s : ℕ) :=
    elementCopies_takes (a := a) (s := s) valid.argument (given e member) (whole e member)
  -- what is copied is wanted, and what is wanted is copied
  have right : ∀ q ∈ set.2, ∀ a s, q.Takes a s → p.Wants elements size argVal a s := by
    intro q copied a s taken
    rw [copies] at copied
    obtain ⟨e, member, copied⟩ := List.mem_flatMap.mp copied
    exact ⟨e, member, (takes e member a s).mp ⟨q, copied, taken⟩⟩
  have all : ∀ a s, p.Wants elements size argVal a s → ∃ q ∈ set.2, q.Takes a s := by
    rintro a s ⟨e, member, wanted⟩
    obtain ⟨q, copied, taken⟩ := (takes e member a s).mpr wanted
    exact ⟨q, by rw [copies]; exact List.mem_flatMap.mpr ⟨e, member, copied⟩, taken⟩
  constructor
  · intro _ memory a s wanted
    exact perform_takes right (fun _ _ _ => valid.wants_one) (fun _ _ _ _ => valid.wants_apart)
      (all a s wanted)
  · intro _ memory a unwanted
    exact perform_kept fun q copied s taken => unwanted s (right q copied a s taken)
  · intro _ q copied a s taken
    obtain ⟨e, _, i, _, below, _, rfl⟩ := right q copied a s taken
    omega
  · exact fun failed => absurd success failed

/-- A split element of which only a part is given has its last byte overwritten. -/
theorem whole_of_exact {set : ZeResult × List Piece} (valid : Valid p elements size argVal)
    (copies : set.2 = elements.flatMap (p.elementCopies size argVal))
    (success : set.1 = .success) (exactly : WritesExactly p elements size argVal set) :
    ∀ e ∈ elements, p.Split e → e.source + e.length ≤ size := by
  intro e member split
  by_contra short
  have some : 0 < e.length := by
    obtain ⟨inside, across⟩ := split
    omega
  have unwanted : ∀ s, ¬p.Wants elements size argVal (p.place e (e.length - 1)) s := by
    rintro s ⟨f, member', j, small, below, here, _⟩
    have same := valid.one e member _ (Nat.sub_lt some Nat.one_pos) f member' j small here
    omega
  have kept := exactly.kept success (marked size argVal) _ unwanted
  obtain ⟨q, copied, s, taken⟩ := elementCopies_split size argVal split
  have spread : perform set.2 (marked size argVal) (p.place e (e.length - 1)) = 1 := by
    apply perform_spreads
    · intro r copied b t taken
      exact if_pos (exactly.readsInside success r copied b t taken)
    · refine Or.inr ⟨q, ?_, s, taken⟩
      rw [copies]
      exact List.mem_flatMap.mpr ⟨e, member, copied⟩
  have outside : marked size argVal (p.place e (e.length - 1)) = 0 :=
    if_neg (valid.apart e member _ (Nat.sub_lt some Nat.one_pos))
  rw [spread, outside] at kept
  exact absurd kept (by decide)

end Success

section Failure

variable {p : Payload} {size argVal : ℕ} {memory : ℕ → UInt8}

theorem perform_empty {done : List Element} (empty : ∀ e ∈ done, e.length = 0) :
    perform (done.flatMap (p.elementCopies size argVal)) memory = memory := by
  funext a
  apply perform_kept
  intro q copied s taken
  obtain ⟨e, member, copied⟩ := List.mem_flatMap.mp copied
  exact elementCopies_empty (empty e member) copied taken

/-- Copies for elements of which some byte is given do not leave every memory as it was. -/
theorem empty_of_unchanged {done : List Element}
    (apart : ∀ e ∈ done, ∀ i < e.length, ¬(argVal ≤ p.place e i ∧ p.place e i < argVal + size))
    (given : ∀ e ∈ done, e.source < size)
    (unchanged : perform (done.flatMap (p.elementCopies size argVal)) (marked size argVal) =
      marked size argVal) : ∀ e ∈ done, e.length = 0 := by
  -- the last element that is not empty is what is seen in the end
  induction done using List.reverseRecOn with
  | nil => simp
  | append_singleton done e ih =>
    simp only [List.mem_append, List.mem_singleton, or_imp, forall_and, forall_eq] at apart given ⊢
    rw [List.flatMap_append, perform_append, List.flatMap_singleton] at unchanged
    by_cases empty : e.length = 0
    · have nothing : perform (p.elementCopies size argVal e)
          (perform (done.flatMap (p.elementCopies size argVal)) (marked size argVal)) =
          perform (done.flatMap (p.elementCopies size argVal)) (marked size argVal) := by
        funext a
        exact perform_kept fun q copied s => elementCopies_empty empty copied
      exact ⟨ih apart.1 given.1 (nothing.symm.trans unchanged), empty⟩
    · exfalso
      have some : 0 < e.length := Nat.pos_of_ne_zero empty
      obtain ⟨before, q, copies, takes⟩ :=
        elementCopies_last p argVal some given.2
      have here := congrFun unchanged (p.place e 0)
      have outside : marked size argVal (p.place e 0) = 0 := if_neg (apart.2 0 some)
      have inside : marked size argVal (argVal + e.source) = 1 := if_pos ⟨by omega, by
        have := given.2
        omega⟩
      -- the first byte of the argument's part has not been overwritten
      have source : perform before (perform (done.flatMap (p.elementCopies size argVal))
          (marked size argVal)) (argVal + e.source) = marked size argVal (argVal + e.source) := by
        have given := given.2
        rw [perform_kept, perform_kept]
        · intro r copied s taken
          obtain ⟨f, member, copied⟩ := List.mem_flatMap.mp copied
          obtain ⟨i, small, address⟩ := elementCopies_target copied taken
          exact apart.1 f member i small (by rw [← address]; omega)
        · intro r copied s taken
          have copied : r ∈ p.elementCopies size argVal e := by
            rw [copies]
            exact List.mem_append_left _ copied
          obtain ⟨i, small, address⟩ := elementCopies_target copied taken
          exact apart.2 i small (by rw [← address]; omega)
      rw [copies, perform_append, perform_cons, perform_nil, takes.run, source, inside,
        outside] at here
      exact absurd here (by decide)

end Failure

/-- An update of a value argument in chunks writes the payload exactly when no element lies across
the end of the inline data without being given whole, and when an update that fails has nothing to
write before. -/
theorem setValueVariableInChunks_exact_iff {p : Payload} {elements : List Element}
    {size argVal : ℕ} (bases : Bases) (valid : Valid p elements size argVal) :
    WritesExactly p elements size argVal
        ((Variable.unused.addKernelArgUsageImmediateAsChunk p elements
          ).setValueVariableInChunks bases size argVal) ↔
      Served p elements size := by
  obtain ⟨copies, success⟩ := setValueVariableInChunks_spec bases valid
  generalize ((Variable.unused.addKernelArgUsageImmediateAsChunk p elements
    ).setValueVariableInChunks bases size argVal) = set at copies success ⊢
  by_cases given : ∀ e ∈ elements, e.source < size
  · rw [updated_all given] at copies
    have succeeded := success.mpr given
    constructor
    · intro exactly
      refine ⟨fun _ => whole_of_exact valid copies succeeded exactly, ?_⟩
      rintro ⟨e, member, missing⟩
      exact absurd (given e member) (Nat.not_lt.mpr missing)
    · intro served
      exact exact_of_whole valid copies succeeded given (served.whole given)
  · have failed : set.1 ≠ .success := fun succeeded => given (success.mp succeeded)
    constructor
    · intro exactly
      refine ⟨fun all => absurd all given, fun _ => ?_⟩
      refine @empty_of_unchanged p size argVal _ ?_ ?_ ?_
      · exact fun e member => valid.apart e (mem_updated member).1
      · exact fun e member => (mem_updated member).2
      · rw [← copies]
        exact exactly.unchanged failed _
    · intro served
      have missing : ∃ e ∈ elements, size ≤ e.source := by
        simpa using given
      constructor
      · exact fun succeeded => absurd succeeded failed
      · exact fun succeeded => absurd succeeded failed
      · exact fun succeeded => absurd succeeded failed
      · intro _ memory
        rw [copies]
        exact perform_empty (served.first missing)

/-- A value of 16 bytes, half of them in 32 bytes of inline data. -/
def acrossInline : Payload := ⟨true, 32, 0x1000, 0x40, 0x80, 0x2000⟩

def sixteenBytes : List Element := [⟨24, 16, 0⟩]

theorem sixteenBytes_valid (size : ℕ) (small : size ≤ 16) :
    Valid acrossInline sixteenBytes size 0x3000 where
  argument := by omega
  inlineFits := by decide
  heapFits := by decide
  one := by
    simp only [sixteenBytes, List.mem_singleton, forall_eq]
    intro i small j small' same
    have length : Element.length ⟨24, 16, 0⟩ = 16 := rfl
    have start : Element.start ⟨24, 16, 0⟩ = 24 := rfl
    have inline : acrossInline.inlineSize = 32 := rfl
    simp only [Payload.place, inline, start] at same
    rw [length] at small small'
    simp only [acrossInline] at same
    split at same <;> split at same <;> omega
  apart := by
    simp only [sixteenBytes, List.mem_singleton, forall_eq]
    intro i _
    have length : Element.length ⟨24, 16, 0⟩ = 16 := rfl
    have start : Element.start ⟨24, 16, 0⟩ = 24 := rfl
    have inline : acrossInline.inlineSize = 32 := rfl
    simp only [Payload.place, inline, start]
    simp only [acrossInline]
    split <;> omega

/-- The whole value is written as it should be. -/
theorem setValueVariableInChunks_exact_sixteen :
    WritesExactly acrossInline sixteenBytes 16 0x3000
      ((Variable.unused.addKernelArgUsageImmediateAsChunk acrossInline sixteenBytes
        ).setValueVariableInChunks ⟨0, 0⟩ 16 0x3000) := by
  apply (setValueVariableInChunks_exact_iff ⟨0, 0⟩ (sixteenBytes_valid 16 le_rfl)).mpr
  refine ⟨fun _ => ?_, ?_⟩
  · simp only [sixteenBytes, List.mem_singleton, forall_eq]
    exact fun _ => by decide
  · rintro ⟨e, member, missing⟩
    obtain rfl := List.mem_singleton.mp member
    exact absurd missing (by decide)

/-- Twelve bytes of the value are given. The eight bytes in the heap are taken from the fifth byte
on, and not from the ninth. -/
theorem setValueVariableInChunks_not_exact : ¬∀ (p : Payload) (elements : List Element)
    (size argVal : ℕ) (bases : Bases), Valid p elements size argVal →
      WritesExactly p elements size argVal
        ((Variable.unused.addKernelArgUsageImmediateAsChunk p elements
          ).setValueVariableInChunks bases size argVal) := by
  intro all
  have exactly := all acrossInline sixteenBytes 12 0x3000 ⟨0, 0⟩ (sixteenBytes_valid 12 (by decide))
  have ninth : acrossInline.Wants sixteenBytes 12 0x3000 0x2000 0x3008 :=
    ⟨_, List.mem_singleton_self _, 8, by decide, by decide, by decide, by decide⟩
  have wrong := exactly.written (by decide) (fun a => UInt8.ofNat (a - 0x3000)) _ _ ninth
  exact absurd wrong (by decide)

end ComputeRuntime.MutableCmdList.Immediate
