import ComputeRuntime.Library.Layout
import ComputeRuntime.MutableCmdList.SlmArguments
import Mathlib.Data.List.Forall2
import Mathlib.Logic.Function.Basic

/-! Where the arguments in shared local memory lie after updates: every variable that has been set
fixes the offset of the next one, and so all of them together fix the layout. -/
namespace ComputeRuntime.MutableCmdList.Slm

open Layout

/-- An argument to lay out: its alignment and its size. -/
abbrev Item := ℕ × ℕ

def Item.alignment (item : Item) : ℕ := item.1
def Item.size (item : Item) : ℕ := item.2

/-- The arguments one after the other: the first at its offset, the others each at the next
multiple of its alignment. -/
def layout (base : ℕ) : List Item → List (ℕ × Item)
  | [] => []
  | first :: rest => (base, first) :: pack Item.size Item.alignment (base + first.size) rest

def layoutEnd (base : ℕ) : List Item → ℕ
  | [] => base
  | first :: rest => packEnd Item.size Item.alignment (base + first.size) rest

/-- The total is a multiple of one KB. -/
def layoutTotal (base : ℕ) (items : List Item) : ℕ :=
  roundUp (layoutEnd base items) MemoryConstants.kiloByte

/-- An alignment that a kernel can ask for. -/
def SlmAlignment (alignment : ℕ) : Prop := ∃ k < 8, alignment = 2 ^ k

section Words

variable {next alignment bound : ℕ}

/-- Rounding on words is rounding when the result is a word. -/
theorem alignUpSlm_eq {k : ℕ} (small : k ≤ 32) (fits : roundUp next (2 ^ k) < 2 ^ 32) :
    alignUpSlm next (2 ^ k) = roundUp next (2 ^ k) := by
  have pos := Nat.two_pow_pos k
  have le := Nat.pow_le_pow_right (show 0 < 2 by omega) small
  have above := le_roundUp pos next
  have mask : Word.sub 64 (2 ^ k) 1 % 2 ^ 32 = 2 ^ k - 1 := by
    rw [Word.sub_eq pos (by omega), Nat.mod_eq_of_lt (by omega)]
  -- the largest multiple that is a word leaves room for the mask
  have room : next + (2 ^ k - 1) < 2 ^ 32 := by
    obtain ⟨count, whole⟩ : 2 ^ k ∣ 2 ^ 32 := pow_dvd_pow 2 small
    obtain ⟨multiple, rounded⟩ := dvd_roundUp next (2 ^ k)
    rw [rounded, whole] at fits
    have fewer : multiple + 1 ≤ count := Nat.lt_of_mul_lt_mul_left fits
    have last := Nat.mul_le_mul_left (2 ^ k) fewer
    rw [Nat.mul_add, Nat.mul_one, ← rounded, ← whole] at last
    omega
  rw [alignUpSlm, mask, Word.add_eq room, Word.and_not_mask small room, roundUp,
    ← Nat.add_sub_assoc pos]

theorem SlmAlignment.pos (aligned : SlmAlignment alignment) : 0 < alignment := by
  obtain ⟨k, _, rfl⟩ := aligned
  exact Nat.two_pow_pos k

theorem SlmAlignment.alignUp_eq (aligned : SlmAlignment alignment)
    (fits : roundUp next alignment < 2 ^ 32) :
    alignUpSlm next alignment = roundUp next alignment := by
  obtain ⟨k, small, rfl⟩ := aligned
  exact alignUpSlm_eq (by omega) fits

theorem kiloByte_alignUp_eq (fits : roundUp next MemoryConstants.kiloByte < 2 ^ 32) :
    alignUpSlm next MemoryConstants.kiloByte = roundUp next MemoryConstants.kiloByte :=
  alignUpSlm_eq (k := 10) (by omega) fits

theorem le_kiloByte (next : ℕ) : next ≤ roundUp next MemoryConstants.kiloByte :=
  le_roundUp (by decide) next

/-- A total that is a word is a KB below the undefined offset. -/
theorem lt_undefined {x : ℕ} (fits : roundUp next MemoryConstants.kiloByte < 2 ^ 32)
    (le : x ≤ roundUp next MemoryConstants.kiloByte) : x < undefinedSlmOffset := by
  obtain ⟨count, whole⟩ := dvd_roundUp next MemoryConstants.kiloByte
  have unit : MemoryConstants.kiloByte = 1024 := rfl
  rw [whole, unit] at fits le
  rw [undefinedSlmOffset]
  omega

end Words

section Chain

/-- What an end of a variable fixes: the offset of the next one, or behind the last one the total. -/
def Next (total next : ℕ) : List SlmVariable → Prop
  | [] => total = alignUpSlm next MemoryConstants.kiloByte
  | v :: _ => v.slmOffsetValue = alignUpSlm next v.slmAlignment

/-- Every variable that has a size fixes what comes next. -/
def Linked (total : ℕ) : List SlmVariable → Prop
  | [] => True
  | v :: vs =>
    (v.slmSize ≠ undefinedSlmOffset → Next total (Word.add 32 v.slmOffsetValue v.slmSize) vs) ∧
      Linked total vs

/-- The payload has the offset that is remembered, if one is. -/
def Patched (v : SlmVariable) : Prop :=
  v.payload = v.slmOffsetValue ∨ v.slmOffsetValue = undefinedSlmOffset

variable {total next size : ℕ} {v : SlmVariable} {vs : List SlmVariable}

theorem process_nil (next : ℕ) : processVariableDispatchForSlm next [] =
    ([], some (alignUpSlm next MemoryConstants.kiloByte)) := rfl

theorem process_cons (next : ℕ) (v : SlmVariable) (vs : List SlmVariable) :
    processVariableDispatchForSlm next (v :: vs) =
      if alignUpSlm next v.slmAlignment = v.slmOffsetValue then (v :: vs, none)
      else
        let rest := processVariableDispatchForSlm
          (Word.add 32 (alignUpSlm next v.slmAlignment) v.slmSize) vs
        ({ v with slmOffsetValue := alignUpSlm next v.slmAlignment,
                  payload := alignUpSlm next v.slmAlignment } :: rest.1, rest.2) := rfl

theorem process_linked (linked : Linked total vs) (next : ℕ) :
    Next ((processVariableDispatchForSlm next vs).2.getD total) next
        (processVariableDispatchForSlm next vs).1 ∧
      Linked ((processVariableDispatchForSlm next vs).2.getD total)
        (processVariableDispatchForSlm next vs).1 := by
  induction vs generalizing next with
  | nil => exact ⟨rfl, trivial⟩
  | cons v vs ih =>
    rw [process_cons]
    split
    next same => exact ⟨same.symm, linked⟩
    next changed =>
      have rest := ih linked.2
        (Word.add 32 (alignUpSlm next v.slmAlignment) v.slmSize)
      exact ⟨rfl, fun _ => rest.1, rest.2⟩

theorem process_patched (patched : ∀ v ∈ vs, Patched v) (next : ℕ) :
    ∀ v ∈ (processVariableDispatchForSlm next vs).1, Patched v := by
  induction vs generalizing next with
  | nil => simp [process_nil]
  | cons v vs ih =>
    rw [process_cons]
    split
    next => exact patched
    next =>
      have patched := List.forall_mem_cons.mp patched
      exact List.forall_mem_cons.mpr ⟨Or.inl rfl, ih patched.2 _⟩

theorem process_sizes (next : ℕ) (vs : List SlmVariable) :
    (processVariableDispatchForSlm next vs).1.map SlmVariable.slmSize =
      vs.map SlmVariable.slmSize := by
  induction vs generalizing next with
  | nil => rfl
  | cons v vs ih =>
    rw [process_cons]
    split
    next => rfl
    next => simp [ih]

theorem process_alignments (next : ℕ) (vs : List SlmVariable) :
    (processVariableDispatchForSlm next vs).1.map SlmVariable.slmAlignment =
      vs.map SlmVariable.slmAlignment := by
  induction vs generalizing next with
  | nil => rfl
  | cons v vs ih =>
    rw [process_cons]
    split
    next => rfl
    next => simp [ih]

theorem set_nil (size argument : ℕ) : setSlmBufferVariable size argument [] = ([], none) := by
  cases argument <;> rfl

theorem set_zero (size : ℕ) (v : SlmVariable) (vs : List SlmVariable) :
    setSlmBufferVariable size 0 (v :: vs) =
      if v.slmSize = size % 2 ^ 32 then (v :: vs, none)
      else
        let rest := processVariableDispatchForSlm
          (Word.add 32 v.slmOffsetValue (size % 2 ^ 32)) vs
        ({ v with slmSize := size % 2 ^ 32 } :: rest.1, rest.2) := rfl

theorem set_succ (size argument : ℕ) (v : SlmVariable) (vs : List SlmVariable) :
    setSlmBufferVariable size (argument + 1) (v :: vs) =
      (v :: (setSlmBufferVariable size argument vs).1,
        (setSlmBufferVariable size argument vs).2) := rfl

/-- What is in front of an updated variable is fixed as before. -/
theorem set_next (size argument : ℕ) (linked : Next total next vs) :
    Next ((setSlmBufferVariable size argument vs).2.getD total) next
      (setSlmBufferVariable size argument vs).1 := by
  cases vs with
  | nil =>
    rw [set_nil]
    exact linked
  | cons v vs =>
    cases argument with
    | zero =>
      rw [set_zero]
      split
      next => exact linked
      next => exact linked
    | succ argument => exact linked

theorem set_linked (size argument : ℕ) (linked : Linked total vs) :
    Linked ((setSlmBufferVariable size argument vs).2.getD total)
      (setSlmBufferVariable size argument vs).1 := by
  induction vs generalizing argument with
  | nil =>
    rw [set_nil]
    trivial
  | cons v vs ih =>
    cases argument with
    | zero =>
      rw [set_zero]
      split
      next => exact linked
      next =>
        have rest := process_linked linked.2 (Word.add 32 v.slmOffsetValue (size % 2 ^ 32))
        exact ⟨fun _ => rest.1, rest.2⟩
    | succ argument =>
      rw [set_succ]
      exact ⟨fun known => set_next size argument (linked.1 known), ih argument linked.2⟩

theorem set_patched (size argument : ℕ) (patched : ∀ v ∈ vs, Patched v) :
    ∀ v ∈ (setSlmBufferVariable size argument vs).1, Patched v := by
  induction vs generalizing argument with
  | nil => simp [set_nil]
  | cons v vs ih =>
    have patched := List.forall_mem_cons.mp patched
    cases argument with
    | zero =>
      rw [set_zero]
      split
      next => exact List.forall_mem_cons.mpr patched
      next => exact List.forall_mem_cons.mpr ⟨patched.1, process_patched patched.2 _⟩
    | succ argument =>
      rw [set_succ]
      exact List.forall_mem_cons.mpr ⟨patched.1, ih argument patched.2⟩

/-- The first variable keeps its offset, and the others stay patched. -/
theorem set_head (size argument : ℕ) (vs : List SlmVariable) :
    (setSlmBufferVariable size argument vs).1.head?.map
        (fun v => (v.slmOffsetValue, v.payload)) =
      vs.head?.map fun v => (v.slmOffsetValue, v.payload) := by
  cases vs with
  | nil => rw [set_nil]
  | cons v vs =>
    cases argument with
    | zero =>
      rw [set_zero]
      split
      next => rfl
      next => rfl
    | succ argument => rfl

theorem set_tail_patched (size argument : ℕ) (patched : ∀ v ∈ vs.tail, Patched v) :
    ∀ v ∈ (setSlmBufferVariable size argument vs).1.tail, Patched v := by
  cases vs with
  | nil => simp [set_nil]
  | cons v vs =>
    cases argument with
    | zero =>
      rw [set_zero]
      split
      next => exact patched
      next => exact process_patched patched _
    | succ argument => exact set_patched size argument patched

theorem set_sizes (size argument : ℕ) (vs : List SlmVariable) :
    (setSlmBufferVariable size argument vs).1.map SlmVariable.slmSize =
      (vs.map SlmVariable.slmSize).set argument (size % 2 ^ 32) := by
  induction vs generalizing argument with
  | nil => rw [set_nil]; rfl
  | cons v vs ih =>
    cases argument with
    | zero =>
      rw [set_zero]
      split
      next same => simp [same]
      next => simp [process_sizes]
    | succ argument => simp [set_succ, ih]

theorem set_alignments (size argument : ℕ) (vs : List SlmVariable) :
    (setSlmBufferVariable size argument vs).1.map SlmVariable.slmAlignment =
      vs.map SlmVariable.slmAlignment := by
  induction vs generalizing argument with
  | nil => rw [set_nil]
  | cons v vs ih =>
    cases argument with
    | zero =>
      rw [set_zero]
      split
      next => rfl
      next => simp [process_alignments]
    | succ argument => simp [set_succ, ih]

end Chain

section Laid

theorem chain_aligned {vs : List SlmVariable}
    (aligned : ∀ v ∈ vs, SlmAlignment v.slmAlignment) :
    ∀ item ∈ (vs.map SlmVariable.slmAlignment).zip (vs.map SlmVariable.slmSize),
      0 < Item.alignment item := by
  rintro ⟨a, s⟩ member
  obtain ⟨v, inside, rfl⟩ := List.mem_map.mp (List.of_mem_zip member).1
  exact (aligned v inside).pos

theorem le_chainEnd {vs : List SlmVariable}
    (aligned : ∀ v ∈ vs, SlmAlignment v.slmAlignment) (next : ℕ) :
    next ≤ packEnd Item.size Item.alignment next
      ((vs.map SlmVariable.slmAlignment).zip (vs.map SlmVariable.slmSize)) :=
  le_packEnd (chain_aligned aligned) next

/-- The variables of some arguments and the total are as the layout says. -/
theorem packed_of_linked {total next : ℕ} {vs : List SlmVariable} {sizes : List ℕ}
    (aligned : ∀ v ∈ vs, SlmAlignment v.slmAlignment)
    (same : vs.map SlmVariable.slmSize = sizes)
    (linked : Linked total vs) (fixed : Next total next vs) (patched : ∀ v ∈ vs, Patched v)
    (fits : roundUp (packEnd Item.size Item.alignment next
      ((vs.map SlmVariable.slmAlignment).zip sizes)) MemoryConstants.kiloByte < 2 ^ 32) :
    vs.map SlmVariable.payload = (pack Item.size Item.alignment next
        ((vs.map SlmVariable.slmAlignment).zip sizes)).map Prod.fst ∧
      total = roundUp (packEnd Item.size Item.alignment next
        ((vs.map SlmVariable.slmAlignment).zip sizes)) MemoryConstants.kiloByte := by
  subst same
  induction vs generalizing next with
  | nil => exact ⟨rfl, fixed.trans (kiloByte_alignUp_eq fits)⟩
  | cons v vs ih =>
    have aligned := List.forall_mem_cons.mp aligned
    have patched := List.forall_mem_cons.mp patched
    simp only [List.map_cons, List.zip_cons_cons, packEnd, pack] at fits ⊢
    -- everything lies below the total, and so is a word
    have end_le := le_chainEnd aligned.2 (roundUp next v.slmAlignment + v.slmSize)
    have below := Nat.lt_of_le_of_lt (Nat.le_trans end_le (le_kiloByte _)) fits
    have offset : v.slmOffsetValue = roundUp next v.slmAlignment :=
      fixed.trans (aligned.1.alignUp_eq (by omega))
    have small := lt_undefined fits (Nat.le_trans end_le (le_kiloByte _))
    have known : v.slmSize ≠ undefinedSlmOffset := by omega
    have place : v.payload = v.slmOffsetValue := by
      rcases patched.1 with place | undefined
      · exact place
      · omega
    have behind := linked.1 known
    rw [offset, Word.add_eq below] at behind
    have rest := ih aligned.2 linked.2 behind patched.2 fits
    exact ⟨congrArg₂ List.cons (place.trans offset) rest.1, rest.2⟩

end Laid

end ComputeRuntime.MutableCmdList.Slm
