import Mathlib.Data.Set.Basic
import Mathlib.Data.Nat.Notation

/-! Byte memories as functions of the address, and copies between them. A copy that moves the
bytes at some offsets from one base to another is described by the set of these offsets; copies
with the same bases compose by the union of their offsets, in any order and overlapping freely. -/
namespace Memory

variable {β : Type*}

/-- `size` bytes from `start` on, written to `memory` at `target`. -/
def copy (source : ℕ → β) (start size target : ℕ) (memory : ℕ → β) : ℕ → β :=
  fun a => if target ≤ a ∧ a < target + size then source (start + (a - target)) else memory a

/-- `after` is `before` with the bytes at some offsets taken from `source`. -/
structure Copies (source : ℕ → β) (start target : ℕ) (offsets : Set ℕ) (before after : ℕ → β) :
    Prop where
  copied : ∀ o ∈ offsets, after (target + o) = source (start + o)
  kept : ∀ a, (∀ o ∈ offsets, a ≠ target + o) → after a = before a

variable {source : ℕ → β} {start target size : ℕ} {S T : Set ℕ} {before middle after : ℕ → β}

theorem Copies.refl (source : ℕ → β) (start target : ℕ) (memory : ℕ → β) :
    Copies source start target ∅ memory memory where
  copied := fun _ member => member.elim
  kept := fun _ _ => rfl

theorem Copies.trans (first : Copies source start target S before middle)
    (second : Copies source start target T middle after) :
    Copies source start target (S ∪ T) before after where
  copied := by
    rintro o (inS | inT)
    · by_cases again : o ∈ T
      · exact second.copied o again
      · rw [second.kept, first.copied o inS]
        rintro o' inT same
        obtain rfl : o = o' := Nat.add_left_cancel same
        exact again inT
    · exact second.copied o inT
  kept := by
    intro a outside
    rw [second.kept a fun o inT => outside o (Or.inr inT),
      first.kept a fun o inS => outside o (Or.inl inS)]

theorem Copies.congr (copies : Copies source start target S before after)
    (same : ∀ o, o ∈ S ↔ o ∈ T) : Copies source start target T before after := by
  obtain rfl : S = T := Set.ext same
  exact copies

/-- One contiguous piece of a copy. -/
theorem copy_copies (source : ℕ → β) (start target offset size : ℕ) (memory : ℕ → β) :
    Copies source start target {o | offset ≤ o ∧ o < offset + size} memory
      (copy source (start + offset) size (target + offset) memory) where
  copied := by
    rintro o ⟨low, high⟩
    rw [copy, if_pos ⟨by omega, by omega⟩]
    congr 1
    omega
  kept := by
    intro a outside
    rw [copy, if_neg]
    rintro ⟨low, high⟩
    exact outside (a - target) ⟨by omega, by omega⟩ (by omega)

theorem copy_eq {a : ℕ} {memory : ℕ → β} (inside : target ≤ a ∧ a < target + size) :
    copy source start size target memory a = source (start + (a - target)) := if_pos inside

theorem copy_kept {a : ℕ} {memory : ℕ → β} (outside : a < target ∨ target + size ≤ a) :
    copy source start size target memory a = memory a := if_neg (by omega)

/-! Copies inside one memory, made one after the other, each of what the ones before have left. -/

/-- One copy of contiguous bytes. -/
structure Piece where
  target : ℕ
  start : ℕ
  size : ℕ
  deriving DecidableEq

def Piece.run (p : Piece) (memory : ℕ → β) : ℕ → β := copy memory p.start p.size p.target memory

def perform (pieces : List Piece) (memory : ℕ → β) : ℕ → β :=
  pieces.foldl (fun memory p => p.run memory) memory

/-- The piece takes the byte at an address from another address. -/
def Piece.Takes (p : Piece) (a s : ℕ) : Prop := ∃ j < p.size, a = p.target + j ∧ s = p.start + j

variable {p : Piece} {pieces : List Piece} {memory : ℕ → β} {a s : ℕ}

@[simp] theorem perform_nil (memory : ℕ → β) : perform [] memory = memory := rfl

@[simp] theorem perform_cons (p : Piece) (pieces : List Piece) (memory : ℕ → β) :
    perform (p :: pieces) memory = perform pieces (p.run memory) := rfl

@[simp] theorem perform_append (first second : List Piece) (memory : ℕ → β) :
    perform (first ++ second) memory = perform second (perform first memory) := by
  simp [perform]

theorem Piece.Takes.run (takes : p.Takes a s) : p.run memory a = memory s := by
  obtain ⟨j, small, rfl, rfl⟩ := takes
  rw [Piece.run, copy_eq ⟨by omega, by omega⟩, Nat.add_sub_cancel_left]

theorem Piece.run_kept (untouched : ∀ s, ¬p.Takes a s) : p.run memory a = memory a := by
  apply copy_kept
  by_contra inside
  exact untouched (p.start + (a - p.target)) ⟨a - p.target, by omega, by omega, rfl⟩

theorem perform_kept (untouched : ∀ p ∈ pieces, ∀ s, ¬p.Takes a s) :
    perform pieces memory a = memory a := by
  induction pieces generalizing memory with
  | nil => simp
  | cons p pieces ih =>
    have untouched := List.forall_mem_cons.mp untouched
    rw [perform_cons, ih untouched.2, Piece.run_kept untouched.1]

/-- Pieces that all take what an address wants, where nothing wants a byte that is overwritten. -/
theorem perform_takes {wants : ℕ → ℕ → Prop}
    (right : ∀ p ∈ pieces, ∀ a s, p.Takes a s → wants a s)
    (one : ∀ a s t, wants a s → wants a t → s = t)
    (apart : ∀ a s b t, wants a s → wants b t → s ≠ b)
    (takes : ∃ p ∈ pieces, p.Takes a s) : perform pieces memory a = memory s := by
  induction pieces generalizing memory with
  | nil => simp at takes
  | cons p pieces ih =>
    have right := List.forall_mem_cons.mp right
    rw [perform_cons]
    have wanted : wants a s := by
      obtain ⟨q, member, takes⟩ := takes
      rcases List.mem_cons.mp member with rfl | member
      · exact right.1 a s takes
      · exact right.2 q member a s takes
    by_cases later : ∃ q ∈ pieces, q.Takes a s
    · -- the source has not been overwritten by the first piece
      rw [ih right.2 later]
      exact Piece.run_kept fun t takes => apart a s s t wanted (right.1 s t takes) rfl
    · have untouched : ∀ q ∈ pieces, ∀ t, ¬q.Takes a t := by
        intro q member t takes
        obtain rfl := one a s t wanted (right.2 q member a t takes)
        exact later ⟨q, member, takes⟩
      rw [perform_kept untouched]
      obtain ⟨q, member, takes⟩ := takes
      rcases List.mem_cons.mp member with rfl | member
      · exact takes.run
      · exact absurd takes (untouched q member s)

/-- Pieces that only take bytes of one value leave it at every address they write. -/
theorem perform_spreads {v : β} (sources : ∀ p ∈ pieces, ∀ a s, p.Takes a s → memory s = v)
    (reached : memory a = v ∨ ∃ p ∈ pieces, ∃ s, p.Takes a s) : perform pieces memory a = v := by
  induction pieces generalizing memory with
  | nil => simpa using reached
  | cons p pieces ih =>
    have sources := List.forall_mem_cons.mp sources
    -- no byte loses the value
    have spread : ∀ b, memory b = v → p.run memory b = v := by
      intro b held
      by_cases takes : ∃ t, p.Takes b t
      · obtain ⟨t, takes⟩ := takes
        rw [takes.run, sources.1 b t takes]
      · rw [Piece.run_kept (not_exists.mp takes), held]
    apply ih
    · exact fun q member b t takes => spread t (sources.2 q member b t takes)
    · rcases reached with held | ⟨q, member, s, takes⟩
      · exact Or.inl (spread a held)
      · rcases List.mem_cons.mp member with rfl | member
        · exact Or.inl (takes.run.trans (sources.1 a s takes))
        · exact Or.inr ⟨q, member, s, takes⟩

end Memory
