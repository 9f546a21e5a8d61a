import ComputeRuntime.Library.Tiling
import ComputeRuntime.HeapAllocator.Model

/-! What the list operations of the allocator do to the space the chunks cover: storing and
merging keep it, serving a request takes the tail of one chunk out of it. -/
namespace ComputeRuntime

open Tiling

/-- The addresses of a chunk, as a half-open span. -/
def HeapChunk.span (chunk : HeapChunk) : Nat × Nat := (chunk.ptr, chunk.ptr + chunk.size)

def spans (chunks : List HeapChunk) : List (Nat × Nat) := chunks.map HeapChunk.span

@[simp] theorem spans_nil : spans [] = [] := rfl

@[simp] theorem spans_cons (c : HeapChunk) (chunks : List HeapChunk) :
    spans (c :: chunks) = (c.ptr, c.ptr + c.size) :: spans chunks := rfl

@[simp] theorem spans_append (xs ys : List HeapChunk) :
    spans (xs ++ ys) = spans xs ++ spans ys := List.map_append

theorem spans_perm {xs ys : List HeapChunk} (perm : xs.Perm ys) : (spans xs).Perm (spans ys) :=
  perm.map _

/-- The chunk lies in `[lo, hi]`; an empty chunk may sit at `hi`. -/
def HeapChunk.Within (lo hi : Nat) (c : HeapChunk) : Prop := lo ≤ c.ptr ∧ c.ptr + c.size ≤ hi

/-- No byte of the chunk is at or above `bound`. -/
def HeapChunk.Below (bound : Nat) (c : HeapChunk) : Prop := c.size = 0 ∨ c.ptr + c.size ≤ bound

/-- No byte of the chunk is below `bound`. -/
def HeapChunk.Above (bound : Nat) (c : HeapChunk) : Prop := c.size = 0 ∨ bound ≤ c.ptr

/-- A property of chunks that survives growing a chunk by a neighbouring span. -/
structure Joins (P : HeapChunk → Prop) : Prop where
  join : ∀ {a b : HeapChunk}, P a → P b → b.ptr = a.ptr + a.size → P ⟨a.ptr, b.size + a.size⟩

theorem joins_within (lo hi : Nat) : Joins (HeapChunk.Within lo hi) where
  join := by intro a b first second next; simp only [HeapChunk.Within] at *; omega

theorem joins_below (bound : Nat) : Joins (HeapChunk.Below bound) where
  join := by intro a b first second next; simp only [HeapChunk.Below] at *; omega

theorem joins_above (bound : Nat) : Joins (HeapChunk.Above bound) where
  join := by intro a b first second next; simp only [HeapChunk.Above] at *; omega

/-! ### Storing a chunk -/

section Store

variable {lo hi ptr size : Nat} {chunks : List HeapChunk}

theorem store_total {f : Nat → Nat → Nat} (additive : Additive f) (fits : hi < 2 ^ 64)
    (within : ∀ c ∈ chunks, c.Within lo hi) (top : ptr + size ≤ hi) :
    total f (spans (storeInFreedChunks ptr size chunks)) =
      f ptr (ptr + size) + total f (spans chunks) := by
  induction chunks with
  | nil => simp [storeInFreedChunks]
  | cons c rest ih =>
    have bound := (within c (by simp)).2
    have tail := ih fun d member => within d (by simp [member])
    simp only [storeInFreedChunks, add64]
    rw [Word.add_eq (show ptr + size < 2 ^ 64 by omega),
      Word.add_eq (show c.ptr + c.size < 2 ^ 64 by omega)]
    split
    next above =>
      have cut := additive.cut (show ptr ≤ c.ptr by omega) (show c.ptr ≤ c.ptr + c.size by omega)
      rw [Word.add_eq (by omega), spans_cons, spans_cons, total_cons, total_cons]
      simp only [above] at cut ⊢
      rw [show ptr + (c.size + size) = ptr + size + c.size by omega, cut, Nat.add_assoc]
    next =>
      split
      next below =>
        have cut := additive.cut (show c.ptr ≤ ptr by omega) (show ptr ≤ ptr + size by omega)
        rw [Word.add_eq (by omega), spans_cons, spans_cons, total_cons, total_cons]
        simp only
        rw [show c.ptr + (c.size + size) = ptr + size by omega, cut, below]
        omega
      next =>
        rw [spans_cons, spans_cons, total_cons, total_cons, tail]
        omega

theorem store_forall {P : HeapChunk → Prop} (joins : Joins P) (fits : hi < 2 ^ 64)
    (within : ∀ c ∈ chunks, c.Within lo hi) (top : ptr + size ≤ hi) (new : P ⟨ptr, size⟩)
    (all : ∀ c ∈ chunks, P c) : ∀ c ∈ storeInFreedChunks ptr size chunks, P c := by
  induction chunks with
  | nil => simpa [storeInFreedChunks] using new
  | cons c rest ih =>
    have bound := (within c (by simp)).2
    have head := all c (by simp)
    have tail : ∀ d ∈ rest, P d := fun d member => all d (by simp [member])
    simp only [storeInFreedChunks, add64]
    rw [Word.add_eq (show ptr + size < 2 ^ 64 by omega),
      Word.add_eq (show c.ptr + c.size < 2 ^ 64 by omega)]
    split
    next above =>
      rw [Word.add_eq (by omega)]
      exact List.forall_mem_cons.mpr ⟨joins.join new head above, tail⟩
    next =>
      split
      next below =>
        rw [Word.add_eq (by omega), Nat.add_comm]
        exact List.forall_mem_cons.mpr ⟨joins.join head new below.symm, tail⟩
      next =>
        exact List.forall_mem_cons.mpr
          ⟨head, ih (fun d member => within d (by simp [member])) tail⟩

end Store

/-! ### Merging neighbours -/

/-- A merge of two chunks that only ever replaces touching chunks by their union. -/
structure Sound (lo hi : Nat) (join : HeapChunk → HeapChunk → Option HeapChunk) : Prop where
  merges : ∀ {current next merged}, current.Within lo hi → next.Within lo hi →
    join current next = some merged →
    (next.ptr = current.ptr + current.size ∧
      merged = ⟨current.ptr, next.size + current.size⟩) ∨
    (current.ptr = next.ptr + next.size ∧ merged = ⟨next.ptr, current.size + next.size⟩)

theorem joinSmall_sound {lo hi : Nat} (fits : hi < 2 ^ 64) : Sound lo hi joinSmall where
  merges := by
    intro current next merged first second joined
    simp only [HeapChunk.Within] at first second
    simp only [joinSmall, add64] at joined
    rw [Word.add_eq (show current.ptr + current.size < 2 ^ 64 by omega)] at joined
    split at joined
    next touch =>
      rw [Word.add_eq (by omega)] at joined
      exact Or.inl ⟨touch, (Option.some.inj joined).symm⟩
    · cases joined

theorem joinBig_sound {lo hi : Nat} (fits : hi < 2 ^ 64) : Sound lo hi joinBig where
  merges := by
    intro current next merged first second joined
    simp only [HeapChunk.Within] at first second
    simp only [joinBig, add64] at joined
    rw [Word.add_eq (show next.ptr + next.size < 2 ^ 64 by omega)] at joined
    split at joined
    next touch =>
      rw [Word.add_eq (by omega)] at joined
      exact Or.inr ⟨touch.symm, by rw [Nat.add_comm]; exact (Option.some.inj joined).symm⟩
    · cases joined

section Coalesce

variable {lo hi : Nat} {join : HeapChunk → HeapChunk → Option HeapChunk}

theorem Sound.total {f : Nat → Nat → Nat} (additive : Additive f) (sound : Sound lo hi join)
    {current next merged : HeapChunk} (first : current.Within lo hi) (second : next.Within lo hi)
    (joined : join current next = some merged) :
    f merged.ptr (merged.ptr + merged.size) =
      f current.ptr (current.ptr + current.size) + f next.ptr (next.ptr + next.size) := by
  rcases sound.merges first second joined with ⟨touch, rfl⟩ | ⟨touch, rfl⟩
  · have cut := additive.cut (show current.ptr ≤ next.ptr by omega)
      (show next.ptr ≤ next.ptr + next.size by omega)
    simp only
    rw [show current.ptr + (next.size + current.size) = next.ptr + next.size by omega, cut, touch]
  · have cut := additive.cut (show next.ptr ≤ current.ptr by omega)
      (show current.ptr ≤ current.ptr + current.size by omega)
    simp only
    rw [show next.ptr + (current.size + next.size) = current.ptr + current.size by omega, cut,
      touch]
    omega

theorem Sound.keeps {P : HeapChunk → Prop} (joins : Joins P) (sound : Sound lo hi join)
    {current next merged : HeapChunk} (first : current.Within lo hi) (second : next.Within lo hi)
    (joined : join current next = some merged) (left : P current) (right : P next) :
    P merged := by
  rcases sound.merges first second joined with ⟨touch, rfl⟩ | ⟨touch, rfl⟩
  · exact joins.join left right touch
  · exact joins.join right left touch

theorem coalesce_spec {P : HeapChunk → Prop} (joins : Joins P) (sound : Sound lo hi join)
    (current : HeapChunk) (rest : List HeapChunk)
    (within : ∀ c ∈ current :: rest, c.Within lo hi) (all : ∀ c ∈ current :: rest, P c) :
    (∀ c ∈ coalesce join current rest, P c) ∧
    ∀ f : Nat → Nat → Nat, Additive f → total f (spans (coalesce join current rest)) =
      total f (spans (current :: rest)) := by
  induction rest generalizing current with
  | nil => exact ⟨by simpa [coalesce] using all, fun f _ => rfl⟩
  | cons next rest ih =>
    have first := within current (by simp)
    have second := within next (by simp)
    simp only [coalesce]
    cases joined : join current next with
    | none =>
      have tail := ih next (fun c member => within c (by simp_all))
        (fun c member => all c (by simp_all))
      refine ⟨List.forall_mem_cons.mpr ⟨all current (by simp), tail.1⟩, fun f additive => ?_⟩
      have rest := tail.2 f additive
      simp only [spans_cons, total_cons] at rest ⊢
      rw [rest]
    | some merged =>
      have insideMerged := sound.keeps (joins_within lo hi) first second joined first second
      have allMerged := sound.keeps joins first second joined (all current (by simp))
        (all next (by simp))
      have tail := ih merged
        (List.forall_mem_cons.mpr ⟨insideMerged, fun c member => within c (by simp [member])⟩)
        (List.forall_mem_cons.mpr ⟨allMerged, fun c member => all c (by simp [member])⟩)
      refine ⟨tail.1, fun f additive => ?_⟩
      rw [tail.2 f additive]
      simp only [spans_cons, total_cons, sound.total additive first second joined, Nat.add_assoc]

/-- Merging a permutation of the chunks keeps the space and every joinable property. -/
theorem coalesceAll_spec {P : HeapChunk → Prop} (joins : Joins P) (sound : Sound lo hi join)
    {chunks backwards : List HeapChunk} (perm : backwards.Perm chunks)
    (within : ∀ c ∈ chunks, c.Within lo hi) (all : ∀ c ∈ chunks, P c) :
    (∀ c ∈ coalesceAll join backwards, P c) ∧
    ∀ f : Nat → Nat → Nat, Additive f → total f (spans (coalesceAll join backwards)) = total f (spans chunks) := by
  cases backwards with
  | nil =>
    have empty := perm.nil_eq
    subst empty
    exact ⟨by simp [coalesceAll], fun f _ => rfl⟩
  | cons last rest =>
    have spec := coalesce_spec joins sound last rest
      (fun c member => within c (perm.mem_iff.mp member))
      (fun c member => all c (perm.mem_iff.mp member))
    refine ⟨fun c member => spec.1 c (List.mem_reverse.mp member), fun f additive => ?_⟩
    have reversed := total_perm f (spans_perm (List.reverse_perm (coalesce join last rest)))
    simp only [coalesceAll]
    rw [reversed, spec.2 f additive, total_perm f (spans_perm perm)]

end Coalesce

theorem sortChunks_perm (chunks : List HeapChunk) : (sortChunks chunks).Perm chunks :=
  List.mergeSort_perm chunks _

end ComputeRuntime
