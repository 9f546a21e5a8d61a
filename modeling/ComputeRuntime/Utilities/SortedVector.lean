import ComputeRuntime.Helpers.AlignedMemory
import Mathlib.Data.Int.Init
import Mathlib.Data.List.Perm.Basic
import Mathlib.Order.Interval.Set.Defs

/-! The vector of pointers with values that is kept sorted by pointer, its binary search, and
their agreement with a scan of the vector from its first element. -/
namespace ComputeRuntime

/-- The value of a signed 32-bit result. -/
def toInt32 (x : Int) : Int := x.bmod (2 ^ 32)

theorem toInt32_eq {x : Int} (low : -2 ^ 31 ≤ x) (high : x < 2 ^ 31) : toInt32 x = x := by
  unfold toInt32
  apply Int.bmod_eq_of_le
  · simpa using low
  · simpa using high

/-- A pointer with its value. -/
abbrev PointerPair (ValueType : Type*) := Nat × ValueType

namespace BaseSortedPointerWithValueVector

variable {ValueType : Type*}

def comparePointers (allowedOffset ptr otherPtr : Nat) : Bool :=
  ptr = otherPtr ∨ allowedOffset > 0 ∧ otherPtr < ptr ∧ ptr < add64 otherPtr allowedOffset

/-- The swaps of `insert`, over the vector read from its last element. -/
def bubble (added : PointerPair ValueType) :
    List (PointerPair ValueType) → List (PointerPair ValueType)
  | [] => [added]
  | other :: rest =>
    if added.1 < other.1 then other :: bubble added rest else added :: other :: rest

def insert (ptr : Nat) (value : ValueType) (allocations : List (PointerPair ValueType)) :
    List (PointerPair ValueType) :=
  (bubble (ptr, value) allocations.reverse).reverse

section Search

variable (getAllocationSize : ValueType → Nat) (allowOffset : Bool) (ptr : Nat)
  (allocations : List (PointerPair ValueType))

/-- The comparison a search makes at one element. -/
def hit (allocation : PointerPair ValueType) : Bool :=
  comparePointers (if allowOffset then getAllocationSize allocation.2 else 0) ptr allocation.1

/-- The loop of `getImpl`, with the positions in `int`s. A round takes at least one position out of
the window, so a vector shorter than the fuel is searched to the end. A search that leaves the
vector ends. -/
def search : Nat → Int → Int → Option Nat
  | 0, _, _ => none
  | fuel + 1, first, last =>
    if last ≥ first then
      let currentPos := (toInt32 (first + last)).tdiv 2
      match if currentPos ≥ 0 then allocations[currentPos.toNat]? else none with
      | none => none
      | some allocation =>
        if hit getAllocationSize allowOffset ptr allocation then some currentPos.toNat
        else if ptr < allocation.1 then search fuel first (currentPos - 1)
        else search fuel (currentPos + 1) last
    else none

/-- The position of the element that a pointer designates; `none` is `end()`. -/
def getImpl : Option Nat :=
  if allocations.length = 0 then none
  else if ptr = 0 then none
  else
    search getAllocationSize allowOffset ptr allocations (allocations.length + 1) 0
      (toInt32 (allocations.length - 1))

/-- The value of a pointer, taken out of the vector. -/
def extract : Option ValueType × List (PointerPair ValueType) :=
  match getImpl getAllocationSize false ptr allocations with
  | none => (none, allocations)
  | some position => ((allocations[position]?).map Prod.snd, allocations.eraseIdx position)

def get : Option ValueType :=
  match getImpl getAllocationSize true ptr allocations with
  | none => none
  | some position => (allocations[position]?).map Prod.snd

/-- The first element that a pointer designates. -/
def scan : Option Nat := allocations.findIdx? (hit getAllocationSize allowOffset ptr)

end Search

theorem bubble_perm (added : PointerPair ValueType) (backwards : List (PointerPair ValueType)) :
    (bubble added backwards).Perm (added :: backwards) := by
  induction backwards with
  | nil => exact .refl _
  | cons other rest ih =>
    unfold bubble
    split
    · exact (ih.cons other).trans (.swap added other rest)
    · exact .refl _

theorem insert_perm (ptr : Nat) (value : ValueType) (allocations : List (PointerPair ValueType)) :
    (insert ptr value allocations).Perm ((ptr, value) :: allocations) := by
  apply (List.reverse_perm _).trans
  exact (bubble_perm _ _).trans ((List.reverse_perm allocations).cons _)

/-- The pointers rise. -/
def Sorted (allocations : List (PointerPair ValueType)) : Prop :=
  allocations.Pairwise fun a b => a.1 < b.1

theorem bubble_sorted {added : PointerPair ValueType} {backwards : List (PointerPair ValueType)}
    (sorted : backwards.Pairwise fun a b => b.1 < a.1) (fresh : ∀ a ∈ backwards, a.1 ≠ added.1) :
    (bubble added backwards).Pairwise fun a b => b.1 < a.1 := by
  induction backwards with
  | nil => simp [bubble]
  | cons other rest ih =>
    obtain ⟨above, tail⟩ := List.pairwise_cons.mp sorted
    unfold bubble
    split
    next lower =>
      apply List.pairwise_cons.mpr
      constructor
      · intro a member
        rcases List.mem_cons.mp ((bubble_perm added rest).subset member) with rfl | old
        · exact lower
        · exact above a old
      · exact ih tail fun a member => fresh a (List.mem_cons_of_mem _ member)
    next higher =>
      have apart := fresh other (by simp)
      have top : other.1 < added.1 := by omega
      apply List.pairwise_cons.mpr
      refine ⟨fun a member => ?_, sorted⟩
      rcases List.mem_cons.mp member with rfl | old
      · exact top
      · exact Nat.lt_trans (above a old) top

theorem insert_sorted {ptr : Nat} {value : ValueType} {allocations : List (PointerPair ValueType)}
    (sorted : Sorted allocations) (fresh : ∀ a ∈ allocations, a.1 ≠ ptr) :
    Sorted (insert ptr value allocations) := by
  apply List.pairwise_reverse.mpr
  apply bubble_sorted
  · exact List.pairwise_reverse.mpr sorted
  · intro a member
    exact fresh a (List.mem_reverse.mp member)

theorem bubble_front {added : PointerPair ValueType} {backwards : List (PointerPair ValueType)}
    (below : ∀ a ∈ backwards, added.1 < a.1) : bubble added backwards = backwards ++ [added] := by
  induction backwards with
  | nil => rfl
  | cons other rest ih =>
    rw [bubble, if_pos (below other (by simp)), ih fun a member => below a (by simp [member])]
    rfl

/-- A pointer below all others becomes the first element. -/
theorem insert_front {ptr : Nat} {value : ValueType} {allocations : List (PointerPair ValueType)}
    (below : ∀ a ∈ allocations, ptr < a.1) :
    insert ptr value allocations = (ptr, value) :: allocations := by
  rw [insert, bubble_front fun a member => below a (List.mem_reverse.mp member)]
  simp

/-! ### The search -/

/-- Rising pointers whose blocks neither overlap nor wrap around. -/
def Separated (getAllocationSize : ValueType → Nat)
    (allocations : List (PointerPair ValueType)) : Prop :=
  (∀ a ∈ allocations, a.1 + getAllocationSize a.2 < 2 ^ 64) ∧
    allocations.Pairwise fun a b => a.1 < b.1 ∧ a.1 + getAllocationSize a.2 ≤ b.1

section Search

variable {getAllocationSize : ValueType → Nat} {allowOffset : Bool} {ptr : Nat}
  {allocations : List (PointerPair ValueType)}

theorem hit_iff {a : PointerPair ValueType} (fits : a.1 + getAllocationSize a.2 < 2 ^ 64) :
    hit getAllocationSize allowOffset ptr a = true ↔
      ptr = a.1 ∨ allowOffset = true ∧ a.1 < ptr ∧ ptr < a.1 + getAllocationSize a.2 := by
  have whole : add64 a.1 (getAllocationSize a.2) = a.1 + getAllocationSize a.2 := Word.add_eq fits
  cases allowOffset with
  | false => simp [hit, comparePointers]
  | true =>
    simp only [hit, comparePointers, if_true, whole, decide_eq_true_eq, true_and]
    omega

/-- An element that a pointer in front of it cannot designate. -/
theorem hit_below {a : PointerPair ValueType} (fits : a.1 + getAllocationSize a.2 < 2 ^ 64)
    (below : ptr < a.1) : hit getAllocationSize allowOffset ptr a = false := by
  apply Bool.eq_false_iff.mpr
  rw [Ne, hit_iff fits]
  omega

theorem Separated.fits (separated : Separated getAllocationSize allocations) {i : Nat}
    {a : PointerPair ValueType} (found : allocations[i]? = some a) :
    a.1 + getAllocationSize a.2 < 2 ^ 64 := separated.1 a (List.mem_of_getElem? found)

theorem Separated.order (separated : Separated getAllocationSize allocations) {i j : Nat}
    {a b : PointerPair ValueType} (first : allocations[i]? = some a)
    (second : allocations[j]? = some b) (lt : i < j) :
    a.1 < b.1 ∧ a.1 + getAllocationSize a.2 ≤ b.1 := by
  obtain ⟨inside, rfl⟩ := List.getElem?_eq_some_iff.mp first
  obtain ⟨inside', rfl⟩ := List.getElem?_eq_some_iff.mp second
  exact List.pairwise_iff_getElem.mp separated.2 i j inside inside' lt

/-- A pointer in front of an element designates nothing from that element on. -/
theorem Separated.none_from (separated : Separated getAllocationSize allocations) {i j : Nat}
    {a b : PointerPair ValueType} (first : allocations[i]? = some a)
    (second : allocations[j]? = some b) (le : i ≤ j) (below : ptr < a.1) :
    hit getAllocationSize allowOffset ptr b = false := by
  apply hit_below (separated.fits second)
  rcases Nat.eq_or_lt_of_le le with rfl | lt
  · rw [first] at second
    cases second
    exact below
  · have := separated.order first second lt
    omega

/-- A pointer that is not in front of an element and does not designate it designates nothing up
to that element. -/
theorem Separated.none_to (separated : Separated getAllocationSize allocations) {i j : Nat}
    {a b : PointerPair ValueType} (first : allocations[i]? = some a)
    (second : allocations[j]? = some b) (le : i ≤ j) (above : b.1 ≤ ptr)
    (miss : hit getAllocationSize allowOffset ptr b = false) :
    hit getAllocationSize allowOffset ptr a = false := by
  rcases Nat.eq_or_lt_of_le le with rfl | lt
  · rw [first] at second
    cases second
    exact miss
  · have order := separated.order first second lt
    apply Bool.eq_false_iff.mpr
    rw [Ne, hit_iff (separated.fits first)]
    omega

/-- At most one element is designated. -/
theorem Separated.unique (separated : Separated getAllocationSize allocations) {i j : Nat}
    {a b : PointerPair ValueType} (first : allocations[i]? = some a)
    (second : allocations[j]? = some b) (hitA : hit getAllocationSize allowOffset ptr a = true)
    (hitB : hit getAllocationSize allowOffset ptr b = true) : i = j := by
  have designatedA := (hit_iff (separated.fits first)).mp hitA
  have designatedB := (hit_iff (separated.fits second)).mp hitB
  rcases Nat.lt_trichotomy i j with lt | same | gt
  · have := separated.order first second lt
    omega
  · exact same
  · have := separated.order second first gt
    omega

/-- A search whose window holds every designated element ends where the scan ends. -/
theorem search_eq_scan (separated : Separated getAllocationSize allocations)
    (short : allocations.length ≤ 2 ^ 30) {fuel : Nat} {first last : Int} (low : 0 ≤ first)
    (ordered : first ≤ last + 1) (high : last < allocations.length)
    (enough : last + 1 - first < fuel)
    (window : ∀ (i : Nat) a, allocations[i]? = some a →
      hit getAllocationSize allowOffset ptr a = true → first ≤ i ∧ i ≤ last) :
    search getAllocationSize allowOffset ptr allocations fuel first last =
      scan getAllocationSize allowOffset ptr allocations := by
  induction fuel generalizing first last with
  | zero => omega
  | succ fuel ih =>
    unfold search
    split
    next more =>
      have middle : (toInt32 (first + last)).tdiv 2 = (first + last) / 2 := by
        rw [toInt32_eq (by omega) (by omega), Int.tdiv_eq_ediv_of_nonneg (by omega)]
      obtain ⟨position, current⟩ := Int.eq_ofNat_of_zero_le (show 0 ≤ (first + last) / 2 by omega)
      have inside : position < allocations.length := by omega
      obtain ⟨a, found⟩ : ∃ a, allocations[position]? = some a := ⟨_, List.getElem?_eq_getElem inside⟩
      have nonneg : (position : Int) ≥ 0 := by omega
      simp only [middle, current, if_pos nonneg, Int.toNat_natCast, found]
      split
      next designated =>
        -- No element in front of the current one is designated too.
        symm
        apply List.findIdx?_eq_some_iff_getElem.mpr
        obtain ⟨_, value⟩ := List.getElem?_eq_some_iff.mp found
        refine ⟨inside, value ▸ designated, fun j before earlier => ?_⟩
        have same := separated.unique (List.getElem?_eq_getElem (by omega)) found earlier designated
        omega
      next miss =>
        rw [Bool.not_eq_true] at miss
        split
        next below =>
          apply ih low (by omega) (by omega) (by omega)
          intro i b member designated
          have bound := window i b member designated
          have left : i < position := by
            by_contra right
            have none : hit getAllocationSize allowOffset ptr b = false :=
              separated.none_from found member (by omega) below
            rw [none] at designated
            cases designated
          omega
        next above =>
          apply ih (by omega) (by omega) high (by omega)
          intro i b member designated
          have bound := window i b member designated
          have right : position < i := by
            by_contra left
            have none : hit getAllocationSize allowOffset ptr b = false :=
              separated.none_to member found (by omega) (by omega) miss
            rw [none] at designated
            cases designated
          omega
    next closed =>
      symm
      apply List.findIdx?_eq_none_iff.mpr
      intro a member
      obtain ⟨i, inside, rfl⟩ := List.getElem_of_mem member
      apply Bool.eq_false_iff.mpr
      intro designated
      have := window i _ (List.getElem?_eq_getElem inside) designated
      omega

/-- A vector whose search is a scan: separated, without a null pointer, and so short that the sum
of two positions is an `int`. -/
structure Searchable (getAllocationSize : ValueType → Nat)
    (allocations : List (PointerPair ValueType)) : Prop where
  separated : Separated getAllocationSize allocations
  nonnull : ∀ a ∈ allocations, a.1 ≠ 0
  short : allocations.length ≤ 2 ^ 30

/-- The binary search finds what a scan finds. -/
theorem getImpl_eq_scan (searchable : Searchable getAllocationSize allocations) :
    getImpl getAllocationSize allowOffset ptr allocations =
      scan getAllocationSize allowOffset ptr allocations := by
  obtain ⟨separated, nonnull, short⟩ := searchable
  unfold getImpl
  split
  next empty => simp [scan, List.length_eq_zero_iff.mp empty]
  next some =>
    split
    next null =>
      symm
      apply List.findIdx?_eq_none_iff.mpr
      intro a member
      apply hit_below (separated.1 a member)
      have := nonnull a member
      omega
    next =>
      have last : toInt32 ((allocations.length : Int) - 1) = allocations.length - 1 :=
        toInt32_eq (by omega) (by omega)
      rw [last]
      apply search_eq_scan separated short (by omega) (by omega) (by omega) (by omega)
      intro i a found _
      obtain ⟨inside, -⟩ := List.getElem?_eq_some_iff.mp found
      omega

/-- A designated element is the one a search finds. -/
theorem getImpl_eq_some (searchable : Searchable getAllocationSize allocations) {i : Nat}
    {a : PointerPair ValueType} (found : allocations[i]? = some a)
    (designated : hit getAllocationSize allowOffset ptr a = true) :
    getImpl getAllocationSize allowOffset ptr allocations = some i := by
  rw [getImpl_eq_scan searchable]
  apply List.findIdx?_eq_some_iff_getElem.mpr
  obtain ⟨inside, value⟩ := List.getElem?_eq_some_iff.mp found
  refine ⟨inside, value ▸ designated, fun j before earlier => ?_⟩
  have same := searchable.separated.unique (List.getElem?_eq_getElem (by omega)) found earlier
    designated
  omega

theorem getImpl_eq_none (searchable : Searchable getAllocationSize allocations)
    (absent : ∀ a ∈ allocations, hit getAllocationSize allowOffset ptr a = false) :
    getImpl getAllocationSize allowOffset ptr allocations = none := by
  rw [getImpl_eq_scan searchable]
  exact List.findIdx?_eq_none_iff.mpr absent

theorem get_of_mem (searchable : Searchable getAllocationSize allocations)
    {a : PointerPair ValueType} (member : a ∈ allocations)
    (inside : ptr ∈ Set.Ico a.1 (a.1 + getAllocationSize a.2)) :
    get getAllocationSize ptr allocations = some a.2 := by
  obtain ⟨i, bound, rfl⟩ := List.getElem_of_mem member
  have found := List.getElem?_eq_getElem bound
  have designated : hit getAllocationSize true ptr allocations[i] = true := by
    apply (hit_iff (searchable.separated.1 _ member)).mpr
    rcases Nat.eq_or_lt_of_le inside.1 with start | interior
    · exact .inl start.symm
    · exact .inr ⟨rfl, interior, inside.2⟩
  rw [get, getImpl_eq_some searchable found designated]
  simp [found]

theorem get_eq_none (searchable : Searchable getAllocationSize allocations)
    (absent : ∀ a ∈ allocations, ptr ≠ a.1 ∧ ptr ∉ Set.Ico a.1 (a.1 + getAllocationSize a.2)) :
    get getAllocationSize ptr allocations = none := by
  rw [get, getImpl_eq_none searchable]
  intro a member
  apply Bool.eq_false_iff.mpr
  rw [Ne, hit_iff (searchable.separated.1 a member)]
  rintro (same | ⟨-, low, high⟩)
  · exact (absent a member).1 same
  · exact (absent a member).2 ⟨by omega, high⟩

theorem extract_of_mem (searchable : Searchable getAllocationSize allocations)
    {a : PointerPair ValueType} (member : a ∈ allocations) :
    ∃ rest, extract getAllocationSize a.1 allocations = (some a.2, rest) ∧
      allocations.Perm (a :: rest) ∧ rest.Sublist allocations := by
  obtain ⟨i, bound, rfl⟩ := List.getElem_of_mem member
  have found := List.getElem?_eq_getElem bound
  have designated : hit getAllocationSize false allocations[i].1 allocations[i] = true :=
    (hit_iff (searchable.separated.1 _ member)).mpr (.inl rfl)
  refine ⟨allocations.eraseIdx i, ?_, ?_, List.eraseIdx_sublist _ _⟩
  · rw [extract, getImpl_eq_some searchable found designated]
    simp [found]
  · exact (List.getElem_cons_eraseIdx_perm bound).symm

theorem extract_eq_none (searchable : Searchable getAllocationSize allocations)
    (absent : ∀ a ∈ allocations, a.1 ≠ ptr) :
    extract getAllocationSize ptr allocations = (none, allocations) := by
  rw [extract, getImpl_eq_none searchable]
  intro a member
  apply Bool.eq_false_iff.mpr
  rw [Ne, hit_iff (searchable.separated.1 a member)]
  rintro (same | ⟨⟨⟩, -⟩)
  exact absent a member same.symm

/-- With more elements than an `int` counts, and no more than twice as many, nothing is found. -/
theorem getImpl_overflow (long : 2 ^ 31 < allocations.length)
    (short : allocations.length ≤ 2 ^ 32) :
    getImpl getAllocationSize allowOffset ptr allocations = none := by
  have last : toInt32 ((allocations.length : Int) - 1) < 0 := by
    unfold toInt32
    rw [Int.bmod_def]
    split <;> omega
  unfold getImpl
  split
  · rfl
  · split
    · rfl
    · unfold search
      exact if_neg (by omega)

end Search

end BaseSortedPointerWithValueVector

end ComputeRuntime
