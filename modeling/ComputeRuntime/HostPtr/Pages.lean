import ComputeRuntime.HostPtr.Model
import ComputeRuntime.Library.Tiling

/-! How a range is cut into whole pages, up to the very end of the address space. -/
namespace ComputeRuntime.HostPtr

open HostPtrManager MemoryConstants Tiling

/-- The end of the last page that has a byte below `address`. Only this end can be the end of the
address space; below that it is `alignUp address pageSize`. -/
def pageEnd (address : Nat) : Nat := (address + (pageSize - 1)) / pageSize * pageSize

/-- The pages of a fragment. -/
def span (f : PartialAllocation) : Nat × Nat :=
  (f.allocationPtr, f.allocationPtr + f.allocationSize)

/-- The fragments of a range are its pages: a leading page, whole pages and a trailing page. -/
structure PageSplit (ptr size : Nat) (requirements : AllocationRequirements) : Prop where
  few : requirements.allocationFragments.length ≤ 3
  aligned : ∀ f ∈ requirements.allocationFragments,
    pageSize ∣ f.allocationPtr ∧ pageSize ∣ f.allocationSize ∧ 0 < f.allocationSize
  /-- Each fragment begins where the one before it ends. -/
  links : Links (requirements.allocationFragments.map span) (alignDown ptr pageSize)
    (pageEnd (ptr + size))
  total : requirements.totalRequiredSize =
    (requirements.allocationFragments.map (·.allocationSize)).sum % 2 ^ 64
  onePage : ∀ f ∈ requirements.allocationFragments,
    f.fragmentPosition ≠ .middle → f.allocationSize = pageSize
  leading : (∃ f ∈ requirements.allocationFragments, f.fragmentPosition = .leading) ↔
    ¬ pageSize ∣ ptr
  trailing : (∃ f ∈ requirements.allocationFragments, f.fragmentPosition = .trailing) ↔
    ¬ pageSize ∣ ptr + size ∧ (ptr + size) / pageSize ≠ ptr / pageSize

/-- The fragments from page `first` on. -/
def pageFragments (first : Nat) (leading : Bool) (pages : Nat) (trailing : Bool) :
    List PartialAllocation :=
  (if leading then [⟨.leading, first * 4096, 4096⟩] else []) ++
  (if pages * 4096 ≠ 0 then [⟨.middle, (first + leading.toNat) * 4096, pages * 4096⟩] else []) ++
  (if trailing then [⟨.trailing, (first + leading.toNat + pages) * 4096, 4096⟩] else [])

theorem pageFragments_links (first : Nat) (leading : Bool) (pages : Nat) (trailing : Bool) :
    Links ((pageFragments first leading pages trailing).map span) (first * 4096)
      ((first + leading.toNat + pages + trailing.toNat) * 4096) := by
  unfold pageFragments
  cases leading <;> cases trailing <;> by_cases none : pages = 0 <;>
    simp [none, Links, span] <;> omega

theorem pageFragments_sum (first : Nat) (leading : Bool) (pages : Nat) (trailing : Bool) :
    ((pageFragments first leading pages trailing).map (·.allocationSize)).sum =
      (leading.toNat + pages + trailing.toNat) * 4096 := by
  unfold pageFragments
  cases leading <;> cases trailing <;> by_cases none : pages = 0 <;> simp [none] <;> omega

section Split

variable {ptr size : Nat} (filled : 0 < size) (fits : ptr + size < 2 ^ 64)

include filled fits

/-- The pages of a range in bytes; all of the address space counts as nothing. -/
theorem alignSizeWholePage_eq : alignSizeWholePage ptr size =
    (pageEnd (ptr + size) - ptr / 4096 * 4096) % 2 ^ 64 := by
  have offset : ptr &&& 4095 = ptr % 4096 := Nat.and_two_pow_sub_one_eq_mod ptr 12
  have page : pageSize = 4096 := rfl
  have last : pageEnd (ptr + size) = (ptr + size + 4095) / 4096 * 4096 := rfl
  simp only [alignSizeWholePage, page, offset]
  rw [add64, Word.add_eq (by omega), last]
  have up : alignUp (ptr % 4096 + size) 4096 =
      (ptr % 4096 + size + 4095) % 2 ^ 64 / 4096 * 4096 :=
    alignDown_eq isPow2_pageSize (Nat.mod_lt _ (by decide))
  rw [up]
  omega

/-- The middle of a range is what its leading and trailing page leave. -/
theorem middleSize_eq (leading trailing : Bool) (lead : leading = true ↔ ptr / 4096 * 4096 ≠ ptr)
    (trail : trailing = true ↔ (ptr + size) / 4096 * 4096 ≠ ptr + size ∧
      (ptr + size) / 4096 * 4096 ≠ ptr / 4096 * 4096) :
    ∃ pages, sub64 (alignSizeWholePage ptr size) ((trailing.toNat + leading.toNat) * 4096) =
        pages * 4096 ∧
      pageEnd (ptr + size) =
        (ptr / 4096 + leading.toNat + pages + trailing.toNat) * 4096 ∧
      (pages ≠ 0 → alignUp ptr 4096 = (ptr / 4096 + leading.toNat) * 4096) ∧
      (trailing = true →
        (ptr + size) / 4096 * 4096 = (ptr / 4096 + leading.toNat + pages) * 4096) := by
  have up : alignUp ptr 4096 = (ptr + 4095) % 2 ^ 64 / 4096 * 4096 :=
    alignDown_eq isPow2_pageSize (Nat.mod_lt _ (by decide))
  have whole := alignSizeWholePage_eq filled fits
  have last : pageEnd (ptr + size) = (ptr + size + 4095) / 4096 * 4096 := rfl
  rw [last] at whole ⊢
  rw [up]
  refine ⟨(ptr + size + 4095) / 4096 - ptr / 4096 - (trailing.toNat + leading.toNat), ?_, ?_, ?_, ?_⟩
  · simp only [sub64, Word.sub, whole]
    cases leading <;> cases trailing <;> simp at lead trail ⊢ <;> omega
  all_goals
    clear whole
    cases leading <;> cases trailing <;> simp at lead trail ⊢ <;> omega

/-- The fragments of every range are its pages. -/
theorem getAllocationRequirements_split (rootDeviceIndex : Nat) :
    PageSplit ptr size (getAllocationRequirements rootDeviceIndex ptr size) := by
  have page : pageSize = 4096 := rfl
  have endAddress : add64 ptr size = ptr + size := Word.add_eq fits
  have start : alignDown ptr 4096 = ptr / 4096 * 4096 := alignDown_eq isPow2_pageSize (by omega)
  have last : alignDown (ptr + size) 4096 = (ptr + size) / 4096 * 4096 :=
    alignDown_eq isPow2_pageSize fits
  have whole := alignSizeWholePage_eq filled fits
  generalize leadingIs : decide (ptr / 4096 * 4096 ≠ ptr) = leading
  generalize trailingIs : decide ((ptr + size) / 4096 * 4096 ≠ ptr + size ∧
    (ptr + size) / 4096 * 4096 ≠ ptr / 4096 * 4096) = trailing
  have lead : leading = true ↔ ptr / 4096 * 4096 ≠ ptr := by simp [← leadingIs]
  have trail : trailing = true ↔ (ptr + size) / 4096 * 4096 ≠ ptr + size ∧
      (ptr + size) / 4096 * 4096 ≠ ptr / 4096 * 4096 := by simp [← trailingIs]
  obtain ⟨pages, middle, stop, behind, before⟩ :=
    middleSize_eq filled fits leading trailing lead trail
  have fragments : (getAllocationRequirements rootDeviceIndex ptr size).allocationFragments =
      pageFragments (ptr / 4096) leading pages trailing := by
    unfold pageFragments
    simp only [getAllocationRequirements, page, endAddress, start, last, leadingIs, trailingIs,
      middle]
    refine congrArg₂ _ (congrArg₂ _ rfl ?_) ?_
    · split
      next filled => rw [behind fun none => filled (by rw [none, Nat.zero_mul])]
      next => rfl
    · split
      next needed => rw [before needed]
      next => rfl
  have total : (getAllocationRequirements rootDeviceIndex ptr size).totalRequiredSize =
      (pageEnd (ptr + size) - ptr / 4096 * 4096) % 2 ^ 64 := whole
  have member (f : PartialAllocation) :
      f ∈ (getAllocationRequirements rootDeviceIndex ptr size).allocationFragments ↔
        (leading = true ∧ f = ⟨.leading, ptr / 4096 * 4096, 4096⟩) ∨
        (pages * 4096 ≠ 0 ∧
          f = ⟨.middle, (ptr / 4096 + leading.toNat) * 4096, pages * 4096⟩) ∨
        (trailing = true ∧
          f = ⟨.trailing, (ptr / 4096 + leading.toNat + pages) * 4096, 4096⟩) := by
    rw [fragments, pageFragments]
    simp only [List.mem_append, List.mem_ite_nil_right, List.mem_singleton, or_assoc]
  refine ⟨?_, ?_, ?_, ?_, ?_, ?_, ?_⟩
  · rw [fragments, pageFragments]
    split <;> split <;> split <;> simp
  · intro f inside
    rcases (member f).mp inside with ⟨-, rfl⟩ | ⟨filled, rfl⟩ | ⟨-, rfl⟩
    · exact ⟨Nat.dvd_mul_left _ _, Nat.dvd_refl _, by simp⟩
    · exact ⟨Nat.dvd_mul_left _ _, Nat.dvd_mul_left _ _, Nat.pos_of_ne_zero filled⟩
    · exact ⟨Nat.dvd_mul_left _ _, Nat.dvd_refl _, by simp⟩
  · rw [fragments, stop, page, start]
    exact pageFragments_links _ _ _ _
  · rw [total, fragments, stop, pageFragments_sum]
    exact congrArg (· % 2 ^ 64) (by rw [← Nat.sub_mul]; congr 1; omega)
  · intro f inside notMiddle
    rcases (member f).mp inside with ⟨-, rfl⟩ | ⟨-, rfl⟩ | ⟨-, rfl⟩
    · rfl
    · exact absurd rfl notMiddle
    · rfl
  · have exists_leading : (∃ f ∈ (getAllocationRequirements rootDeviceIndex ptr
        size).allocationFragments, f.fragmentPosition = .leading) ↔ leading = true := by
      simp only [member]
      constructor
      · rintro ⟨f, ⟨needed, -⟩ | ⟨-, rfl⟩ | ⟨-, rfl⟩, position⟩
        · exact needed
        · cases position
        · cases position
      · exact fun needed => ⟨_, .inl ⟨needed, rfl⟩, rfl⟩
    rw [exists_leading, lead, page]
    omega
  · have exists_trailing : (∃ f ∈ (getAllocationRequirements rootDeviceIndex ptr
        size).allocationFragments, f.fragmentPosition = .trailing) ↔ trailing = true := by
      simp only [member]
      constructor
      · rintro ⟨f, ⟨-, rfl⟩ | ⟨-, rfl⟩ | ⟨needed, -⟩, position⟩
        · cases position
        · cases position
        · exact needed
      · exact fun needed => ⟨_, .inr (.inr ⟨needed, rfl⟩), rfl⟩
    rw [exists_trailing, trail, page]
    omega

end Split

theorem getAllocationRequirements_split_two :
    PageSplit 0x1001 0x2000 (getAllocationRequirements 0 0x1001 0x2000) :=
  getAllocationRequirements_split (by decide) (by decide) 0

end ComputeRuntime.HostPtr
