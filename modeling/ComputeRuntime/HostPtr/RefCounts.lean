import ComputeRuntime.HostPtr.Fragments

/-! What preparing and releasing a handle storage does to the reference counts. -/
namespace ComputeRuntime.HostPtr

open HostPtrManager MemoryConstants

/-- A range with its first and last page cut off: what is left lies between the two. -/
theorem middle_between {ptr size : Nat} (inside : ptr + size + 4096 ≤ 2 ^ 64)
    (leading trailing : Bool) (lead : leading = true ↔ ptr / 4096 * 4096 ≠ ptr)
    (trail : trailing = true ↔ (ptr + size) / 4096 * 4096 ≠ ptr + size ∧
      (ptr + size) / 4096 * 4096 ≠ ptr / 4096 * 4096) :
    ∃ middle, sub64 ((ptr % 4096 + size + 4095) / 4096 * 4096)
          ((trailing.toNat + leading.toNat) * 4096) = middle ∧
      (ptr + 4095) / 4096 * 4096 + middle + trailing.toNat * 4096 < 2 ^ 64 ∧
      (leading = true → ptr / 4096 * 4096 + 4096 = (ptr + 4095) / 4096 * 4096) ∧
      (trailing = true → (ptr + 4095) / 4096 * 4096 + middle = (ptr + size) / 4096 * 4096) := by
  have cut : (trailing.toNat + leading.toNat) * 4096 ≤
      (ptr % 4096 + size + 4095) / 4096 * 4096 := by
    cases leading <;> cases trailing <;> simp at lead trail ⊢ <;> omega
  refine ⟨_, Word.sub_eq cut (by omega), ?_⟩
  cases leading <;> cases trailing <;> simp at lead trail ⊢ <;> omega

/-- The fragments of a range are not empty, end below the end of the address space and follow
each other. -/
theorem requirements_spec {p : Preparation} (inProcess : p.InProcess) :
    (∀ f ∈ p.requirements.allocationFragments,
      0 < f.allocationSize ∧ f.allocationPtr + f.allocationSize < 2 ^ 64) ∧
    p.requirements.allocationFragments.Pairwise fun f g =>
      f.allocationPtr + f.allocationSize ≤ g.allocationPtr := by
  have page : pageSize = 4096 := rfl
  have inside : p.ptr + p.size + 4096 ≤ 2 ^ 64 := inProcess
  have endAddress : add64 p.ptr p.size = p.ptr + p.size :=
    Word.add_eq (by omega)
  have start : alignDown p.ptr 4096 = p.ptr / 4096 * 4096 :=
    alignDown_eq isPow2_pageSize (by omega)
  have last : alignDown (p.ptr + p.size) 4096 =
      (p.ptr + p.size) / 4096 * 4096 :=
    alignDown_eq isPow2_pageSize (by omega)
  have up : alignUp p.ptr 4096 = (p.ptr + 4095) / 4096 * 4096 :=
    (alignUp_eq isPow2_pageSize (by omega)).trans (alignDown_eq isPow2_pageSize (by omega))
  have offset : p.ptr &&& 4095 = p.ptr % 4096 :=
    Nat.and_two_pow_sub_one_eq_mod p.ptr 12
  have whole : alignSizeWholePage p.ptr p.size =
      (p.ptr % 4096 + p.size + 4095) / 4096 * 4096 := by
    unfold alignSizeWholePage
    simp only [page, offset]
    rw [add64, Word.add_eq (by omega)]
    exact (alignUp_eq isPow2_pageSize (by omega)).trans
      (alignDown_eq isPow2_pageSize (by omega))
  simp only [Preparation.requirements, getAllocationRequirements, page, endAddress, start, last,
    up, whole]
  generalize leadingIs : decide (p.ptr / 4096 * 4096 ≠ p.ptr) = leading
  generalize trailingIs : decide ((p.ptr + p.size) / 4096 * 4096 ≠
      p.ptr + p.size ∧ (p.ptr + p.size) / 4096 * 4096 ≠
        p.ptr / 4096 * 4096) = trailing
  obtain ⟨middle, size, below, first, second⟩ := middle_between inside leading trailing
    (by simp [← leadingIs]) (by simp [← trailingIs])
  rw [size]
  constructor
  · intro f member
    simp only [List.mem_append, List.mem_ite_nil_right, List.mem_singleton] at member
    rcases member with (⟨needed, rfl⟩ | ⟨needed, rfl⟩) | ⟨needed, rfl⟩
    · have := first needed
      simp only
      omega
    · simp only
      omega
    · have := second needed
      rw [needed] at below
      simp only [Bool.toNat_true] at below ⊢
      omega
  · have single : ∀ (c : Prop) [Decidable c] (f : PartialAllocation),
        (if c then [f] else []).Pairwise fun f g =>
          f.allocationPtr + f.allocationSize ≤ g.allocationPtr := by
      intro c _ f
      split <;> simp
    simp only [List.pairwise_append]
    refine ⟨⟨single _ _, single _ _, ?_⟩, single _ _, ?_⟩
    · intro f front g back
      simp only [List.mem_ite_nil_right, List.mem_singleton] at front back
      obtain ⟨needed, rfl⟩ := front
      obtain ⟨-, rfl⟩ := back
      exact (first needed).le
    · intro f front g back
      simp only [List.mem_append, List.mem_ite_nil_right, List.mem_singleton] at front back
      obtain ⟨last, rfl⟩ := back
      have := second last
      rcases front with ⟨needed, rfl⟩ | ⟨-, rfl⟩
      · have := first needed
        simp only
        omega
      · exact this.le

/-- What an allocation will use of the memory, one use for each fragment. -/
def Preparation.uses (p : Preparation) : List Use :=
  p.requirements.allocationFragments.map fun f =>
    { rootDeviceIndex := p.rootDeviceIndex
      cpuPtr := f.allocationPtr
      fragmentSize := f.allocationSize }

def usesOf (rootDeviceIndex : Nat) (data : List AllocationStorageData) : List Use :=
  data.map (useOf rootDeviceIndex)

section Prepare

variable {m m' : HostPtrManager} {uses : List Use} {rootDeviceIndex : Nat}

/-- A fragment that is stored already gets one more user; for another one nothing happens. -/
theorem populateFragment_spec (sound : Sound m uses) {fragment : PartialAllocation}
    (filled : 0 < fragment.allocationSize)
    (fits : fragment.allocationPtr + fragment.allocationSize < 2 ^ 64)
    {data : AllocationStorageData}
    (ran : m.populateFragment rootDeviceIndex fragment = some (m', data)) :
    data.cpuPtr = fragment.allocationPtr ∧ data.fragmentSize = fragment.allocationSize ∧
      Narrows m' m ∧
      (data.osHandleStorage = none → m' = m) ∧
      (data.osHandleStorage ≠ none → Sound m' (useOf rootDeviceIndex data :: uses) ∧
        ∃ f ∈ m.partialAllocations.entries, (useOf rootDeviceIndex data).Inside f) := by
  have returned : ∀ f, (m.getFragmentAndCheckForOverlaps rootDeviceIndex fragment.allocationPtr
        fragment.allocationSize).1 = some f → f ∈ m.partialAllocations.entries ∧
      Use.Inside ⟨rootDeviceIndex, fragment.allocationPtr, fragment.allocationSize⟩ f :=
    fun f found => sound.overlap_inside fits found
  unfold populateFragment at ran
  simp only at ran
  generalize m.getFragmentAndCheckForOverlaps rootDeviceIndex fragment.allocationPtr
    fragment.allocationSize = overlap at ran returned
  split at ran
  next => cases ran
  next => cases ran
  next =>
    cases ran
    exact ⟨rfl, rfl, .refl m, fun _ => rfl, fun stored => absurd rfl stored⟩
  next f status _ =>
    cases ran
    obtain ⟨member, inside⟩ := returned f rfl
    refine ⟨rfl, rfl, narrows_modify member fun _ => ⟨rfl, rfl⟩, ?_, ?_⟩
    · exact fun unstored => absurd unstored (sound.handle f member)
    · exact fun _ => ⟨sound.addReference member filled inside, f, member, inside⟩

/-- The entries whose fragment was stored before. -/
def reused (data : List AllocationStorageData) : List AllocationStorageData :=
  data.filter fun d => d.osHandleStorage ≠ none

def unstored (data : List AllocationStorageData) : List AllocationStorageData :=
  data.filter fun d => !decide (d.osHandleStorage ≠ none)

theorem reused_append_unstored (data : List AllocationStorageData) :
    (reused data ++ unstored data).Perm data :=
  List.filter_append_perm _ data

theorem populateAlreadyAllocatedFragments_spec (sound : Sound m uses)
    {fragments : List PartialAllocation}
    (ranges : ∀ f ∈ fragments, 0 < f.allocationSize ∧
      f.allocationPtr + f.allocationSize < 2 ^ 64)
    {data : List AllocationStorageData}
    (ran : populateAlreadyAllocatedFragments rootDeviceIndex m fragments = some (m', data)) :
    usesOf rootDeviceIndex data =
        fragments.map (fun f => ⟨rootDeviceIndex, f.allocationPtr, f.allocationSize⟩) ∧
      Narrows m' m ∧ Sound m' (usesOf rootDeviceIndex (reused data) ++ uses) ∧
      (reused data = [] → m' = m) ∧
      ∀ d ∈ reused data, ∃ f ∈ m.partialAllocations.entries,
        (useOf rootDeviceIndex d).Inside f := by
  induction fragments generalizing m uses data with
  | nil =>
    cases ran
    exact ⟨rfl, .refl _, sound, fun _ => rfl, by rintro _ ⟨⟩⟩
  | cons fragment fragments ih =>
    unfold populateAlreadyAllocatedFragments at ran
    obtain ⟨⟨m₁, d⟩, first, ran⟩ := Option.bind_eq_some_iff.mp ran
    obtain ⟨⟨m₂, rest⟩, second, ran⟩ := Option.bind_eq_some_iff.mp ran
    cases ran
    obtain ⟨filled, fits⟩ := ranges fragment (by simp)
    obtain ⟨ptr, size, narrows, kept, grown⟩ := populateFragment_spec sound filled fits first
    have ranges' := fun f member => ranges f (List.mem_cons_of_mem fragment member)
    have use : useOf rootDeviceIndex d =
        ⟨rootDeviceIndex, fragment.allocationPtr, fragment.allocationSize⟩ := by
      rw [useOf, ptr, size]
    by_cases stored : d.osHandleStorage = none
    · cases kept stored
      obtain ⟨whole, narrows, counts, none, some⟩ := ih sound ranges' second
      have skip : reused (d :: rest) = reused rest := List.filter_cons_of_neg (by simp [stored])
      rw [skip]
      refine ⟨?_, narrows, counts, none, some⟩
      rw [usesOf, List.map_cons, ← usesOf, whole, use, List.map_cons]
    · obtain ⟨sound', f, member, inside⟩ := grown stored
      obtain ⟨whole, narrows', counts, none, some⟩ := ih sound' ranges' second
      have take : reused (d :: rest) = d :: reused rest :=
        List.filter_cons_of_pos (by simp [stored])
      rw [take]
      refine ⟨?_, narrows'.trans narrows, counts.perm List.perm_middle, by rintro ⟨⟩, ?_⟩
      · rw [usesOf, List.map_cons, ← usesOf, whole, use, List.map_cons]
      · intro e here
        rcases List.mem_cons.mp here with rfl | here
        · exact ⟨f, member, inside⟩
        · obtain ⟨g, member', inside'⟩ := some e here
          obtain ⟨g', member'', same⟩ := narrows g member'
          exact ⟨g', member'', (same.inside _).mp inside'⟩

/-- Storing the other fragments completes the counts. -/
theorem populateOsHandles_spec (sound : Sound m uses) (newHandle : Nat → Nat × Nat)
    {data : List AllocationStorageData}
    (ranges : ∀ d ∈ data, 0 < d.fragmentSize ∧ d.cpuPtr + d.fragmentSize < 2 ^ 64)
    (separated : ∀ d ∈ data, Separated m (useOf rootDeviceIndex d))
    (clear : (usesOf rootDeviceIndex data).Pairwise fun u v => v.Clear u) :
    usesOf rootDeviceIndex (populateOsHandles rootDeviceIndex newHandle m data).2 =
        usesOf rootDeviceIndex data ∧
      Sound (populateOsHandles rootDeviceIndex newHandle m data).1
        (usesOf rootDeviceIndex (unstored data) ++ uses) := by
  induction data generalizing m uses with
  | nil => exact ⟨rfl, sound⟩
  | cons d rest ih =>
    obtain ⟨filled, fits⟩ := ranges d (by simp)
    have ranges' := fun e member => ranges e (List.mem_cons_of_mem d member)
    obtain ⟨before, clear'⟩ := List.pairwise_cons.mp clear
    unfold populateOsHandles
    split
    next new =>
      have take : unstored (d :: rest) = d :: unstored rest :=
        List.filter_cons_of_pos (by simp [new.1])
      obtain ⟨sound', kept⟩ := Sound.storeStorageData sound rootDeviceIndex
        { d with
          osHandleStorage := some (newHandle rest.length).1
          residency := some (newHandle rest.length).2 } filled fits (by simp)
        (separated d (by simp))
      obtain ⟨whole, counts⟩ := ih sound' ranges' (fun e member => kept _
        (separated e (List.mem_cons_of_mem d member))
        (before _ (List.mem_map_of_mem member))) clear'
      rw [take]
      refine ⟨?_, counts.perm List.perm_middle⟩
      simp only [usesOf, List.map_cons] at whole ⊢
      rw [whole]
      rfl
    next old =>
      have stored : d.osHandleStorage ≠ none := fun none => old ⟨none, by omega⟩
      have skip : unstored (d :: rest) = unstored rest :=
        List.filter_cons_of_neg (by simp [stored])
      obtain ⟨whole, counts⟩ := ih sound ranges'
        (fun e member => separated e (List.mem_cons_of_mem d member)) clear'
      rw [skip]
      refine ⟨?_, counts⟩
      simp only [usesOf, List.map_cons] at whole ⊢
      rw [whole]

end Prepare

section Release

variable {m : HostPtrManager} {uses : List Use} {rootDeviceIndex : Nat}

/-- Every entry of the data leaves its fragment, and frees it if it is the last user. -/
def FreesLast (m : HostPtrManager) (rootDeviceIndex : Nat) (data data' : List AllocationStorageData)
    (others : List Use) : Prop :=
  data'.length = data.length ∧ ∀ i d d', data[i]? = some d → data'[i]? = some d' →
    ∀ f ∈ m.partialAllocations.entries, (useOf rootDeviceIndex d).Inside f →
      (d'.freeTheFragment = true ↔
        ∀ u ∈ usesOf rootDeviceIndex (data.drop (i + 1)) ++ others, ¬ u.Inside f)

/-- A fragment of the manager that still contains a use is one the manager started with. -/
theorem Narrows.same {m' : HostPtrManager} (narrows : Narrows m' m) (sound : Sound m uses)
    {u : Use} (filled : 0 < u.fragmentSize) {f g : Element}
    (member : f ∈ m.partialAllocations.entries) (member' : g ∈ m'.partialAllocations.entries)
    (inside : u.Inside f) (inside' : u.Inside g) : SameSpan g f := by
  obtain ⟨h, member'', same⟩ := narrows g member'
  rwa [sound.inside_unique member'' member filled ((same.inside u).mp inside') inside] at same

theorem releaseHandleStorage_spec {data : List AllocationStorageData}
    (sound : Sound m (usesOf rootDeviceIndex data ++ uses)) :
    ∃ m' data', releaseHandleStorage rootDeviceIndex m data = some (m', data') ∧ Sound m' uses ∧
      Narrows m' m ∧ FreesLast m rootDeviceIndex data data' uses := by
  induction data generalizing m with
  | nil => exact ⟨m, [], rfl, sound, .refl m, rfl, by simp⟩
  | cons d rest ih =>
    have head : Sound m (useOf rootDeviceIndex d :: (usesOf rootDeviceIndex rest ++ uses)) := sound
    obtain ⟨m₁, f₁, first, member₁, inside₁, sound₁, narrows₁⟩ := head.releaseHostPtr
    obtain ⟨m₂, data₂, second, sound₂, narrows₂, length, frees⟩ := ih sound₁
    have filled : ∀ e ∈ d :: rest, 0 < e.fragmentSize := by
      intro e member
      exact sound.filled (useOf rootDeviceIndex e)
        (List.mem_append_left _ (List.mem_map_of_mem member))
    refine ⟨m₂, { d with
        freeTheFragment := decide (users (usesOf rootDeviceIndex rest ++ uses) f₁ = 0) } :: data₂,
      ?_, sound₂, narrows₂.trans narrows₁, ?_, ?_⟩
    · rw [releaseHandleStorage, if_pos (.inl (filled d (by simp)).ne')]
      exact Option.bind_eq_some_iff.mpr ⟨_, first,
        Option.bind_eq_some_iff.mpr ⟨_, second, rfl⟩⟩
    · simp [length]
    · intro i e e' here here' f member inside
      cases i with
      | zero =>
        simp only [List.getElem?_cons_zero, Option.some.injEq] at here here'
        subst here here'
        have same := sound.inside_unique member member₁ (filled d (by simp)) inside inside₁
        subst same
        simp only [decide_eq_true_eq]
        rw [users, List.countP_eq_zero]
        simp
      | succ i =>
        simp only [List.getElem?_cons_succ] at here here'
        have present := List.mem_of_getElem? here
        have filled' := filled e (List.mem_cons_of_mem d present)
        obtain ⟨g, member', inside'⟩ := sound₁.covered (useOf rootDeviceIndex e)
          (List.mem_append_left _ (List.mem_map_of_mem present))
        have same := narrows₁.same sound filled' member member' inside inside'
        rw [frees i e e' here here' g member' inside']
        simp only [List.drop_succ_cons, same.inside]

end Release

end ComputeRuntime.HostPtr
