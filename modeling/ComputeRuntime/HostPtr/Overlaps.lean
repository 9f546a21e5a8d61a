import ComputeRuntime.HostPtr.Fragments
import ComputeRuntime.Library.Search

/-! The overlap check of the host pointer manager against a scan of all stored fragments. The
check looks at the neighbours of a range only, and gives up at one of another root device. -/
namespace ComputeRuntime.HostPtr

open HostPtrManager

/-- A container of fragments: each one is stored under its pointer, is not empty, ends inside the
address space, and has no byte in common with another one of its root device. -/
structure Stored (m : HostPtrManager) : Prop where
  keyed : ∀ f ∈ m.partialAllocations.entries, f.1.ptr = f.2.fragmentCpuPointer
  nonempty : ∀ f ∈ m.partialAllocations.entries, 0 < f.2.fragmentSize
  fits : ∀ f ∈ m.partialAllocations.entries, f.2.fragmentCpuPointer + f.2.fragmentSize < 2 ^ 64
  disjoint : ∀ f ∈ m.partialAllocations.entries, ∀ g ∈ m.partialAllocations.entries, f ≠ g →
    f.1.rootDeviceIndex = g.1.rootDeviceIndex →
      f.2.fragmentCpuPointer + f.2.fragmentSize ≤ g.2.fragmentCpuPointer ∨
        g.2.fragmentCpuPointer + g.2.fragmentSize ≤ f.2.fragmentCpuPointer

/-- The range of the use is the whole fragment. -/
def Use.Equals (u : Use) (f : Element) : Prop :=
  f.2.fragmentCpuPointer = u.cpuPtr ∧ f.2.fragmentSize = u.fragmentSize

instance (u : Use) (f : Element) : Decidable (u.Equals f) := by
  unfold Use.Equals
  infer_instance

/-- What a scan of all stored fragments says about a range of one root device: the fragment that
contains it, else whether a fragment has a byte in common with it. -/
def scan (m : HostPtrManager) (u : Use) : Option Element × OverlapStatus :=
  match m.partialAllocations.entries.find? fun f => u.Inside f with
  | some f =>
    if u.Equals f then (some f, .fragmentWithExactSizeAsStoredFragment)
    else (some f, .fragmentWithinStoredFragment)
  | none =>
    if m.partialAllocations.entries.all fun f => u.Apart f then
      (none, .fragmentNotOverlapingWithAnyOther)
    else (none, .fragmentOverlapingAndBiggerThenStoredFragment)

/-- The range meets a stored fragment, but no fragment of its root device starts in front of it
and the container begins with another root device. -/
def Shadowed (m : HostPtrManager) (u : Use) : Prop :=
  (∃ f ∈ m.partialAllocations.entries, f.1.rootDeviceIndex < u.rootDeviceIndex) ∧
    (∀ f ∈ m.partialAllocations.entries, f.1.rootDeviceIndex = u.rootDeviceIndex →
      u.cpuPtr ≤ f.2.fragmentCpuPointer) ∧
    ∃ f ∈ m.partialAllocations.entries, ¬ u.Apart f

section Scan

variable {m : HostPtrManager} {u : Use} {f : Element}

/-- A fragment that contains a range has a byte in common with it. -/
theorem Use.Inside.not_apart (inside : u.Inside f) (filled : 0 < u.fragmentSize) :
    ¬ u.Apart f := by
  intro apart
  have clear := apart inside.1
  have := inside.2
  omega

theorem scan_inside (stored : Stored m) (filled : 0 < u.fragmentSize)
    (member : f ∈ m.partialAllocations.entries) (inside : u.Inside f) :
    scan m u = if u.Equals f then (some f, .fragmentWithExactSizeAsStoredFragment)
      else (some f, .fragmentWithinStoredFragment) := by
  have found : m.partialAllocations.entries.find? (fun f => u.Inside f) = some f := by
    apply Search.find?_unique
    · exact member
    · simpa using inside
    · intro g other within
      have within : u.Inside g := by simpa using within
      by_contra differ
      have clear := stored.disjoint g other f member differ (within.1.trans inside.1.symm)
      have := inside.2
      have := within.2
      omega
  rw [scan, found]

theorem scan_apart (filled : 0 < u.fragmentSize)
    (apart : ∀ f ∈ m.partialAllocations.entries, u.Apart f) :
    scan m u = (none, .fragmentNotOverlapingWithAnyOther) := by
  have nothing : m.partialAllocations.entries.find? (fun f => u.Inside f) = none := by
    apply List.find?_eq_none.mpr
    intro f member inside
    exact Use.Inside.not_apart (by simpa using inside) filled (apart f member)
  have clear : m.partialAllocations.entries.all fun f => u.Apart f := by
    simpa using apart
  rw [scan, nothing]
  exact if_pos clear

theorem scan_bigger (stored : Stored m)
    (member : f ∈ m.partialAllocations.entries) (meets : ¬ u.Apart f) (outside : ¬ u.Inside f) :
    scan m u = (none, .fragmentOverlapingAndBiggerThenStoredFragment) := by
  have nothing : m.partialAllocations.entries.find? (fun f => u.Inside f) = none := by
    apply List.find?_eq_none.mpr
    intro g other inside
    have inside : u.Inside g := by simpa using inside
    -- the range would lie in one fragment and meet another one
    apply meets
    intro device
    have differ : f ≠ g := by
      rintro rfl
      exact outside inside
    have clear := stored.disjoint f member g other differ (device.trans inside.1.symm)
    have := inside.2
    omega
  have crowded : ¬ m.partialAllocations.entries.all fun f => u.Apart f := by
    intro all
    exact meets (by simpa using List.all_eq_true.mp all f member)
  rw [scan, nothing]
  exact if_neg crowded

/-- The scan finds nothing in the way exactly when no fragment is. -/
theorem scan_clear_iff (stored : Stored m) (filled : 0 < u.fragmentSize) :
    scan m u = (none, .fragmentNotOverlapingWithAnyOther) ↔
      ∀ f ∈ m.partialAllocations.entries, u.Apart f := by
  constructor
  · intro clear f member
    by_contra meets
    by_cases inside : u.Inside f
    · rw [scan_inside stored filled member inside] at clear
      split at clear <;> cases clear
    · rw [scan_bigger stored member meets inside] at clear
      cases clear
  · exact scan_apart filled

end Scan

section Check

variable {m : HostPtrManager} {u : Use}

/-- The last part of the check, which looks at the fragment behind the range's start. -/
def nextOverlap (m : HostPtrManager) (u : Use) : Option Element × OverlapStatus :=
  match m.partialAllocations.lowerBound ⟨u.cpuPtr, u.rootDeviceIndex⟩ with
  | none => (none, .fragmentNotOverlapingWithAnyOther)
  | some next =>
    if next.1.rootDeviceIndex ≠ u.rootDeviceIndex then (none, .fragmentNotOverlapingWithAnyOther)
    else if u.cpuPtr < next.2.fragmentCpuPointer then
      if next.2.fragmentCpuPointer < add64 u.cpuPtr u.fragmentSize then
        (none, .fragmentOverlapingAndBiggerThenStoredFragment)
      else (none, .fragmentNotOverlapingWithAnyOther)
    else if add64 next.2.fragmentCpuPointer next.2.fragmentSize <
        add64 u.cpuPtr u.fragmentSize then (none, .fragmentOverlapingAndBiggerThenStoredFragment)
    else if add64 u.cpuPtr u.fragmentSize <
        add64 next.2.fragmentCpuPointer next.2.fragmentSize then
      (some next, .fragmentWithinStoredFragment)
    else (some next, .fragmentWithExactSizeAsStoredFragment)

/-- The check of one fragment: it answers unless the range starts outside of the fragment. -/
def elementOverlap (m : HostPtrManager) (u : Use) (element : Element) :
    Option Element × OverlapStatus :=
  let storedEndAddress := add64 element.2.fragmentCpuPointer element.2.fragmentSize
  if element.1.rootDeviceIndex ≠ u.rootDeviceIndex then (none, .fragmentNotOverlapingWithAnyOther)
  else if u.Equals element then (some element, .fragmentWithExactSizeAsStoredFragment)
  else if element.2.fragmentCpuPointer ≤ u.cpuPtr ∧ u.cpuPtr < storedEndAddress then
    if add64 u.cpuPtr u.fragmentSize ≤ storedEndAddress then
      (some element, .fragmentWithinStoredFragment)
    else (none, .fragmentOverlapingAndBiggerThenStoredFragment)
  else nextOverlap m u

/-- The check with its parts named. -/
theorem getFragmentAndCheckForOverlaps_eq (m : HostPtrManager) (u : Use) :
    m.getFragmentAndCheckForOverlaps u.rootDeviceIndex u.cpuPtr u.fragmentSize =
      match (m.partialAllocations.before ⟨u.cpuPtr, u.rootDeviceIndex⟩).or
          (m.partialAllocations.lowerBound ⟨u.cpuPtr, u.rootDeviceIndex⟩) with
      | none => (none, .fragmentNotOverlapingWithAnyOther)
      | some element => elementOverlap m u element := rfl

/-- A fragment whose key is not below the range's start lies on a later root device or starts in
the range or behind it. -/
theorem not_below {f : Element} (stored : Stored m) (member : f ∈ m.partialAllocations.entries)
    (device : f.1.rootDeviceIndex = u.rootDeviceIndex) :
    (⟨u.cpuPtr, u.rootDeviceIndex⟩ : HostPtrEntryKey) ≤ f.1 ↔
      u.cpuPtr ≤ f.2.fragmentCpuPointer := by
  rw [HostPtrEntryKey.le_iff, ← stored.keyed f member, device]
  simp

theorem below {f : Element} (stored : Stored m) (member : f ∈ m.partialAllocations.entries)
    (device : f.1.rootDeviceIndex = u.rootDeviceIndex) :
    f.1 < (⟨u.cpuPtr, u.rootDeviceIndex⟩ : HostPtrEntryKey) ↔
      f.2.fragmentCpuPointer < u.cpuPtr := by
  rw [HostPtrEntryKey.lt_iff, ← stored.keyed f member, device]
  simp

/-- Where the fragments in front of a range are apart from it, the one behind its start
decides. -/
theorem nextOverlap_eq (stored : Stored m) (filled : 0 < u.fragmentSize)
    (fits : u.cpuPtr + u.fragmentSize < 2 ^ 64)
    (front : ∀ f ∈ m.partialAllocations.entries, f.1.rootDeviceIndex = u.rootDeviceIndex →
      f.2.fragmentCpuPointer < u.cpuPtr → u.Apart f) : nextOverlap m u = scan m u := by
  have inputEnd : add64 u.cpuPtr u.fragmentSize = u.cpuPtr + u.fragmentSize := Word.add_eq fits
  unfold nextOverlap
  split
  next absent =>
    apply (scan_apart filled _).symm
    intro f member device
    have lt := (below stored member device).mp (OrderedMap.lowerBound_eq_none absent member)
    exact front f member device lt device
  next next found =>
    obtain ⟨member, le⟩ := OrderedMap.lowerBound_mem found
    have storedEnd : add64 next.2.fragmentCpuPointer next.2.fragmentSize =
        next.2.fragmentCpuPointer + next.2.fragmentSize := Word.add_eq (stored.fits next member)
    -- a fragment behind the range's start is not in front of the next one
    have behind (f : Element) (inside : f ∈ m.partialAllocations.entries)
        (device : f.1.rootDeviceIndex = u.rootDeviceIndex)
        (start : u.cpuPtr ≤ f.2.fragmentCpuPointer) : next.1 ≤ f.1 :=
      OrderedMap.lowerBound_le found inside ((not_below stored inside device).mpr start)
    split
    next other =>
      apply (scan_apart filled _).symm
      intro f inside device
      rcases Nat.lt_or_ge f.2.fragmentCpuPointer u.cpuPtr with lt | ge
      · exact front f inside device lt device
      · -- the next fragment would be on a root device between two equal ones
        have upper := HostPtrEntryKey.le_iff.mp (behind f inside device ge)
        have lower := HostPtrEntryKey.le_iff.mp le
        simp only at lower
        omega
    next same =>
    have device := not_not.mp same
    have start := (not_below stored member device).mp le
    rw [inputEnd, storedEnd]
    have nonempty := stored.nonempty next member
    split
    next lt =>
      have outside : ¬ u.Inside next := fun inside => by
        have := inside.2.1
        omega
      split
      next meets =>
        apply (scan_bigger stored member _ outside).symm
        intro apart
        have := apart device
        omega
      next =>
        apply (scan_apart filled _).symm
        intro f inside device'
        rcases Nat.lt_or_ge f.2.fragmentCpuPointer u.cpuPtr with before | ge
        · exact front f inside device' before device'
        · have order := HostPtrEntryKey.le_iff.mp (behind f inside device' ge)
          have keyed := stored.keyed f inside
          have keyed' := stored.keyed next member
          omega
    next ge =>
      split
      next longer =>
        apply (scan_bigger stored member _ _).symm
        · intro apart
          have := apart device
          omega
        · intro inside
          have := inside.2.2
          omega
      next within =>
        have inside : u.Inside next := ⟨device, by omega, by omega⟩
        rw [scan_inside stored filled member inside]
        split
        next shorter =>
          have differs : ¬ u.Equals next := by
            rintro ⟨starts, sizes⟩
            omega
          rw [if_neg differs]
        next whole =>
          have equals : u.Equals next := ⟨by omega, by omega⟩
          rw [if_pos equals]

/-- The check of a fragment of the same root device, with nothing in the way in front of it. -/
theorem elementOverlap_eq {f : Element} (stored : Stored m) (filled : 0 < u.fragmentSize)
    (fits : u.cpuPtr + u.fragmentSize < 2 ^ 64) (member : f ∈ m.partialAllocations.entries)
    (device : f.1.rootDeviceIndex = u.rootDeviceIndex)
    (front : ∀ g ∈ m.partialAllocations.entries, g ≠ f →
      g.1.rootDeviceIndex = u.rootDeviceIndex → g.2.fragmentCpuPointer < u.cpuPtr →
        g.2.fragmentCpuPointer < f.2.fragmentCpuPointer ∧ f.2.fragmentCpuPointer < u.cpuPtr) :
    elementOverlap m u f = scan m u := by
  have inputEnd : add64 u.cpuPtr u.fragmentSize = u.cpuPtr + u.fragmentSize := Word.add_eq fits
  have storedEnd : add64 f.2.fragmentCpuPointer f.2.fragmentSize =
      f.2.fragmentCpuPointer + f.2.fragmentSize := Word.add_eq (stored.fits f member)
  unfold elementOverlap
  simp only [inputEnd, storedEnd]
  rw [if_neg (not_not.mpr device)]
  split
  next equals =>
    have inside : u.Inside f := ⟨device, equals.1.le, by rw [equals.1, equals.2]⟩
    rw [scan_inside stored filled member inside, if_pos equals]
  next differs =>
    split
    next starts =>
      split
      next ends =>
        rw [scan_inside stored filled member ⟨device, starts.1, ends⟩, if_neg differs]
      next longer =>
        apply (scan_bigger stored member _ _).symm
        · intro apart
          have := apart device
          omega
        · intro inside
          exact longer inside.2.2
    next outside =>
      apply nextOverlap_eq stored filled fits
      intro g inside device' before _
      by_cases same : g = f
      · subst same
        right
        omega
      · -- the fragments in front of `f` end where it starts, or earlier
        obtain ⟨order, start⟩ := front g inside same device' before
        have clear := stored.disjoint g inside f member same (device'.trans device.symm)
        right
        omega

/-- The check agrees with the scan of all fragments unless the range meets a fragment and the one
in front of the range belongs to another root device. -/
theorem getFragmentAndCheckForOverlaps_iff (stored : Stored m) (filled : 0 < u.fragmentSize)
    (fits : u.cpuPtr + u.fragmentSize < 2 ^ 64) :
    m.getFragmentAndCheckForOverlaps u.rootDeviceIndex u.cpuPtr u.fragmentSize = scan m u ↔
      ¬ Shadowed m u := by
  rw [getFragmentAndCheckForOverlaps_eq]
  cases front : m.partialAllocations.before ⟨u.cpuPtr, u.rootDeviceIndex⟩ with
  | some e =>
    obtain ⟨member, lt⟩ := OrderedMap.before_mem front
    rw [Option.some_or]
    simp only
    by_cases device : e.1.rootDeviceIndex = u.rootDeviceIndex
    · have start := (below stored member device).mp lt
      have agrees : elementOverlap m u e = scan m u := by
        apply elementOverlap_eq stored filled fits member device
        intro g inside differ device' before
        have key := (below stored inside device').mpr before
        have order := HostPtrEntryKey.le_iff.mp (OrderedMap.le_before front inside key)
        have keyed := stored.keyed g inside
        have keyed' := stored.keyed e member
        have clear := stored.disjoint g inside e member differ (device'.trans device.symm)
        have nonempty := stored.nonempty g inside
        have nonempty' := stored.nonempty e member
        omega
      rw [agrees]
      simp only [true_iff]
      rintro ⟨-, first, -⟩
      have := first e member device
      omega
    · -- the check gives up here
      have gives : elementOverlap m u e = (none, .fragmentNotOverlapingWithAnyOther) :=
        if_pos device
      have lower : e.1.rootDeviceIndex < u.rootDeviceIndex := by
        have order := HostPtrEntryKey.lt_iff.mp lt
        simp only at order
        omega
      rw [gives, eq_comm, scan_clear_iff stored filled]
      constructor
      · rintro apart ⟨-, -, f, inside, meets⟩
        exact meets (apart f inside)
      · intro unshadowed f inside
        by_contra meets
        refine unshadowed ⟨⟨e, member, lower⟩, ?_, f, inside, meets⟩
        intro g inside device'
        by_contra starts
        have key := (below stored inside device').mpr (Nat.lt_of_not_le starts)
        have order := HostPtrEntryKey.le_iff.mp (OrderedMap.le_before front inside key)
        omega
  | none =>
    have first : ∀ g ∈ m.partialAllocations.entries,
        ¬ g.1 < (⟨u.cpuPtr, u.rootDeviceIndex⟩ : HostPtrEntryKey) := by
      intro g inside lt
      obtain ⟨e, found⟩ := OrderedMap.before_isSome inside lt
      rw [front] at found
      cases found
    have clear : ¬ Shadowed m u := by
      rintro ⟨⟨f, inside, lower⟩, -⟩
      exact first f inside (HostPtrEntryKey.lt_iff.mpr (.inl lower))
    rw [Option.none_or, iff_true_right clear]
    cases found : m.partialAllocations.lowerBound ⟨u.cpuPtr, u.rootDeviceIndex⟩ with
    | none =>
      apply (scan_apart filled _).symm
      intro f inside
      exact absurd (OrderedMap.lowerBound_eq_none found inside) (first f inside)
    | some e =>
      obtain ⟨member, le⟩ := OrderedMap.lowerBound_mem found
      simp only
      by_cases device : e.1.rootDeviceIndex = u.rootDeviceIndex
      · apply elementOverlap_eq stored filled fits member device
        intro g inside _ device' before
        exact absurd ((below stored inside device').mpr before) (first g inside)
      · rw [elementOverlap, if_pos device]
        apply (scan_apart filled _).symm
        intro f inside device'
        -- all fragments lie behind the first one, on later root devices
        have order := HostPtrEntryKey.le_iff.mp
          (OrderedMap.lowerBound_le found inside (not_lt.mp (first f inside)))
        have lower := HostPtrEntryKey.le_iff.mp le
        simp only at lower
        omega

end Check

/-- One page for each of two root devices. -/
def twoDevices : HostPtrManager where
  partialAllocations :=
    { entries := [(⟨4096, 0⟩, ⟨4096, 4096, 1, some 1, some 1⟩),
        (⟨8192, 1⟩, ⟨8192, 4096, 1, some 2, some 2⟩)]
      sorted := by simp [HostPtrEntryKey.lt_iff] }

theorem twoDevices_stored : Stored twoDevices := by
  constructor <;> simp [twoDevices]

theorem getFragmentAndCheckForOverlaps_firstDevice :
    twoDevices.getFragmentAndCheckForOverlaps 0 4096 2048 = scan twoDevices ⟨0, 4096, 2048⟩ ∧
      ¬ Shadowed twoDevices ⟨0, 4096, 2048⟩ := by
  have clear : ¬ Shadowed twoDevices ⟨0, 4096, 2048⟩ := by
    rintro ⟨⟨f, _, lower⟩, -⟩
    exact absurd lower (Nat.not_lt_zero _)
  have agrees := getFragmentAndCheckForOverlaps_iff twoDevices_stored
    (u := ⟨0, 4096, 2048⟩) (by decide) (by decide)
  exact ⟨agrees.mpr clear, clear⟩

/-- The page of the second root device is not found, though it is stored. -/
theorem secondDevice_overlooked : Stored twoDevices ∧
    twoDevices.getFragmentAndCheckForOverlaps 1 8192 4096 =
        (none, .fragmentNotOverlapingWithAnyOther) ∧
      scan twoDevices ⟨1, 8192, 4096⟩ =
        (some (⟨8192, 1⟩, ⟨8192, 4096, 1, some 2, some 2⟩),
          .fragmentWithExactSizeAsStoredFragment) := by
  exact ⟨twoDevices_stored, by decide +kernel, by decide +kernel⟩

end ComputeRuntime.HostPtr
