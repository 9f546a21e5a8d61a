import ComputeRuntime.HostPtr.Model
import Mathlib.Data.List.Count

/-! What the operations of the host pointer manager do to the stored fragments and to the number
of their users. -/
namespace ComputeRuntime.HostPtr

open HostPtrManager

/-- A part of the memory that a live storage uses. -/
structure Use where
  rootDeviceIndex : Nat
  cpuPtr : Nat
  fragmentSize : Nat
  deriving DecidableEq

/-- The range of the use lies in the fragment. -/
def Use.Inside (u : Use) (f : Element) : Prop :=
  f.1.rootDeviceIndex = u.rootDeviceIndex ∧ f.2.fragmentCpuPointer ≤ u.cpuPtr ∧
    u.cpuPtr + u.fragmentSize ≤ f.2.fragmentCpuPointer + f.2.fragmentSize

/-- The use and the fragment have no byte of one root device in common. -/
def Use.Apart (u : Use) (f : Element) : Prop :=
  f.1.rootDeviceIndex = u.rootDeviceIndex →
    u.cpuPtr + u.fragmentSize ≤ f.2.fragmentCpuPointer ∨
      f.2.fragmentCpuPointer + f.2.fragmentSize ≤ u.cpuPtr

instance (u : Use) (f : Element) : Decidable (u.Inside f) := by
  unfold Use.Inside
  infer_instance

instance (u : Use) (f : Element) : Decidable (u.Apart f) := by
  unfold Use.Apart
  infer_instance

/-- The fragment holds the address of its root device. -/
def Holds (f : Element) (rootDeviceIndex ptr : Nat) : Prop :=
  f.1.rootDeviceIndex = rootDeviceIndex ∧ f.2.fragmentCpuPointer ≤ ptr ∧
    ptr < f.2.fragmentCpuPointer + f.2.fragmentSize

/-- Both have the same key and the same range. -/
def SameSpan (f g : Element) : Prop :=
  f.1 = g.1 ∧ f.2.fragmentCpuPointer = g.2.fragmentCpuPointer ∧
    f.2.fragmentSize = g.2.fragmentSize

theorem SameSpan.inside {f g : Element} (same : SameSpan f g) (u : Use) :
    u.Inside f ↔ u.Inside g := by
  simp only [Use.Inside, same.1, same.2.1, same.2.2]

theorem SameSpan.apart {f g : Element} (same : SameSpan f g) (u : Use) :
    u.Apart f ↔ u.Apart g := by
  simp only [Use.Apart, same.1, same.2.1, same.2.2]

theorem SameSpan.refl (f : Element) : SameSpan f f := ⟨rfl, rfl, rfl⟩

theorem SameSpan.trans {f g h : Element} (first : SameSpan f g) (second : SameSpan g h) :
    SameSpan f h :=
  ⟨first.1.trans second.1, first.2.1.trans second.2.1, first.2.2.trans second.2.2⟩

/-- The ranges of the first manager's fragments are ranges of the second one's. -/
def Narrows (m m' : HostPtrManager) : Prop :=
  ∀ f ∈ m.partialAllocations.entries, ∃ g ∈ m'.partialAllocations.entries, SameSpan f g

theorem Narrows.refl (m : HostPtrManager) : Narrows m m := fun f member => ⟨f, member, .refl f⟩

theorem Narrows.trans {m m' m'' : HostPtrManager} (first : Narrows m m')
    (second : Narrows m' m'') : Narrows m m'' := by
  intro f member
  obtain ⟨g, inside, same⟩ := first f member
  obtain ⟨h, inside', same'⟩ := second g inside
  exact ⟨h, inside', same.trans same'⟩

theorem narrows_modify {m : HostPtrManager} {f : Element}
    (member : f ∈ m.partialAllocations.entries) {change : FragmentStorage → FragmentStorage}
    (span : ∀ fragment, (change fragment).fragmentCpuPointer = fragment.fragmentCpuPointer ∧
      (change fragment).fragmentSize = fragment.fragmentSize) :
    Narrows { partialAllocations := m.partialAllocations.modify f.1 change } m := by
  intro g stored
  rcases (OrderedMap.mem_modify member).mp stored with rfl | ⟨old, -⟩
  · exact ⟨f, member, rfl, span f.2⟩
  · exact ⟨g, old, .refl g⟩

/-- The number of uses that lie in a fragment. -/
def users (uses : List Use) (f : Element) : Nat := uses.countP fun u => u.Inside f

theorem SameSpan.users {f g : Element} (same : SameSpan f g) (uses : List Use) :
    users uses f = users uses g := by
  unfold HostPtr.users
  congr 1
  funext u
  exact decide_eq_decide.mpr (same.inside u)

/-- The stored fragments and their counts fit the given uses. -/
structure Sound (m : HostPtrManager) (uses : List Use) : Prop where
  keyed : ∀ f ∈ m.partialAllocations.entries, f.1.ptr = f.2.fragmentCpuPointer
  nonempty : ∀ f ∈ m.partialAllocations.entries, 0 < f.2.fragmentSize
  fits : ∀ f ∈ m.partialAllocations.entries, f.2.fragmentCpuPointer + f.2.fragmentSize < 2 ^ 64
  disjoint : ∀ f ∈ m.partialAllocations.entries, ∀ g ∈ m.partialAllocations.entries, f ≠ g →
    f.1.rootDeviceIndex = g.1.rootDeviceIndex →
      f.2.fragmentCpuPointer + f.2.fragmentSize ≤ g.2.fragmentCpuPointer ∨
        g.2.fragmentCpuPointer + g.2.fragmentSize ≤ f.2.fragmentCpuPointer
  handle : ∀ f ∈ m.partialAllocations.entries, f.2.osInternalStorage ≠ none
  counted : ∀ f ∈ m.partialAllocations.entries, f.2.refCount = users uses f
  used : ∀ f ∈ m.partialAllocations.entries, 0 < f.2.refCount
  filled : ∀ u ∈ uses, 0 < u.fragmentSize
  covered : ∀ u ∈ uses, ∃ f ∈ m.partialAllocations.entries, u.Inside f

theorem sound_empty : Sound {} [] where
  keyed := by rintro _ ⟨⟩
  nonempty := by rintro _ ⟨⟩
  fits := by rintro _ ⟨⟩
  disjoint := by rintro _ ⟨⟩
  handle := by rintro _ ⟨⟩
  counted := by rintro _ ⟨⟩
  used := by rintro _ ⟨⟩
  filled := by rintro _ ⟨⟩
  covered := by rintro _ ⟨⟩

/-- The fragment that is found is the one behind the lower bound, or the one in front of it. -/
theorem findElement_cases {m : HostPtrManager} {key : HostPtrEntryKey} {f : Element}
    (found : m.findElement key = some f) :
    (m.partialAllocations.lowerBound key = some f ∧
      f.1.rootDeviceIndex = key.rootDeviceIndex ∧ f.2.fragmentCpuPointer = key.ptr) ∨
    m.elementBefore key = some f := by
  unfold findElement at found
  split at found
  next => exact .inr found
  next element next_ =>
    split at found
    next start =>
      cases found
      exact .inl ⟨next_, start⟩
    next => exact .inr found

theorem elementBefore_cases {m : HostPtrManager} {key : HostPtrEntryKey} {f : Element}
    (found : m.elementBefore key = some f) :
    m.partialAllocations.before key = some f ∧ f.1.rootDeviceIndex = key.rootDeviceIndex ∧
      (f.2.fragmentSize ≠ 0 → key.ptr < add64 f.2.fragmentCpuPointer f.2.fragmentSize) := by
  unfold elementBefore at found
  split at found
  next => cases found
  next element front =>
    split at found
    next => cases found
    next device =>
      simp only [Option.ite_none_right_eq_some] at found
      obtain ⟨below, ⟨⟩⟩ := found
      refine ⟨front, not_not.mp device, fun filled => ?_⟩
      rwa [if_neg filled] at below

namespace Sound

variable {m : HostPtrManager} {uses uses' : List Use} {u : Use}

theorem perm (sound : Sound m uses) (same : uses.Perm uses') : Sound m uses' where
  keyed := sound.keyed
  nonempty := sound.nonempty
  fits := sound.fits
  disjoint := sound.disjoint
  handle := sound.handle
  counted := by
    intro f member
    rw [sound.counted f member, users, users, same.countP_eq]
  used := sound.used
  filled := fun u member => sound.filled u (same.mem_iff.mpr member)
  covered := fun u member => sound.covered u (same.mem_iff.mpr member)

/-- An address lies in at most one stored fragment. -/
theorem holds_unique (sound : Sound m uses) {f g : Element}
    (first : f ∈ m.partialAllocations.entries) (second : g ∈ m.partialAllocations.entries)
    {rootDeviceIndex ptr : Nat} (inF : Holds f rootDeviceIndex ptr)
    (inG : Holds g rootDeviceIndex ptr) : f = g := by
  by_contra differ
  have apart := sound.disjoint f first g second differ (inF.1.trans inG.1.symm)
  have := inF.2
  have := inG.2
  omega

theorem inside_unique (sound : Sound m uses) {f g : Element}
    (first : f ∈ m.partialAllocations.entries) (second : g ∈ m.partialAllocations.entries)
    (filled : 0 < u.fragmentSize) (inF : u.Inside f) (inG : u.Inside g) : f = g := by
  have holds : ∀ {h}, u.Inside h → Holds h u.rootDeviceIndex u.cpuPtr := by
    rintro h ⟨device, low, high⟩
    exact ⟨device, low, by omega⟩
  exact sound.holds_unique first second (holds inF) (holds inG)

private theorem storedEnd (sound : Sound m uses) {f : Element}
    (member : f ∈ m.partialAllocations.entries) :
    add64 f.2.fragmentCpuPointer f.2.fragmentSize =
      f.2.fragmentCpuPointer + f.2.fragmentSize :=
  Word.add_eq (sound.fits f member)

theorem findElement_holds (sound : Sound m uses) {key : HostPtrEntryKey} {f : Element}
    (found : m.findElement key = some f) :
    f ∈ m.partialAllocations.entries ∧ Holds f key.rootDeviceIndex key.ptr := by
  rcases findElement_cases found with ⟨next, device, start⟩ | previous
  · have member := (OrderedMap.lowerBound_mem next).1
    have filled := sound.nonempty f member
    exact ⟨member, device, by omega, by omega⟩
  · obtain ⟨front, device, below⟩ := elementBefore_cases previous
    obtain ⟨member, lt⟩ := OrderedMap.before_mem front
    have keyed := sound.keyed f member
    have order := HostPtrEntryKey.lt_iff.mp lt
    rw [sound.storedEnd member] at below
    exact ⟨member, device, by omega, below (sound.nonempty f member).ne'⟩

/-- Of the fragments of the root device that start below the address, the one in front of it is
the only one that can hold it. -/
theorem before_eq (sound : Sound m uses) {key : HostPtrEntryKey} {f : Element}
    (member : f ∈ m.partialAllocations.entries) (holds : Holds f key.rootDeviceIndex key.ptr)
    (inner : f.2.fragmentCpuPointer < key.ptr) : m.partialAllocations.before key = some f := by
  have keyed := sound.keyed f member
  obtain ⟨device, low, high⟩ := holds
  have lt : f.1 < key := HostPtrEntryKey.lt_iff.mpr (.inr ⟨device, by omega⟩)
  obtain ⟨g, front⟩ := OrderedMap.before_isSome member lt
  obtain ⟨member', lt'⟩ := OrderedMap.before_mem front
  have le := HostPtrEntryKey.le_iff.mp (OrderedMap.le_before front member lt)
  have order := HostPtrEntryKey.lt_iff.mp lt'
  have keyed' := sound.keyed g member'
  have filled := sound.nonempty g member'
  have same : f = g := by
    by_contra differ
    have apart := sound.disjoint f member g member' differ (by omega)
    omega
  rw [front, same]

/-- The search finds the fragment that holds the pointer. -/
theorem findElement_eq (sound : Sound m uses) {key : HostPtrEntryKey} {f : Element}
    (member : f ∈ m.partialAllocations.entries) (holds : Holds f key.rootDeviceIndex key.ptr) :
    m.findElement key = some f := by
  have filled := sound.nonempty f member
  have keyed := sound.keyed f member
  by_cases start : f.2.fragmentCpuPointer = key.ptr
  · have self : f.1 = key := by
      obtain ⟨ptr, device⟩ := key
      exact HostPtrEntryKey.ext (keyed.trans start) holds.1
    have next := OrderedMap.lowerBound_self member
    rw [self] at next
    simp only [findElement, next, if_pos (And.intro holds.1 start)]
  · have front := sound.before_eq member holds (by have := holds.2.1; omega)
    have below := holds.2.2
    rw [← sound.storedEnd member] at below
    have previous : m.elementBefore key = some f := by
      simp only [elementBefore, front, if_neg (not_not.mpr holds.1), if_neg filled.ne',
        if_pos below]
    unfold findElement
    split
    next => exact previous
    next e next_ =>
      split
      next starts =>
        have member' := (OrderedMap.lowerBound_mem next_).1
        have filled' := sound.nonempty e member'
        have holds' : Holds e key.rootDeviceIndex key.ptr := ⟨starts.1, by omega, by omega⟩
        rw [sound.holds_unique member' member holds' holds]
      next => exact previous

/-- A fragment that the overlap check returns contains the range. -/
theorem overlap_inside (sound : Sound m uses)
    (fits : u.cpuPtr + u.fragmentSize < 2 ^ 64) {f : Element}
    (found : (m.getFragmentAndCheckForOverlaps u.rootDeviceIndex u.cpuPtr u.fragmentSize).1 =
      some f) : f ∈ m.partialAllocations.entries ∧ u.Inside f := by
  have inputEnd : add64 u.cpuPtr u.fragmentSize = u.cpuPtr + u.fragmentSize := Word.add_eq fits
  have front : ∀ e, (m.partialAllocations.before
        { ptr := u.cpuPtr, rootDeviceIndex := u.rootDeviceIndex }).or
      (m.partialAllocations.lowerBound
        { ptr := u.cpuPtr, rootDeviceIndex := u.rootDeviceIndex }) = some e →
      e ∈ m.partialAllocations.entries := by
    intro e element
    rcases Option.or_eq_some_iff.mp element with before | ⟨-, next⟩
    · exact (OrderedMap.before_mem before).1
    · exact (OrderedMap.lowerBound_mem next).1
  unfold getFragmentAndCheckForOverlaps at found
  simp only [inputEnd] at found
  split at found
  next => cases found
  next e element =>
    have member := front e element
    rw [sound.storedEnd member] at found
    split at found
    next => cases found
    next device =>
    have device := not_not.mp device
    split at found
    next exact_ =>
      cases found
      exact ⟨member, device, by omega, by omega⟩
    next =>
    split at found
    next starts =>
      split at found
      next ends =>
        cases found
        exact ⟨member, device, by omega, by omega⟩
      next => cases found
    next =>
    split at found
    next => cases found
    next e next_ =>
      obtain ⟨member, le⟩ := OrderedMap.lowerBound_mem next_
      rw [sound.storedEnd member] at found
      have keyed := sound.keyed e member
      have order := HostPtrEntryKey.le_iff.mp le
      split at found
      next => cases found
      next device =>
      have device := not_not.mp device
      split at found
      next => split at found <;> cases found
      next start =>
      split at found
      next => cases found
      next ends =>
        -- both statuses return the same fragment
        have same : e = f := by
          split at found <;> exact Option.some.inj found
        subst same
        exact ⟨member, device, by omega, by omega⟩

/-- Other counts for some of the fragments. -/
theorem recount (sound : Sound m uses) {m' : HostPtrManager}
    (kept : ∀ g ∈ m'.partialAllocations.entries, ∃ f ∈ m.partialAllocations.entries,
      SameSpan f g ∧ g.2.osInternalStorage = f.2.osInternalStorage)
    (counted : ∀ g ∈ m'.partialAllocations.entries, g.2.refCount = users uses' g)
    (used : ∀ g ∈ m'.partialAllocations.entries, 0 < g.2.refCount)
    (covered : ∀ u ∈ uses', 0 < u.fragmentSize ∧
      ∃ g ∈ m'.partialAllocations.entries, u.Inside g) : Sound m' uses' where
  keyed := by
    intro g member
    obtain ⟨f, inside, same, -⟩ := kept g member
    rw [← same.1, ← same.2.1]
    exact sound.keyed f inside
  nonempty := by
    intro g member
    obtain ⟨f, inside, same, -⟩ := kept g member
    rw [← same.2.2]
    exact sound.nonempty f inside
  fits := by
    intro g member
    obtain ⟨f, inside, same, -⟩ := kept g member
    rw [← same.2.1, ← same.2.2]
    exact sound.fits f inside
  disjoint := by
    intro g first h second differ device
    obtain ⟨f, inside, same, -⟩ := kept g first
    obtain ⟨f', inside', same', -⟩ := kept h second
    have apart : f ≠ f' := by
      rintro rfl
      exact differ (OrderedMap.eq_of_key first second (same.1.symm.trans same'.1))
    have := sound.disjoint f inside f' inside' apart (by rw [same.1, same'.1, device])
    rwa [same.2.1, same.2.2, same'.2.1, same'.2.2] at this
  handle := by
    intro g member
    obtain ⟨f, inside, -, handle⟩ := kept g member
    rw [handle]
    exact sound.handle f inside
  counted := counted
  used := used
  filled := fun u member => (covered u member).1
  covered := fun u member => (covered u member).2

/-- The users of a fragment with one more use, when another fragment contains that use. -/
theorem users_cons (sound : Sound m uses') (uses : List Use) {f g : Element}
    (member : f ∈ m.partialAllocations.entries) (other : g ∈ m.partialAllocations.entries)
    (filled : 0 < u.fragmentSize) (inside : u.Inside f) :
    users (u :: uses) g = users uses g + if g = f then 1 else 0 := by
  rw [users, List.countP_cons, users]
  by_cases same : g = f
  · simp [same, inside]
  · have outside : ¬ u.Inside g :=
      fun inG => same (sound.inside_unique other member filled inG inside)
    simp [same, outside]

/-- Another count for one fragment. -/
private theorem recount_one (sound : Sound m uses) {f : Element}
    (member : f ∈ m.partialAllocations.entries) (change : Int → Int)
    (positive : 0 < change f.2.refCount) (count : change f.2.refCount = users uses' f)
    (others : ∀ g ∈ m.partialAllocations.entries, g ≠ f → users uses' g = users uses g)
    (covered : ∀ u ∈ uses', 0 < u.fragmentSize ∧
      ∃ g ∈ m.partialAllocations.entries, u.Inside g) :
    Sound { partialAllocations := m.partialAllocations.modify f.1 fun fragment =>
      { fragment with refCount := change fragment.refCount } } uses' := by
  have span : SameSpan f (f.1, { f.2 with refCount := change f.2.refCount }) := ⟨rfl, rfl, rfl⟩
  have entry := @OrderedMap.mem_modify _ _ _ m.partialAllocations
    (fun fragment => { fragment with refCount := change fragment.refCount }) f member
  apply sound.recount
  · intro g stored
    rcases entry.mp stored with rfl | ⟨old, -⟩
    · exact ⟨f, member, span, rfl⟩
    · exact ⟨g, old, ⟨rfl, rfl, rfl⟩, rfl⟩
  · intro g stored
    rcases entry.mp stored with rfl | ⟨old, other⟩
    · rw [← span.users]
      exact count
    · rw [others g old other]
      exact sound.counted g old
  · intro g stored
    rcases entry.mp stored with rfl | ⟨old, -⟩
    · exact positive
    · exact sound.used g old
  · intro u use
    obtain ⟨filled, g, old, inside⟩ := covered u use
    refine ⟨filled, ?_⟩
    by_cases same : g = f
    · subst same
      exact ⟨_, entry.mpr (.inl rfl), (span.inside u).mp inside⟩
    · exact ⟨g, entry.mpr (.inr ⟨old, same⟩), inside⟩

theorem addReference (sound : Sound m uses) {f : Element}
    (member : f ∈ m.partialAllocations.entries) (filled : 0 < u.fragmentSize)
    (inside : u.Inside f) : Sound (m.addReference f) (u :: uses) := by
  have grown := sound.users_cons uses member member filled inside
  have count := sound.counted f member
  have positive := sound.used f member
  rw [if_pos rfl] at grown
  apply sound.recount_one member (· + 1)
  · omega
  · omega
  · intro g old other
    rw [sound.users_cons uses member old filled inside, if_neg other]
    rfl
  · intro v use
    rcases List.mem_cons.mp use with rfl | use
    · exact ⟨filled, f, member, inside⟩
    · exact ⟨sound.filled v use, sound.covered v use⟩

theorem dropReference (sound : Sound m (u :: uses)) {f : Element}
    (member : f ∈ m.partialAllocations.entries) (inside : u.Inside f)
    (shared : 0 < f.2.refCount - 1) : Sound (m.dropReference f) uses := by
  have filled := sound.filled u (by simp)
  have grown := sound.users_cons uses member member filled inside
  have count := sound.counted f member
  rw [if_pos rfl] at grown
  apply sound.recount_one member (· - 1) shared
  · omega
  · intro g old other
    rw [sound.users_cons uses member old filled inside, if_neg other]
    rfl
  · intro v use
    have use := List.mem_cons_of_mem u use
    exact ⟨sound.filled v use, sound.covered v use⟩

/-- The last user takes the fragment with it. -/
theorem eraseFragment (sound : Sound m (u :: uses)) {f : Element}
    (member : f ∈ m.partialAllocations.entries) (inside : u.Inside f)
    (last : users uses f = 0) :
    Sound { partialAllocations := m.partialAllocations.erase f.1 } uses := by
  have filled := sound.filled u (by simp)
  apply sound.recount
  · intro g stored
    exact ⟨g, (OrderedMap.mem_erase member).mp stored |>.1, ⟨rfl, rfl, rfl⟩, rfl⟩
  · intro g stored
    obtain ⟨old, other⟩ := (OrderedMap.mem_erase member).mp stored
    rw [sound.counted g old, sound.users_cons uses member old filled inside, if_neg other]
    rfl
  · intro g stored
    exact sound.used g ((OrderedMap.mem_erase member).mp stored).1
  · intro v use
    refine ⟨sound.filled v (List.mem_cons_of_mem u use), ?_⟩
    obtain ⟨g, old, within⟩ := sound.covered v (List.mem_cons_of_mem u use)
    refine ⟨g, (OrderedMap.mem_erase member).mpr ⟨old, ?_⟩, within⟩
    rintro rfl
    have := List.countP_eq_zero.mp last v use
    simp [within] at this

/-- One user leaves: its fragment is freed when no other user is left. -/
theorem releaseHostPtr (sound : Sound m (u :: uses)) :
    ∃ m' f, m.releaseHostPtr u.rootDeviceIndex u.cpuPtr = some (m', decide (users uses f = 0)) ∧
      f ∈ m.partialAllocations.entries ∧ u.Inside f ∧ Sound m' uses ∧ Narrows m' m := by
  obtain ⟨f, member, inside⟩ := sound.covered u (by simp)
  have filled := sound.filled u (by simp)
  have holds : Holds f u.rootDeviceIndex u.cpuPtr := by
    obtain ⟨device, low, high⟩ := inside
    exact ⟨device, low, by omega⟩
  have found : m.findElement { ptr := u.cpuPtr, rootDeviceIndex := u.rootDeviceIndex } = some f :=
    sound.findElement_eq member holds
  have grown := sound.users_cons uses member member filled inside
  have count := sound.counted f member
  rw [if_pos rfl] at grown
  unfold HostPtrManager.releaseHostPtr
  simp only [found]
  by_cases last : users uses f = 0
  · rw [if_pos (by omega)]
    refine ⟨_, f, by simp [last], member, inside, sound.eraseFragment member inside last, ?_⟩
    intro g stored
    exact ⟨g, ((OrderedMap.mem_erase member).mp stored).1, .refl g⟩
  · rw [if_neg (by omega)]
    have shared : 0 < f.2.refCount - 1 := by omega
    exact ⟨_, f, by simp [last], member, inside, sound.dropReference member inside shared,
      narrows_modify member fun _ => ⟨rfl, rfl⟩⟩

/-- A key at which a range starts that has nothing in common with the stored fragments. -/
theorem fresh_key (sound : Sound m uses) (filled : 0 < u.fragmentSize)
    (apart : ∀ f ∈ m.partialAllocations.entries, u.Apart f) :
    ∀ f ∈ m.partialAllocations.entries, f.1 ≠ ⟨u.cpuPtr, u.rootDeviceIndex⟩ := by
  intro f member key
  have keyed := sound.keyed f member
  have filled' := sound.nonempty f member
  have clear := apart f member (by rw [key])
  rw [key] at keyed
  simp only at keyed
  omega

/-- No use of a stored fragment lies in a range apart from all of them. -/
theorem users_apart (sound : Sound m uses) {f : Element}
    (device : f.1.rootDeviceIndex = u.rootDeviceIndex)
    (start : f.2.fragmentCpuPointer = u.cpuPtr) (size : f.2.fragmentSize = u.fragmentSize)
    (apart : ∀ f ∈ m.partialAllocations.entries, u.Apart f) : users uses f = 0 := by
  apply List.countP_eq_zero.mpr
  intro v use
  obtain ⟨g, member, inG⟩ := sound.covered v use
  have filled := sound.filled v use
  simp only [decide_eq_true_eq]
  intro inF
  have clear := apart g member (inG.1.trans (inF.1.symm.trans device))
  have := inG.2
  have := inF.2
  omega

/-- A new fragment that has nothing in common with the stored ones. -/
theorem insertFragment (sound : Sound m uses) {fragment : FragmentStorage}
    (filled : 0 < u.fragmentSize) (fits : u.cpuPtr + u.fragmentSize < 2 ^ 64)
    (start : fragment.fragmentCpuPointer = u.cpuPtr)
    (size : fragment.fragmentSize = u.fragmentSize)
    (handle : fragment.osInternalStorage ≠ none) (first : fragment.refCount = 1)
    (apart : ∀ f ∈ m.partialAllocations.entries, u.Apart f) :
    Sound { partialAllocations :=
      m.partialAllocations.insert ⟨u.cpuPtr, u.rootDeviceIndex⟩ fragment } (u :: uses) := by
  have inside : u.Inside (⟨u.cpuPtr, u.rootDeviceIndex⟩, fragment) :=
    ⟨rfl, start.le, by simp only [start, size, le_refl]⟩
  have none := sound.users_apart (f := (⟨u.cpuPtr, u.rootDeviceIndex⟩, fragment)) rfl start size
    apart
  have outside : ∀ f ∈ m.partialAllocations.entries, ¬ u.Inside f := by
    intro f member within
    have clear := apart f member within.1
    have := within.2
    omega
  have entry := @OrderedMap.mem_insert _ _ _ m.partialAllocations
    ⟨u.cpuPtr, u.rootDeviceIndex⟩ fragment (sound.fresh_key filled apart)
  constructor
  · intro f stored
    rcases entry.mp stored with rfl | old
    · exact start.symm
    · exact sound.keyed f old
  · intro f stored
    rcases entry.mp stored with rfl | old
    · simp only [size, filled]
    · exact sound.nonempty f old
  · intro f stored
    rcases entry.mp stored with rfl | old
    · simp only [start, size, fits]
    · exact sound.fits f old
  · intro f stored g stored' differ device
    rcases entry.mp stored with rfl | old <;> rcases entry.mp stored' with rfl | old'
    · exact absurd rfl differ
    · simpa only [start, size] using apart g old' device.symm
    · simpa only [start, size] using (apart f old device).symm
    · exact sound.disjoint f old g old' differ device
  · intro f stored
    rcases entry.mp stored with rfl | old
    · exact handle
    · exact sound.handle f old
  · intro f stored
    rcases entry.mp stored with rfl | old
    · rw [users, List.countP_cons, ← users, none, if_pos (by simpa using inside)]
      exact first
    · rw [users, List.countP_cons, ← users, if_neg (by simpa using outside f old)]
      exact sound.counted f old
  · intro f stored
    rcases entry.mp stored with rfl | old
    · simp only [first, zero_lt_one]
    · exact sound.used f old
  · intro v use
    rcases List.mem_cons.mp use with rfl | use
    · exact filled
    · exact sound.filled v use
  · intro v use
    rcases List.mem_cons.mp use with rfl | use
    · exact ⟨_, entry.mpr (.inl rfl), inside⟩
    · obtain ⟨f, old, within⟩ := sound.covered v use
      exact ⟨f, entry.mpr (.inr old), within⟩

end Sound

/-- Every stored fragment contains the range or has nothing in common with it. -/
def Separated (m : HostPtrManager) (u : Use) : Prop :=
  ∀ f ∈ m.partialAllocations.entries, u.Apart f ∨ u.Inside f

theorem Separated.narrow {m m' : HostPtrManager} {u : Use} (separated : Separated m u)
    (narrows : Narrows m' m) : Separated m' u := by
  intro f member
  obtain ⟨g, inside, same⟩ := narrows f member
  rw [same.apart, same.inside]
  exact separated g inside

/-- The part of the memory that an entry of a handle storage stands for. -/
def useOf (rootDeviceIndex : Nat) (data : AllocationStorageData) : Use :=
  { rootDeviceIndex, cpuPtr := data.cpuPtr, fragmentSize := data.fragmentSize }

/-- Two ranges of one root device with no byte in common. -/
def Use.Clear (u v : Use) : Prop :=
  u.cpuPtr + u.fragmentSize ≤ v.cpuPtr ∨ v.cpuPtr + v.fragmentSize ≤ u.cpuPtr

/-- Storing an entry makes it a user of the fragment that contains it, or of a new one. -/
theorem Sound.storeStorageData {m : HostPtrManager} {uses : List Use} (sound : Sound m uses)
    (rootDeviceIndex : Nat) (data : AllocationStorageData) (filled : 0 < data.fragmentSize)
    (fits : data.cpuPtr + data.fragmentSize < 2 ^ 64) (handle : data.osHandleStorage ≠ none)
    (separated : Separated m (useOf rootDeviceIndex data)) :
    Sound (m.storeStorageData rootDeviceIndex data) (useOf rootDeviceIndex data :: uses) ∧
      ∀ v, Separated m v → v.Clear (useOf rootDeviceIndex data) →
        Separated (m.storeStorageData rootDeviceIndex data) v := by
  unfold HostPtrManager.storeStorageData storeFragment
  simp only
  split
  next f found =>
    obtain ⟨member, device, low, high⟩ := sound.findElement_holds found
    have inside : (useOf rootDeviceIndex data).Inside f := by
      rcases separated f member with apart | inside
      · have clear := apart device
        simp only [useOf] at clear low high
        omega
      · exact inside
    refine ⟨sound.addReference member filled inside, fun v other _ => ?_⟩
    exact other.narrow (narrows_modify member fun _ => ⟨rfl, rfl⟩)
  next absent =>
    have apart : ∀ f ∈ m.partialAllocations.entries, (useOf rootDeviceIndex data).Apart f := by
      intro f member
      rcases separated f member with apart | ⟨device, low, high⟩
      · exact apart
      · have holds : Holds f rootDeviceIndex data.cpuPtr := by
          simp only [useOf] at device low high
          exact ⟨device, low, by omega⟩
        have found : m.findElement ⟨data.cpuPtr, rootDeviceIndex⟩ = some f :=
          sound.findElement_eq member holds
        rw [found] at absent
        cases absent
    refine ⟨sound.insertFragment filled fits rfl rfl handle rfl apart, ?_⟩
    intro v other clear f stored
    have fresh := sound.fresh_key filled apart
    rcases (OrderedMap.mem_insert fresh).mp stored with rfl | old
    · left
      intro _
      exact clear
    · exact other f old

end ComputeRuntime.HostPtr
