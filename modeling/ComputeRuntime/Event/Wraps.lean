import ComputeRuntime.Event.Profiling
import Mathlib.Data.List.Forall2
import Mathlib.Order.Bounds.Image

/-! When the profiling of an event survives a wrap of its timestamps. -/
namespace ComputeRuntime.Profiling

section Tracks

variable {t : Track} {p : ℕ × ℕ} {done pairs : List (ℕ × ℕ)}

/-- The values that a component takes over a list of pairs. -/
def values (f : ℕ × ℕ → ℕ) (pairs : List (ℕ × ℕ)) : Set ℕ := {x | ∃ p ∈ pairs, f p = x}

theorem isLeast_concat {f : ℕ × ℕ → ℕ} {m : ℕ} (least : IsLeast (values f done) m) :
    IsLeast (values f (done ++ [p])) (min m (f p)) := by
  obtain ⟨⟨q, member, rfl⟩, below⟩ := least
  constructor
  · rcases Nat.le_total (f q) (f p) with le | le
    · exact ⟨q, by simp [member], (min_eq_left le).symm⟩
    · exact ⟨p, by simp, (min_eq_right le).symm⟩
  · rintro _ ⟨r, inside, rfl⟩
    rcases List.mem_append.mp inside with old | new
    · exact (min_le_left _ _).trans (below ⟨r, old, rfl⟩)
    · rw [List.mem_singleton.mp new]
      exact min_le_right _ _

theorem isGreatest_concat {f : ℕ × ℕ → ℕ} {m : ℕ} (greatest : IsGreatest (values f done) m) :
    IsGreatest (values f (done ++ [p])) (max m (f p)) := by
  obtain ⟨⟨q, member, rfl⟩, above⟩ := greatest
  constructor
  · rcases Nat.le_total (f q) (f p) with le | le
    · exact ⟨p, by simp, (max_eq_right le).symm⟩
    · exact ⟨q, by simp [member], (max_eq_left le).symm⟩
  · rintro _ ⟨r, inside, rfl⟩
    rcases List.mem_append.mp inside with old | new
    · exact (above ⟨r, old, rfl⟩).trans (le_max_left _ _)
    · rw [List.mem_singleton.mp new]
      exact le_max_right _ _

/-- The pairs that read as if they ended before they began. -/
def wrapping (pairs : List (ℕ × ℕ)) : List (ℕ × ℕ) := pairs.filter fun p => p.2 < p.1

theorem mem_wrapping : p ∈ wrapping pairs ↔ p ∈ pairs ∧ p.2 < p.1 := by
  rw [wrapping, List.mem_filter, decide_eq_true_iff]

theorem wrapping_concat : wrapping (done ++ [p]) =
    wrapping done ++ if p.2 < p.1 then [p] else [] := by
  rw [wrapping, List.filter_append]
  by_cases wraps : p.2 < p.1
  · simp [wrapping, wraps]
  · simp [wrapping, wraps]

/-- What a track holds after a list of pairs. The end is the greatest of all ends before the
latch is set, and the greatest end of a pair that wraps after it. -/
structure Track.Follows (t : Track) (done : List (ℕ × ℕ)) : Prop where
  start : IsLeast (values Prod.fst done) t.startTS
  latch : t.isOverflowed = false ↔ wrapping done = []
  before : t.isOverflowed = false → IsGreatest (values Prod.snd done) t.endTS
  after : t.isOverflowed = true → IsGreatest (values Prod.snd (wrapping done)) t.endTS

theorem Track.Follows.visit (follows : t.Follows done) : (t.visit p).Follows (done ++ [p]) := by
  have start := isLeast_concat (p := p) follows.start
  unfold Track.visit getEndTS
  cases latch : t.isOverflowed with
  | false =>
    have none := follows.latch.mp latch
    by_cases wraps : p.2 < p.1
    · simp only [wraps, if_true]
      refine ⟨start, ?_, ?_, fun _ => ?_⟩
      · simp [wrapping_concat, wraps]
      · rintro ⟨⟩
      · rw [wrapping_concat, none, if_pos wraps]
        refine ⟨⟨p, by simp, rfl⟩, ?_⟩
        rintro _ ⟨q, member, rfl⟩
        rw [List.mem_singleton.mp member]
    · simp only [wraps, if_true, if_false]
      refine ⟨start, ?_, fun _ => isGreatest_concat (follows.before latch), ?_⟩
      · simp [wrapping_concat, wraps, none]
      · rintro ⟨⟩
  | true =>
    have some : wrapping done ≠ [] := fun none => by simp [follows.latch.mpr none] at latch
    have greatest := follows.after latch
    by_cases wraps : p.2 < p.1
    · simp only [wraps, if_true]
      refine ⟨start, ?_, ?_, fun _ => ?_⟩
      · simp [wrapping_concat, wraps]
      · rintro ⟨⟩
      · rw [wrapping_concat, if_pos wraps]
        exact isGreatest_concat greatest
    · simp only [wraps, if_false]
      refine ⟨start, ?_, ?_, fun _ => ?_⟩
      · simp [wrapping_concat, some]
      · rintro ⟨⟩
      · rw [wrapping_concat, if_neg wraps, List.append_nil]
        exact greatest

theorem Track.Follows.begin : ((Track.begin p).visit p).Follows [p] := by
  have single (f : ℕ × ℕ → ℕ) : IsLeast (values f [p]) (f p) ∧ IsGreatest (values f [p]) (f p) := by
    have only : values f [p] = {f p} := by
      ext x
      simp [values, eq_comm]
    rw [only]
    exact ⟨isLeast_singleton, isGreatest_singleton⟩
  unfold Track.visit Track.begin getEndTS
  by_cases wraps : p.2 < p.1
  · simp only [wraps, if_true, min_self]
    refine ⟨(single Prod.fst).1, by simp [wrapping, wraps], by rintro ⟨⟩, fun _ => ?_⟩
    rw [wrapping, List.filter_cons_of_pos (by simpa using wraps)]
    exact (single Prod.snd).2
  · simp only [wraps, if_true, if_false, min_self, max_self]
    exact ⟨(single Prod.fst).1, by simp [wrapping, wraps], fun _ => (single Prod.snd).2,
      by rintro ⟨⟩⟩

theorem Track.Follows.foldl (follows : t.Follows done) (rest : List (ℕ × ℕ)) :
    (rest.foldl Track.visit t).Follows (done ++ rest) := by
  induction rest generalizing t done with
  | nil => rwa [List.append_nil]
  | cons q rest ih =>
    have next := ih (follows.visit (p := q))
    rwa [List.append_assoc, List.singleton_append] at next

/-- The first pair is counted twice, which changes nothing. -/
theorem track_follows (p : ℕ × ℕ) (rest : List (ℕ × ℕ)) :
    ((p :: rest).foldl Track.visit (.begin p)).Follows (p :: rest) := by
  have first : ((Track.begin p).visit p).Follows [p] := .begin
  exact first.foldl rest

end Tracks

section Real

variable {w base : ℕ} {real : List (ℕ × ℕ)} {t : Track}

/-- Intervals of real time, none of them as long as a period, all within one. -/
structure Within (w base : ℕ) (real : List (ℕ × ℕ)) : Prop where
  start : ∀ p ∈ real, p.1 ∈ WrappingClock.window (2 ^ w) base
  stop : ∀ p ∈ real, p.2 ∈ WrappingClock.window (2 ^ w) base
  rising : ∀ p ∈ real, p.1 ≤ p.2

/-- What a counter of `w` bits shows at the two ends of an interval. -/
def reading (w : ℕ) (p : ℕ × ℕ) : ℕ × ℕ := (p.1 % 2 ^ w, p.2 % 2 ^ w)

/-- The interval contains a wrap of the counter. -/
def Straddles (w : ℕ) (p : ℕ × ℕ) : Prop := p.1 / 2 ^ w ≠ p.2 / 2 ^ w

/-- The track holds the readings of the earliest start and of the latest end. -/
def Track.Exact (w : ℕ) (real : List (ℕ × ℕ)) (t : Track) : Prop :=
  (∃ first, IsLeast (values Prod.fst real) first ∧ t.startTS = first % 2 ^ w) ∧
    ∃ last, IsGreatest (values Prod.snd real) last ∧ t.endTS = last % 2 ^ w

/-- All starts lie on one side of the wrap. Either so do all ends, or an interval that contains
the wrap is one of those that end last. -/
def Readable (w : ℕ) (real : List (ℕ × ℕ)) : Prop :=
  (∀ p ∈ real, ∀ q ∈ real, p.1 / 2 ^ w = q.1 / 2 ^ w) ∧
    ((∀ p ∈ real, ∀ q ∈ real, p.1 / 2 ^ w = q.2 / 2 ^ w) ∨
      ∃ p ∈ real, Straddles w p ∧ ∀ q ∈ real, q.2 ≤ p.2)

instance (p : ℕ × ℕ) : Decidable (Straddles w p) := inferInstanceAs (Decidable (_ ≠ _))

instance : Decidable (Readable w real) := inferInstanceAs (Decidable (_ ∧ (_ ∨ _)))

theorem values_reading {f : ℕ × ℕ → ℕ} (reads : ∀ p, f (reading w p) = f p % 2 ^ w) :
    values f (real.map (reading w)) = (· % 2 ^ w) '' values f real := by
  ext x
  constructor
  · rintro ⟨_, member, rfl⟩
    obtain ⟨p, inside, rfl⟩ := List.mem_map.mp member
    exact ⟨f p, ⟨p, inside, rfl⟩, (reads p).symm⟩
  · rintro ⟨_, ⟨p, inside, rfl⟩, rfl⟩
    exact ⟨reading w p, List.mem_map_of_mem inside, reads p⟩

/-- A non-empty list of rising intervals has an earliest start and a latest end: they are what a
track holds whose clock does not wrap. -/
theorem extremes (some : real ≠ []) (rising : ∀ p ∈ real, p.1 ≤ p.2) :
    (∃ first, IsLeast (values Prod.fst real) first) ∧
      ∃ last, IsGreatest (values Prod.snd real) last := by
  obtain ⟨p, rest, rfl⟩ := List.exists_cons_of_ne_nil some
  have follows := track_follows p rest
  refine ⟨⟨_, follows.start⟩, ⟨_, follows.before (follows.latch.mpr ?_)⟩⟩
  apply List.filter_eq_nil_iff.mpr
  intro q member
  simpa using rising q member

theorem values_forall {f : ℕ × ℕ → ℕ} {P : ℕ → Prop} :
    (∀ x ∈ values f real, P x) ↔ ∀ p ∈ real, P (f p) := by
  constructor
  · exact fun all p member => all _ ⟨p, member, rfl⟩
  · rintro all _ ⟨p, member, rfl⟩
    exact all p member

theorem start_exact_iff (within : Within w base real)
    (follows : t.Follows (real.map (reading w))) :
    (∃ first, IsLeast (values Prod.fst real) first ∧ t.startTS = first % 2 ^ w) ↔
      ∀ p ∈ real, ∀ q ∈ real, p.1 / 2 ^ w = q.1 / 2 ^ w := by
  have least := follows.start
  rw [values_reading fun _ => rfl] at least
  have inside : values Prod.fst real ⊆ WrappingClock.window (2 ^ w) base :=
    values_forall.mpr within.start
  constructor
  · rintro ⟨first, earliest, exact⟩ p hp q hq
    have together := (WrappingClock.least_reading_iff inside earliest least).mp exact
    rw [together p.1 ⟨p, hp, rfl⟩, together q.1 ⟨q, hq, rfl⟩]
  · intro together
    have some : real ≠ [] := by
      rintro rfl
      obtain ⟨⟨_, ⟨_, none, _⟩, _⟩, _⟩ := least
      cases none
    obtain ⟨⟨first, earliest⟩, _⟩ := extremes some within.rising
    refine ⟨first, earliest, (WrappingClock.least_reading_iff inside earliest least).mpr ?_⟩
    obtain ⟨⟨q, hq, rfl⟩, _⟩ := earliest
    exact values_forall.mpr fun p hp => together p hp q hq

/-- A pair of readings wraps exactly when its interval contains the wrap. -/
theorem reading_wraps_iff (within : Within w base real) {p : ℕ × ℕ} (member : p ∈ real) :
    (reading w p).2 < (reading w p).1 ↔ Straddles w p :=
  WrappingClock.mod_lt_mod_iff (within.start p member) (within.stop p member)
    (within.rising p member)

theorem mem_wrapping_reading (within : Within w base real) {r : ℕ × ℕ} :
    r ∈ wrapping (real.map (reading w)) ↔ ∃ p ∈ real, Straddles w p ∧ reading w p = r := by
  rw [mem_wrapping, List.mem_map]
  constructor
  · rintro ⟨⟨p, member, rfl⟩, wraps⟩
    exact ⟨p, member, (reading_wraps_iff within member).mp wraps, rfl⟩
  · rintro ⟨p, member, straddles, rfl⟩
    exact ⟨⟨p, member, rfl⟩, (reading_wraps_iff within member).mpr straddles⟩

/-- Before the latch is set: no interval contains the wrap. -/
theorem end_exact_unlatched (within : Within w base real)
    (greatest : IsGreatest (values Prod.snd (real.map (reading w))) t.endTS)
    (none : ∀ p ∈ real, ¬ Straddles w p) (some : real ≠ []) :
    (∃ last, IsGreatest (values Prod.snd real) last ∧ t.endTS = last % 2 ^ w) ↔
      ∀ p ∈ real, ∀ q ∈ real, p.1 / 2 ^ w = q.2 / 2 ^ w := by
  rw [values_reading fun _ => rfl] at greatest
  have inside : values Prod.snd real ⊆ WrappingClock.window (2 ^ w) base :=
    values_forall.mpr within.stop
  constructor
  · rintro ⟨last, latest, exact⟩ p hp q hq
    have together := (WrappingClock.greatest_reading_iff inside latest greatest).mp exact
    rw [not_not.mp (none p hp), together p.2 ⟨p, hp, rfl⟩, together q.2 ⟨q, hq, rfl⟩]
  · intro together
    obtain ⟨_, last, latest⟩ := extremes some within.rising
    refine ⟨last, latest, (WrappingClock.greatest_reading_iff inside latest greatest).mpr ?_⟩
    obtain ⟨⟨q, hq, rfl⟩, _⟩ := latest
    exact values_forall.mpr fun p hp => (not_not.mp (none p hp)).symm.trans (together p hp q hq)

/-- After the latch is set: the track holds the latest end of an interval with the wrap in it. -/
theorem end_exact_latched (within : Within w base real)
    (greatest : IsGreatest (values Prod.snd (wrapping (real.map (reading w)))) t.endTS) :
    (∃ last, IsGreatest (values Prod.snd real) last ∧ t.endTS = last % 2 ^ w) ↔
      ∃ p ∈ real, Straddles w p ∧ ∀ q ∈ real, q.2 ≤ p.2 := by
  obtain ⟨⟨r, member, held⟩, above⟩ := greatest
  obtain ⟨p, hp, straddles, rfl⟩ := (mem_wrapping_reading within).mp member
  have held : t.endTS = p.2 % 2 ^ w := held.symm
  have latest (q : ℕ × ℕ) (hq : q ∈ real) (wraps : Straddles w q) : q.2 ≤ p.2 := by
    have le := above ⟨_, (mem_wrapping_reading within).mpr ⟨q, hq, wraps, rfl⟩, rfl⟩
    rw [held] at le
    -- both ends lie behind the wrap, where the readings keep the order
    have side := WrappingClock.ends_together (within.start p hp) (within.stop p hp)
      (within.rising p hp) straddles
    have side' := WrappingClock.ends_together (within.start q hq) (within.stop q hq)
      (within.rising q hq) wraps
    exact (WrappingClock.mod_le_mod_iff (side'.trans side.symm)).mp le
  constructor
  · rintro ⟨_, ⟨⟨q, hq, rfl⟩, most⟩, exact⟩
    have same : p.2 = q.2 := (WrappingClock.mod_inj (within.stop p hp) (within.stop q hq)).mp
      (held.symm.trans exact)
    exact ⟨p, hp, straddles, fun r hr => same ▸ most ⟨r, hr, rfl⟩⟩
  · rintro ⟨q, hq, wraps, most⟩
    have same : q.2 = p.2 := Nat.le_antisymm (latest q hq wraps) (most p hp)
    refine ⟨p.2, ⟨⟨p, hp, rfl⟩, ?_⟩, held⟩
    rintro _ ⟨r, hr, rfl⟩
    exact same ▸ most r hr

theorem end_exact_iff (within : Within w base real)
    (follows : t.Follows (real.map (reading w))) :
    (∃ last, IsGreatest (values Prod.snd real) last ∧ t.endTS = last % 2 ^ w) ↔
      (∀ p ∈ real, ∀ q ∈ real, p.1 / 2 ^ w = q.2 / 2 ^ w) ∨
        ∃ p ∈ real, Straddles w p ∧ ∀ q ∈ real, q.2 ≤ p.2 := by
  cases latch : t.isOverflowed with
  | false =>
    have none : ∀ p ∈ real, ¬ Straddles w p := by
      intro p member wraps
      have wrapped := (mem_wrapping_reading within).mpr ⟨p, member, wraps, rfl⟩
      rw [follows.latch.mp latch] at wrapped
      cases wrapped
    have some : real ≠ [] := by
      rintro rfl
      obtain ⟨⟨_, none, _⟩, _⟩ := follows.start
      cases none
    rw [end_exact_unlatched within (follows.before latch) none some, iff_self_or]
    rintro ⟨p, member, wraps, _⟩
    exact absurd wraps (none p member)
  | true =>
    have greatest := follows.after latch
    rw [end_exact_latched within greatest, or_comm, iff_self_or]
    intro together
    obtain ⟨⟨_, member, _⟩, _⟩ := greatest
    obtain ⟨p, inside, wraps, _⟩ := (mem_wrapping_reading within).mp member
    exact absurd (together p inside p inside) wraps

theorem Track.Follows.exact_iff (within : Within w base real)
    (follows : t.Follows (real.map (reading w))) : t.Exact w real ↔ Readable w real :=
  and_congr (start_exact_iff within follows) (end_exact_iff within follows)

end Real

section Events

variable {e : Event} {w : ℕ}

/-- Both tracks after one more packet. -/
def ProfilingData.visit (data : ProfilingData) (p : Packet) : ProfilingData where
  global := data.global.visit p.global
  context := data.context.visit p.context

/-- The loop runs over the packets of a kernel. -/
theorem numPackets_eq (recorded : e.Recorded) {k : KernelEventCompletionData}
    (member : k ∈ e.kernels) : e.numPackets k = k.packetsUsed * e.nodes := by
  have inArray := recorded.inArray k member
  have small : preferredPacketCount < 2 ^ 32 := by decide
  have primary : (if e.inOrderIncrementValue > 0 then
      Word.mul 32 k.packetsUsed e.inOrderTimestampNodes else k.packetsUsed) =
      k.packetsUsed * if e.inOrderIncrementValue > 0 then e.inOrderTimestampNodes else 1 := by
    unfold Event.nodes at inArray
    rw [Nat.mul_add] at inArray
    split
    next incremented =>
      rw [if_pos incremented] at inArray
      exact Word.mul_eq (by omega)
    next => rw [Nat.mul_one]
  show (if e.additionalTimestampNodes > 0 then Word.add 32 (if e.inOrderIncrementValue > 0 then
      Word.mul 32 k.packetsUsed e.inOrderTimestampNodes else k.packetsUsed)
      e.additionalTimestampNodes
    else if e.inOrderIncrementValue > 0 then Word.mul 32 k.packetsUsed e.inOrderTimestampNodes
    else k.packetsUsed) = _
  rw [primary]
  unfold Event.nodes at inArray ⊢
  rw [Nat.mul_add] at inArray ⊢
  rcases recorded.additional with none | single
  · rw [none, if_neg (Nat.lt_irrefl 0), Nat.mul_zero, Nat.add_zero]
  · rw [single k member, Nat.one_mul] at inArray ⊢
    split
    next => rw [Word.add_eq (by omega), Nat.one_mul]
    next none => omega

theorem foldl_visitPacket (recorded : e.Recorded) {k : KernelEventCompletionData}
    (member : k ∈ e.kernels) (data : ProfilingData) :
    (List.range (e.numPackets k)).foldl (Event.visitPacket k) data =
      (e.written k).foldl ProfilingData.visit data := by
  rw [numPackets_eq recorded member, Event.written, List.foldl_map, List.foldl_filter]
  congr 1
  funext data packetId
  have odd : packetId % Event.skipL3EventPacketIndex ≠ 0 ↔ packetId % 2 = 1 := by
    unfold Event.skipL3EventPacketIndex
    omega
  unfold Event.visitPacket
  simp only [odd]
  split
  next skipped => rw [if_neg fun looked => absurd skipped (of_decide_eq_true looked)]
  next looked =>
    rw [if_pos (decide_eq_true looked)]
    rfl

theorem foldl_visit (packets : List Packet) (data : ProfilingData) :
    packets.foldl ProfilingData.visit data =
      { global := (packets.map Packet.global).foldl Track.visit data.global
        context := (packets.map Packet.context).foldl Track.visit data.context } := by
  induction packets generalizing data with
  | nil => rfl
  | cons p packets ih => exact ih (data.visit p)

/-- The first packet of the first kernel is never skipped. -/
theorem packets_cons (recorded : e.Recorded) :
    ∃ rest, e.packets = e.firstKernel.packets 0 :: rest := by
  obtain ⟨n, count⟩ := Nat.exists_eq_add_of_lt recorded.used
  rw [Nat.zero_add] at count
  have first : ∃ rest, e.written e.firstKernel = e.firstKernel.packets 0 :: rest := by
    rw [Event.written, count, List.range_succ_eq_map, List.filter_cons_of_pos (by simp),
      List.map_cons]
    exact ⟨_, rfl⟩
  obtain ⟨rest, eq⟩ := first
  rw [Event.packets, Event.kernels, List.flatMap_cons, eq]
  exact ⟨_, rfl⟩

/-- After an event the tracks hold what the packets of its kernels leave. -/
theorem calculateProfilingData_follows (recorded : e.Recorded) :
    e.calculateProfilingData.global.Follows (e.packets.map Packet.global) ∧
      e.calculateProfilingData.context.Follows (e.packets.map Packet.context) := by
  obtain ⟨rest, packets⟩ := packets_cons recorded
  have data : e.calculateProfilingData =
      e.packets.foldl ProfilingData.visit ⟨.begin (e.firstKernel.packets 0).global,
        .begin (e.firstKernel.packets 0).context⟩ := by
    unfold Event.calculateProfilingData Event.packets
    rw [List.foldl_flatMap]
    exact List.foldl_ext _ _ _ fun data k member => foldl_visitPacket recorded member data
  rw [data, foldl_visit, packets]
  exact ⟨track_follows _ (rest.map Packet.global), track_follows _ (rest.map Packet.context)⟩

/-- Reading the packets changes nothing about how many there are. -/
theorem recorded_read (recorded : e.Recorded) : (e.read w).Recorded := by
  have kernels : (e.read w).kernels = e.kernels.map fun k =>
      { k with packets := fun packetId => (k.packets packetId).read w } := rfl
  refine ⟨recorded.used, ?_, ?_⟩
  · rw [kernels]
    exact List.forall_mem_map.mpr recorded.inArray
  · rw [kernels]
    exact recorded.additional.imp id fun single => List.forall_mem_map.mpr single

theorem packets_read : (e.read w).packets = e.packets.map (Packet.read w) := by
  have kernel (k : KernelEventCompletionData) :
      (e.read w).written { k with packets := fun packetId => (k.packets packetId).read w } =
        (e.written k).map (Packet.read w) := by
    rw [Event.written, Event.written, List.map_map]
    rfl
  rw [Event.packets, Event.packets, Event.kernels, Event.kernels, List.map_flatMap]
  simp only [Event.read, List.flatMap_cons, List.flatMap_map]
  exact congrArg₂ _ (kernel _) (congrArg (List.flatMap · e.otherKernels) (funext kernel))

end Events

section Durations

variable {timer : Timer} {startTs endTs : ℕ}

/-- The distance on a clock of `w` bits. -/
def Elapsed (w startTs endTs duration : ℕ) : Prop := (duration : ℤ) = ((endTs : ℤ) - startTs) % 2 ^ w

/-- The duration in terms of the readings, when they do not wrap and when they do. -/
theorem getDuration_eq (bits : timer.kernelTimestampValidBits ≤ 64) :
    timer.getDuration startTs endTs =
      if startTs % 2 ^ timer.kernelTimestampValidBits >
          endTs % 2 ^ timer.kernelTimestampValidBits then
        endTs % 2 ^ timer.kernelTimestampValidBits +
          (2 ^ timer.kernelTimestampValidBits - 1 - startTs % 2 ^ timer.kernelTimestampValidBits)
      else endTs % 2 ^ timer.kernelTimestampValidBits -
        startTs % 2 ^ timer.kernelTimestampValidBits := by
  have word : 2 ^ timer.kernelTimestampValidBits ≤ 2 ^ 64 := Nat.pow_le_pow_right (by omega) bits
  have low := Nat.mod_lt startTs (Nat.two_pow_pos timer.kernelTimestampValidBits)
  have high := Nat.mod_lt endTs (Nat.two_pow_pos timer.kernelTimestampValidBits)
  unfold Timer.getDuration Timer.maxKernelTsValue
  simp only [Nat.and_two_pow_sub_one_eq_mod]
  split
  next wraps =>
    have left : sub64 (2 ^ timer.kernelTimestampValidBits - 1)
        (startTs % 2 ^ timer.kernelTimestampValidBits) =
        2 ^ timer.kernelTimestampValidBits - 1 - startTs % 2 ^ timer.kernelTimestampValidBits :=
      Word.sub_eq (by omega) (by omega)
    rw [left]
    exact Word.add_eq (by omega)
  next straight => exact Word.sub_eq (by omega) (by omega)

/-- The distance is that of the readings. -/
theorem elapsed_readings (w startTs endTs : ℕ) : ((endTs : ℤ) - startTs) % 2 ^ w =
    (((endTs % 2 ^ w : ℕ) : ℤ) - ((startTs % 2 ^ w : ℕ) : ℤ)) % ((2 ^ w : ℕ) : ℤ) := by
  push_cast
  exact Int.sub_emod _ _ _

/-- A duration is exact unless its readings wrap. -/
theorem getDuration_elapsed_iff (bits : timer.kernelTimestampValidBits ≤ 64) :
    Elapsed timer.kernelTimestampValidBits startTs endTs (timer.getDuration startTs endTs) ↔
      startTs % 2 ^ timer.kernelTimestampValidBits ≤
        endTs % 2 ^ timer.kernelTimestampValidBits := by
  have low := Nat.mod_lt startTs (Nat.two_pow_pos timer.kernelTimestampValidBits)
  have high := Nat.mod_lt endTs (Nat.two_pow_pos timer.kernelTimestampValidBits)
  rw [Elapsed, elapsed_readings, getDuration_eq bits]
  generalize startTs % 2 ^ timer.kernelTimestampValidBits = first at *
  generalize endTs % 2 ^ timer.kernelTimestampValidBits = last at *
  generalize 2 ^ timer.kernelTimestampValidBits = period at *
  split
  next wraps =>
    have shifted : ((last : ℤ) - first) % period = last - first + period := by
      rw [← Int.add_emod_right]
      exact Int.emod_eq_of_lt (by omega) (by omega)
    rw [shifted]
    omega
  next straight =>
    rw [Int.emod_eq_of_lt (by omega) (by omega)]
    omega

/-- A duration whose readings wrap is one tick short. -/
theorem getDuration_short (bits : timer.kernelTimestampValidBits ≤ 64)
    (wraps : endTs % 2 ^ timer.kernelTimestampValidBits <
      startTs % 2 ^ timer.kernelTimestampValidBits) :
    Elapsed timer.kernelTimestampValidBits startTs endTs (timer.getDuration startTs endTs + 1) := by
  have low := Nat.mod_lt startTs (Nat.two_pow_pos timer.kernelTimestampValidBits)
  rw [Elapsed, elapsed_readings, getDuration_eq bits, if_pos wraps]
  generalize startTs % 2 ^ timer.kernelTimestampValidBits = first at *
  generalize endTs % 2 ^ timer.kernelTimestampValidBits = last at *
  generalize 2 ^ timer.kernelTimestampValidBits = period at *
  have shifted : ((last : ℤ) - first) % period = last - first + period := by
    rw [← Int.add_emod_right]
    exact Int.emod_eq_of_lt (by omega) (by omega)
  rw [shifted]
  omega

/-- A synchronized pair ends as much later than it starts as its clock counted, in nanoseconds. -/
def Timer.Lasts (timer : Timer) (deviceTs synchronizedTs : KernelTimestamp) : Prop :=
  ∃ duration, Elapsed timer.kernelTimestampValidBits deviceTs.kernelStart deviceTs.kernelEnd
      duration ∧
    synchronizedTs.kernelEnd = add64 synchronizedTs.kernelStart (timer.toNanoseconds duration)

/-- The readings of a pair do not wrap, or a tick less is as long in nanoseconds. -/
def Timer.Straight (timer : Timer) (deviceTs : KernelTimestamp) : Prop :=
  deviceTs.kernelStart % 2 ^ timer.kernelTimestampValidBits ≤
      deviceTs.kernelEnd % 2 ^ timer.kernelTimestampValidBits ∨
    ∃ duration, Elapsed timer.kernelTimestampValidBits deviceTs.kernelStart deviceTs.kernelEnd
        (duration + 1) ∧
      timer.toNanoseconds duration % 2 ^ 64 = timer.toNanoseconds (duration + 1) % 2 ^ 64

theorem add64_inj {a b c : ℕ} : add64 a b = add64 a c ↔ b % 2 ^ 64 = c % 2 ^ 64 := by
  simp only [add64, Word.add]
  omega

/-- A pair that ends by the duration of the code lasts as long as it should when it is straight. -/
theorem lasts_iff (bits : timer.kernelTimestampValidBits ≤ 64)
    {deviceTs synchronizedTs : KernelTimestamp}
    (ends : synchronizedTs.kernelEnd = add64 synchronizedTs.kernelStart
      (timer.toNanoseconds (timer.getDuration deviceTs.kernelStart deviceTs.kernelEnd))) :
    timer.Lasts deviceTs synchronizedTs ↔ timer.Straight deviceTs := by
  unfold Timer.Lasts Timer.Straight
  rw [ends]
  by_cases straight : deviceTs.kernelStart % 2 ^ timer.kernelTimestampValidBits ≤
      deviceTs.kernelEnd % 2 ^ timer.kernelTimestampValidBits
  · exact iff_of_true ⟨_, (getDuration_elapsed_iff bits).mpr straight, rfl⟩ (.inl straight)
  · have short := getDuration_short bits (Nat.not_le.mp straight)
    constructor
    · rintro ⟨duration, elapsed, same⟩
      have ticks : duration = timer.getDuration deviceTs.kernelStart deviceTs.kernelEnd + 1 :=
        Int.ofNat_inj.mp (elapsed.trans short.symm)
      rw [ticks] at same
      exact .inr ⟨_, short, add64_inj.mp same⟩
    · rintro (inside | ⟨duration, elapsed, same⟩)
      · exact absurd inside straight
      · have ticks : duration + 1 =
            timer.getDuration deviceTs.kernelStart deviceTs.kernelEnd + 1 :=
          Int.ofNat_inj.mp (elapsed.trans short.symm)
        rw [Nat.succ.inj ticks] at same
        exact ⟨_, short, add64_inj.mpr same⟩

/-- The pairs of all synchronized timestamps last as long as they should. -/
def Timer.Synchronized (timer : Timer) (referenceTs : TimeStampData)
    (kernelTimestamps : List KernelTimestampResult) : Prop :=
  List.Forall₂ (fun timestamps result =>
    timer.Lasts timestamps.global result.global ∧ timer.Lasts timestamps.context result.context)
    kernelTimestamps (timer.getSynchronizedKernelTimestamps referenceTs kernelTimestamps)

theorem synchronized_iff (bits : timer.kernelTimestampValidBits ≤ 64)
    (referenceTs : TimeStampData) (kernelTimestamps : List KernelTimestampResult) :
    timer.Synchronized referenceTs kernelTimestamps ↔
      ∀ t ∈ kernelTimestamps, timer.Straight t.global ∧ timer.Straight t.context := by
  unfold Timer.Synchronized Timer.getSynchronizedKernelTimestamps
  rw [List.forall₂_map_right_iff, List.forall₂_same]
  exact forall₂_congr fun t _ => and_congr (lasts_iff bits rfl) (lasts_iff bits rfl)

end Durations

/-- The profile of an event is exact exactly when, in either pair of clocks, all starts lie on
one side of the wrap and an interval with the wrap in it, if there is one, ends last; synchronized
timestamps last as long as they should exactly when none of them wraps. -/
theorem profiling_exact_iff {e : Event} {timer : Timer} {globalBase contextBase : ℕ}
    (recorded : e.Recorded) (bits : timer.kernelTimestampValidBits ≤ 64)
    (globals : Within timer.kernelTimestampValidBits globalBase (e.packets.map Packet.global))
    (contexts : Within timer.kernelTimestampValidBits contextBase (e.packets.map Packet.context))
    (referenceTs : TimeStampData) (kernelTimestamps : List KernelTimestampResult) :
    let profile := (e.read timer.kernelTimestampValidBits).calculateProfilingData
    (profile.global.Exact timer.kernelTimestampValidBits (e.packets.map Packet.global) ∧
      profile.context.Exact timer.kernelTimestampValidBits (e.packets.map Packet.context) ↔
        Readable timer.kernelTimestampValidBits (e.packets.map Packet.global) ∧
          Readable timer.kernelTimestampValidBits (e.packets.map Packet.context)) ∧
    (timer.Synchronized referenceTs kernelTimestamps ↔
      ∀ t ∈ kernelTimestamps, timer.Straight t.global ∧ timer.Straight t.context) := by
  intro profile
  have follows := calculateProfilingData_follows
    (@recorded_read e timer.kernelTimestampValidBits recorded)
  rw [packets_read, List.map_map, List.map_map] at follows
  have globalReadings : (e.packets.map Packet.global).map (reading timer.kernelTimestampValidBits) =
      e.packets.map (Packet.global ∘ Packet.read timer.kernelTimestampValidBits) := List.map_map
  have contextReadings :
      (e.packets.map Packet.context).map (reading timer.kernelTimestampValidBits) =
      e.packets.map (Packet.context ∘ Packet.read timer.kernelTimestampValidBits) := List.map_map
  constructor
  · exact and_congr ((globalReadings ▸ follows.1).exact_iff globals)
      ((contextReadings ▸ follows.2).exact_iff contexts)
  · exact synchronized_iff bits referenceTs kernelTimestamps

/-- An event of one kernel with two packets, whose clocks run together. -/
def twoPackets (first second : ℕ × ℕ) : Event where
  firstKernel :=
    { packetsUsed := 2
      packets := fun packetId =>
        if packetId = 0 then ⟨first.1, first.1, first.2, first.2⟩
        else ⟨second.1, second.1, second.2, second.2⟩ }

def timer32 : Timer where
  kernelTimestampValidBits := 32
  numBitsForResolution := 7
  toNanoseconds := (52 * ·)

/-- The first packet runs over the wrap and ends last. -/
theorem profiling_exact_straddling :
    let e := twoPackets (0xfffffff0, 0x100000020) (0xfffffff8, 0x100000010)
    let profile := (e.read timer32.kernelTimestampValidBits).calculateProfilingData
    (profile.global.Exact timer32.kernelTimestampValidBits (e.packets.map Packet.global) ∧
      profile.context.Exact timer32.kernelTimestampValidBits (e.packets.map Packet.context)) ∧
    timer32.Synchronized ⟨0x100, 0x1000⟩ [⟨⟨5, 9⟩, ⟨6, 9⟩⟩] := by
  intro e profile
  have recorded : e.Recorded := ⟨by decide, by decide, by decide⟩
  have globals : Within timer32.kernelTimestampValidBits 0xfffffff0 (e.packets.map Packet.global) :=
    ⟨by decide +kernel, by decide +kernel, by decide +kernel⟩
  have contexts :
      Within timer32.kernelTimestampValidBits 0xfffffff0 (e.packets.map Packet.context) :=
    ⟨by decide +kernel, by decide +kernel, by decide +kernel⟩
  obtain ⟨profiled, synchronized⟩ := profiling_exact_iff recorded (by decide) globals contexts
    ⟨0x100, 0x1000⟩ [⟨⟨5, 9⟩, ⟨6, 9⟩⟩]
  refine ⟨profiled.mpr (by decide +kernel), synchronized.mpr fun t member => ?_⟩
  rw [List.mem_singleton.mp member]
  exact ⟨.inl (by decide), .inl (by decide)⟩

/-- A packet behind the wrap hides the earliest start, and a duration over the wrap is a tick
short. -/
theorem profiling_hides_start :
    (¬ ∀ (e : Event) (w base : ℕ), e.Recorded →
      Within w base (e.packets.map Packet.global) → Within w base (e.packets.map Packet.context) →
      ((e.read w).calculateProfilingData.global.Exact w (e.packets.map Packet.global) ∧
        (e.read w).calculateProfilingData.context.Exact w (e.packets.map Packet.context))) ∧
    ¬ ∀ (timer : Timer) (referenceTs : TimeStampData)
      (kernelTimestamps : List KernelTimestampResult), timer.kernelTimestampValidBits ≤ 64 →
      timer.Synchronized referenceTs kernelTimestamps := by
  constructor
  · intro exact
    let e := twoPackets (0xfffffff0, 0xfffffff8) (0x100000010, 0x100000020)
    have recorded : e.Recorded := ⟨by decide, by decide, by decide⟩
    have globals : Within 32 0xfffffff0 (e.packets.map Packet.global) :=
      ⟨by decide +kernel, by decide +kernel, by decide +kernel⟩
    have contexts : Within 32 0xfffffff0 (e.packets.map Packet.context) :=
      ⟨by decide +kernel, by decide +kernel, by decide +kernel⟩
    obtain ⟨⟨⟨first, earliest, held⟩, _⟩, _⟩ := exact e 32 0xfffffff0 recorded globals contexts
    have start : (e.read 32).calculateProfilingData.global.startTS = 0x10 := by decide +kernel
    have least : first ≤ 0xfffffff0 :=
      earliest.2 ⟨(0xfffffff0, 0xfffffff8), by decide +kernel, rfl⟩
    obtain ⟨p, member, same⟩ := earliest.1
    have low := (globals.start p member).1
    rw [same] at low
    rw [start] at held
    omega
  · intro synchronized
    have pairs := (synchronized_iff (by decide) _ _).mp
      (synchronized timer32 ⟨0x100, 0x1000⟩ [⟨⟨5, 3⟩, ⟨5, 3⟩⟩] (by decide))
    rcases (pairs _ List.mem_cons_self).1 with straight | ⟨duration, elapsed, same⟩
    · exact absurd straight (by decide)
    · -- a tick is 52 nanoseconds
      have ticks : 52 * duration % 2 ^ 64 = 52 * (duration + 1) % 2 ^ 64 := same
      omega

end ComputeRuntime.Profiling
