import ComputeRuntime.Event.SubmitTime
import Mathlib.Data.Nat.Bitwise

/-! When the profiling of a command survives a wrap of the counter. -/
namespace ComputeRuntime.Profiling

section Clock

variable {d : DeviceClock} {w s x last : ℕ}

theorem high_mask_eq {submit : ℕ} (bits : w ≤ 64) (word : submit < 2 ^ 64) :
    submit &&& (2 ^ 64 - 2 ^ w) = submit / 2 ^ w * 2 ^ w := by
  have mask : 2 ^ 64 - 2 ^ w = 2 ^ w * (2 ^ (64 - w) - 1) := by
    rw [Nat.mul_sub, ← Nat.pow_add, Nat.add_sub_cancel' bits, Nat.mul_one]
  apply Nat.eq_of_testBit_eq
  intro i
  rw [mask, Nat.testBit_and, Nat.testBit_two_pow_mul, Nat.testBit_two_pow_sub_one,
    Nat.mul_comm (submit / 2 ^ w), Nat.testBit_two_pow_mul, Nat.testBit_div_two_pow]
  by_cases low : w ≤ i
  · by_cases high : i < 64
    · simp [low, show i - w < 64 - w by omega]
    · have none : submit.testBit i = false :=
        Nat.testBit_lt_two_pow (word.trans_le (Nat.pow_le_pow_right (by omega) (by omega)))
      simp [low, none]
  · simp [low]

/-- What was read with the submission's upper bits. -/
theorem addOverflowToTimestamp_or {submit : ℕ} (bits : d.globalTimeStampBits ≤ 64)
    (word : submit < 2 ^ 64) (reading : ℕ) :
    d.addOverflowToTimestamp reading submit =
      reading ||| submit / 2 ^ d.globalTimeStampBits * 2 ^ d.globalTimeStampBits := by
  have period : 2 ^ d.globalTimeStampBits ≤ 2 ^ 64 := Nat.pow_le_pow_right (by omega) bits
  have pos := Nat.two_pow_pos d.globalTimeStampBits
  have mask : Word.sub 64 (DeviceClock.maxNBitValue 64)
      (DeviceClock.maxNBitValue d.globalTimeStampBits) = 2 ^ 64 - 2 ^ d.globalTimeStampBits := by
    rw [DeviceClock.maxNBitValue, DeviceClock.maxNBitValue, Word.sub_eq (by omega) (by omega)]
    omega
  rw [DeviceClock.addOverflowToTimestamp, mask, high_mask_eq bits word]

/-- The submission's upper bits in front of what was read. -/
theorem addOverflowToTimestamp_eq {submit reading : ℕ} (bits : d.globalTimeStampBits ≤ 64)
    (word : submit < 2 ^ 64) (small : reading < 2 ^ d.globalTimeStampBits) :
    d.addOverflowToTimestamp reading submit =
      submit / 2 ^ d.globalTimeStampBits * 2 ^ d.globalTimeStampBits + reading := by
  rw [addOverflowToTimestamp_or bits word, Nat.or_comm, Nat.mul_comm,
    Nat.two_pow_add_eq_or_of_lt small]

/-- The difference that a counter of `v` bits shows; over a wrap it is one tick short. -/
def shown (v s x : ℕ) : ℕ :=
  if s % 2 ^ v > x % 2 ^ v then x % 2 ^ v + (2 ^ v - 1 - s % 2 ^ v) else x % 2 ^ v - s % 2 ^ v

/-- Events of both interfaces compute the same difference. -/
theorem getDelta_eq_shown (bits : d.kernelTimestampValidBits ≤ 64) :
    d.getDelta s x = shown d.kernelTimestampValidBits s x := by
  have same : d.getDelta s x = (Timer.mk d.kernelTimestampValidBits 0 id).getDuration s x := by
    rw [DeviceClock.getDelta, Timer.getDuration]
    have sum (a b c : ℕ) : Word.add 64 (Word.sub 64 a b) c = Word.add 64 c (Word.sub 64 a b) :=
      congrArg (· % 2 ^ 64) (Nat.add_comm _ c)
    simp only [DeviceClock.maxNBitValue, Timer.maxKernelTsValue, add64, sub64, sum]
    exact if_congr Iff.rfl rfl rfl
  rw [same, getDuration_eq bits, shown]

theorem shown_lt (w s x : ℕ) : shown w s x < 2 ^ w := by
  have first := Nat.mod_lt s (Nat.two_pow_pos w)
  have second := Nat.mod_lt x (Nat.two_pow_pos w)
  rw [shown]
  split <;> omega

/-- What is shown of an interval is never too long, and exact when the interval does not wrap. -/
theorem shown_le_iff (le : s ≤ x) :
    shown w s x ≤ x - s ∧ (shown w s x = x - s ↔ s / 2 ^ w = x / 2 ^ w) := by
  have first := Nat.div_add_mod s (2 ^ w)
  have second := Nat.div_add_mod x (2 ^ w)
  have small := Nat.mod_lt s (Nat.two_pow_pos w)
  have small' := Nat.mod_lt x (Nat.two_pow_pos w)
  have order : s / 2 ^ w ≤ x / 2 ^ w := Nat.div_le_div_right le
  rw [shown]
  rcases Nat.eq_or_lt_of_le order with same | later
  · rw [same] at first
    constructor
    · split <;> omega
    · split <;> omega
  · obtain ⟨k, steps⟩ := Nat.exists_eq_add_of_lt later
    -- at least one whole period lies between the two
    have apart : 2 ^ w * (x / 2 ^ w) = 2 ^ w * (s / 2 ^ w) + 2 ^ w * k + 2 ^ w := by
      rw [steps]
      ring
    constructor
    · split <;> omega
    · split <;> omega

theorem shown_mod (v : ℕ) (le : v ≤ w) : shown v (s % 2 ^ w) (x % 2 ^ w) = shown v s x := by
  have divides : 2 ^ v ∣ 2 ^ w := Nat.pow_dvd_pow 2 le
  rw [shown, shown, Nat.mod_mod_of_dvd _ divides, Nat.mod_mod_of_dvd _ divides]

/-- A difference of readings is that of the whole interval exactly when the end that was read is
the last one and the narrower of the two counters does not wrap. -/
theorem shown_exact_iff {v : ℕ} (some : 0 < w) (start : s ≤ x) (stop : x ≤ last)
    (inside : last < s + 2 ^ w) :
    shown v (s % 2 ^ w) (x % 2 ^ w) = last - s ↔
      x = last ∧ s / 2 ^ min w v = last / 2 ^ min w v := by
  by_cases narrow : v ≤ w
  · rw [shown_mod v narrow, min_eq_right narrow]
    obtain ⟨short, exact⟩ := @shown_le_iff v s x start
    constructor
    · intro whole
      have same : x = last := by omega
      subst same
      exact ⟨rfl, exact.mp whole⟩
    · rintro ⟨rfl, together⟩
      exact exact.mpr together
  · -- the reading is narrower than the mask, which then changes nothing
    have wide : 2 * 2 ^ w ≤ 2 ^ v := by
      rw [← Nat.pow_succ']
      exact Nat.pow_le_pow_right (by omega) (by omega)
    have period : 2 ≤ 2 ^ w := Nat.pow_le_pow_right (show 0 < 2 by omega) some
    have small := Nat.mod_lt s (Nat.two_pow_pos w)
    have small' := Nat.mod_lt x (Nat.two_pow_pos w)
    have window : ∀ t, s ≤ t → t ≤ last → t ∈ WrappingClock.window (2 ^ w) s :=
      fun t low high => ⟨low, by omega⟩
    have wraps := WrappingClock.mod_lt_mod_iff (window s le_rfl (by omega)) (window x start stop)
      start
    rw [min_eq_left (by omega), shown, Nat.mod_eq_of_lt (by omega : s % 2 ^ w < 2 ^ v),
      Nat.mod_eq_of_lt (by omega : x % 2 ^ w < 2 ^ v)]
    by_cases wrapped : x % 2 ^ w < s % 2 ^ w
    · rw [if_pos wrapped]
      constructor
      · intro whole
        omega
      · rintro ⟨rfl, together⟩
        exact absurd together (wraps.mp wrapped)
    · rw [if_neg wrapped]
      have together : s / 2 ^ w = x / 2 ^ w := by
        by_contra other
        exact wrapped (wraps.mpr other)
      have first := Nat.div_add_mod s (2 ^ w)
      have second := Nat.div_add_mod x (2 ^ w)
      rw [together] at first
      constructor
      · intro whole
        have same : x = last := by omega
        subst same
        exact ⟨rfl, together⟩
      · rintro ⟨rfl, _⟩
        omega

end Clock

section Start

variable {d : DeviceClock} {e : CommandEvent} {reading first : ℕ}

/-- The start is not before the submission, or at most the timeout before it. -/
def CommandEvent.Near (e : CommandEvent) (d : DeviceClock) (first : ℕ) : Prop :=
  let submit := e.submitTimeStamp.gpuTimeStamp
  if first < submit then d.getGpuTimeStampInNS (submit - first) < d.timestampRefreshTimeout
  else e.queueTimeStamp.gpuTimeStamp ≤ submit

/-- The start lies in the period of the submission, or in the next one and far enough behind the
submission, and its bits between those that a packet has and those that are borrowed are clear. -/
def CommandEvent.Borrows (e : CommandEvent) (d : DeviceClock) (first : ℕ) : Prop :=
  let period := 2 ^ d.globalTimeStampBits
  let submit := e.submitTimeStamp.gpuTimeStamp
  first % period < 2 ^ d.timestampPacketBits ∧
    (first / period = submit / period ∧ e.Near d first ∨
      first / period = submit / period + 1 ∧ first < submit + period ∧
        d.timestampRefreshTimeout ≤ d.getGpuTimeStampInNS (submit + period - first) ∧
        e.queueTimeStamp.gpuTimeStamp ≤ submit)

/-- A packet that has all bits of the start is left as it is: the upper bits of the submission are
set in the start as well. -/
def CommandEvent.Whole (e : CommandEvent) (d : DeviceClock) (first : ℕ) : Prop :=
  let period := 2 ^ d.globalTimeStampBits
  first ||| e.submitTimeStamp.gpuTimeStamp / period * period = first ∧ e.Near d first

/-- The start is found from the submission. -/
def CommandEvent.Found (e : CommandEvent) (d : DeviceClock) (first : ℕ) : Prop :=
  if d.timestampPacketBits ≤ d.globalTimeStampBits then e.Borrows d first else e.Whole d first

/-- The queueing, the submission and the start in this order, with the start that is given. -/
structure CommandEvent.StartsAt (e : CommandEvent) (first : ℕ) : Prop where
  queued : e.queueTimeStamp.gpuTimeStamp ≤ e.submitTimeStamp.gpuTimeStamp
  submitted : e.submitTimeStamp.gpuTimeStamp ≤ e.startTimeStamp.gpuTimeStamp
  started : e.startTimeStamp.gpuTimeStamp = first

theorem CommandEvent.moveSubmit_startsAt_iff (word : e.startTimeStamp.gpuTimeStamp < 2 ^ 64) :
    (e.moveSubmit d).StartsAt first ↔ e.startTimeStamp.gpuTimeStamp = first := by
  refine ⟨CommandEvent.StartsAt.started, fun start => ⟨?_, ?_, start⟩⟩
  · dsimp only [moveSubmit, DeviceClock.updateTimestamp]
    split
    · exact le_rfl
    · rw [Word.sub_eq (by omega) word, Word.sub_eq (by omega) word]
      omega
  · dsimp only [moveSubmit, DeviceClock.updateTimestamp]
    split
    · exact Nat.zero_le _
    · rw [Word.sub_eq (by omega) word]
      omega

/-- A time from its period and its reading. -/
theorem place_iff {w k r t : ℕ} (small : r < 2 ^ w) :
    k * 2 ^ w + r = t ↔ r = t % 2 ^ w ∧ t / 2 ^ w = k := by
  have unique : t / 2 ^ w = k ∧ t % 2 ^ w = r ↔ r + 2 ^ w * k = t ∧ r < 2 ^ w :=
    Nat.div_mod_unique (Nat.two_pow_pos w)
  rw [and_iff_left small, Nat.add_comm, Nat.mul_comm] at unique
  rw [← unique, and_comm, @eq_comm _ r]

/-- The start once the upper bits are there: it may be a period too early. -/
theorem calculateStart_startsAt_iff (unset : e.startTimeStamp.cpuTimeInNs = 0)
    (word : e.submitTimeStamp.gpuTimeStamp < 2 ^ 64) {start : ℕ}
    (borrowed : d.addOverflowToTimestamp reading e.submitTimeStamp.gpuTimeStamp = start)
    (near : e.submitTimeStamp.gpuTimeStamp ≤ start + 2 ^ d.globalTimeStampBits)
    (period : 2 ^ d.globalTimeStampBits < 2 ^ 64) (fits : first < 2 ^ 64) :
    (e.calculateStart d reading).StartsAt first ↔ start = first ∧ e.Near d first ∨
      start + 2 ^ d.globalTimeStampBits = first ∧ start < e.submitTimeStamp.gpuTimeStamp ∧
        d.timestampRefreshTimeout ≤
          d.getGpuTimeStampInNS (e.submitTimeStamp.gpuTimeStamp - start) ∧
        e.queueTimeStamp.gpuTimeStamp ≤ e.submitTimeStamp.gpuTimeStamp := by
  rw [CommandEvent.calculateStart, if_pos unset]
  dsimp only [CommandEvent.Near]
  rw [borrowed]
  by_cases early : start < e.submitTimeStamp.gpuTimeStamp
  · rw [if_pos early, Word.sub_eq early.le word]
    by_cases soon : d.getGpuTimeStampInNS (e.submitTimeStamp.gpuTimeStamp - start) <
        d.timestampRefreshTimeout
    · -- the submission is moved before the start
      rw [if_pos soon, CommandEvent.moveSubmit_startsAt_iff (early.trans word)]
      constructor
      · intro started
        obtain rfl : start = first := started
        exact Or.inl ⟨rfl, by rwa [if_pos early]⟩
      · rintro (⟨started, _⟩ | ⟨_, _, late, _⟩)
        · exact started
        · exact absurd soon (Nat.not_lt.mpr late)
    · -- the start is in the next period
      rw [if_neg soon]
      constructor
      · rintro ⟨queued, submitted, started⟩
        have fits : start + 2 ^ d.globalTimeStampBits < 2 ^ 64 := by
          by_contra wraps
          have small :
              (start + 2 ^ d.globalTimeStampBits) % 2 ^ 64 < e.submitTimeStamp.gpuTimeStamp := by
            rw [Nat.mod_eq_sub_mod (by omega), Nat.mod_eq_of_lt (by omega)]
            omega
          exact absurd submitted (Nat.not_le.mpr small)
        have started : Word.add 64 start (2 ^ d.globalTimeStampBits) = first := started
        rw [Word.add_eq fits] at started
        exact Or.inr ⟨started, early, Nat.not_lt.mp soon, queued⟩
      · rintro (⟨rfl, late⟩ | ⟨started, _, _, queued⟩)
        · rw [if_pos early] at late
          exact absurd late soon
        · rw [← started] at fits
          exact ⟨queued, (Word.add_eq fits).symm ▸ near, (Word.add_eq fits).trans started⟩
  · rw [if_neg early]
    constructor
    · rintro ⟨queued, _, started⟩
      obtain rfl : start = first := started
      exact Or.inl ⟨rfl, by rwa [if_neg early]⟩
    · rintro (⟨rfl, queued⟩ | ⟨_, before, _⟩)
      · rw [if_neg early] at queued
        exact ⟨queued, Nat.le_of_not_lt early, rfl⟩
      · exact absurd before early

/-- A packet that has no more bits than are not borrowed: the start is borrowed from the
submission. -/
theorem calculateStart_iff_borrows (bits : d.globalTimeStampBits < 64)
    (narrow : d.timestampPacketBits ≤ d.globalTimeStampBits)
    (unset : e.startTimeStamp.cpuTimeInNs = 0) (word : e.submitTimeStamp.gpuTimeStamp < 2 ^ 64)
    (small : reading < 2 ^ d.timestampPacketBits) (fits : first < 2 ^ 64) :
    (e.calculateStart d reading).StartsAt first ↔
      reading = first % 2 ^ d.timestampPacketBits ∧ e.Borrows d first := by
  have period : 2 ^ d.globalTimeStampBits < 2 ^ 64 := Nat.pow_lt_pow_right (by omega) bits
  have packet : 2 ^ d.timestampPacketBits ≤ 2 ^ d.globalTimeStampBits :=
    Nat.pow_le_pow_right (by omega) narrow
  have coarse : first % 2 ^ d.timestampPacketBits =
      first % 2 ^ d.globalTimeStampBits % 2 ^ d.timestampPacketBits :=
    (Nat.mod_mod_of_dvd _ (Nat.pow_dvd_pow 2 narrow)).symm
  have rest := Nat.mod_lt e.submitTimeStamp.gpuTimeStamp (Nat.two_pow_pos d.globalTimeStampBits)
  have below := Nat.div_add_mod' e.submitTimeStamp.gpuTimeStamp (2 ^ d.globalTimeStampBits)
  have here := @place_iff _ (e.submitTimeStamp.gpuTimeStamp / 2 ^ d.globalTimeStampBits) _ first
    (small.trans_le packet)
  have next := @place_iff _ (e.submitTimeStamp.gpuTimeStamp / 2 ^ d.globalTimeStampBits + 1) _ first
    (small.trans_le packet)
  rw [Nat.succ_mul, Nat.add_right_comm] at next
  -- the reading is that of the start when it is so modulo the longer period
  have read : reading = first % 2 ^ d.globalTimeStampBits ↔
      reading = first % 2 ^ d.timestampPacketBits ∧
        first % 2 ^ d.globalTimeStampBits < 2 ^ d.timestampPacketBits := by
    rw [coarse]
    constructor
    · intro same
      rw [same] at small
      exact ⟨same.trans (Nat.mod_eq_of_lt small).symm, small⟩
    · rintro ⟨same, clear⟩
      exact same.trans (Nat.mod_eq_of_lt clear)
  rw [calculateStart_startsAt_iff unset word
    (addOverflowToTimestamp_eq bits.le word (small.trans_le packet)) (by omega) period fits,
    CommandEvent.Borrows]
  constructor
  · rintro (⟨started, near⟩ | ⟨started, early, late, queued⟩)
    · obtain ⟨same, quotient⟩ := here.mp started
      obtain ⟨same, clear⟩ := read.mp same
      exact ⟨same, clear, Or.inl ⟨quotient, near⟩⟩
    · obtain ⟨same, quotient⟩ := next.mp started
      obtain ⟨same, clear⟩ := read.mp same
      refine ⟨same, clear, Or.inr ⟨quotient, by omega, ?_, queued⟩⟩
      rw [← started, Nat.add_sub_add_right]
      exact late
  · rintro ⟨same, clear, ⟨quotient, near⟩ | ⟨quotient, before, late, queued⟩⟩
    · exact Or.inl ⟨here.mpr ⟨read.mpr ⟨same, clear⟩, quotient⟩, near⟩
    · have started := next.mpr ⟨read.mpr ⟨same, clear⟩, quotient⟩
      rw [← started, Nat.add_sub_add_right] at late
      exact Or.inr ⟨started, by omega, late, queued⟩

/-- A packet that has all bits of the start. -/
theorem calculateStart_iff_whole (bits : d.globalTimeStampBits < 64)
    (unset : e.startTimeStamp.cpuTimeInNs = 0) (word : e.submitTimeStamp.gpuTimeStamp < 2 ^ 64)
    (fits : first < 2 ^ 64) : (e.calculateStart d first).StartsAt first ↔ e.Whole d first := by
  have period : 2 ^ d.globalTimeStampBits < 2 ^ 64 := Nat.pow_lt_pow_right (by omega) bits
  have pos := Nat.two_pow_pos d.globalTimeStampBits
  have rest := Nat.mod_lt e.submitTimeStamp.gpuTimeStamp pos
  have below := Nat.div_add_mod' e.submitTimeStamp.gpuTimeStamp (2 ^ d.globalTimeStampBits)
  have upper : e.submitTimeStamp.gpuTimeStamp / 2 ^ d.globalTimeStampBits *
      2 ^ d.globalTimeStampBits ≤ first ||| e.submitTimeStamp.gpuTimeStamp /
        2 ^ d.globalTimeStampBits * 2 ^ d.globalTimeStampBits := Nat.right_le_or
  have whole : first ≤ first ||| e.submitTimeStamp.gpuTimeStamp / 2 ^ d.globalTimeStampBits *
    2 ^ d.globalTimeStampBits := Nat.left_le_or
  rw [calculateStart_startsAt_iff unset word (addOverflowToTimestamp_or bits.le word first)
    (by omega) period fits, CommandEvent.Whole]
  -- a start with more bits is no period too early
  rw [or_iff_left fun ⟨late, _⟩ => by omega]

end Start

section Boundary

variable {boundary : ℕ × ℕ} {done : List Packet} {w : ℕ}

/-- The packets of a node that are looked at. -/
def TimestampNode.visited (node : TimestampNode) : List Packet :=
  if node.profilingCapable = false then [] else (List.range node.packetsUsed).map node.packets

def TimestampNode.read (w : ℕ) (node : TimestampNode) : TimestampNode :=
  { node with packets := fun i => (node.packets i).read w }

/-- The packets that an event looks at: the first one of its first node, and those of all nodes
that can be profiled. -/
def visitedPackets : List TimestampNode → List Packet
  | [] => []
  | first :: others => first.packets 0 :: (first :: others).flatMap TimestampNode.visited

theorem visitedPackets_read (nodes : List TimestampNode) :
    visitedPackets (nodes.map (TimestampNode.read w)) =
      (visitedPackets nodes).map (Packet.read w) := by
  have each (node : TimestampNode) : (node.read w).visited = node.visited.map (Packet.read w) := by
    rw [TimestampNode.visited, TimestampNode.visited]
    by_cases capable : node.profilingCapable = false
    · rw [if_pos capable, if_pos (show (node.read w).profilingCapable = false from capable)]
      rfl
    · rw [if_neg capable, if_neg (show ¬(node.read w).profilingCapable = false from capable),
        List.map_map]
      rfl
  cases nodes with
  | nil => rfl
  | cons first others =>
    rw [List.map_cons, visitedPackets, visitedPackets, List.map_cons, ← List.map_cons,
      List.flatMap_map, List.map_flatMap]
    simp only [each]
    rfl

/-- A boundary holds the earliest start and the latest end that were read. -/
structure Bounds (boundary : ℕ × ℕ) (done : List Packet) : Prop where
  start : IsLeast (values Prod.fst (done.map Packet.global)) boundary.1
  stop : IsGreatest (values Prod.snd (done.map Packet.global)) boundary.2

theorem Bounds.widen (bounds : Bounds boundary done) (p : Packet) :
    Bounds (CommandEvent.widen boundary p) (done ++ [p]) := by
  have start := @isLeast_concat p.global _ Prod.fst _ bounds.start
  have stop := @isGreatest_concat p.global _ Prod.snd _ bounds.stop
  have low : min boundary.1 p.global.1 = (CommandEvent.widen boundary p).1 := by
    simp only [CommandEvent.widen, Packet.global]
    split <;> omega
  have high : max boundary.2 p.global.2 = (CommandEvent.widen boundary p).2 := by
    simp only [CommandEvent.widen, Packet.global]
    split <;> omega
  rw [low] at start
  rw [high] at stop
  constructor
  · rwa [List.map_append]
  · rwa [List.map_append]

theorem Bounds.foldl (bounds : Bounds boundary done) (rest : List Packet) :
    Bounds (rest.foldl CommandEvent.widen boundary) (done ++ rest) := by
  induction rest generalizing boundary done with
  | nil => simpa using bounds
  | cons p rest ih => simpa using ih (bounds.widen p)

theorem getBoundaryTimestampValues_bounds (first : TimestampNode) (others : List TimestampNode) :
    Bounds (CommandEvent.getBoundaryTimestampValues first others)
      (visitedPackets (first :: others)) := by
  have one : Bounds (first.packets 0).global [first.packets 0] := by
    constructor
    · exact ⟨⟨_, List.mem_singleton_self _, rfl⟩, by simp [values, lowerBounds]⟩
    · exact ⟨⟨_, List.mem_singleton_self _, rfl⟩, by simp [values, upperBounds]⟩
  have all := one.foldl ((first :: others).flatMap TimestampNode.visited)
  rw [List.foldl_flatMap] at all
  have node (boundary : ℕ × ℕ) (timestamp : TimestampNode) :
      timestamp.visited.foldl CommandEvent.widen boundary =
        if timestamp.profilingCapable = false then boundary
        else (List.range timestamp.packetsUsed).foldl
          (fun boundary i => CommandEvent.widen boundary (timestamp.packets i)) boundary := by
    rw [TimestampNode.visited]
    split
    · rfl
    · exact List.foldl_map
  simp only [node] at all
  exact all

end Boundary

namespace CommandEvent

/-- The event as its packets read, when their times are real. -/
def read (w : ℕ) (e : CommandEvent) : CommandEvent :=
  { e with timestampPackets := e.timestampPackets.map (TimestampNode.read w) }

def visited (e : CommandEvent) : List (ℕ × ℕ) := (visitedPackets e.timestampPackets).map Packet.global

/-- What the profiling of an event should say when its packets began at `first` and ended at
`last`. -/
structure Profiled (e : CommandEvent) (first last : ℕ) : Prop extends e.StartsAt first where
  ended : e.startTimeStamp.gpuTimeStamp ≤ e.endTimeStamp.gpuTimeStamp
  completed : e.endTimeStamp.gpuTimeStamp ≤ e.completeTimeStamp.gpuTimeStamp
  duration : e.endTimeStamp.gpuTimeStamp - e.startTimeStamp.gpuTimeStamp = last - first

/-- The start is found from the submission, and the counter does not wrap before the end, neither
as packets hold it nor in its valid bits. -/
structure Survives (e : CommandEvent) (d : DeviceClock) (first last : ℕ) : Prop where
  fits : last < 2 ^ 64
  together : first / 2 ^ min d.timestampPacketBits d.kernelTimestampValidBits =
    last / 2 ^ min d.timestampPacketBits d.kernelTimestampValidBits
  found : e.Found d first

end CommandEvent

section Calculation

variable {d : DeviceClock} {e : CommandEvent} {first last s x : ℕ}

/-- Both ends are the duration behind the start. -/
theorem calculateDurations_ended :
    (e.calculateDurations d s x x).1.endTimeStamp.gpuTimeStamp =
      Word.add 64 e.startTimeStamp.gpuTimeStamp (d.getDelta s x) := rfl

theorem calculateDurations_completed :
    (e.calculateDurations d s x x).1.completeTimeStamp.gpuTimeStamp =
      (e.calculateDurations d s x x).1.endTimeStamp.gpuTimeStamp := by
  rw [CommandEvent.calculateDurations]
  by_cases zero : x = 0
  · simp only [if_pos zero]
  · simp only [if_neg zero]

theorem calculateProfilingDataInternal_iff (valid : d.kernelTimestampValidBits ≤ 64)
    (le : first ≤ last) :
    (∃ e' complete, e.calculateProfilingDataInternal d s x x s = .ok (e', complete) ∧
        e'.Profiled first last) ↔
      (e.calculateStart d s).StartsAt first ∧ last < 2 ^ 64 ∧ d.getDelta s x = last - first := by
  have short : d.getDelta s x < 2 ^ 64 := by
    rw [getDelta_eq_shown valid]
    exact (shown_lt _ s x).trans_le (Nat.pow_le_pow_right (by omega) valid)
  rw [CommandEvent.calculateProfilingDataInternal]
  generalize e.calculateStart d s = e
  by_cases early : e.startTimeStamp.gpuTimeStamp < e.submitTimeStamp.gpuTimeStamp
  · rw [if_pos early]
    constructor
    · rintro ⟨_, _, ⟨⟩, _⟩
    · exact fun ⟨starts, _⟩ => absurd starts.submitted (Nat.not_le.mpr early)
  · rw [if_neg early]
    constructor
    · rintro ⟨e', complete, returned, profiled⟩
      obtain rfl : (e.calculateDurations d s x x).1 = e' :=
        congrArg Prod.fst (Except.ok.inj returned)
      have ended := profiled.ended
      have duration := profiled.duration
      rw [calculateDurations_ended] at ended duration
      have started : e.startTimeStamp.gpuTimeStamp = first := profiled.started
      have start : (e.calculateDurations d s x x).1.startTimeStamp.gpuTimeStamp = first := started
      rw [start, started] at ended duration
      refine ⟨⟨profiled.queued, profiled.submitted, started⟩, ?_⟩
      by_cases fits : first + d.getDelta s x < 2 ^ 64
      · rw [Word.add_eq fits] at duration
        omega
      · -- an end that wraps around lies before the start
        rw [Word.add, Nat.mod_eq_sub_mod (by omega), Nat.mod_eq_of_lt (by omega)] at ended
        omega
    · rintro ⟨starts, fits, duration⟩
      have ended : (e.calculateDurations d s x x).1.endTimeStamp.gpuTimeStamp = last := by
        rw [calculateDurations_ended, starts.started, duration, Word.add_eq (by omega)]
        omega
      refine ⟨(e.calculateDurations d s x x).1, (e.calculateDurations d s x x).2, rfl,
        ⟨starts.queued, starts.submitted, starts.started⟩, ?_, ?_, ?_⟩
      · rw [ended]
        exact starts.started.le.trans le
      · exact calculateDurations_completed.ge
      · rw [ended]
        exact congrArg (last - ·) starts.started

theorem calcProfilingData_ok_iff {e' : CommandEvent} {node : TimestampNode}
    {others : List TimestampNode} (nodes : e.timestampPackets = node :: others)
    (fresh : e.dataCalculated = false ∧ e.profilingCpuPath = false) {boundary : ℕ × ℕ}
    (bounds : CommandEvent.getBoundaryTimestampValues node others = boundary) :
    e.calcProfilingData d = .ok e' ↔ ∃ complete, e.calculateProfilingDataInternal d boundary.1
      boundary.2 boundary.2 boundary.1 = .ok (e', complete) := by
  rw [CommandEvent.calcProfilingData, if_pos fresh, nodes]
  dsimp only
  rw [bounds, bind_eq_ok]
  constructor
  · rintro ⟨⟨_, complete⟩, calculated, ⟨⟩⟩
    exact ⟨complete, calculated⟩
  · rintro ⟨complete, calculated⟩
    exact ⟨(e', complete), calculated, rfl⟩

/-- The profiling of a command gives the real times exactly when the start can be found from the
submission and the counter does not wrap before the end. -/
theorem calcProfilingData_exact_iff {node : TimestampNode} {others : List TimestampNode}
    {base : ℕ} (counter : 0 < d.timestampPacketBits ∧ d.globalTimeStampBits < 64)
    (packet : d.timestampPacketBits ≤ d.globalTimeStampBits ∨ d.timestampPacketBits = 64)
    (valid : d.kernelTimestampValidBits ≤ 64) (nodes : e.timestampPackets = node :: others)
    (fresh : e.dataCalculated = false ∧ e.profilingCpuPath = false)
    (unset : e.startTimeStamp.cpuTimeInNs = 0) (word : e.submitTimeStamp.gpuTimeStamp < 2 ^ 64)
    (within : Within d.timestampPacketBits base e.visited)
    (earliest : IsLeast (values Prod.fst e.visited) first)
    (latest : IsGreatest (values Prod.snd e.visited) last) :
    (∃ e', (e.read d.timestampPacketBits).calcProfilingData d = .ok e' ∧ e'.Profiled first last) ↔
      e.Survives d first last := by
  have le : first ≤ last := by
    obtain ⟨⟨p, member, rfl⟩, _⟩ := earliest
    exact (within.rising p member).trans (latest.2 ⟨p, member, rfl⟩)
  have starts : values Prod.fst e.visited ⊆ WrappingClock.window _ base :=
    values_forall.mpr within.start
  have ends : values Prod.snd e.visited ⊆ WrappingClock.window _ base :=
    values_forall.mpr within.stop
  have inside : last < first + 2 ^ d.timestampPacketBits := by
    have low := (starts earliest.1).1
    have high := (ends latest.1).2
    omega
  have bounds := getBoundaryTimestampValues_bounds (node.read d.timestampPacketBits)
    (others.map (TimestampNode.read d.timestampPacketBits))
  have readings : (visitedPackets (node.read d.timestampPacketBits ::
      others.map (TimestampNode.read d.timestampPacketBits))).map Packet.global =
      e.visited.map (reading d.timestampPacketBits) := by
    rw [← List.map_cons, visitedPackets_read, CommandEvent.visited, nodes, List.map_map, List.map_map]
    rfl
  have least := readings ▸ bounds.start
  have greatest := readings ▸ bounds.stop
  rw [values_reading fun _ => rfl] at least greatest
  have nodes : (e.read d.timestampPacketBits).timestampPackets =
      node.read d.timestampPacketBits :: others.map (TimestampNode.read d.timestampPacketBits) := by
    rw [← List.map_cons, ← nodes]
    rfl
  have run := fun e' => @calcProfilingData_ok_iff d _ e' _ _ nodes fresh _ rfl
  simp only [run]
  generalize CommandEvent.getBoundaryTimestampValues (node.read d.timestampPacketBits)
    (others.map (TimestampNode.read d.timestampPacketBits)) = boundary at *
  obtain ⟨startTS, endTS⟩ := boundary
  dsimp only at least greatest ⊢
  have calculated := @calculateProfilingDataInternal_iff d (e.read d.timestampPacketBits) _ _ startTS
    endTS valid le
  simp only [exists_and_right] at calculated
  rw [calculated, getDelta_eq_shown valid]
  -- within one period of what the packets hold, the earliest and the latest reading are as they are
  have between (same : first / 2 ^ d.timestampPacketBits = last / 2 ^ d.timestampPacketBits)
      (t : ℕ) (low : first ≤ t) (high : t ≤ last) :
      t / 2 ^ d.timestampPacketBits = first / 2 ^ d.timestampPacketBits :=
    le_antisymm ((Nat.div_le_div_right high).trans same.ge) (Nat.div_le_div_right low)
  have startRead (same : first / 2 ^ d.timestampPacketBits = last / 2 ^ d.timestampPacketBits) :
      startTS = first % 2 ^ d.timestampPacketBits := by
    apply (WrappingClock.least_reading_iff starts earliest least).mpr
    rintro _ ⟨p, member, rfl⟩
    exact between same _ (earliest.2 ⟨p, member, rfl⟩)
      ((within.rising p member).trans (latest.2 ⟨p, member, rfl⟩))
  have endRead (same : first / 2 ^ d.timestampPacketBits = last / 2 ^ d.timestampPacketBits) :
      endTS = last % 2 ^ d.timestampPacketBits := by
    apply (WrappingClock.greatest_reading_iff ends latest greatest).mpr
    rintro _ ⟨p, member, rfl⟩
    rw [← same]
    exact between same _ ((earliest.2 ⟨p, member, rfl⟩).trans (within.rising p member))
      (latest.2 ⟨p, member, rfl⟩)
  have started (fits : last < 2 ^ 64) :
      ((e.read d.timestampPacketBits).calculateStart d startTS).StartsAt first ↔
        startTS = first % 2 ^ d.timestampPacketBits ∧ e.Found d first := by
    rw [CommandEvent.Found]
    by_cases narrow : d.timestampPacketBits ≤ d.globalTimeStampBits
    · have small : startTS < 2 ^ d.timestampPacketBits := by
        obtain ⟨_, _, rfl⟩ := least.1
        exact Nat.mod_lt _ (Nat.two_pow_pos _)
      rw [if_pos narrow]
      exact @calculateStart_iff_borrows d (e.read d.timestampPacketBits) _ _ counter.2 narrow unset
        word small (by omega)
    · -- what the packets hold does not wrap at all
      have all := packet.resolve_left narrow
      have same : first / 2 ^ d.timestampPacketBits = last / 2 ^ d.timestampPacketBits := by
        rw [all, Nat.div_eq_of_lt (by omega), Nat.div_eq_of_lt fits]
      have read := startRead same
      rw [if_neg narrow, and_iff_right read, read, all, Nat.mod_eq_of_lt (by omega : first < 2 ^ 64)]
      exact @calculateStart_iff_whole d (e.read 64) _ counter.2 unset word (by omega)
  constructor
  · rintro ⟨starts', fits, delta⟩
    obtain ⟨rfl, found⟩ := (started fits).mp starts'
    obtain ⟨x, ending, rfl⟩ := greatest.1
    have start : first ≤ x := by
      obtain ⟨p, member, rfl⟩ := ending
      exact (earliest.2 ⟨p, member, rfl⟩).trans (within.rising p member)
    exact ⟨fits, ((shown_exact_iff counter.1 start (latest.2 ending) inside).mp delta).2, found⟩
  · rintro ⟨fits, together, found⟩
    -- the counter that the packets hold does not wrap either
    have same : first / 2 ^ d.timestampPacketBits = last / 2 ^ d.timestampPacketBits := by
      have coarse : 2 ^ d.timestampPacketBits =
          2 ^ min d.timestampPacketBits d.kernelTimestampValidBits *
            2 ^ (d.timestampPacketBits - min d.timestampPacketBits d.kernelTimestampValidBits) := by
        rw [← Nat.pow_add, Nat.add_sub_cancel' (min_le_left _ _)]
      rw [coarse, ← Nat.div_div_eq_div_mul, ← Nat.div_div_eq_div_mul, together]
    refine ⟨(started fits).mpr ⟨startRead same, found⟩, fits, ?_⟩
    rw [startRead same, endRead same]
    exact (shown_exact_iff counter.1 le le_rfl inside).mpr ⟨rfl, together⟩

/-- A clock of 32 bits with ticks of 52 ns and a timeout of 100 ms. -/
def clock32 : DeviceClock where
  timestampPacketBits := 32
  globalTimeStampBits := 32
  kernelTimestampValidBits := 32
  timestampRefreshTimeout := 100000000
  useOnlyGlobalTimestamps := false
  getGpuTimeStampInNS := (52 * ·)
  durationInNS := (52 * ·)

/-- An event whose node has written two packets. -/
def twoPacketEvent (submit : ℕ) (first second : ℕ × ℕ) : CommandEvent where
  timestampPackets :=
    [{ packetsUsed := 2
       packets := (twoPackets first second).firstKernel.packets }]
  timeStampNode := none
  dataCalculated := false
  profilingCpuPath := false
  queueTimeStamp := ⟨1000, 1000, submit - 1⟩
  submitTimeStamp := ⟨2000, 2000, submit⟩
  startTimeStamp := ⟨0, 0, 0⟩
  endTimeStamp := ⟨0, 0, 0⟩
  completeTimeStamp := ⟨0, 0, 0⟩
  refreshTimestamps := false

theorem twoPacketEvent_visited (submit : ℕ) (first second : ℕ × ℕ) :
    (twoPacketEvent submit first second).visited = [first, first, second] := rfl

/-- The counter wraps between the submission and the start. -/
theorem calcProfilingData_exact_afterWrap :
    ∃ e', ((twoPacketEvent 0xfffffff0 (0x100000007, 0x100000020) (0x100000005, 0x100000032)).read
      32).calcProfilingData clock32 = .ok e' ∧ e'.Profiled 0x100000005 0x100000032 := by
  have visited := twoPacketEvent_visited 0xfffffff0 (0x100000007, 0x100000020)
    (0x100000005, 0x100000032)
  have within : Within 32 0xfffffff0 [(0x100000007, 0x100000020), (0x100000007, 0x100000020),
      (0x100000005, 0x100000032)] :=
    ⟨by decide +kernel, by decide +kernel, by decide +kernel⟩
  refine (@calcProfilingData_exact_iff clock32 _ _ _ _ _ 0xfffffff0 (by decide) (by decide)
    (by decide) rfl ⟨rfl, rfl⟩ rfl (by decide) (visited ▸ within) ?_ ?_).mpr
    ⟨by decide, by decide +kernel, ?_⟩
  · rw [visited]
    exact ⟨⟨(0x100000005, 0x100000032), by simp, rfl⟩, values_forall.mpr (by decide +kernel)⟩
  · rw [visited]
    exact ⟨⟨(0x100000005, 0x100000032), by simp, rfl⟩, values_forall.mpr (by decide +kernel)⟩
  · exact ⟨by decide +kernel, Or.inr ⟨by decide +kernel, by decide, by decide +kernel, by decide⟩⟩

/-- Packets of 64 bits, of which the lower 32 are taken for all. -/
def clock64 : DeviceClock :=
  { clock32 with timestampPacketBits := 64, kernelTimestampValidBits := 64 }

/-- A packet that runs over the wrap is reported a tick short, and a start of 64 bits is mixed with
the upper bits of the submission. -/
theorem calcProfilingData_short :
    (let e := twoPacketEvent 0xffffff00 (0xfffffff0, 0x100000010) (0xfffffff2, 0x100000008)
    Within 32 0xfffffff0 e.visited ∧ IsLeast (values Prod.fst e.visited) 0xfffffff0 ∧
      IsGreatest (values Prod.snd e.visited) 0x100000010 ∧
      ¬∃ e', (e.read 32).calcProfilingData clock32 = .ok e' ∧
        e'.endTimeStamp.gpuTimeStamp - e'.startTimeStamp.gpuTimeStamp =
          0x100000010 - 0xfffffff0) ∧
    let e := twoPacketEvent 0x1ffffff00 (0x200000010, 0x200000020) (0x200000010, 0x200000020)
    Within 64 0x200000010 e.visited ∧ IsLeast (values Prod.fst e.visited) 0x200000010 ∧
      IsGreatest (values Prod.snd e.visited) 0x200000020 ∧
      ¬∃ e', (e.read 64).calcProfilingData clock64 = .ok e' ∧
        e'.startTimeStamp.gpuTimeStamp = 0x200000010 := by
  have ticks {d : DeviceClock} {e e' : CommandEvent} {expected : ℕ × ℕ}
      (returned : e.calcProfilingData d = .ok e')
      (run : (e.calcProfilingData d).map (fun e' =>
        (e'.startTimeStamp.gpuTimeStamp, e'.endTimeStamp.gpuTimeStamp)) = .ok expected) :
      e'.startTimeStamp.gpuTimeStamp = expected.1 ∧
        e'.endTimeStamp.gpuTimeStamp = expected.2 := by
    rw [returned] at run
    have pair := Except.ok.inj run
    exact ⟨congrArg Prod.fst pair, congrArg Prod.snd pair⟩
  constructor
  · intro e
    have visited : e.visited = _ := twoPacketEvent_visited _ _ _
    rw [visited]
    refine ⟨⟨by decide +kernel, by decide +kernel, by decide +kernel⟩, ?_, ?_, ?_⟩
    · exact ⟨⟨(0xfffffff0, 0x100000010), by simp, rfl⟩, values_forall.mpr (by decide +kernel)⟩
    · exact ⟨⟨(0xfffffff0, 0x100000010), by simp, rfl⟩, values_forall.mpr (by decide +kernel)⟩
    · rintro ⟨e', returned, duration⟩
      obtain ⟨start, stop⟩ := @ticks _ _ _ (0xfffffff0, 0x10000000f) returned (by decide +kernel)
      rw [start, stop] at duration
      exact absurd duration (by decide)
  · intro e
    have visited : e.visited = _ := twoPacketEvent_visited _ _ _
    rw [visited]
    refine ⟨⟨by decide +kernel, by decide +kernel, by decide +kernel⟩, ?_, ?_, ?_⟩
    · exact ⟨⟨(0x200000010, 0x200000020), by simp, rfl⟩, values_forall.mpr (by decide +kernel)⟩
    · exact ⟨⟨(0x200000010, 0x200000020), by simp, rfl⟩, values_forall.mpr (by decide +kernel)⟩
    · rintro ⟨e', returned, started⟩
      obtain ⟨start, _⟩ := @ticks _ _ _ (0x300000010, 0x300000020) returned (by decide +kernel)
      rw [start] at started
      exact absurd started (by decide)

end Calculation

end ComputeRuntime.Profiling
