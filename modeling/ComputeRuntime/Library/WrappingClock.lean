import Mathlib.Order.Bounds.Basic
import Mathlib.Order.Interval.Set.Basic
import Mathlib.Data.Nat.Notation
import Mathlib.Algebra.Order.Ring.Nat

/-! A clock that is read modulo its period. As long as all times lie within one period, what is
lost is only on which side of the wrap a time lies: times on one side keep their order, and a
later time on the other side reads as an earlier one. -/
namespace WrappingClock

variable {period base s e s' e' : ℕ}

/-- The times between which a clock does not wrap around completely. -/
abbrev window (period base : ℕ) : Set ℕ := Set.Ico base (base + period)

theorem pos_of_mem (inside : s ∈ window period base) : 0 < period := by
  obtain ⟨low, high⟩ := inside
  omega

/-- A time of the window lies in the period of its beginning or in the next one. -/
theorem side (inside : s ∈ window period base) :
    s / period = base / period ∨ s / period = base / period + 1 := by
  have pos := pos_of_mem inside
  have low : base / period ≤ s / period := Nat.div_le_div_right inside.1
  have high : s / period ≤ base / period + 1 := by
    rw [← Nat.add_div_right base pos]
    exact Nat.div_le_div_right inside.2.le
  omega

theorem mod_le_mod_iff (same : s / period = e / period) :
    s % period ≤ e % period ↔ s ≤ e := by
  have first := Nat.div_add_mod s period
  have second := Nat.div_add_mod e period
  rw [same] at first
  omega

/-- A later time on the other side of the wrap reads as an earlier one. -/
theorem mod_lt_mod (start : s ∈ window period base) (stop : e ∈ window period base) (le : s ≤ e)
    (other : s / period ≠ e / period) : e % period < s % period := by
  have order : s / period ≤ e / period := Nat.div_le_div_right le
  have low : s / period = base / period := by
    rcases side start with low | high
    · exact low
    · rcases side stop with low | high' <;> omega
  have high : e / period = base / period + 1 := (side stop).resolve_left (by omega)
  have first := Nat.div_add_mod s period
  have second := Nat.div_add_mod e period
  rw [low] at first
  rw [high, Nat.mul_succ] at second
  have below := stop.2
  have above := start.1
  omega

/-- Whether an interval contains the wrap shows in its readings. -/
theorem mod_lt_mod_iff (start : s ∈ window period base) (stop : e ∈ window period base)
    (le : s ≤ e) : e % period < s % period ↔ s / period ≠ e / period := by
  constructor
  · intro reads same
    exact absurd ((mod_le_mod_iff same).mpr le) (Nat.not_le.mpr reads)
  · exact mod_lt_mod start stop le

theorem mod_inj (first : s ∈ window period base) (second : e ∈ window period base) :
    s % period = e % period ↔ s = e := by
  constructor
  · intro same
    by_contra differ
    rcases Nat.lt_or_gt_of_ne differ with lt | gt
    · by_cases side : s / period = e / period
      · exact absurd ((mod_le_mod_iff side.symm).mp same.ge) (Nat.not_le.mpr lt)
      · exact absurd same (mod_lt_mod first second lt.le side).ne'
    · by_cases side : s / period = e / period
      · exact absurd ((mod_le_mod_iff side).mp same.le) (Nat.not_le.mpr gt)
      · exact absurd same (mod_lt_mod second first gt.le (Ne.symm side)).ne
  · exact congrArg (· % period)

/-- Two intervals that contain the wrap end on the same side of it. -/
theorem ends_together (start : s ∈ window period base) (stop : e ∈ window period base)
    (le : s ≤ e) (wraps : s / period ≠ e / period) : e / period = base / period + 1 := by
  have order : s / period ≤ e / period := Nat.div_le_div_right le
  rcases side start with low | high
  · exact (side stop).resolve_left fun same => wraps (low.trans same.symm)
  · rcases side stop with low | high' <;> omega

section Bounds

variable {times : Set ℕ} {first last reading : ℕ}

/-- The least reading is that of the earliest time exactly when no time lies behind the wrap. -/
theorem least_reading_iff (inside : times ⊆ window period base) (earliest : IsLeast times first)
    (least : IsLeast ((· % period) '' times) reading) :
    reading = first % period ↔ ∀ t ∈ times, t / period = first / period := by
  constructor
  · rintro rfl t member
    by_contra other
    have le := least.2 ⟨t, member, rfl⟩
    have lt := mod_lt_mod (inside earliest.1) (inside member) (earliest.2 member) (Ne.symm other)
    exact absurd le (Nat.not_le.mpr lt)
  · intro together
    refine least.unique ⟨⟨first, earliest.1, rfl⟩, ?_⟩
    rintro _ ⟨t, member, rfl⟩
    exact (mod_le_mod_iff (together t member).symm).mpr (earliest.2 member)

/-- The greatest reading is that of the latest time exactly when no time lies before the wrap. -/
theorem greatest_reading_iff (inside : times ⊆ window period base) (latest : IsGreatest times last)
    (greatest : IsGreatest ((· % period) '' times) reading) :
    reading = last % period ↔ ∀ t ∈ times, t / period = last / period := by
  constructor
  · rintro rfl t member
    by_contra other
    have le := greatest.2 ⟨t, member, rfl⟩
    have lt := mod_lt_mod (inside member) (inside latest.1) (latest.2 member) other
    exact absurd le (Nat.not_le.mpr lt)
  · intro together
    refine greatest.unique ⟨⟨last, latest.1, rfl⟩, ?_⟩
    rintro _ ⟨t, member, rfl⟩
    exact (mod_le_mod_iff (together t member)).mpr (latest.2 member)

end Bounds

end WrappingClock
