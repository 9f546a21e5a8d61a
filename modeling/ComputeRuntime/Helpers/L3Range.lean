import ComputeRuntime.Helpers.AlignedMemory
import ComputeRuntime.Helpers.DebugHelpers
import ComputeRuntime.Library.Tiling
import Mathlib.Data.BitVec

/-! The ranges of the L3 cache that a flush names: a page-aligned stretch of addresses is cut
into naturally aligned powers of two, each packed into the bit field of one `L3Range`. -/
namespace ComputeRuntime

namespace Math

/-- The index of the lowest set bit. A word other than zero has one, so the loop over its bits
never runs out. -/
def ffs (v : ℕ) : ℕ :=
  if v = 0 then 2 ^ 64 - 1 else ((List.range 64).find? fun i => 0 != v &&& 1 <<< i).getD 64

def isPow2 (val : ℕ) : Bool := val != 0 && val &&& sub64 val 1 == 0

private theorem ffs_bit {v i : ℕ} : (0 != v &&& 1 <<< i) = v.testBit i := by
  rw [Nat.one_shiftLeft, Nat.and_two_pow, Bool.eq_iff_iff]
  have set := (Nat.two_pow_pos i).ne
  cases v.testBit i <;> simp [set]

theorem ffs_spec {v : ℕ} (nonzero : v ≠ 0) (fits : v < 2 ^ 64) :
    ffs v < 64 ∧ v.testBit (ffs v) = true ∧ ∀ i < ffs v, v.testBit i = false := by
  have top : v.log2 < 64 := (Nat.log2_lt nonzero).mpr fits
  have found : ((List.range 64).find? fun i => 0 != v &&& 1 <<< i).isSome := by
    apply List.find?_isSome.mpr
    exact ⟨v.log2, List.mem_range.mpr top, by rw [ffs_bit, Nat.testBit_log2 nonzero]⟩
  obtain ⟨i, search⟩ := Option.isSome_iff_exists.mp found
  have index : ffs v = i := by rw [ffs, if_neg nonzero, search, Option.getD_some]
  obtain ⟨bit, inside, before⟩ := List.find?_range_eq_some.mp search
  rw [index]
  refine ⟨List.mem_range.mp inside, by rwa [ffs_bit] at bit, fun j below => ?_⟩
  have unset := before j below
  rwa [ffs_bit, Bool.not_eq_true'] at unset

/-- A word is a multiple of the power of two that its lowest set bit stands for. -/
theorem two_pow_ffs_dvd {v : ℕ} (nonzero : v ≠ 0) (fits : v < 2 ^ 64) : 2 ^ ffs v ∣ v := by
  obtain ⟨_, _, below⟩ := ffs_spec nonzero fits
  apply Nat.dvd_of_mod_eq_zero
  apply Nat.eq_of_testBit_eq
  intro i
  rw [Nat.testBit_mod_two_pow, Nat.zero_testBit]
  by_cases low : i < ffs v
  · simp [below i low]
  · simp [low]

/-- No larger power of two divides the word. -/
theorem two_pow_dvd_iff {v k : ℕ} (nonzero : v ≠ 0) (fits : v < 2 ^ 64) :
    2 ^ k ∣ v ↔ k ≤ ffs v := by
  constructor
  · intro divides
    by_contra above
    rw [not_le] at above
    obtain ⟨_, bit, _⟩ := ffs_spec nonzero fits
    obtain ⟨q, rfl⟩ := divides
    rw [Nat.testBit_two_pow_mul, decide_eq_false (by omega)] at bit
    cases bit
  · exact fun le => (Nat.pow_dvd_pow 2 le).trans (two_pow_ffs_dvd nonzero fits)

theorem ffs_two_pow {k : ℕ} (word : k < 64) : ffs (2 ^ k) = k := by
  have fits : 2 ^ k < 2 ^ 64 := Nat.pow_lt_pow_right (by omega) word
  have nonzero : 2 ^ k ≠ 0 := (Nat.two_pow_pos k).ne'
  obtain ⟨_, bit, _⟩ := ffs_spec nonzero fits
  rw [Nat.testBit_two_pow, decide_eq_true_iff] at bit
  exact bit.symm

theorem isPow2_two_pow {k : ℕ} (word : k < 64) : isPow2 (2 ^ k) = true := by
  have fits : 2 ^ k < 2 ^ 64 := Nat.pow_lt_pow_right (by omega) word
  have pos := Nat.two_pow_pos k
  rw [isPow2, sub64, Word.sub_eq pos fits, Bool.and_eq_true, bne_iff_ne, beq_iff_eq]
  exact ⟨pos.ne', by rw [Nat.and_two_pow_sub_one_eq_mod, Nat.mod_self]⟩

end Math

/-- The bit field of a range: its fields keep the low bits of what they are set to. -/
structure L3Range where
  mask : BitVec 12 := 0
  address : BitVec 50 := 0
  policy : BitVec 2 := 0
  deriving DecidableEq

namespace L3Range

def minAlignment : ℕ := MemoryConstants.pageSize
def minAlignmentMask : ℕ := minAlignment - 1
def minAlignmentBitOffset : ℕ := Math.ffs minAlignment
def maxSingleRange : ℕ := 4 * MemoryConstants.gigaByte

def getMask (r : L3Range) : ℕ := r.mask.toNat

def setMask (r : L3Range) (mask : ℕ) : L3Range := { r with mask := BitVec.ofNat 12 mask }

def getAddress (r : L3Range) : ℕ := r.address.toNat <<< minAlignmentBitOffset

def setAddress (r : L3Range) (address : ℕ) : L3Range :=
  { r with address := BitVec.ofNat 50 (address >>> minAlignmentBitOffset) }

def getPolicy (r : L3Range) : ℕ := r.policy.toNat

def setPolicy (r : L3Range) (policy : ℕ) : L3Range := { r with policy := BitVec.ofNat 2 policy }

def meetsMinimumAlignment (v : ℕ) : Bool := 0 == v &&& minAlignmentMask

def getMaskFromSize (size : ℕ) : Result ℕ :=
  if Math.isPow2 size = false then .error .unrecoverable
  else if size < minAlignment ∨ size > maxSingleRange then .error .unrecoverable
  else .ok (Math.ffs (size >>> minAlignmentBitOffset) % 2 ^ 32)

/-- The address without the bits that the mask covers (`maxNBitValue` of their number). -/
def getMaskedAddress (r : L3Range) : ℕ :=
  r.getAddress &&& Word.not 64 (2 ^ (minAlignmentBitOffset + r.getMask) - 1)

def fromAddressSize (address size : ℕ) : Result L3Range := do
  let mask ← getMaskFromSize size
  return (setAddress {} address).setMask mask

def fromAddressSizeWithPolicy (address size policy : ℕ) : Result L3Range := do
  let ret ← fromAddressSize address size
  return ret.setPolicy policy

end L3Range

/-- The loop of `coverRangeExactImpl`, which pushes to `ret`. -/
def coverRangeLoop (last policy : ℕ) : ℕ → ℕ → List L3Range → Result (List L3Range)
  | 0, _, _ => .error .outOfFuel
  | fuel + 1, offset, ret =>
    if offset < last then do
      let maxRangeSizeBySize := Math.prevPowerOfTwo (sub64 last offset)
      let maxRangeSizeByOffset :=
        if offset ≠ 0 then 1 <<< Math.ffs offset else L3Range.maxSingleRange
      let rangeSize := min maxRangeSizeBySize maxRangeSizeByOffset
      let rangeSize := min rangeSize L3Range.maxSingleRange
      let range ← L3Range.fromAddressSizeWithPolicy offset rangeSize policy
      coverRangeLoop last policy fuel (add64 offset rangeSize) (ret ++ [range])
    else return ret

def coverRangeExactImpl (fuel address size : ℕ) (ret : List L3Range) (policy : ℕ) :
    Result (List L3Range) :=
  if L3Range.meetsMinimumAlignment address = false then .error .unrecoverable
  else if L3Range.meetsMinimumAlignment size = false then .error .unrecoverable
  else coverRangeLoop (add64 address size) policy fuel address ret

def coverRangeExact (fuel address size : ℕ) (ret : List L3Range) (policy : ℕ) :
    Result (List L3Range) :=
  coverRangeExactImpl fuel address size ret policy

namespace L3Range

/-- The addresses that the bit field of a range stands for. -/
def span (r : L3Range) : ℕ × ℕ :=
  (r.getMaskedAddress, r.getMaskedAddress + MemoryConstants.pageSize * 2 ^ r.getMask)

/-- A range is a power of two of at most four gigabytes, and naturally aligned. -/
structure Block (r : L3Range) : Prop where
  pow2 : ∃ k, MemoryConstants.pageSize * 2 ^ r.getMask = 2 ^ k
  small : MemoryConstants.pageSize * 2 ^ r.getMask ≤ 4 * MemoryConstants.gigaByte
  aligned : MemoryConstants.pageSize * 2 ^ r.getMask ∣ r.getMaskedAddress

/-- Ranges that cover `[lo, hi)` and nothing else, each from where the one before it ends. -/
structure Cover (ranges : List L3Range) (lo hi : ℕ) : Prop where
  contiguous : Tiling.Links (ranges.map span) lo hi
  ascending : (ranges.map span).Pairwise fun s t => s.2 ≤ t.1
  disjoint : (ranges.map span).Pairwise fun s t => Disjoint (Set.Ico s.1 s.2) (Set.Ico t.1 t.2)
  exact : ⋃ r ∈ ranges, Set.Ico r.span.1 r.span.2 = Set.Ico lo hi
  blocks : ∀ r ∈ ranges, r.Block

section Fields

theorem minAlignmentBitOffset_eq : minAlignmentBitOffset = 12 := by decide +kernel

theorem meetsMinimumAlignment_iff {v : ℕ} :
    meetsMinimumAlignment v = true ↔ MemoryConstants.pageSize ∣ v := by
  rw [meetsMinimumAlignment, beq_iff_eq, minAlignmentMask, minAlignment,
    show MemoryConstants.pageSize = 2 ^ 12 from rfl, Nat.and_two_pow_sub_one_eq_mod, eq_comm,
    Nat.dvd_iff_mod_eq_zero]

/-- The sizes that a range may have: four kilobytes to four gigabytes. -/
def sizeOf (mask : ℕ) : ℕ := 2 ^ (12 + mask)

theorem pageSize_mul (mask : ℕ) : MemoryConstants.pageSize * 2 ^ mask = sizeOf mask :=
  (pow_add 2 12 mask).symm

theorem getMaskFromSize_eq {mask : ℕ} (small : mask ≤ 20) :
    getMaskFromSize (sizeOf mask) = .ok mask := by
  have least : minAlignment ≤ sizeOf mask := by
    rw [show minAlignment = 2 ^ 12 from rfl]
    exact Nat.pow_le_pow_right (by omega) (by omega)
  have most : sizeOf mask ≤ maxSingleRange := by
    rw [show maxSingleRange = 2 ^ 32 from rfl]
    exact Nat.pow_le_pow_right (by omega) (by omega)
  have shifted : sizeOf mask >>> minAlignmentBitOffset = 2 ^ mask := by
    rw [minAlignmentBitOffset_eq, Nat.shiftRight_eq_div_pow, sizeOf, pow_add]
    exact Nat.mul_div_cancel_left _ (Nat.two_pow_pos 12)
  rw [getMaskFromSize, if_neg (by rw [sizeOf, Math.isPow2_two_pow (by omega)]; simp),
    if_neg (by rw [not_or, not_lt, not_lt]; exact ⟨least, most⟩), shifted,
    Math.ffs_two_pow (by omega), Nat.mod_eq_of_lt (show mask < 2 ^ 32 by omega)]

/-- The range at an aligned address decodes to what it was made from; of the policy only the
two bits that the field has are left. -/
theorem fromAddressSizeWithPolicy_spec {address mask : ℕ} (policy : ℕ) (small : mask ≤ 20)
    (aligned : sizeOf mask ∣ address) (fits : address < 2 ^ 62) :
    ∃ r, fromAddressSizeWithPolicy address (sizeOf mask) policy = .ok r ∧ r.getMask = mask ∧
      r.getMaskedAddress = address ∧ r.getPolicy = policy % 4 := by
  refine ⟨⟨BitVec.ofNat 12 mask, BitVec.ofNat 50 (address >>> minAlignmentBitOffset),
    BitVec.ofNat 2 policy⟩, ?_, ?_, ?_, ?_⟩
  · rw [fromAddressSizeWithPolicy, fromAddressSize, getMaskFromSize_eq small]
    rfl
  · rw [getMask, BitVec.toNat_ofNat, Nat.mod_eq_of_lt (by omega)]
  · -- the page bits that the field drops are zero, and so are those under the mask
    have page : 2 ^ 12 ∣ address := (Nat.pow_dvd_pow 2 (by omega)).trans aligned
    have kept : address >>> 12 < 2 ^ 50 := by
      rw [Nat.shiftRight_eq_div_pow]
      omega
    rw [getMaskedAddress, getAddress, getMask, minAlignmentBitOffset_eq, BitVec.toNat_ofNat,
      BitVec.toNat_ofNat, Nat.mod_eq_of_lt kept, Nat.mod_eq_of_lt (show mask < 2 ^ 12 by omega),
      Nat.shiftLeft_eq, Nat.shiftRight_eq_div_pow, Nat.div_mul_cancel page,
      Word.and_not_mask (by omega) (by omega)]
    exact Nat.div_mul_cancel aligned
  · rw [getPolicy, BitVec.toNat_ofNat]

end Fields

section Steps

variable {last offset : ℕ}

theorem min_two_pow (j k : ℕ) : min (2 ^ j) (2 ^ k) = 2 ^ min j k :=
  ((pow_right_mono₀ (show 1 ≤ 2 by decide)).map_min).symm

/-- What an offset allows: a power of two that divides it, at most the largest range if the
offset is zero. -/
theorem rangeSizeByOffset_pow2 (page : MemoryConstants.pageSize ∣ offset)
    (word : offset < 2 ^ 64) :
    ∃ k, 12 ≤ k ∧ 2 ^ k ∣ offset ∧
      (if offset ≠ 0 then 1 <<< Math.ffs offset else maxSingleRange) = 2 ^ k := by
  by_cases zero : offset = 0
  · subst zero
    exact ⟨32, by omega, dvd_zero _, rfl⟩
  · refine ⟨Math.ffs offset, (Math.two_pow_dvd_iff zero word).mp page,
      Math.two_pow_ffs_dvd zero word, ?_⟩
    rw [if_pos zero, Nat.one_shiftLeft]

/-- What one round of the loop takes: a naturally aligned block that starts at the offset and
ends at or before the last address. -/
theorem rangeSize_block (page : MemoryConstants.pageSize ∣ offset)
    (pageLast : MemoryConstants.pageSize ∣ last) (more : offset < last) (fits : last ≤ 2 ^ 57) :
    ∃ mask ≤ 20, sizeOf mask ∣ offset ∧ offset + sizeOf mask ≤ last ∧
      min (min (Math.prevPowerOfTwo (sub64 last offset))
        (if offset ≠ 0 then 1 <<< Math.ffs offset else maxSingleRange)) maxSingleRange =
      sizeOf mask := by
  have left : sub64 last offset = last - offset := Word.sub_eq more.le (by omega)
  have nonzero : last - offset ≠ 0 := by omega
  have bySize := Math.prevPowerOfTwo_eq nonzero (by omega)
  have pages : 12 ≤ (last - offset).log2 := by
    apply (Nat.le_log2 nonzero).mpr
    exact Nat.le_of_dvd (by omega) (Nat.dvd_sub pageLast page)
  obtain ⟨k, wide, divides, byOffset⟩ := rangeSizeByOffset_pow2 page (by omega)
  have size : 12 + (min (min (last - offset).log2 k) 32 - 12) =
      min (min (last - offset).log2 k) 32 := by omega
  refine ⟨min (min (last - offset).log2 k) 32 - 12, by omega, ?_, ?_, ?_⟩
  · rw [sizeOf, size]
    exact (Nat.pow_dvd_pow 2 (by omega)).trans divides
  · have under : sizeOf (min (min (last - offset).log2 k) 32 - 12) ≤ 2 ^ (last - offset).log2 := by
      rw [sizeOf, size]
      exact Nat.pow_le_pow_right (by omega) (by omega)
    have below := Nat.log2_self_le nonzero
    omega
  · rw [left, bySize, byOffset, show maxSingleRange = 2 ^ 32 from rfl, min_two_pow, min_two_pow,
      sizeOf, size]

end Steps

section Loop

variable {last policy : ℕ}

/-- What the ranges that the loop has pushed have in common. -/
structure Pushed (policy lo hi : ℕ) (ranges : List L3Range) : Prop where
  links : Tiling.Links (ranges.map span) lo hi
  blocks : ∀ r ∈ ranges, r.Block
  policies : ∀ r ∈ ranges, r.getPolicy = policy % 4

theorem Pushed.nil (policy lo : ℕ) : Pushed policy lo lo [] where
  links := rfl
  blocks := by simp
  policies := by simp

/-- One more range in front. -/
theorem Pushed.cons {lo hi mask : ℕ} {r : L3Range} {ranges : List L3Range} (small : mask ≤ 20)
    (aligned : sizeOf mask ∣ lo) (decoded : r.getMask = mask ∧ r.getMaskedAddress = lo ∧
      r.getPolicy = policy % 4) (rest : Pushed policy (lo + sizeOf mask) hi ranges) :
    Pushed policy lo hi (r :: ranges) := by
  obtain ⟨rfl, rfl, policies⟩ := decoded
  constructor
  · refine ⟨rfl, ?_⟩
    rw [span, pageSize_mul]
    exact rest.links
  · refine List.forall_mem_cons.mpr ⟨⟨⟨12 + r.getMask, pageSize_mul _⟩, ?_, ?_⟩, rest.blocks⟩
    · rw [pageSize_mul, show 4 * MemoryConstants.gigaByte = 2 ^ 32 from rfl]
      exact Nat.pow_le_pow_right (by omega) (by omega)
    · rwa [pageSize_mul]
  · exact List.forall_mem_cons.mpr ⟨policies, rest.policies⟩

/-- Every round covers at least a page, so the loop ends when the pages that are left do. -/
theorem coverRangeLoop_pushes (pageLast : MemoryConstants.pageSize ∣ last) (fits : last ≤ 2 ^ 57)
    {fuel offset : ℕ} (page : MemoryConstants.pageSize ∣ offset) (low : offset ≤ last)
    (enough : last < offset + MemoryConstants.pageSize * fuel) (ret : List L3Range) :
    ∃ ranges, coverRangeLoop last policy fuel offset ret = .ok (ret ++ ranges) ∧
      Pushed policy offset last ranges := by
  induction fuel generalizing offset ret with
  | zero => omega
  | succ fuel ih =>
    rw [coverRangeLoop]
    split
    next more =>
      obtain ⟨mask, small, aligned, inside, size⟩ := rangeSize_block page pageLast more fits
      obtain ⟨r, made, decoded⟩ :=
        fromAddressSizeWithPolicy_spec policy small aligned (by omega)
      have whole : MemoryConstants.pageSize ∣ sizeOf mask := ⟨2 ^ mask, (pageSize_mul mask).symm⟩
      have least : MemoryConstants.pageSize ≤ sizeOf mask :=
        Nat.le_of_dvd (Nat.two_pow_pos _) whole
      have left : last < offset + sizeOf mask + MemoryConstants.pageSize * fuel := by
        rw [Nat.mul_succ] at enough
        omega
      obtain ⟨ranges, ran, pushed⟩ := ih (Nat.dvd_add page whole) inside left (ret ++ [r])
      refine ⟨r :: ranges, ?_, .cons small aligned decoded pushed⟩
      simp only [size, made]
      rw [show add64 offset (sizeOf mask) = offset + sizeOf mask from Word.add_eq (by omega)]
      rw [List.append_assoc, List.singleton_append] at ran
      exact ran
    next done =>
      obtain rfl : offset = last := by omega
      exact ⟨[], by rw [List.append_nil]; rfl, .nil policy offset⟩

theorem Pushed.cover {lo hi : ℕ} {ranges : List L3Range} (pushed : Pushed policy lo hi ranges) :
    Cover ranges lo hi := by
  have rising : ∀ s ∈ ranges.map span, s.1 ≤ s.2 := by
    intro s member
    obtain ⟨r, _, rfl⟩ := List.mem_map.mp member
    exact Nat.le_add_right _ _
  have tiles := pushed.links.tiles rising
  refine ⟨pushed.links, pushed.links.ascending rising, tiles.disjoint, ?_, pushed.blocks⟩
  rw [← tiles.union]
  simp

end Loop

end L3Range

open L3Range

/-- A flush of an aligned stretch of addresses ends, and names exactly that stretch. -/
theorem coverRangeExact_covers {address size fuel : ℕ} (ret : List L3Range) (policy : ℕ)
    (alignedAddress : MemoryConstants.pageSize ∣ address)
    (alignedSize : MemoryConstants.pageSize ∣ size) (fits : address + size ≤ 2 ^ 57)
    (enough : size < MemoryConstants.pageSize * fuel) :
    ∃ ranges, coverRangeExact fuel address size ret policy = .ok (ret ++ ranges) ∧
      Cover ranges address (address + size) ∧ ∀ r ∈ ranges, r.getPolicy = policy % 4 := by
  have last : add64 address size = address + size := Word.add_eq (by omega)
  have enough' : address + size < address + MemoryConstants.pageSize * fuel := by omega
  obtain ⟨ranges, ran, pushed⟩ := @coverRangeLoop_pushes (address + size) policy
    (Nat.dvd_add alignedAddress alignedSize) fits fuel address alignedAddress
    (Nat.le_add_right _ _) enough' ret
  refine ⟨ranges, ?_, pushed.cover, pushed.policies⟩
  have meets := meetsMinimumAlignment_iff.mpr alignedAddress
  have meetsSize := meetsMinimumAlignment_iff.mpr alignedSize
  rw [coverRangeExact, coverRangeExactImpl, meets, meetsSize, if_neg (by simp),
    if_neg (by simp), last, ran]

/-- Two pages across the four-gigabyte boundary. -/
theorem coverRangeExact_boundary :
    ∃ ranges, coverRangeExact 3 0xfffff000 0x2000 [] 2 = .ok ([] ++ ranges) ∧
      Cover ranges 0xfffff000 (0xfffff000 + 0x2000) ∧ ∀ r ∈ ranges, r.getPolicy = 2 % 4 :=
  coverRangeExact_covers [] 2 (by decide) (by decide) (by decide) (by decide)

/-- A policy of more than two bits is cut off. -/
theorem coverRangeExact_wide_policy :
    ¬ ∀ address size fuel policy : ℕ, policy < 2 ^ 64 → MemoryConstants.pageSize ∣ address →
      MemoryConstants.pageSize ∣ size → address + size ≤ 2 ^ 57 →
      size < MemoryConstants.pageSize * fuel →
      ∃ ranges, coverRangeExact fuel address size [] policy = .ok ranges ∧
        Cover ranges address (address + size) ∧ ∀ r ∈ ranges, r.getPolicy = policy := by
  intro exact
  obtain ⟨ranges, ran, _, policies⟩ :=
    exact 0 MemoryConstants.pageSize 2 4 (by decide) (by decide) (by decide) (by decide)
      (by decide)
  have one : coverRangeExact 2 0 MemoryConstants.pageSize [] 4 = .ok [⟨0, 0, 0⟩] := by
    decide +kernel
  rw [one] at ran
  cases ran
  exact absurd (policies _ (List.mem_singleton_self _)) (by decide)

end ComputeRuntime
