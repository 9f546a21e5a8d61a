import ComputeRuntime.GfxPartition.StandardHeaps
import ComputeRuntime.Library.Transition

/-! The partitions of the root devices of one system, initialised one after the other over the
range they share: no address belongs to two heaps of a device, nor to the shares of two devices. -/
namespace ComputeRuntime

open Placement Transition

/-- What the operating system hands out lies below 2^56, in the user half of a 57-bit address
space; a null answer is a failure. -/
def OsMemory.InUserHalf (os : OsMemory) : Prop :=
  ∀ call baseAddress size, os.osReserveCpuAddressRange call baseAddress size = 0 ∨
    os.osReserveCpuAddressRange call baseAddress size + size ≤ 2 ^ 56

namespace GfxPartition

section Reservations

variable {os : OsMemory} {call first second : ReserveCall} {baseAddress size : Nat}

theorem reserved_dvd (os : OsMemory) (call : ReserveCall) (baseAddress size : Nat) :
    heapGranularity ∣
      (os.reserveCpuAddressRange call baseAddress size heapGranularity).alignedPtr :=
  dvd_alignUp isPow2_pageSize64k _

/-- What the operating system gave is not null after it was aligned up. -/
theorem reserved_nonzero (user : os.InUserHalf)
    (given : (os.reserveCpuAddressRange call baseAddress size heapGranularity).originalPtr ≠ 0) :
    (os.reserveCpuAddressRange call baseAddress size heapGranularity).alignedPtr ≠ 0 := by
  obtain ⟨granule, -⟩ := sizes_in_bytes
  have below := user call baseAddress (add64 size heapGranularity)
  simp only [OsMemory.reserveCpuAddressRange] at given ⊢
  have pow2 : IsPow2 heapGranularity := isPow2_pageSize64k
  have up := le_alignUp (x := os.osReserveCpuAddressRange call baseAddress
    (add64 size heapGranularity)) pow2 (by omega)
  omega

/-- A range that is not null and, aligned up, still lies in the user half. -/
def Inside (range : ReservedCpuAddressRange) : Prop :=
  range.alignedPtr ≠ 0 → range.alignedPtr + range.sizeToReserve ≤ 2 ^ 56

theorem reserved_inside (user : os.InUserHalf) (fits : size + heapGranularity < 2 ^ 64) :
    Inside (os.reserveCpuAddressRange call baseAddress size heapGranularity) := by
  obtain ⟨granule, -⟩ := sizes_in_bytes
  have actual : add64 size heapGranularity = size + heapGranularity := Word.add_eq fits
  have below := user call baseAddress (add64 size heapGranularity)
  have pow2 : IsPow2 heapGranularity := isPow2_pageSize64k
  simp only [Inside, OsMemory.reserveCpuAddressRange]
  rw [actual] at below ⊢
  intro nonzero
  rcases below with none | below
  · rw [none, alignUp_self pow2 (by omega) (Nat.dvd_zero _)] at nonzero
    exact absurd rfl nonzero
  have up := alignUp_lt (x := os.osReserveCpuAddressRange call baseAddress
    (size + heapGranularity)) pow2 (by omega)
  omega

/-- Every reservation is aligned to the heaps' granule and lies in the user half. -/
structure GoodRange (range : ReservedCpuAddressRange) : Prop where
  aligned : heapGranularity ∣ range.alignedPtr
  inside : Inside range

theorem reserveRangeWithMemoryMapsParse_good (user : os.InUserHalf)
    (fits : size + heapGranularity < 2 ^ 64) (areaBase areaTop : Nat) :
    GoodRange (os.reserveRangeWithMemoryMapsParse first second areaBase areaTop size) := by
  have good (call : ReserveCall) (baseAddress : Nat) :
      GoodRange (os.reserveCpuAddressRange call baseAddress size MemoryConstants.pageSize64k) :=
    ⟨reserved_dvd os call baseAddress size, reserved_inside user fits⟩
  unfold OsMemory.reserveRangeWithMemoryMapsParse
  simp only
  split
  · exact good first areaBase
  · split
    · exact good second _
    · exact ⟨Nat.dvd_zero _, fun nonzero => absurd rfl nonzero⟩

theorem reserveLow48BitRangeWithRetry_good (user : os.InUserHalf) (attempt reservationSize : Nat)
    {range : ReservedCpuAddressRange} (start : GoodRange range)
    (fits : reservationSize + heapGranularity < 2 ^ 64) :
    GoodRange (os.reserveLow48BitRangeWithRetry attempt reservationSize range) := by
  induction reservationSize using Nat.strong_induction_on generalizing attempt range with
  | _ reservationSize ih =>
    unfold OsMemory.reserveLow48BitRangeWithRetry
    split
    next large =>
      have good : GoodRange (os.reserveCpuAddressRange (.low48 attempt) 0 reservationSize
          MemoryConstants.pageSize64k) := ⟨reserved_dvd _ _ _ _, reserved_inside user fits⟩
      simp only
      split
      · exact good
      · have positive : 0 < 32 * MemoryConstants.gigaByte := by decide
        have less := alignDown_le (x := reservationSize * 9 / 10) isPow2_pageSize64k (by omega)
        exact ih _ (by omega) _ good (by omega)
    next => exact start

theorem reserve48BitRange_good {p : GfxPartition} (user : os.InUserHalf)
    (start : GoodRange p.reservedCpuAddressRangeForHeapSvm) :
    GoodRange (p.reserve48BitRange os).reservedCpuAddressRangeForHeapSvm := by
  unfold reserve48BitRange
  split
  next =>
    have high : GoodRange os.reserveHigh48BitRangeWithMemoryMapsParse :=
      reserveRangeWithMemoryMapsParse_good user (by decide) _ _
    simp only
    split
    · exact reserveLow48BitRangeWithRetry_good user 0 _ high (by decide)
    · exact high
  next => exact start

theorem reserve48BitRange_settled {p : GfxPartition}
    (given : p.reservedCpuAddressRangeForHeapSvm.alignedPtr ≠ 0) : p.reserve48BitRange os = p :=
  if_neg given

end Reservations

/-- Two calls of `init` for root devices of one system. -/
structure SameSystem (a b : InitArgs) : Prop where
  gpuAddressSpace : a.gpuAddressSpace = b.gpuAddressSpace
  cpuAddressRangeSizeToReserve : a.cpuAddressRangeSizeToReserve = b.cpuAddressRangeSizeToReserve
  numRootDevices : a.numRootDevices = b.numRootDevices
  gfxTop : a.gfxTop = b.gfxTop

section Range

variable {platform : Platform} {os : OsMemory} {args : InitArgs} {p q : GfxPartition}
  {range : Nat × Nat}

/-- Once a device was initialised the others of its system get the same range, and reserve no
other one. -/
def Settled (platform : Platform) (args : InitArgs) (reserved : ReservedCpuAddressRange)
    (range : Nat × Nat) : Prop :=
  ∀ (os : OsMemory) (other : InitArgs) (p : GfxPartition), SameSystem other args →
    p.reservedCpuAddressRangeForHeapSvm = reserved →
    (p.initRange platform os other).2 = some range ∧
      (p.initRange platform os other).1.reservedCpuAddressRangeForHeapSvm = reserved

@[simp] theorem heapInit_reserved (p : GfxPartition) (heapIndex : HeapIndex) (base size : Nat) :
    (p.heapInit heapIndex base size).reservedCpuAddressRangeForHeapSvm =
      p.reservedCpuAddressRangeForHeapSvm := rfl

@[simp] theorem initExtended_reserved (p : GfxPartition) (args : InitArgs) :
    (p.initExtended args).reservedCpuAddressRangeForHeapSvm =
      p.reservedCpuAddressRangeForHeapSvm := by
  unfold initExtended
  split <;> rfl

/-- The partition with a range for `heapExtendedHost`, which may be null. -/
def withExtendedHost (p : GfxPartition) (size : Nat) (range : ReservedCpuAddressRange) :
    GfxPartition :=
  if range.alignedPtr ≠ 0 then
    { p with reservedCpuAddressRangeForHeapExtended := range }.heapInit .heapExtendedHost
      range.alignedPtr size
  else { p with reservedCpuAddressRangeForHeapExtended := range }

theorem initExtendedHost_eq (p : GfxPartition) (os : OsMemory) (size : Nat) :
    p.initExtendedHost os size = p.withExtendedHost (mul64 4 size)
      (os.reserve57BitRangeWithMemoryMapsParse (mul64 4 size)) := rfl

@[simp] theorem initExtendedHost_reserved (p : GfxPartition) (os : OsMemory) (size : Nat) :
    (p.initExtendedHost os size).reservedCpuAddressRangeForHeapSvm =
      p.reservedCpuAddressRangeForHeapSvm := by
  rw [initExtendedHost_eq, withExtendedHost]
  split <;> rfl

/-- The range that `reserveSvmRange` leaves is there for every later call. -/
theorem reserveSvmRange_kept {size : Nat}
    (given : p.reservedCpuAddressRangeForHeapSvm.alignedPtr ≠ 0) :
    p.reserveSvmRange os size = (p, true) := if_neg given

theorem reserveSvmRange_nonzero {size : Nat} (user : os.InUserHalf)
    (reserved : (p.reserveSvmRange os size).2 = true) :
    (p.reserveSvmRange os size).1.reservedCpuAddressRangeForHeapSvm.alignedPtr ≠ 0 := by
  unfold reserveSvmRange at reserved ⊢
  split at reserved
  next none =>
    rw [if_pos none]
    split at reserved
    next => cases reserved
    next positive =>
      rw [if_neg positive]
      simp only [Bool.and_eq_true, decide_eq_true_eq] at reserved
      exact reserved_nonzero user reserved.1
  next given =>
    rw [if_neg given]
    exact given

theorem initAdditionalRange_settled
    (returned : p.initAdditionalRange platform os args = (q, some range)) :
    ∀ (os : OsMemory) (other : InitArgs) (p : GfxPartition), SameSystem other args →
      p.reservedCpuAddressRangeForHeapSvm = q.reservedCpuAddressRangeForHeapSvm →
      (p.initAdditionalRange platform os other).2 = some range ∧
        (p.initAdditionalRange platform os other).1.reservedCpuAddressRangeForHeapSvm =
          q.reservedCpuAddressRangeForHeapSvm := by
  intro os' other p' same kept
  unfold initAdditionalRange at returned ⊢
  rw [same.gpuAddressSpace]
  split at returned
  next => cases returned
  next cpu =>
    rw [if_neg cpu]
    split at returned
    next => cases returned
    next gpu =>
      rw [if_neg gpu]
      split at returned
      next la57 =>
        rw [if_pos la57]
        simp only at returned ⊢
        split at returned
        next => cases returned
        next given =>
          have after : q.reservedCpuAddressRangeForHeapSvm =
              (p.reserve48BitRange os).reservedCpuAddressRangeForHeapSvm := by
            cases returned
            split <;> simp
          rw [after] at kept ⊢
          have stays : p'.reserve48BitRange os' = p' := reserve48BitRange_settled (kept ▸ given)
          rw [stays, kept, if_neg given]
          refine ⟨?_, ?_⟩
          · cases returned
            rfl
          · split <;> simp [kept]
      next la57 =>
        rw [if_neg la57]
        cases returned
        refine ⟨rfl, ?_⟩
        simpa using kept

theorem initRange_settled (user : os.InUserHalf)
    (returned : p.initRange platform os args = (q, some range)) :
    Settled platform args q.reservedCpuAddressRangeForHeapSvm range := by
  intro os' other p' same kept
  unfold initRange at returned ⊢
  rw [same.gpuAddressSpace, same.gfxTop, same.cpuAddressRangeSizeToReserve]
  split at returned
  next is32bit =>
    rw [if_pos is32bit]
    cases returned
    exact ⟨rfl, kept⟩
  next is32bit =>
    rw [if_neg is32bit]
    split at returned
    next full48 =>
      rw [if_pos full48]
      cases returned
      exact ⟨rfl, kept⟩
    next full48 =>
      rw [if_neg full48]
      split at returned
      next full47 =>
        rw [if_pos full47]
        simp only at returned ⊢
        split at returned
        next reserved =>
          have given := reserveSvmRange_nonzero user reserved
          have after : q.reservedCpuAddressRangeForHeapSvm =
              (p.reserveSvmRange os
                args.cpuAddressRangeSizeToReserve).1.reservedCpuAddressRangeForHeapSvm := by
            cases returned
            rfl
          rw [after] at kept ⊢
          rw [reserveSvmRange_kept (kept ▸ given)]
          cases returned
          simp only [if_true, kept]
          exact ⟨trivial, kept⟩
        next => cases returned
      next full47 =>
        rw [if_neg full47]
        split at returned
        next limited =>
          rw [if_pos limited]
          cases returned
          exact ⟨rfl, kept⟩
        next limited =>
          rw [if_neg limited]
          exact initAdditionalRange_settled returned os' other p' same kept

/-- What the first part of `init` leaves for the second. -/
structure RangeChosen (platform : Platform) (args : InitArgs) (p q : GfxPartition)
    (range : Nat × Nat) : Prop where
  aligned : heapGranularity ∣ range.1
  extended : q.heaps .heapExtended = p.heaps .heapExtended ∨
    args.gpuAddressSpace = maxNBitValue 57 ∧ range.2 ≤ 2 ^ 56 ∧
      q.heaps .heapExtended = .init (add64 (maxNBitValue 56 + 1)
        (mul64 args.rootDeviceIndex (alignDown (maxNBitValue 48 + 1) heapGranularity)))
        (alignDown (maxNBitValue 48 + 1) heapGranularity) MemoryConstants.pageSize
  other : ∀ n, n ≠ .heapSvm → n ≠ .heapExtended → n ≠ .heapExtendedHost →
    q.heaps n = p.heaps n

/-- Heaps that the first part does not set. -/
private theorem heapInit_other {heapIndex n : HeapIndex} (base size : Nat)
    (different : n ≠ heapIndex) : (p.heapInit heapIndex base size).heaps n = p.heaps n :=
  setHeap_other _ _ different

private theorem initExtendedHost_other {n : HeapIndex} (size : Nat)
    (different : n ≠ .heapExtendedHost) : (p.initExtendedHost os size).heaps n = p.heaps n := by
  rw [initExtendedHost_eq, withExtendedHost]
  split
  · exact heapInit_other _ _ different
  · rfl

private theorem initExtended_other {n : HeapIndex} (different : n ≠ .heapExtended) :
    (p.initExtended args).heaps n = p.heaps n := by
  unfold initExtended
  split
  · exact heapInit_other _ _ different
  · rfl

/-- The last step of the layouts with a 57-bit processor or GPU. -/
private theorem initExtended_chosen {r : GfxPartition} (aligned : heapGranularity ∣ range.1)
    (below : range.2 ≤ 2 ^ 56)
    (other : ∀ n, n ≠ .heapSvm → n ≠ .heapExtendedHost → r.heaps n = p.heaps n) :
    RangeChosen platform args p (r.initExtended args) range where
  aligned := aligned
  extended := by
    unfold initExtended
    split
    next extended => exact .inr ⟨extended, below, setHeap_same _ _ _⟩
    next => exact .inl (other _ (by decide) (by decide))
  other := fun n svm extended host =>
    (initExtended_other extended).trans (other n svm host)

/-- The reservation behind the layouts that reserve memory. Only the 57-bit layouts rely on where
it ends. -/
structure GoodReservation (gpuAddressSpace : Nat) (range : ReservedCpuAddressRange) : Prop where
  aligned : heapGranularity ∣ range.alignedPtr
  inside : gpuAddressSpace ≠ maxNBitValue 47 → Inside range

theorem initAdditionalRange_good (user : os.InUserHalf)
    (good : GoodRange p.reservedCpuAddressRangeForHeapSvm) :
    GoodRange (p.initAdditionalRange platform os args).1.reservedCpuAddressRangeForHeapSvm := by
  have after := reserve48BitRange_good user good
  unfold initAdditionalRange
  split
  · exact good
  · split
    · exact good
    · split
      · simp only
        split
        · exact after
        · split
          · simpa using after
          · simpa using after
      · simpa using good

theorem reserveSvmRange_dvd {size : Nat}
    (aligned : heapGranularity ∣ p.reservedCpuAddressRangeForHeapSvm.alignedPtr) :
    heapGranularity ∣
      (p.reserveSvmRange os size).1.reservedCpuAddressRangeForHeapSvm.alignedPtr := by
  unfold reserveSvmRange
  split
  · split
    · exact aligned
    · exact reserved_dvd _ _ _ _
  · exact aligned

theorem initRange_good (user : os.InUserHalf)
    (good : GoodReservation args.gpuAddressSpace p.reservedCpuAddressRangeForHeapSvm) :
    GoodReservation args.gpuAddressSpace
      (p.initRange platform os args).1.reservedCpuAddressRangeForHeapSvm := by
  unfold initRange
  split
  · exact good
  · split
    · exact good
    · split
      next full47 =>
        simp only
        split
        · exact ⟨reserveSvmRange_dvd good.aligned, fun other => absurd full47 other⟩
        · exact ⟨reserveSvmRange_dvd good.aligned, fun other => absurd full47 other⟩
      next full47 =>
        split
        · exact good
        · have whole : GoodRange
              (p.initAdditionalRange platform os args).1.reservedCpuAddressRangeForHeapSvm :=
            initAdditionalRange_good user ⟨good.aligned, good.inside full47⟩
          exact ⟨whole.aligned, fun _ => whole.inside⟩

theorem initAdditionalRange_chosen (user : os.InUserHalf)
    (good : GoodRange p.reservedCpuAddressRangeForHeapSvm)
    (returned : p.initAdditionalRange platform os args = (q, some range)) :
    RangeChosen platform args p q range := by
  have after := reserve48BitRange_good user good
  unfold initAdditionalRange at returned
  split at returned
  next => cases returned
  next =>
    split at returned
    next => cases returned
    next =>
      split at returned
      next =>
        simp only at returned
        split at returned
        next => cases returned
        next given =>
          have below := after.inside given
          have top : add64 (p.reserve48BitRange os).reservedCpuAddressRangeForHeapSvm.alignedPtr
              (p.reserve48BitRange os).reservedCpuAddressRangeForHeapSvm.sizeToReserve ≤
                2 ^ 56 := by
            rw [add64, Word.add_eq (by omega)]
            exact below
          have kept : (p.reserve48BitRange os).heaps = p.heaps := by
            unfold reserve48BitRange
            split <;> rfl
          cases returned
          refine initExtended_chosen after.aligned top ?_
          intro n svm host
          rw [← kept]
          split
          · rw [initExtendedHost_other _ host, heapInit_other _ _ svm]
          · exact heapInit_other _ _ svm
      next =>
        cases returned
        exact initExtended_chosen (by decide) (by decide) fun n svm _ => heapInit_other _ _ svm

/-- The layouts that set no heap but `heapSvm`. -/
private theorem heapSvm_chosen {r : GfxPartition} (base size : Nat) (same : r.heaps = p.heaps)
    (aligned : heapGranularity ∣ range.1) :
    RangeChosen platform args p (r.heapInit .heapSvm base size) range := by
  have other : ∀ n, n ≠ .heapSvm → (r.heapInit .heapSvm base size).heaps n = p.heaps n := by
    intro n svm
    rw [heapInit_other _ _ svm, same]
  exact ⟨aligned, .inl (other _ (by decide)), fun n svm _ _ => other n svm⟩

theorem initRange_chosen (user : os.InUserHalf)
    (good : GoodReservation args.gpuAddressSpace p.reservedCpuAddressRangeForHeapSvm)
    (returned : p.initRange platform os args = (q, some range)) :
    RangeChosen platform args p q range := by
  unfold initRange at returned
  split at returned
  next =>
    cases returned
    have aligned : heapGranularity ∣ maxNBitValue 32 + 1 := by decide
    exact heapSvm_chosen _ _ rfl aligned
  next =>
    split at returned
    next =>
      cases returned
      have aligned : heapGranularity ∣ maxNBitValue 47 + 1 := by decide
      exact heapSvm_chosen _ _ rfl aligned
    next =>
      split at returned
      next =>
        simp only at returned
        split at returned
        next =>
          have kept : (p.reserveSvmRange os args.cpuAddressRangeSizeToReserve).1.heaps =
              p.heaps := by
            unfold reserveSvmRange
            split
            · split <;> rfl
            · rfl
          cases returned
          exact heapSvm_chosen _ _ kept (reserveSvmRange_dvd good.aligned)
        next => cases returned
      next full47 =>
        split at returned
        next =>
          cases returned
          exact heapSvm_chosen _ _ rfl (Nat.dvd_zero _)
        next =>
          exact initAdditionalRange_chosen user ⟨good.aligned, good.inside full47⟩ returned

end Range

/-- The heaps that are not for SVM, and the front windows of four of them. -/
def partitionNames : List HeapIndex := heapNonSvmNames ++ heap32Names.map frontWindow

/-- No address belongs to two heaps, and every heap lies in the range of the partition, except
the one in the extended range. -/
structure LaidOut (p : GfxPartition) (range : Nat × Nat) : Prop where
  apart : partitionNames.Pairwise fun m n => Disjoint (p.handsOut m) (p.handsOut n)
  inside : ∀ n ∈ partitionNames, n ≠ .heapExtended → p.handsOut n ⊆ Set.Ico range.1 range.2
  extended : p.handsOut .heapExtended ⊆ Set.Ico (2 ^ 56) (2 ^ 57)

theorem LaidOut.disjoint {p : GfxPartition} {range : Nat × Nat} (laid : LaidOut p range)
    {m n : HeapIndex} (first : m ∈ partitionNames) (second : n ∈ partitionNames)
    (different : m ≠ n) : Disjoint (p.handsOut m) (p.handsOut n) := by
  have symmetric : Std.Symm fun m n => Disjoint (p.handsOut m) (p.handsOut n) :=
    ⟨fun _ _ apart => apart.symm⟩
  exact laid.apart.forall first second different

/-- The heaps of which every root device gets a share. -/
def sharedNames : List HeapIndex := [.heapStandard64KB, .heapStandard2MB, .heapExtended]

/-- Where the shares of a heap begin, and how large each is. -/
def shares (args : InitArgs) (range : Nat × Nat) : HeapIndex → Nat × Nat
  | .heapStandard64KB =>
    let layout := standardLayout args.gpuAddressSpace args.numRootDevices
      (range.1 + 4 * gfxHeap32Size) range.2
    (layout.standard64KB + heapGranularity, layout.share64KB)
  | .heapStandard2MB =>
    let layout := standardLayout args.gpuAddressSpace args.numRootDevices
      (range.1 + 4 * gfxHeap32Size) range.2
    (layout.standard2MB + heapGranularity2MB, layout.share2MB)
  | _ => (2 ^ 56, 2 ^ 48)

/-- Each shared heap hands out addresses of the device's own share only. -/
def OwnShares (args : InitArgs) (range : Nat × Nat) (p : GfxPartition) : Prop :=
  ∀ n ∈ sharedNames, p.handsOut n ⊆ Set.Ico
    ((shares args range n).1 + args.rootDeviceIndex * (shares args range n).2)
    ((shares args range n).1 + (args.rootDeviceIndex + 1) * (shares args range n).2)

/-- A call of `init` that gets enough room: for the four 32-bit heaps and a granule for each
standard heap, with a share of `heapStandard2MB` that is larger than its margins, or none. -/
structure Roomy (args : InitArgs) (range : Nat × Nat) : Prop where
  room : range.1 + 4 * gfxHeap32Size + 3 * heapGranularity2MB ≤ range.2
  fits : range.2 < 2 ^ 64
  margins : (shares args range .heapStandard2MB).2 = 0 ∨
    2 * heapGranularity2MB < (shares args range .heapStandard2MB).2

/-- The root devices of which the extended range has a share. -/
def ExtendedRoom (args : InitArgs) : Prop :=
  args.gpuAddressSpace = maxNBitValue 57 → args.rootDeviceIndex < 256

section Layout

variable {platform : Platform} {os : OsMemory} {args : InitArgs} {p q r : GfxPartition}
  {range : Nat × Nat}

/-- The share of a device of the extended range. -/
theorem extended_share (chosen : RangeChosen platform args p q range)
    (fresh : p.heaps .heapExtended = .empty) (few : ExtendedRoom args) :
    q.handsOut .heapExtended ⊆ Set.Ico (2 ^ 56 + args.rootDeviceIndex * 2 ^ 48)
      (2 ^ 56 + (args.rootDeviceIndex + 1) * 2 ^ 48) := by
  rcases chosen.extended with same | ⟨gpu57, _, extended⟩
  · rw [handsOut, same, fresh, GfxHeap.empty_handsOut]
    exact Set.empty_subset _
  · have index := few gpu57
    have size : alignDown (maxNBitValue 48 + 1) heapGranularity = 2 ^ 48 := by decide
    have start : maxNBitValue 56 + 1 = 2 ^ 56 := by decide
    have offset : mul64 args.rootDeviceIndex (2 ^ 48) = args.rootDeviceIndex * 2 ^ 48 :=
      Word.mul_eq (by omega)
    have base : add64 (2 ^ 56) (args.rootDeviceIndex * 2 ^ 48) =
      2 ^ 56 + args.rootDeviceIndex * 2 ^ 48 := Word.add_eq (by omega)
    have margin : GfxHeap.margin MemoryConstants.pageSize = 65536 := by decide
    rw [handsOut, extended, size, start, offset, base,
      GfxHeap.init_handsOut (by rw [margin]; omega) (by omega), margin]
    exact Set.Ico_subset_Ico (by omega) (by omega)

theorem extended_inside (chosen : RangeChosen platform args p q range)
    (fresh : p.heaps .heapExtended = .empty) (few : ExtendedRoom args) :
    q.handsOut .heapExtended ⊆ Set.Ico (2 ^ 56) (2 ^ 57) := by
  rcases chosen.extended with same | ⟨gpu57, _, _⟩
  · rw [handsOut, same, fresh, GfxHeap.empty_handsOut]
    exact Set.empty_subset _
  · have index := few gpu57
    exact (extended_share chosen fresh few).trans (Set.Ico_subset_Ico (by omega) (by omega))

/-- The names in the order in which the heaps are laid out. -/
private def laidNames : List HeapIndex :=
  [.heapExtended, .heapStandard2MB, .heapStandard64KB, .heapStandard,
    .heapExternal, .heapExternalFrontWindow,
    .heapExternalDeviceMemory, .heapExternalDeviceFrontWindow,
    .heapInternal, .heapInternalFrontWindow,
    .heapInternalDeviceMemory, .heapInternalDeviceFrontWindow]

/-- The second part of `init`, over a range with room for it. -/
theorem initHeaps_laid (aligned : heapGranularity ∣ range.1)
    (listed : args.rootDeviceIndex < args.numRootDevices)
    (room : range.1 + 4 * gfxHeap32Size + 3 * heapGranularity2MB ≤ range.2)
    (fits : range.2 < 2 ^ 64) :
    ∃ p₁ q, p.initHeaps args range.1 range.2 = .ok q ∧
      Laid32 args.useExternalFrontWindowPool heap32Names range.1 p p₁ ∧
      LaidStandard args (standardLayout args.gpuAddressSpace args.numRootDevices
        (range.1 + 4 * gfxHeap32Size) range.2) p₁ q := by
  obtain ⟨granule, granule2MB, _, _, size32, page⟩ := sizes_in_bytes
  obtain ⟨p₁, first, laid32⟩ : ∃ p₁, initHeaps32 args.useExternalFrontWindowPool heap32Names p
      range.1 = .ok (p₁, range.1 + 4 * gfxHeap32Size) ∧
        Laid32 args.useExternalFrontWindowPool heap32Names range.1 p p₁ := by
    refine initHeaps32_laid (fun _ listed => listed) (by decide)
      (Nat.dvd_trans (by decide) aligned) (by simp only [heap32Names, List.length]; omega) ?_
    -- the first heap, the only one that may lie at address 0, is an internal one
    intro k n found
    cases k with
    | zero =>
      obtain rfl : HeapIndex.heapInternalDeviceMemory = n := by simpa [heap32Names] using found
      exact .inl rfl
    | succ k =>
      rw [Nat.succ_mul]
      exact .inr (by omega)
  obtain ⟨q, second, laid⟩ := initStandardHeaps_laid (p := p₁) listed room fits
  refine ⟨p₁, q, ?_, laid32, laid⟩
  simp only [initHeaps, first]
  exact second

/-- The 32-bit heaps and their windows, one after the other. -/
theorem placed32 {base : Nat} {pool : Bool} (laid : Laid32 pool heap32Names base p q)
    (fresh : ∀ n ∈ heap32Names, p.heaps (frontWindow n) = .empty)
    (fits : base + 4 * gfxHeap32Size < 2 ^ 64) :
    Placed q.handsOut [.heapExternal, .heapExternalFrontWindow,
      .heapExternalDeviceMemory, .heapExternalDeviceFrontWindow,
      .heapInternal, .heapInternalFrontWindow,
      .heapInternalDeviceMemory, .heapInternalDeviceFrontWindow] base
      (base + 4 * gfxHeap32Size) := by
  have nothing : Placed q.handsOut [] base (base + 0 * gfxHeap32Size) :=
    .nil (Nat.le_add_right _ _)
  have first := laid.placed_next (k := 0) rfl (fresh _ (by decide)) (by omega) nothing
  have second := laid.placed_next (k := 1) rfl (fresh _ (by decide)) (by omega) first
  have third := laid.placed_next (k := 2) rfl (fresh _ (by decide)) (by omega) second
  exact laid.placed_next (k := 3) rfl (fresh _ (by decide)) fits third

/-- Everything `init` leaves in the range it chose is laid out, and so are its shares. -/
theorem laidOut_of_laid {p₁ q : GfxPartition} {reserved : ReservedCpuAddressRange}
    (chosen : RangeChosen platform args (create reserved) p range)
    (laid32 : Laid32 args.useExternalFrontWindowPool heap32Names range.1 p p₁)
    (laid : LaidStandard args (standardLayout args.gpuAddressSpace args.numRootDevices
      (range.1 + 4 * gfxHeap32Size) range.2) p₁ q)
    (listed : args.rootDeviceIndex < args.numRootDevices) (few : ExtendedRoom args)
    (roomy : Roomy args range) : LaidOut q range ∧ OwnShares args range q := by
  have room := roomy.room
  have fits := roomy.fits
  have layout := standardLayout_fits listed room fits
  have extended : q.handsOut .heapExtended = p.handsOut .heapExtended := by
    rw [handsOut, handsOut, laid.other _ (by decide) (by decide) (by decide),
      laid32.other _ (by decide) (by decide)]
  have fresh : ∀ n ∈ heap32Names, p.heaps (frontWindow n) = .empty := by
    have distinct : ∀ n ∈ heap32Names, frontWindow n ≠ .heapSvm ∧ frontWindow n ≠ .heapExtended ∧
      frontWindow n ≠ .heapExtendedHost := by decide
    intro n member
    obtain ⟨svm, extended, host⟩ := distinct n member
    exact chosen.other _ svm extended host
  have placed : Placed q.handsOut laidNames.tail range.1 range.2 := by
    refine laid.placed layout fits roomy.margins ((placed32 laid32 fresh (by omega)).congr ?_)
    intro n member
    have other : n ≠ .heapStandard ∧ n ≠ .heapStandard64KB ∧ n ≠ .heapStandard2MB := by
      revert n
      decide
    rw [handsOut, handsOut, laid.other n other.1 other.2.1 other.2.2]
  have above : ∀ n ∈ laidNames.tail, Disjoint (q.handsOut .heapExtended) (q.handsOut n) := by
    intro n member
    rcases chosen.extended with same | ⟨_, below, _⟩
    · have nothing : q.handsOut .heapExtended = ∅ := by
        rw [extended, handsOut, same]
        exact GfxHeap.empty_handsOut
      rw [nothing]
      exact Set.empty_disjoint _
    · rw [extended]
      exact (apart_of_stretches (placed.inside n member)
        (extended_inside chosen rfl few) below).symm
  refine ⟨⟨?_, ?_, ?_⟩, ?_⟩
  · have perm : laidNames.Perm partitionNames := by decide
    refine (perm.pairwise_iff fun apart => apart.symm).mp ?_
    exact .cons above placed.apart
  · intro n member notExtended
    refine placed.inside n ?_
    revert n
    decide
  · rw [extended]
    exact extended_inside chosen rfl few
  · intro n member
    simp only [sharedNames, List.mem_cons, List.not_mem_nil, or_false] at member
    rcases member with rfl | rfl | rfl
    · exact laid.share64KB layout fits
    · refine (laid.share2MB layout fits roomy.margins).trans ?_
      simp only [shares]
      exact Set.Ico_subset_Ico (Nat.le_refl _) (by omega)
    · rw [extended]
      exact extended_share chosen rfl few

end Layout

/-- An initialised root device: what `init` was called with, the range it chose and the
partition it made. -/
structure RootDevice where
  args : InitArgs
  range : Nat × Nat
  partition : GfxPartition

/-- The root devices of a system and the memory they share for the layouts that reserve some. -/
structure Devices where
  reserved : ReservedCpuAddressRange
  devices : List RootDevice

/-- One call of `init` for a new device. A failed one may leave a reservation behind. -/
inductive Devices.Step (platform : Platform) : Devices → OsMemory × InitArgs → Devices → Prop where
  | initialised {s : Devices} {os : OsMemory} {args : InitArgs} {p : GfxPartition}
      {range : Nat × Nat}
      (returned : (create s.reserved).init platform os args = .ok (p, true))
      (chosen : ((create s.reserved).initRange platform os args).2 = some range) :
      Step platform s (os, args)
        ⟨p.reservedCpuAddressRangeForHeapSvm, ⟨args, range, p⟩ :: s.devices⟩
  | failed {s : Devices} {os : OsMemory} {args : InitArgs} {p : GfxPartition}
      (returned : (create s.reserved).init platform os args = .ok (p, false)) :
      Step platform s (os, args) ⟨p.reservedCpuAddressRangeForHeapSvm, s.devices⟩

/-- The devices of a system that has reserved nothing yet. -/
def devicesSystem (platform : Platform) : System Devices (OsMemory × InitArgs) where
  init := fun s => s = ⟨⟨0, 0, 0, 0⟩, []⟩
  step := Devices.Step platform

/-- The calls the layout is made for: those of the devices of one system, over an operating
system that hands out user memory, with room for every heap. -/
structure Admissible (platform : Platform) (system : InitArgs) (s : Devices)
    (call : OsMemory × InitArgs) : Prop where
  user : call.1.InUserHalf
  same : SameSystem call.2 system
  listed : call.2.rootDeviceIndex < call.2.numRootDevices
  few : ExtendedRoom call.2
  roomy : ∀ range, ((create s.reserved).initRange platform call.1 call.2).2 = some range →
    Roomy call.2 range

/-- The inductive invariant of the devices of a system. -/
structure Devices.Inv (platform : Platform) (system : InitArgs) (s : Devices) : Prop where
  good : GoodReservation system.gpuAddressSpace s.reserved
  same : ∀ d ∈ s.devices, SameSystem d.args system
  settled : ∀ d ∈ s.devices, Settled platform d.args s.reserved d.range
  laid : ∀ d ∈ s.devices, LaidOut d.partition d.range ∧ OwnShares d.args d.range d.partition

section Runs

variable {platform : Platform} {system : InitArgs} {s : Devices}

theorem SameSystem.symm {a b : InitArgs} (same : SameSystem a b) : SameSystem b a :=
  ⟨same.gpuAddressSpace.symm, same.cpuAddressRangeSizeToReserve.symm, same.numRootDevices.symm,
    same.gfxTop.symm⟩

theorem SameSystem.trans {a b c : InitArgs} (first : SameSystem a b) (second : SameSystem b c) :
    SameSystem a c :=
  ⟨first.gpuAddressSpace.trans second.gpuAddressSpace,
    first.cpuAddressRangeSizeToReserve.trans second.cpuAddressRangeSizeToReserve,
    first.numRootDevices.trans second.numRootDevices, first.gfxTop.trans second.gfxTop⟩

/-- A call over a range with enough room returns true. -/
theorem init_returns {reserved : ReservedCpuAddressRange} {os : OsMemory} {args : InitArgs}
    {range : Nat × Nat} (user : os.InUserHalf)
    (good : GoodReservation args.gpuAddressSpace reserved)
    (listed : args.rootDeviceIndex < args.numRootDevices)
    (room : range.1 + 4 * gfxHeap32Size + 3 * heapGranularity2MB ≤ range.2)
    (fits : range.2 < 2 ^ 64)
    (chosen : ((create reserved).initRange platform os args).2 = some range) :
    ∃ p, (create reserved).init platform os args = .ok (p, true) := by
  unfold init
  cases first : (create reserved).initRange platform os args with
  | mk p₀ found =>
    rw [first] at chosen
    obtain rfl : found = some range := chosen
    obtain ⟨_, q, second, _, _⟩ := initHeaps_laid (p := p₀)
      (initRange_chosen user good first).aligned listed room fits
    refine ⟨q, ?_⟩
    simp only [second]
    rfl

/-- What a call that returns true did, step by step. -/
theorem init_steps {reserved : ReservedCpuAddressRange} {os : OsMemory} {args : InitArgs}
    {p : GfxPartition} {range : Nat × Nat} (user : os.InUserHalf)
    (good : GoodReservation args.gpuAddressSpace reserved)
    (listed : args.rootDeviceIndex < args.numRootDevices)
    (room : range.1 + 4 * gfxHeap32Size + 3 * heapGranularity2MB ≤ range.2)
    (fits : range.2 < 2 ^ 64)
    (chosen : ((create reserved).initRange platform os args).2 = some range)
    (returned : (create reserved).init platform os args = .ok (p, true)) :
    ∃ p₁, RangeChosen platform args (create reserved)
        ((create reserved).initRange platform os args).1 range ∧
      Laid32 args.useExternalFrontWindowPool heap32Names range.1
        ((create reserved).initRange platform os args).1 p₁ ∧
      LaidStandard args (standardLayout args.gpuAddressSpace args.numRootDevices
        (range.1 + 4 * gfxHeap32Size) range.2) p₁ p := by
  unfold init at returned
  cases first : (create reserved).initRange platform os args with
  | mk p₀ found =>
    rw [first] at chosen returned
    obtain rfl : found = some range := chosen
    have rangeChosen := initRange_chosen user good first
    obtain ⟨p₁, q, second, laid32, laid⟩ := initHeaps_laid (p := p₀) rangeChosen.aligned listed
      room fits
    simp only [second] at returned
    obtain rfl : q = p := by
      cases returned
      rfl
    exact ⟨p₁, rangeChosen, laid32, laid⟩

/-- A call that returns true lays out its partition. -/
theorem init_laidOut {reserved : ReservedCpuAddressRange} {os : OsMemory} {args : InitArgs}
    {p : GfxPartition} {range : Nat × Nat} (user : os.InUserHalf)
    (good : GoodReservation args.gpuAddressSpace reserved)
    (listed : args.rootDeviceIndex < args.numRootDevices) (few : ExtendedRoom args)
    (roomy : Roomy args range)
    (chosen : ((create reserved).initRange platform os args).2 = some range)
    (returned : (create reserved).init platform os args = .ok (p, true)) :
    (LaidOut p range ∧ OwnShares args range p) ∧
      p.reservedCpuAddressRangeForHeapSvm =
        ((create reserved).initRange platform os args).1.reservedCpuAddressRangeForHeapSvm := by
  obtain ⟨p₁, rangeChosen, laid32, laid⟩ := init_steps user good listed roomy.room roomy.fits
    chosen returned
  refine ⟨laidOut_of_laid rangeChosen laid32 laid listed few roomy, ?_⟩
  rw [laid.reserved, laid32.reserved]

theorem devices_invariant :
    Invariant ((devicesSystem platform).restrict (Admissible platform system))
      (Devices.Inv platform system) where
  initial := by
    rintro s rfl
    exact ⟨⟨Nat.dvd_zero _, fun _ nonzero => absurd rfl nonzero⟩, by simp, by simp, by simp⟩
  preserved := by
    rintro s call s' _ inv ⟨admissible, step⟩
    cases step with
    | @initialised os args p range returned chosen =>
      have good : GoodReservation args.gpuAddressSpace s.reserved :=
        admissible.same.gpuAddressSpace ▸ inv.good
      obtain ⟨laid, reserved⟩ := init_laidOut admissible.user good admissible.listed
        admissible.few (admissible.roomy range chosen) chosen returned
      have settled : Settled platform args p.reservedCpuAddressRangeForHeapSvm range := by
        rw [reserved]
        exact initRange_settled admissible.user (Prod.ext rfl chosen)
      refine ⟨?_, List.forall_mem_cons.mpr ⟨admissible.same, inv.same⟩,
        List.forall_mem_cons.mpr ⟨settled, fun d member => ?_⟩,
        List.forall_mem_cons.mpr ⟨laid, inv.laid⟩⟩
      · rw [reserved, ← admissible.same.gpuAddressSpace]
        exact initRange_good admissible.user good
      · -- the reservation was there already, so the earlier devices' ranges stay settled
        have kept := (inv.settled d member os args (create s.reserved)
          (admissible.same.trans (inv.same d member).symm) rfl).2
        rw [reserved, kept]
        exact inv.settled d member
    | @failed os args p returned =>
      have none : (create s.reserved).initRange platform os args = (p, none) := by
        unfold init at returned
        cases first : (create s.reserved).initRange platform os args with
        | mk p₀ found =>
          rw [first] at returned
          cases found with
          | none =>
            cases returned
            rfl
          | some range =>
            obtain ⟨q, _, returned⟩ := bind_eq_ok.mp returned
            cases returned
      have good : GoodReservation args.gpuAddressSpace s.reserved :=
        admissible.same.gpuAddressSpace ▸ inv.good
      have after : GoodReservation args.gpuAddressSpace ((create s.reserved).initRange platform os
          args).1.reservedCpuAddressRangeForHeapSvm := initRange_good admissible.user good
      rw [none, admissible.same.gpuAddressSpace] at after
      -- no device was initialised before, for it would have settled the range
      have noDevice : ∀ d ∈ s.devices, False := by
        intro d member
        have found := (inv.settled d member os args (create s.reserved)
          (admissible.same.trans (inv.same d member).symm) rfl).1
        rw [none] at found
        cases found
      exact ⟨after, inv.same, fun d member => (noDevice d member).elim, inv.laid⟩

/-- The address-space layout of a system: in every state of its initialisation each device's
heaps lie apart and in its range, and different devices have different shares of the heaps that
are split among them. -/
theorem reachable_laidOut
    (reachable : Reachable ((devicesSystem platform).restrict (Admissible platform system)) s) :
    (∀ d ∈ s.devices, LaidOut d.partition d.range) ∧
      ∀ d ∈ s.devices, ∀ e ∈ s.devices, d.args.rootDeviceIndex ≠ e.args.rootDeviceIndex →
        ∀ n ∈ sharedNames, Disjoint (d.partition.handsOut n) (e.partition.handsOut n) := by
  have inv := devices_invariant.holds reachable
  refine ⟨fun d member => (inv.laid d member).1, ?_⟩
  intro d first e second different n shared
  have same : SameSystem d.args e.args := (inv.same d first).trans (inv.same e second).symm
  -- both devices chose the range that a further one would get
  have ranges : d.range = e.range := by
    have one := (inv.settled d first ⟨fun _ _ _ => 0, fun _ => []⟩ d.args (create s.reserved)
      ⟨rfl, rfl, rfl, rfl⟩ rfl).1
    have two := (inv.settled e second ⟨fun _ _ _ => 0, fun _ => []⟩ d.args (create s.reserved)
      same rfl).1
    exact Option.some.inj (one.symm.trans two)
  have sameShares : shares d.args d.range n = shares e.args e.range n := by
    rw [ranges]
    unfold shares
    rw [same.gpuAddressSpace, same.numRootDevices]
  have own := (inv.laid d first).2 n shared
  rw [sameShares] at own
  exact apart_of_shares own ((inv.laid e second).2 n shared) different

end Runs

/-- A 48-bit processor without the instructions for 57-bit addresses. -/
def processor48 : Platform := ⟨false, 48, false⟩

/-- An operating system that reserves nothing. -/
def nothingReserved : OsMemory := ⟨fun _ _ _ => 0, fun _ => []⟩

/-- The call for one of two 48-bit GPUs. -/
def fullRange48 (rootDeviceIndex : Nat) : InitArgs :=
  ⟨maxNBitValue 48, 0, rootDeviceIndex, 2, false, 0, maxNBitValue 48 + 1⟩

theorem reachable_laidOut_twoDevices :
    ∃ s : Devices, s.devices.map (fun d => d.args.rootDeviceIndex) = [1, 0] ∧
      (∀ d ∈ s.devices, LaidOut d.partition d.range) ∧
      ∀ d ∈ s.devices, ∀ e ∈ s.devices, d.args.rootDeviceIndex ≠ e.args.rootDeviceIndex →
        ∀ n ∈ sharedNames, Disjoint (d.partition.handsOut n) (e.partition.handsOut n) := by
  have user : nothingReserved.InUserHalf := fun _ _ _ => .inl rfl
  have chosen (reserved : ReservedCpuAddressRange) (index : Nat) :
      ((create reserved).initRange processor48 nothingReserved (fullRange48 index)).2 =
        some (2 ^ 47, 2 ^ 48) := rfl
  have margins : 2 * heapGranularity2MB <
      (standardLayout (maxNBitValue 48) 2 (2 ^ 47 + 4 * gfxHeap32Size) (2 ^ 48)).share2MB := by
    decide
  have roomy (index : Nat) : Roomy (fullRange48 index) (2 ^ 47, 2 ^ 48) :=
    ⟨by decide, by decide, .inr margins⟩
  have not57 : maxNBitValue 48 ≠ maxNBitValue 57 := by decide
  have admissible (s : Devices) (index : Nat) (listed : index < 2) :
      Admissible processor48 (fullRange48 0) s (nothingReserved, fullRange48 index) :=
    ⟨user, ⟨rfl, rfl, rfl, rfl⟩, listed, fun gpu57 => absurd gpu57 not57, fun range found =>
      Option.some.inj ((chosen s.reserved index).symm.trans found) ▸ roomy index⟩
  have start : Reachable ((devicesSystem processor48).restrict
      (Admissible processor48 (fullRange48 0))) ⟨⟨0, 0, 0, 0⟩, []⟩ := .start rfl
  have first := (devices_invariant.holds start).good
  obtain ⟨p, zero⟩ : ∃ p, (create ⟨0, 0, 0, 0⟩).init processor48 nothingReserved
      (fullRange48 0) = .ok (p, true) :=
    init_returns user first (by decide) (roomy 0).room (roomy 0).fits (chosen _ 0)
  have one := start.next ⟨admissible _ 0 (by decide), .initialised zero (chosen _ 0)⟩
  have second := (devices_invariant.holds one).good
  obtain ⟨q, next⟩ : ∃ q, (create p.reservedCpuAddressRangeForHeapSvm).init processor48
      nothingReserved (fullRange48 1) = .ok (q, true) :=
    init_returns user second (by decide) (roomy 1).room (roomy 1).fits (chosen _ 1)
  have two := one.next ⟨admissible _ 1 (by decide), .initialised next (chosen _ 1)⟩
  exact ⟨_, rfl, reachable_laidOut two⟩

/-- The heaps of a returning `init`, read from the allocators it made. -/
private theorem heaps_of_init (platform : Platform) (os : OsMemory) (args : InitArgs)
    (first second : HeapIndex) (one two : HeapAllocator)
    (computed : ((create ⟨0, 0, 0, 0⟩).init platform os args).map (fun r =>
      ((r.1.heaps first).alloc, (r.1.heaps second).alloc, r.2)) =
        .ok (some one, some two, true)) :
    ∃ p, (create ⟨0, 0, 0, 0⟩).init platform os args = .ok (p, true) ∧
      p.handsOut first = (GfxHeap.mk 0 0 (some one)).handsOut ∧
      p.handsOut second = (GfxHeap.mk 0 0 (some two)).handsOut := by
  cases result : (create ⟨0, 0, 0, 0⟩).init platform os args with
  | error abort =>
    rw [result] at computed
    cases computed
  | ok r =>
    obtain ⟨p, returned⟩ := r
    rw [result] at computed
    simp only [Except.map, Except.ok.injEq, Prod.mk.injEq] at computed
    obtain ⟨allocOne, allocTwo, rfl⟩ := computed
    refine ⟨p, rfl, ?_, ?_⟩
    · simp only [handsOut, GfxHeap.handsOut, allocOne]
    · simp only [handsOut, GfxHeap.handsOut, allocTwo]

/-- A 57-bit processor whose operating system reserves memory above the user half. -/
def processor57 : Platform := ⟨false, 57, true⟩

def highReserved : OsMemory := ⟨fun _ _ _ => 2 ^ 56, fun _ => []⟩

/-- The calls of the three limits: two megabytes for each standard heap, the 257th device of a
57-bit GPU, and a reservation where the extended range begins. -/
def crowded : InitArgs :=
  ⟨maxNBitValue 48, 0, 0, 1, false, 0, 2 ^ 47 + 4 * gfxHeap32Size + 3 * heapGranularity2MB⟩

def lastDevice : InitArgs := ⟨maxNBitValue 57, 0, 256, 257, false, 0, 0⟩

def highDevice : InitArgs := ⟨maxNBitValue 57, 0, 0, 1, false, 0, 0⟩

/-- Three limits of the layout. A share of `heapStandard2MB` no larger than its margins is moved
past `gfxTop`; the extended range has shares for 256 devices only; and a reservation above the
user half collides with the extended range. -/
theorem crowded_last_and_high_device :
    (((create ⟨0, 0, 0, 0⟩).initRange processor48 nothingReserved crowded).2 =
        some (2 ^ 47, crowded.gfxTop) ∧
      ∃ p, (create ⟨0, 0, 0, 0⟩).init processor48 nothingReserved crowded = .ok (p, true) ∧
        ¬ LaidOut p (2 ^ 47, crowded.gfxTop)) ∧
    (((create ⟨0, 0, 0, 0⟩).initRange processor48 nothingReserved lastDevice).2 =
        some (2 ^ 47, 2 ^ 48) ∧
      ∃ p, (create ⟨0, 0, 0, 0⟩).init processor48 nothingReserved lastDevice = .ok (p, true) ∧
        ¬ LaidOut p (2 ^ 47, 2 ^ 48)) ∧
    (((create ⟨0, 0, 0, 0⟩).initRange processor57 highReserved highDevice).2 =
        some (2 ^ 56, 2 ^ 56 + 2 ^ 40) ∧
      ∃ p, (create ⟨0, 0, 0, 0⟩).init processor57 highReserved highDevice = .ok (p, true) ∧
        ¬ LaidOut p (2 ^ 56, 2 ^ 56 + 2 ^ 40)) := by
  refine ⟨⟨by decide +kernel, ?_⟩, ⟨by decide +kernel, ?_⟩, ⟨by decide +kernel, ?_⟩⟩
  · obtain ⟨p, returned, _, place⟩ := heaps_of_init processor48 nothingReserved crowded
      .heapStandard .heapStandard2MB (.create 140754668290048 1966080 4096 4194304)
      (.create 140754674515968 2097152 2097152 4194304) (by decide +kernel)
    rw [GfxHeap.create_handsOut (by decide)] at place
    refine ⟨p, returned, fun laid => ?_⟩
    have within := laid.inside .heapStandard2MB (by decide) (by decide)
    rw [place] at within
    exact absurd (within (Set.mem_Ico.mpr ⟨Nat.le_refl _, by decide⟩)).2 (by decide)
  · obtain ⟨p, returned, _, place⟩ := heaps_of_init processor48 nothingReserved lastDevice
      .heapStandard .heapExtended (.create 140754668290048 93813536063488 4096 4194304)
      (.create 144115188075921408 281474976579584 4096 4194304) (by decide +kernel)
    rw [GfxHeap.create_handsOut (by decide)] at place
    refine ⟨p, returned, fun laid => ?_⟩
    have within := laid.extended
    rw [place] at within
    exact absurd (within (Set.mem_Ico.mpr ⟨Nat.le_refl _, by decide⟩)).2 (by decide)
  · obtain ⟨p, returned, inner, place⟩ := heaps_of_init processor57 highReserved highDevice
      .heapStandard .heapExtended (.create 72057611217862656 721554374656 4096 4194304)
      (.create 72057594037993472 281474976579584 4096 4194304) (by decide +kernel)
    rw [GfxHeap.create_handsOut (by decide)] at inner place
    refine ⟨p, returned, fun laid => ?_⟩
    have apart := laid.disjoint (m := .heapStandard) (n := .heapExtended) (by decide) (by decide)
      (by decide)
    rw [inner, place] at apart
    exact Set.disjoint_left.mp apart (Set.mem_Ico.mpr ⟨Nat.le_refl 72057611217862656, by decide⟩)
      (Set.mem_Ico.mpr ⟨by decide, by decide⟩)

end GfxPartition

end ComputeRuntime
