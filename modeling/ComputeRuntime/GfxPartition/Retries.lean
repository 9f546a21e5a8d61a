import ComputeRuntime.GfxPartition.Devices

/-! The retry loop of an allocation from a heap of a partition. A heap may begin at any address,
in the limited layout at address 0: when does the loop end, and what does a failure leave? -/
namespace ComputeRuntime

open Tiling Transition

namespace HeapAllocator

/-- The loop defragments and goes on with one fallback alignment for ever: there is room for the
request neither at the wanted alignment nor at the fallback, the gap has its bytes, and the
fallback is large as well. -/
def Hangs (h : HeapAllocator) (sizeToAllocate alignment : Nat) : Prop :=
  2 * MemoryConstants.megaByte < alignment ∧ ¬ h.Fits sizeToAllocate alignment ∧
    ¬ h.defragment.Fits sizeToAllocate alignment ∧
    sizeToAllocate ≤ h.defragment.pRightBound - h.defragment.pLeftBound ∧
    2 * MemoryConstants.megaByte < h.defragment.fallbackAlignment sizeToAllocate ∧
    ¬ h.defragment.Fits sizeToAllocate (h.defragment.fallbackAlignment sizeToAllocate)

instance (h : HeapAllocator) (sizeToAllocate alignment : Nat) :
    Decidable (h.Hangs sizeToAllocate alignment) := by
  unfold Hangs
  infer_instance

section Loop

variable {h : HeapAllocator} {sizeToAllocate alignment : Nat}

/-- A round for which there is no room, after the defragmentation. -/
theorem allocateLoop_full (fuel : Nat) (wf : h.Wf) (pow2 : IsPow2 alignment)
    (fits : h.top + sizeToAllocate + alignment ≤ 2 ^ 64)
    (noZero : ¬ h.ServesZero sizeToAllocate alignment) (full : ¬ h.Fits sizeToAllocate alignment) :
    allocateLoop sizeToAllocate (fuel + 1) h alignment true =
      if 2 * MemoryConstants.megaByte < alignment ∧
          sizeToAllocate ≤ h.pRightBound - h.pLeftBound then
        allocateLoop sizeToAllocate fuel h (h.fallbackAlignment sizeToAllocate) true
      else .ok ⟨h, 0, sizeToAllocate⟩ := by
  rcases tryAllocate_spec wf pow2 fits noZero with ⟨-, failed⟩ | ⟨room, -⟩
  · rw [allocateLoop]
    simp only [failed, ne_eq, not_true_eq_false, if_false, Bool.true_eq_false, wf.gap_eq]
  · exact absurd room full

/-- A round for which there is room ends the loop. -/
theorem allocateLoop_room (fuel : Nat) (defragmented : Bool) (wf : h.Wf) (pow2 : IsPow2 alignment)
    (fits : h.top + sizeToAllocate + alignment ≤ 2 ^ 64)
    (noZero : ¬ h.ServesZero sizeToAllocate alignment) (room : h.Fits sizeToAllocate alignment) :
    ∃ r, allocateLoop sizeToAllocate (fuel + 1) h alignment defragmented = .ok r := by
  rcases tryAllocate_spec wf pow2 fits noZero with ⟨full, -⟩ | ⟨-, served⟩
  · exact absurd room full
  · rw [allocateLoop]
    simp only [ne_eq, served.nonzero, not_false_eq_true, if_true]
    exact ⟨_, rfl⟩

/-- The first round, when there is no room for the request. -/
theorem allocateLoop_first (fuel : Nat) (wf : h.Wf) (pow2 : IsPow2 alignment)
    (fits : h.top + sizeToAllocate + alignment ≤ 2 ^ 64)
    (noZero : ¬ h.ServesZero sizeToAllocate alignment) (full : ¬ h.Fits sizeToAllocate alignment) :
    allocateLoop sizeToAllocate (fuel + 1) h alignment false =
      allocateLoop sizeToAllocate fuel h.defragment alignment true := by
  rcases tryAllocate_spec wf pow2 fits noZero with ⟨-, failed⟩ | ⟨room, -⟩
  · rw [allocateLoop]
    simp only [failed, ne_eq, not_true_eq_false, if_false, if_true]
  · exact absurd room full

/-- With a large fallback alignment that does not help, the loop goes round and round. -/
theorem allocateLoop_forever (wf : h.Wf) (pow2 : IsPow2 (h.fallbackAlignment sizeToAllocate))
    (fits : h.top + sizeToAllocate + h.fallbackAlignment sizeToAllocate ≤ 2 ^ 64)
    (noZero : ¬ h.ServesZero sizeToAllocate (h.fallbackAlignment sizeToAllocate))
    (full : ¬ h.Fits sizeToAllocate (h.fallbackAlignment sizeToAllocate))
    (large : 2 * MemoryConstants.megaByte < h.fallbackAlignment sizeToAllocate)
    (bytes : sizeToAllocate ≤ h.pRightBound - h.pLeftBound) (fuel : Nat) :
    allocateLoop sizeToAllocate fuel h (h.fallbackAlignment sizeToAllocate) true =
      .error .outOfFuel := by
  induction fuel with
  | zero => rfl
  | succ fuel ih =>
    rw [allocateLoop_full fuel wf pow2 fits noZero full, if_pos ⟨large, bytes⟩]
    exact ih

/-- A loop that gives no result has not made all its rounds. -/
theorem allocateLoop_outOfFuel (fuel : Nat) {h : HeapAllocator} {defragmented : Bool}
    (never : ∀ r, allocateLoop sizeToAllocate fuel h alignment defragmented ≠ .ok r) :
    allocateLoop sizeToAllocate fuel h alignment defragmented = .error .outOfFuel := by
  induction fuel generalizing h alignment defragmented with
  | zero => rfl
  | succ fuel ih =>
    rw [allocateLoop] at never ⊢
    split at never
    next => exact absurd rfl (never _)
    next failed =>
      rw [if_neg failed]
      split at never
      next first =>
        rw [if_pos first]
        exact ih never
      next second =>
        rw [if_neg second]
        split at never
        next retry =>
          rw [if_pos retry]
          exact ih never
        next => exact absurd rfl (never _)

theorem allocate_outOfFuel {fuel request : Nat}
    (multiple : (if alignment < h.allocationAlignment then h.allocationAlignment else alignment) %
      h.allocationAlignment = 0)
    (never : ∀ r, h.allocateWithCustomAlignment fuel request alignment ≠ .ok r) :
    h.allocateWithCustomAlignment fuel request alignment = .error .outOfFuel := by
  simp only [allocateWithCustomAlignment, multiple, ne_eq, not_true_eq_false, if_false] at never ⊢
  split at never
  next => exact absurd rfl (never _)
  next enough =>
    rw [if_neg enough]
    exact allocateLoop_outOfFuel fuel never

/-- The loop ends, after at most three rounds, unless it hangs. -/
theorem allocateLoop_returns_iff (wf : h.Wf) (pow2 : IsPow2 alignment)
    (fits : h.top + sizeToAllocate + alignment ≤ 2 ^ 64)
    (avoids : h.AvoidsZero sizeToAllocate alignment) :
    (∃ fuel r, allocateLoop sizeToAllocate fuel h alignment false = .ok r) ↔
      ¬ h.Hangs sizeToAllocate alignment := by
  by_cases room : h.Fits sizeToAllocate alignment
  · -- the first round serves the request
    refine iff_of_true ⟨1, allocateLoop_room 0 false wf pow2 fits avoids.1 room⟩ ?_
    exact fun hangs => hangs.2.1 room
  have moved := defragment_takes wf
  have top := moved.config.top
  have fits₁ : h.defragment.top + sizeToAllocate + alignment ≤ 2 ^ 64 := by omega
  have noZero := avoids.2 room
  by_cases second : h.defragment.Fits sizeToAllocate alignment
  · obtain ⟨r, served⟩ := allocateLoop_room 0 true moved.wf pow2 fits₁ noZero second
    refine iff_of_true ⟨2, r, ?_⟩ fun hangs => hangs.2.2.1 second
    exact (allocateLoop_first 1 wf pow2 fits avoids.1 room).trans served
  by_cases retry : 2 * MemoryConstants.megaByte < alignment ∧
      sizeToAllocate ≤ h.defragment.pRightBound - h.defragment.pLeftBound
  · -- the third round and the ones after it have the fallback alignment
    have full := (not_or.mp second).1
    obtain ⟨pow2', le⟩ := fallbackAlignment_spec moved.wf pow2 retry.1
      (bound_of_not_fitsGap moved.wf pow2 fits₁ full) retry.2
    have fits₂ : h.defragment.top + sizeToAllocate +
        h.defragment.fallbackAlignment sizeToAllocate ≤ 2 ^ 64 := by omega
    have noZero' := not_servesZero_of_full moved.wf pow2 pow2' fits₁ fits₂ full retry.2
    have third (fuel : Nat) : allocateLoop sizeToAllocate (fuel + 2) h alignment false =
        allocateLoop sizeToAllocate fuel h.defragment
          (h.defragment.fallbackAlignment sizeToAllocate) true := by
      rw [allocateLoop_first (fuel + 1) wf pow2 fits avoids.1 room,
        allocateLoop_full fuel moved.wf pow2 fits₁ noZero second, if_pos retry]
    by_cases helps :
        h.defragment.Fits sizeToAllocate (h.defragment.fallbackAlignment sizeToAllocate)
    · obtain ⟨r, served⟩ := allocateLoop_room 0 true moved.wf pow2' fits₂ noZero' helps
      exact iff_of_true ⟨3, r, (third 1).trans served⟩ fun hangs => hangs.2.2.2.2.2 helps
    by_cases large :
        2 * MemoryConstants.megaByte < h.defragment.fallbackAlignment sizeToAllocate
    · refine iff_of_false ?_ (not_not.mpr ⟨retry.1, room, second, retry.2, large, helps⟩)
      rintro ⟨fuel, r, returned⟩
      have forever := allocateLoop_forever moved.wf pow2' fits₂ noZero' helps large retry.2
      match fuel with
      | 0 => cases returned
      | 1 =>
        rw [allocateLoop_first 0 wf pow2 fits avoids.1 room] at returned
        cases returned
      | fuel + 2 =>
        rw [third, forever] at returned
        cases returned
    · have ended := allocateLoop_full 0 moved.wf pow2' fits₂ noZero' helps
      rw [if_neg fun both => large both.1] at ended
      exact iff_of_true ⟨3, _, (third 1).trans ended⟩ fun hangs => large hangs.2.2.2.2.1
  · have ended := allocateLoop_full 0 moved.wf pow2 fits₁ noZero second
    rw [if_neg retry] at ended
    refine iff_of_true ⟨2, _, (allocateLoop_first 1 wf pow2 fits avoids.1 room).trans ended⟩ ?_
    exact fun hangs => retry ⟨hangs.1, hangs.2.2.2.1⟩

end Loop

/-- The bytes that can still be handed out. -/
def freeBytes (h : HeapAllocator) : Set Nat := {a | 0 < total (hits a) h.freeSpans}

/-- The free space is the same, up to coalescing. -/
structure Coalesced (h h' : HeapAllocator) : Prop where
  rearranged : h' = h ∨ h' = h.defragment
  availableSize : h'.availableSize = h.availableSize
  freeBytes : h'.freeBytes = h.freeBytes

theorem Coalesced.refl (h : HeapAllocator) : Coalesced h h := ⟨.inl rfl, rfl, rfl⟩

theorem Coalesced.defragment {h : HeapAllocator} (wf : h.Wf) (balanced : h.Balanced) :
    Coalesced h h.defragment := by
  have moved := defragment_takes wf
  have space : ∀ f : Nat → Nat → Nat, Additive f →
      total f h.freeSpans = total f h.defragment.freeSpans := by
    intro f additive
    rw [moved.space f additive]
    simp [noBlock, additive_empty additive]
  refine ⟨.inr rfl, ?_, ?_⟩
  · rw [moved.balanced balanced, balanced, space _ length_additive]
  · ext a
    simp only [HeapAllocator.freeBytes, Set.mem_ofPred_eq, space _ (hits_additive a)]

/-- No round of the call is served at address 0, which the loop takes for a failure. -/
def AvoidsNull (w : World) : Call → Prop
  | .allocateWithCustomAlignment size alignment =>
    0 < w.heap.baseAddress ∨
      w.heap.availableSize < alignUp size w.heap.allocationAlignment ∨
      w.heap.AvoidsZero (alignUp size w.heap.allocationAlignment)
        (max alignment w.heap.allocationAlignment)
  | .free _ => True

/-- The calls that stay inside the address space and are not served at address 0. -/
def Sound (w : World) (call : Call) : Prop := NoWrap w call ∧ AvoidsNull w call

/-- The call goes on for ever. -/
def Endless (w : World) : Call → Prop
  | .allocateWithCustomAlignment size alignment =>
    alignUp size w.heap.allocationAlignment ≤ w.heap.availableSize ∧
      w.heap.Hangs (alignUp size w.heap.allocationAlignment)
        (max alignment w.heap.allocationAlignment)
  | .free _ => False

/-- Some number of rounds is enough for the call. -/
def Returns (w : World) : Call → Prop
  | .allocateWithCustomAlignment size alignment =>
    ∃ fuel r, w.heap.allocateWithCustomAlignment fuel size alignment = .ok r
  | .free _ => True

section Runs

variable {address size allocationAlignment threshold : Nat} {w : World}

section Call

variable {request alignment : Nat} (tracked : w.Tracked address size allocationAlignment)
  (pow2 : IsPow2 allocationAlignment) (asked : alignment = 0 ∨ IsPow2 alignment)
  (fits : address + 2 * size + allocationAlignment ≤ 2 ^ 64)
  (sound : Sound w (.allocateWithCustomAlignment request alignment))

include tracked pow2 asked fits sound

omit pow2 asked fits in
theorem World.Tracked.noWrap : address + 2 * size + alignment ≤ 2 ^ 64 := by
  have noWrap := sound.1
  simpa only [NoWrap, tracked.baseAddress, tracked.heapSize] using noWrap

theorem World.Tracked.avoids :
    w.heap.availableSize < alignUp request allocationAlignment ∨
      w.heap.AvoidsZero (alignUp request allocationAlignment)
        (max alignment allocationAlignment) := by
  have noWrap := tracked.noWrap sound
  rcases sound.2 with positive | avoids
  · rw [tracked.baseAddress] at positive
    exact tracked.avoidsZero pow2 asked fits noWrap positive
  · rwa [tracked.alignment] at avoids

/-- A call returns unless it goes on for ever. -/
theorem World.Tracked.returns_iff :
    Returns w (.allocateWithCustomAlignment request alignment) ↔
      ¬ Endless w (.allocateWithCustomAlignment request alignment) := by
  have noWrap := tracked.noWrap sound
  have avoids := tracked.avoids pow2 asked fits sound
  have wanted : (if alignment < allocationAlignment then allocationAlignment else alignment) =
      max alignment allocationAlignment := by
    split <;> omega
  have multiple : max alignment allocationAlignment % allocationAlignment = 0 := by
    refine Nat.mod_eq_zero_of_dvd ?_
    rcases asked with rfl | asked
    · rw [Nat.zero_max]
    · exact pow2.dvd (wanted_pow2 pow2 (.inr asked)) (Nat.le_max_right _ _)
  simp only [Returns, Endless, allocateWithCustomAlignment, tracked.alignment, wanted, multiple,
    ne_eq, not_true_eq_false, if_false]
  by_cases enough : w.heap.availableSize < alignUp request allocationAlignment
  · simp only [if_pos enough]
    exact iff_of_true ⟨0, _, rfl⟩ fun endless => Nat.not_lt.mpr endless.1 enough
  · simp only [if_neg enough]
    have available := tracked.available_le
    have room : w.heap.top + alignUp request allocationAlignment +
        max alignment allocationAlignment ≤ 2 ^ 64 := by
      rw [tracked.top]
      omega
    rw [allocateLoop_returns_iff tracked.wf (wanted_pow2 pow2 asked) room
      (avoids.resolve_left enough)]
    exact not_congr ⟨fun hangs => ⟨Nat.not_lt.mp enough, hangs⟩, And.right⟩

end Call

theorem anySystem_invariant (pow2 : IsPow2 allocationAlignment)
    (fits : address + 2 * size + allocationAlignment ≤ 2 ^ 64) :
    Invariant ((anySystem address size allocationAlignment threshold).restrict Sound)
      (World.Tracked address size allocationAlignment) where
  initial := by
    rintro w rfl
    have := pow2.pos
    exact .create (by omega)
  preserved := by
    rintro w call w' _ tracked ⟨sound, step⟩
    cases step with
    | allocate fuel asked returned =>
      exact tracked.allocate pow2 asked fits (tracked.noWrap sound)
        (tracked.avoids pow2 asked fits sound) returned
    | free held => exact tracked.free held
    | freeNull => exact tracked

/-- In every state a run reaches, an allocation returns unless the loop goes on for ever with a
large fallback alignment that does not fit. -/
theorem reachable_returns_iff (pow2 : IsPow2 allocationAlignment)
    (fits : address + 2 * size + allocationAlignment ≤ 2 ^ 64)
    (reachable : Reachable ((anySystem address size allocationAlignment threshold).restrict Sound)
      w) {request alignment : Nat} (asked : alignment = 0 ∨ IsPow2 alignment)
    (sound : Sound w (.allocateWithCustomAlignment request alignment)) :
    Returns w (.allocateWithCustomAlignment request alignment) ↔
      ¬ Endless w (.allocateWithCustomAlignment request alignment) :=
  ((anySystem_invariant pow2 fits).holds reachable).returns_iff pow2 asked fits sound

/-- In every state a run reaches, an allocation that returns 0 has at most coalesced the free
space. -/
theorem reachable_failure_coalesces (pow2 : IsPow2 allocationAlignment)
    (fits : address + 2 * size + allocationAlignment ≤ 2 ^ 64)
    (reachable : Reachable ((anySystem address size allocationAlignment threshold).restrict Sound)
      w) {request alignment fuel : Nat} {r : AllocateResult}
    (asked : alignment = 0 ∨ IsPow2 alignment)
    (sound : Sound w (.allocateWithCustomAlignment request alignment))
    (returned : w.heap.allocateWithCustomAlignment fuel request alignment = .ok r)
    (failed : r.ptr = 0) : Coalesced w.heap r.heap := by
  have tracked := (anySystem_invariant pow2 fits).holds reachable
  rcases tracked.allocate_cases pow2 asked fits (tracked.noWrap sound)
    (tracked.avoids pow2 asked fits sound) returned with ⟨-, same | moved⟩ | ⟨_, _, served⟩
  · rw [same]
    exact .refl _
  · rw [moved]
    exact .defragment tracked.wf tracked.balanced
  · exact absurd failed served.nonzero

end Runs

private theorem smallRange_sound {request alignment : Nat}
    (low : alignment ≤ 2 * MemoryConstants.megaByte) :
    Sound ⟨smallRange, []⟩ (.allocateWithCustomAlignment request alignment) := by
  refine ⟨?_, .inl (by decide)⟩
  simp only [NoWrap, smallRange, create]
  exact Nat.le_trans (Nat.add_le_add_left low _) (by decide)

private theorem smallRange_reachable :
    Reachable ((anySystem 0x1000 0x100000 0x1000 0x4000).restrict Sound) ⟨smallRange, []⟩ :=
  .start rfl

/-- All of the first four gigabytes but 64 KB at both ends. -/
def wideRange : HeapAllocator := create 0x10000 0xfffe0000 0x1000 defaultThreshold

/-- After a page was handed out the next page is found; a request for most of the wide range with a
large alignment goes on for ever. -/
theorem reachable_returns_iff_page :
    Returns ⟨smallRangeUsed, [⟨0x100000, 0x1000⟩]⟩ (.allocateWithCustomAlignment 0x1000 0) ∧
      ¬ Returns ⟨wideRange, []⟩ (.allocateWithCustomAlignment 0xffbff000 0x400000) := by
  constructor
  · have used : Reachable ((anySystem 0x1000 0x100000 0x1000 0x4000).restrict Sound)
        ⟨smallRangeUsed, [⟨0x100000, 0x1000⟩]⟩ := by
      apply smallRange_reachable.next (a := .allocateWithCustomAlignment 0x1000 0)
      exact ⟨smallRange_sound (by decide), .allocate 1 (.inl rfl)
        (show _ = Except.ok ⟨smallRangeUsed, 0x100000, 0x1000⟩ by decide)⟩
    have sound : Sound ⟨smallRangeUsed, [⟨0x100000, 0x1000⟩]⟩
        (.allocateWithCustomAlignment 0x1000 0) :=
      ⟨by simp only [NoWrap]; decide, .inl (by decide)⟩
    refine (reachable_returns_iff ⟨12, by decide, rfl⟩ (by decide) used (.inl rfl) sound).mpr ?_
    simp only [Endless]
    decide
  · have start : Reachable ((anySystem 0x10000 0xfffe0000 0x1000 defaultThreshold).restrict Sound)
        ⟨wideRange, []⟩ := .start rfl
    have sound : Sound ⟨wideRange, []⟩ (.allocateWithCustomAlignment 0xffbff000 0x400000) :=
      ⟨by simp only [NoWrap]; decide, .inl (by decide)⟩
    have endless : Endless ⟨wideRange, []⟩ (.allocateWithCustomAlignment 0xffbff000 0x400000) := by
      simp only [Endless]
      decide +kernel
    intro returns
    exact (reachable_returns_iff ⟨12, by decide, rfl⟩ (by decide) start
      (.inr ⟨22, by decide, rfl⟩) sound).mp returns endless

/-- All of the range, at an alignment it does not have. -/
theorem reachable_failure_coalesces_all : Coalesced smallRange smallRange := by
  have returned : smallRange.allocateWithCustomAlignment 2 0x100000 0x4000 =
      .ok ⟨smallRange, 0, 0x100000⟩ := by decide
  exact reachable_failure_coalesces ⟨12, by decide, rfl⟩ (by decide) smallRange_reachable
    (.inr ⟨14, by decide, rfl⟩) (smallRange_sound (by decide)) returned rfl

end HeapAllocator

namespace GfxPartition

/-- The allocator of a heap of a new partition. -/
private theorem alloc_of_init (platform : Platform) (os : OsMemory) (args : InitArgs)
    (heapIndex : HeapIndex) (alloc : HeapAllocator)
    (computed : ((create ⟨0, 0, 0, 0⟩).init platform os args).map
      (fun r => ((r.1.heaps heapIndex).alloc, r.2)) = .ok (some alloc, true)) :
    ∃ p, (create ⟨0, 0, 0, 0⟩).init platform os args = .ok (p, true) ∧
      (p.heaps heapIndex).alloc = some alloc := by
  cases result : (create ⟨0, 0, 0, 0⟩).init platform os args with
  | error abort =>
    rw [result] at computed
    cases computed
  | ok r =>
    obtain ⟨p, returned⟩ := r
    rw [result] at computed
    simp only [Except.map, Except.ok.injEq, Prod.mk.injEq] at computed
    obtain ⟨found, rfl⟩ := computed
    exact ⟨p, rfl, found⟩

/-- `heapExternal` of a 48-bit GPU. -/
def external48 : HeapAllocator :=
  .create (2 ^ 47 + 3 * gfxHeap32Size + heapGranularity) (gfxHeap32Size - 2 * heapGranularity)
    MemoryConstants.pageSize HeapAllocator.defaultThreshold

/-- A request of four gigabytes less a page more than the alignment of four megabytes. The gap
begins 64 KB above a boundary and is 124 KB less than the alignment larger than the request, so
the fallback alignment is the wanted one again. -/
theorem external48_never_returns :
    (∃ p, (create ⟨0, 0, 0, 0⟩).init processor48 nothingReserved (fullRange48 0) = .ok (p, true) ∧
      (p.heaps .heapExternal).alloc = some external48) ∧
    IsPow2 (4 * MemoryConstants.megaByte) ∧
    ∀ fuel, external48.allocateWithCustomAlignment fuel
      (gfxHeap32Size - 4 * MemoryConstants.megaByte - MemoryConstants.pageSize)
      (4 * MemoryConstants.megaByte) = .error .outOfFuel := by
  refine ⟨alloc_of_init _ _ _ _ _ (by decide +kernel), ⟨22, by decide, by decide⟩, ?_⟩
  have pow2 : IsPow2 (4 * MemoryConstants.megaByte) := ⟨22, by decide, by decide⟩
  have tracked : HeapAllocator.World.Tracked (2 ^ 47 + 3 * gfxHeap32Size + heapGranularity)
    (gfxHeap32Size - 2 * heapGranularity) MemoryConstants.pageSize ⟨external48, []⟩ :=
    .create (by decide)
  have endless : HeapAllocator.Endless ⟨external48, []⟩ (.allocateWithCustomAlignment
      (gfxHeap32Size - 4 * MemoryConstants.megaByte - MemoryConstants.pageSize)
      (4 * MemoryConstants.megaByte)) := by
    simp only [HeapAllocator.Endless]
    decide +kernel
  intro fuel
  refine HeapAllocator.allocate_outOfFuel (by decide) fun r returned => ?_
  exact (tracked.returns_iff isPow2_pageSize (.inr pow2) (by decide)
    ⟨by simp only [HeapAllocator.NoWrap]; decide, .inl (by decide)⟩).mp ⟨fuel, r, returned⟩ endless

/-- The call for a GPU with a limited range of addresses. -/
def limitedRange : InitArgs :=
  ⟨maxNBitValue 46, 0, 0, 1, false, 0, maxNBitValue 46 + 1⟩

/-- `heapInternalDeviceFrontWindow` of that GPU. -/
def windowAtZero : HeapAllocator :=
  .create 0 internalFrontWindowPoolSize MemoryConstants.pageSize 0

/-- A request for the whole window fails and takes the window with it: a page that was there
before is not there any more. -/
theorem windowAtZero_is_lost :
    (∃ p, (create ⟨0, 0, 0, 0⟩).init processor48 nothingReserved limitedRange = .ok (p, true) ∧
      (p.heaps .heapInternalDeviceFrontWindow).alloc = some windowAtZero) ∧
    ∃ r page later, windowAtZero.allocate 2 internalFrontWindowPoolSize = .ok r ∧ r.ptr = 0 ∧
      ¬ HeapAllocator.Coalesced windowAtZero r.heap ∧
      windowAtZero.allocate 2 MemoryConstants.pageSize = .ok page ∧ page.ptr ≠ 0 ∧
      r.heap.allocate 2 MemoryConstants.pageSize = .ok later ∧ later.ptr = 0 := by
  refine ⟨alloc_of_init _ _ _ _ _ (by decide +kernel),
    ⟨{ windowAtZero with pLeftBound := 0x100000 }, 0, 0x100000⟩,
    ⟨{ windowAtZero with availableSize := 0xff000, pLeftBound := 0x2000 }, 0x1000, 0x1000⟩,
    ⟨{ windowAtZero with pLeftBound := 0x100000 }, 0, 0x1000⟩, by decide +kernel, rfl, ?_,
    by decide +kernel, by decide, by decide +kernel, rfl⟩
  intro coalesced
  have lost : 0 ∈ windowAtZero.freeBytes := by
    simp only [HeapAllocator.freeBytes, Set.mem_ofPred_eq]
    decide +kernel
  rw [← coalesced.freeBytes] at lost
  simp only [HeapAllocator.freeBytes, Set.mem_ofPred_eq] at lost
  revert lost
  decide +kernel

end GfxPartition

end ComputeRuntime
