import ComputeRuntime.Library.Transition
import ComputeRuntime.PhysicalAddress.Allocator
import Mathlib.Order.Interval.Set.Disjoint
import Mathlib.Order.CompletePartialOrder

/-! The banks of local memory stay apart while they have room. A full bank still gives out one
page, the first one behind its end. -/
namespace ComputeRuntime

open Transition

namespace PhysicalAddressAllocatorHw

/-- A page of a bank of local memory. -/
structure Page where
  index : Nat
  address : Nat
  size : Nat
  deriving DecidableEq

/-- The bytes of the page. -/
def Page.bytes (page : Page) : Set Nat := Set.Ico page.address (page.address + page.size)

/-- The allocator with the pages of local memory it gave out, the last one first. -/
structure World where
  allocator : PhysicalAddressAllocatorHw
  pages : List Page := []

/-- A request: the page is aligned to its size. -/
structure Request where
  memoryBank : Nat
  pageSize : Nat
  deriving DecidableEq

/-- Requests for local memory are for the bank of this index. -/
def Request.index (request : Request) : Nat :=
  request.memoryBank - MemoryBanks.getBankForLocalMemory 0

def Request.Local (request : Request) (p : PhysicalAddressAllocatorHw) : Prop :=
  ¬ (request.memoryBank = MemoryBanks.mainBank ∨ p.numberOfBanks = 0)

instance (request : Request) (p : PhysicalAddressAllocatorHw) : Decidable (request.Local p) :=
  inferInstanceAs (Decidable (¬ _))

/-- A request that passes the allocator's checks. The size of a bank is a multiple of the page
sizes that are used. -/
inductive Step : World → Request → World → Prop where
  | reservePage {w : World} {request : Request} {allocator : PhysicalAddressAllocatorHw}
      {address : Nat} (pow2 : IsPow2 request.pageSize)
      (whole : request.pageSize ∣ w.allocator.memoryBankSize)
      (returned : w.allocator.reservePage request.memoryBank request.pageSize request.pageSize =
        .ok (allocator, address)) :
      Step w request ⟨allocator, if request.Local w.allocator then
        ⟨request.index, address, request.pageSize⟩ :: w.pages else w.pages⟩

/-- The banks lie in the 64-bit address space. -/
def system (bankSize numOfBanks : Nat) : System World Request where
  init := fun w => numOfBanks * bankSize < 2 ^ 64 ∧ w = { allocator := create bankSize numOfBanks }
  step := Step

/-- A page lies in its bank. -/
def Page.InBank (page : Page) (p : PhysicalAddressAllocatorHw) : Prop :=
  page.index < p.numberOfBanks ∧ page.index * p.memoryBankSize ≤ page.address ∧
    page.address + page.size ≤ (page.index + 1) * p.memoryBankSize

/-- Every page lies in its bank, and no two pages have a byte in common. -/
structure World.Apart (w : World) : Prop where
  inside : ∀ page ∈ w.pages, page.InBank w.allocator
  disjoint : w.pages.Pairwise fun a b => Disjoint a.bytes b.bytes

/-- A bank of local memory has the bytes of a page left. -/
def RoomLeft (w : World) (request : Request) : Prop :=
  request.Local w.allocator →
    w.allocator.bankAllocators request.index + request.pageSize ≤
      (request.index + 1) * w.allocator.memoryBankSize

/-- The inductive invariant: a bank's pages lie in front of its bump pointer. -/
structure World.Inv (w : World) : Prop where
  fits : w.allocator.numberOfBanks * w.allocator.memoryBankSize < 2 ^ 64
  start : ∀ i < w.allocator.numberOfBanks,
    i * w.allocator.memoryBankSize ≤ w.allocator.bankAllocators i
  stop : ∀ i < w.allocator.numberOfBanks, w.allocator.bankAllocators i ≤
    max initialPageAddress ((i + 1) * w.allocator.memoryBankSize)
  below : ∀ page ∈ w.pages, page.address + page.size ≤ w.allocator.bankAllocators page.index
  apart : w.Apart

section Bump

variable {currentAddress pageSize : Nat}

/-- A bump pointer that cannot wrap goes up to the next multiple of the page size, and past the
page. -/
theorem bump_eq (pow2 : IsPow2 pageSize) (fits : currentAddress + (pageSize - 1) < 2 ^ 64) :
    bump currentAddress pageSize pageSize = (alignUp currentAddress pageSize,
      add64 (alignUp currentAddress pageSize) pageSize) := by
  have up := le_alignUp pow2 fits
  have high := alignUp_lt pow2 fits
  have positive := pow2.pos
  have padding : sub64 (alignUp currentAddress pageSize) currentAddress =
      alignUp currentAddress pageSize - currentAddress := Word.sub_eq up (by omega)
  have aligned : add64 currentAddress (alignUp currentAddress pageSize - currentAddress) =
      alignUp currentAddress pageSize := (Word.add_eq (by omega)).trans (by omega)
  simp only [bump, padding, aligned]

/-- A multiple of the page size below the end of the address space has a page behind it. -/
theorem add_page_le {stop : Nat} (pow2 : IsPow2 pageSize) (whole : pageSize ∣ stop)
    (fits : stop < 2 ^ 64) : stop + pageSize ≤ 2 ^ 64 := by
  obtain ⟨k, small, rfl⟩ := pow2
  obtain ⟨q, rfl⟩ := whole
  obtain ⟨r, word⟩ : 2 ^ k ∣ 2 ^ 64 := Nat.pow_dvd_pow 2 (Nat.le_of_lt small)
  rw [word] at fits ⊢
  have less : q < r := Nat.lt_of_mul_lt_mul_left fits
  calc 2 ^ k * q + 2 ^ k = 2 ^ k * (q + 1) := (Nat.mul_succ ..).symm
    _ ≤ 2 ^ k * r := Nat.mul_le_mul_left _ less

end Bump

/-- Pages of different banks are apart, and of one bank when one of them is behind the other. -/
theorem Page.disjoint_of_behind {p : PhysicalAddressAllocatorHw} {a b : Page} (first : a.InBank p)
    (second : b.InBank p) (behind : a.index = b.index → b.address + b.size ≤ a.address) :
    Disjoint a.bytes b.bytes := by
  obtain ⟨-, low, high⟩ := first
  obtain ⟨-, low', high'⟩ := second
  refine Set.Ico_disjoint_Ico.mpr ?_
  rcases Nat.lt_trichotomy a.index b.index with less | same | greater
  · have banks := Nat.mul_le_mul_right p.memoryBankSize (Nat.succ_le_of_lt less)
    exact (min_le_left _ _).trans ((high.trans (banks.trans low')).trans (le_max_right _ _))
  · exact (min_le_right _ _).trans ((behind same).trans (le_max_left _ _))
  · have banks := Nat.mul_le_mul_right p.memoryBankSize (Nat.succ_le_of_lt greater)
    exact (min_le_right _ _).trans ((high'.trans (banks.trans low)).trans (le_max_left _ _))

section Requests

variable {w w' : World} {request : Request} {p allocator : PhysicalAddressAllocatorHw}
  {address : Nat}

/-- What a request that returns did: it moved one bump pointer. -/
theorem reservePage_cases
    (returned : p.reservePage request.memoryBank request.pageSize request.pageSize =
      .ok (allocator, address)) :
    (¬ request.Local p ∧ ∃ mainAllocator, allocator = { p with mainAllocator }) ∨
    (request.Local p ∧ request.index < p.numberOfBanks ∧
      address = (bump (p.bankAllocators request.index) request.pageSize request.pageSize).1 ∧
      allocator = { p with
        bankAllocators := Function.update p.bankAllocators request.index
          (bump (p.bankAllocators request.index) request.pageSize request.pageSize).2 }) := by
  unfold reservePage at returned
  split at returned
  next main =>
    cases returned
    exact .inl ⟨not_not.mpr main, _, rfl⟩
  next bank =>
    split at returned
    next => cases returned
    next listed =>
      simp only at returned
      split at returned
      next => cases returned
      next =>
        cases returned
        have nonzero := (not_or.mp bank).1
        refine .inr ⟨bank, ?_, rfl, rfl⟩
        simp only [Request.index, MemoryBanks.mainBank, MemoryBanks.getBankForLocalMemory] at *
        omega

/-- A bank ends inside the address space. -/
theorem World.Inv.bank_end (inv : w.Inv) {i : Nat} (listed : i < w.allocator.numberOfBanks) :
    (i + 1) * w.allocator.memoryBankSize < 2 ^ 64 :=
  Nat.lt_of_le_of_lt (Nat.mul_le_mul_right _ listed) inv.fits

/-- No bump pointer wraps when it is aligned. -/
theorem World.Inv.aligns (inv : w.Inv) {i pageSize : Nat} (listed : i < w.allocator.numberOfBanks)
    (pow2 : IsPow2 pageSize) (whole : pageSize ∣ w.allocator.memoryBankSize) :
    w.allocator.bankAllocators i + (pageSize - 1) < 2 ^ 64 := by
  have room := add_page_le pow2 (Dvd.dvd.mul_left whole (i + 1)) (inv.bank_end listed)
  have stop := inv.stop i listed
  have positive := pow2.pos
  have small : pageSize ≤ 2 ^ 63 := by
    obtain ⟨k, few, rfl⟩ := pow2
    exact Nat.pow_le_pow_right (by decide) (by omega)
  simp only [initialPageAddress] at stop
  omega

/-- The page of a request with room lies in its bank, behind the pages before it. -/
theorem World.Inv.aligned (inv : w.Inv) {i pageSize : Nat}
    (listed : i < w.allocator.numberOfBanks) (pow2 : IsPow2 pageSize)
    (whole : pageSize ∣ w.allocator.memoryBankSize)
    (room : w.allocator.bankAllocators i + pageSize ≤ (i + 1) * w.allocator.memoryBankSize) :
    alignUp (w.allocator.bankAllocators i) pageSize + pageSize ≤
      (i + 1) * w.allocator.memoryBankSize := by
  have multiple : pageSize ∣ (i + 1) * w.allocator.memoryBankSize := Dvd.dvd.mul_left whole _
  have front : pageSize ∣ (i + 1) * w.allocator.memoryBankSize - pageSize :=
    Nat.dvd_sub multiple (Nat.dvd_refl _)
  have le := alignUp_le pow2 (inv.aligns listed pow2 whole) front (by omega)
  omega

theorem World.Inv.step (inv : w.Inv) (step : Step w request w') (room : RoomLeft w request) :
    w'.Inv := by
  cases step with
  | reservePage pow2 whole returned =>
  rcases reservePage_cases returned with ⟨main, mainAllocator, rfl⟩ | ⟨bank, listed, rfl, rfl⟩
  · rw [if_neg main]
    exact ⟨inv.fits, inv.start, inv.stop, inv.below, inv.apart.inside, inv.apart.disjoint⟩
  rw [if_pos bank]
  have fits := inv.aligns listed pow2 whole
  have inside := inv.aligned listed pow2 whole (room bank)
  have up := le_alignUp pow2 fits
  have start := inv.start _ listed
  have stop := inv.bank_end listed
  have next : add64 (alignUp (w.allocator.bankAllocators request.index) request.pageSize)
      request.pageSize = alignUp (w.allocator.bankAllocators request.index) request.pageSize +
        request.pageSize := Word.add_eq (by omega)
  rw [bump_eq pow2 fits, next]
  have moved (i : Nat) : w.allocator.bankAllocators i ≤
      Function.update w.allocator.bankAllocators request.index
        (alignUp (w.allocator.bankAllocators request.index) request.pageSize + request.pageSize)
          i := by
    rw [Function.update_apply]
    split
    next same => rw [same]; omega
    next => exact Nat.le_refl _
  constructor
  · exact inv.fits
  · intro i few
    exact (inv.start i few).trans (moved i)
  · intro i few
    simp only [Function.update_apply]
    split
    next same =>
      rw [same]
      exact inside.trans (Nat.le_max_right ..)
    next => exact inv.stop i few
  · intro page member
    rcases List.mem_cons.mp member with rfl | old
    · simp only [Function.update_self, Nat.le_refl]
    · exact (inv.below page old).trans (moved page.index)
  · constructor
    · intro page member
      rcases List.mem_cons.mp member with rfl | old
      · exact ⟨listed, by simp only; omega, inside⟩
      · exact inv.apart.inside page old
    · refine List.pairwise_cons.mpr ⟨?_, inv.apart.disjoint⟩
      intro page old
      refine Page.disjoint_of_behind ⟨listed, start.trans up, inside⟩ (inv.apart.inside page old) ?_
      intro same
      have front := inv.below page old
      rw [show page.index = request.index from same.symm] at front
      exact front.trans up

/-- A page that a full bank gives out lies outside of it. -/
theorem World.Inv.full (inv : w.Inv) (step : Step w request w') (full : ¬ RoomLeft w request) :
    ¬ w'.Apart := by
  obtain ⟨bank, short⟩ := Classical.not_imp.mp full
  cases step with
  | reservePage pow2 whole returned =>
  rcases reservePage_cases returned with ⟨main, -⟩ | ⟨-, listed, rfl, rfl⟩
  · exact absurd bank main
  rw [if_pos bank]
  intro apart
  have fits := inv.aligns listed pow2 whole
  have inside := (apart.inside _ List.mem_cons_self).2.2
  have up := le_alignUp pow2 fits
  rw [bump_eq pow2 fits] at inside
  simp only at inside
  omega

theorem create_inv {bankSize numOfBanks : Nat} (fits : numOfBanks * bankSize < 2 ^ 64) :
    World.Inv { allocator := create bankSize numOfBanks } where
  fits := fits
  start := by
    intro i listed
    have word : i * bankSize < 2 ^ 64 :=
      Nat.lt_of_le_of_lt (Nat.mul_le_mul_right _ (Nat.le_of_lt listed)) fits
    simp only [create]
    split
    next first => simp [first]
    next => exact Nat.le_of_eq (Word.mul_eq word).symm
  stop := by
    intro i listed
    have word : i * bankSize < 2 ^ 64 :=
      Nat.lt_of_le_of_lt (Nat.mul_le_mul_right _ (Nat.le_of_lt listed)) fits
    simp only [create]
    split
    next => exact Nat.le_max_left ..
    next =>
      have start : mul64 i bankSize = i * bankSize := Word.mul_eq word
      rw [start, Nat.succ_mul]
      omega
  below := by rintro _ ⟨⟩
  apart := ⟨by rintro _ ⟨⟩, .nil⟩

theorem banks_invariant (bankSize numOfBanks : Nat) :
    Invariant ((system bankSize numOfBanks).restrict RoomLeft) World.Inv where
  initial := by
    rintro w ⟨fits, rfl⟩
    exact create_inv fits
  preserved := fun _ _ _ _ inv step => inv.step step.2 step.1

/-- In runs in which every bank that is asked has a page left, the pages lie in their banks and
have no byte in common; the next request keeps it so exactly when its bank has a page left. -/
theorem reachable_banks_apart {bankSize numOfBanks : Nat}
    (reachable : Reachable ((system bankSize numOfBanks).restrict RoomLeft) w) :
    w.Apart ∧ ∀ request w', Step w request w' → (w'.Apart ↔ RoomLeft w request) := by
  have inv := (banks_invariant bankSize numOfBanks).holds reachable
  refine ⟨inv.apart, ?_⟩
  intro request w' step
  constructor
  · intro apart
    by_contra full
    exact inv.full step full apart
  · intro room
    exact (inv.step step room).apart

end Requests

section Small

/-- A request for the next page of a bank, up to the bank's end. -/
theorem Step.bank {p : PhysicalAddressAllocatorHw} {pages : List Page} {i size address next : Nat}
    (listed : i < p.numberOfBanks) (pow2 : IsPow2 size) (whole : size ∣ p.memoryBankSize)
    (bumped : bump (p.bankAllocators i) size size = (address, next))
    (passes : address ≤ mul64 (i + 1) p.memoryBankSize) :
    Step ⟨p, pages⟩ ⟨i + 1, size⟩
      ⟨{ p with bankAllocators := Function.update p.bankAllocators i next },
        ⟨i, address, size⟩ :: pages⟩ := by
  have bank : Request.Local ⟨i + 1, size⟩ p := by
    rintro (main | none)
    · exact Nat.succ_ne_zero i main
    · omega
  have returned : p.reservePage (i + 1) size size =
      .ok ({ p with bankAllocators := Function.update p.bankAllocators i next }, address) := by
    have index : i + 1 - MemoryBanks.getBankForLocalMemory 0 = i := rfl
    rw [PhysicalAddressAllocatorHw.reservePage, if_neg bank, if_neg (by omega)]
    simp only [index, bumped, if_neg (Nat.not_lt.mpr passes)]
  have pages_eq : (if Request.Local ⟨i + 1, size⟩ p then ⟨i, address, size⟩ :: pages else pages) =
      ⟨i, address, size⟩ :: pages := if_pos bank
  rw [← pages_eq]
  exact @Step.reservePage ⟨p, pages⟩ ⟨i + 1, size⟩ _ _ pow2 whole returned

/-- Two banks of 128 KB with their bump pointers. -/
def smallBanks (next : Nat → Nat) : PhysicalAddressAllocatorHw :=
  { create 0x20000 2 with bankAllocators := next }

/-- A page of 64 KB of one of the two banks. -/
theorem smallBanks_step {bankAllocators : Nat → Nat} (pages : List Page) {i address next : Nat}
    (listed : i < 2)
    (bumped : bump (bankAllocators i) 0x10000 0x10000 = (address, next))
    (passes : address ≤ mul64 (i + 1) 0x20000) :
    Step ⟨smallBanks bankAllocators, pages⟩ ⟨i + 1, 0x10000⟩
      ⟨smallBanks (Function.update bankAllocators i next), ⟨i, address, 0x10000⟩ :: pages⟩ :=
  @Step.bank (smallBanks bankAllocators) pages i 0x10000 address next listed isPow2_pageSize64k
    ⟨2, rfl⟩ bumped passes

theorem smallBanks_start :
    Reachable (system 0x20000 2) ⟨smallBanks (create 0x20000 2).bankAllocators, []⟩ :=
  .start ⟨by decide, rfl⟩

/-- Two pages of the second bank and one of the first, which both are full then: the first bank
begins behind the initial page. A further page of the first bank would not be apart. -/
theorem reachable_banks_apart_both : ∃ w : World,
    w.pages = [⟨0, 0x10000, 0x10000⟩, ⟨1, 0x30000, 0x10000⟩, ⟨1, 0x20000, 0x10000⟩] ∧ w.Apart ∧
      ∀ w', Step w ⟨1, 0x10000⟩ w' → ¬ w'.Apart := by
  have none : Reachable ((system 0x20000 2).restrict RoomLeft)
      ⟨smallBanks (create 0x20000 2).bankAllocators, []⟩ := .start ⟨by decide, rfl⟩
  have one : Reachable ((system 0x20000 2).restrict RoomLeft) _ :=
    .next none ⟨fun _ => by decide +kernel, @smallBanks_step _ [] 1 0x20000 0x30000 (by decide)
      (by decide +kernel) (by decide)⟩
  have two : Reachable ((system 0x20000 2).restrict RoomLeft) _ :=
    .next one ⟨fun _ => by decide +kernel, @smallBanks_step _ _ 1 0x30000 0x40000 (by decide)
      (by decide +kernel) (by decide)⟩
  have three : Reachable ((system 0x20000 2).restrict RoomLeft) _ :=
    .next two ⟨fun _ => by decide +kernel, @smallBanks_step _ _ 0 0x10000 0x20000 (by decide)
      (by decide +kernel) (by decide)⟩
  obtain ⟨apart, next⟩ := reachable_banks_apart three
  refine ⟨_, rfl, apart, fun w' step stays => ?_⟩
  have room := (next _ w' step).mp stays (by decide)
  exact absurd room (by decide +kernel)

/-- The first bank has room for one page of 64 KB. The second one it gives out is the first page
of the second bank, which gives it out as well. -/
theorem full_bank_gives_next_page :
    ∃ w, Reachable (system 0x20000 2) w ∧ ¬ w.Apart ∧
      w.pages = [⟨1, 0x20000, 0x10000⟩, ⟨0, 0x20000, 0x10000⟩, ⟨0, 0x10000, 0x10000⟩] := by
  have one : Reachable (system 0x20000 2) _ :=
    .next smallBanks_start (@smallBanks_step _ [] 0 0x10000 0x20000 (by decide) (by decide +kernel)
      (by decide))
  have two : Reachable (system 0x20000 2) _ :=
    .next one (@smallBanks_step _ _ 0 0x20000 0x30000 (by decide) (by decide +kernel) (by decide))
  have three : Reachable (system 0x20000 2) _ :=
    .next two (@smallBanks_step _ _ 1 0x20000 0x30000 (by decide) (by decide +kernel) (by decide))
  refine ⟨_, three, ?_, rfl⟩
  intro apart
  have inside := apart.inside ⟨0, 0x20000, 0x10000⟩ (by decide)
  exact absurd inside.2.2 (by decide)

end Small

end PhysicalAddressAllocatorHw

end ComputeRuntime
