import Mathlib.Data.Finset.Card
import Mathlib.Order.Interval.Finset.Nat
import CellVisor.Proofs.Action
import CellVisor.Proofs.Bits
import CellVisor.Pci.ConfigSpace

/-!
# CellVisor.Proofs.Pci.Capabilities

The walk along the capability list of a function, whatever its configuration space holds: the list
may end or go round, and may lead into the header of the space.

* `ConfigSpace.entry`: the list itself, as far as one cares to follow it.
* `walk_eq_found_iff`, `walk_eq_unterminated_iff`: what a bounded walk comes to.
* `entry_ne_of_first`, `le_maxCapabilities`: no entry comes twice before one that is looked for, and
  there is room for 48 only. So the bound is never in the way of a search.
* `findCapability_exact`: a search finds the first entry with the capability.
* `unterminated_reported`: when it says that the list does not end. `full_list_reported`: it says so
  of a list that ends with the last dword of the space.
-/

namespace CellVisor
namespace Pci
namespace ConfigSpace

variable (space : ConfigSpace) (address : Address)

/-! ## The list -/

/-- Where `n` links lead to from `offset`. -/
def follow (offset : UInt8) : Nat → UInt8
  | 0 => offset
  | n + 1 => follow (space.nextPointer address offset) n

/-- Where the entry with number `n` of the list is. It is zero where the list ends, and of no
interest behind that. -/
def entry (n : Nat) : UInt8 := space.follow address (space.headPointer address) n

/-- The list has not ended when one comes to its entry with number `n`. -/
def HasEntry (n : Nat) : Prop := ∀ i ≤ n, space.entry address i ≠ 0

/-- The list has `count` entries, all of them behind the header of the space, and ends. -/
structure Ends (count : Nat) : Prop where
  behind : ∀ n < count, 0x40 ≤ space.entry address n ∧ space.entry address n ≤ 0xFC
  ends : space.entry address count = 0

section List

variable {space address} {offset : UInt8} {count : Nat}

theorem follow_add (m n : Nat) :
    space.follow address offset (m + n) =
      space.follow address (space.follow address offset m) n := by
  induction m generalizing offset with
  | zero => rw [Nat.zero_add, follow]
  | succ m ih =>
    rw [Nat.add_right_comm, follow, ih]
    rfl

theorem entry_succ (n : Nat) :
    space.entry address (n + 1) = space.nextPointer address (space.entry address n) :=
  follow_add n 1

/-- Masked like a pointer, a byte is rounded down to the offset of a dword. -/
theorem toNat_and_pointerMask (byte : UInt8) : (byte &&& 0xFC).toNat = byte.toNat / 4 * 4 := by
  have hlt := byte.toNat_lt
  have hmask : byte.toNat &&& 252 = (byte.toNat >>> 2 % 64) <<< 2 := Word.and_mask byte.toNat 2 6
  rw [Nat.shiftLeft_eq, Nat.shiftRight_eq_div_pow, Nat.mod_eq_of_lt (by omega)] at hmask
  rw [UInt8.toNat_and]
  exact hmask

theorem entry_mod_four (n : Nat) : (space.entry address n).toNat % 4 = 0 := by
  cases n with
  | zero =>
    rw [entry, follow, headPointer, toNat_and_pointerMask]
    omega
  | succ n =>
    rw [entry_succ, nextPointer, toNat_and_pointerMask]
    omega

theorem Ends.hasEntry_iff (h : space.Ends address count) {n : Nat} :
    space.HasEntry address n ↔ n < count := by
  constructor
  · intro hentry
    by_contra hge
    exact hentry count (Nat.not_lt.1 hge) h.ends
  · intro hn i hi hzero
    have hbehind := (h.behind i (Nat.lt_of_le_of_lt hi hn)).1
    rw [hzero] at hbehind
    exact absurd hbehind (by decide)

/-! ## How long it can be -/

/-- Up to the first entry that has a property no entry comes twice. The list would go round between
the two, and never come to that one. -/
theorem entry_ne_of_first {P : UInt8 → Prop} {n : Nat} (holds : P (space.entry address n))
    (first : ∀ i < n, ¬ P (space.entry address i)) {i j : Nat} (hij : i < j) (hj : j ≤ n) :
    space.entry address i ≠ space.entry address j := by
  intro hsame
  -- the way from `j` to `n` can be gone from `i` as well, where it is too short
  have hshort : space.entry address (i + (n - j)) = space.entry address n := by
    rw [entry, follow_add, ← entry, hsame, entry, ← follow_add, Nat.add_sub_cancel' hj]
    rfl
  refine first (i + (n - j)) (by omega) ?_
  rw [hshort]
  exact holds

/-- Behind the header there is room for 48 entries of a dword each. -/
theorem le_maxCapabilities (behind : ∀ i < count, 0x40 ≤ space.entry address i)
    (distinct : ∀ i j, i < j → j < count → space.entry address i ≠ space.entry address j) :
    count ≤ maxCapabilities := by
  have hslots : ∀ i ∈ Finset.range count,
      (space.entry address i).toNat / 4 ∈ Finset.Ico 16 64 := by
    intro i hi
    have hge := UInt8.le_iff_toNat_le.1 (behind i (Finset.mem_range.1 hi))
    have hlt := (space.entry address i).toNat_lt
    simp only [UInt8.reduceToNat] at hge
    rw [Finset.mem_Ico]
    omega
  have hinj : Set.InjOn (fun i => (space.entry address i).toNat / 4) (Finset.range count) := by
    intro i hi j hj hslot
    have hi := Finset.mem_range.1 (Finset.mem_coe.1 hi)
    have hj := Finset.mem_range.1 (Finset.mem_coe.1 hj)
    have hsame : space.entry address i = space.entry address j := by
      have hfirst : (space.entry address i).toNat % 4 = 0 := entry_mod_four i
      have hsecond : (space.entry address j).toNat % 4 = 0 := entry_mod_four j
      apply UInt8.toNat.inj
      dsimp only at hslot
      omega
    rcases Nat.lt_trichotomy i j with hlt | heq | hgt
    · exact absurd hsame (distinct i j hlt hj)
    · exact heq
    · exact absurd hsame.symm (distinct j i hgt hi)
  have hcard := Finset.card_le_card_of_injOn _ hslots hinj
  rw [Finset.card_range, Nat.card_Ico] at hcard
  exact hcard

theorem Ends.le_maxCapabilities (h : space.Ends address count) : count ≤ maxCapabilities := by
  have hopen : ∀ i < count, space.entry address i ≠ 0 := fun i hi =>
    h.hasEntry_iff.2 hi i (Nat.le_refl i)
  exact ConfigSpace.le_maxCapabilities (fun i hi => (h.behind i hi).1)
    fun i j hij hj => entry_ne_of_first (P := (· = 0)) h.ends hopen hij (Nat.le_of_lt hj)

end List

/-! ## The walk -/

/-- After `n` links from `offset`, and not before, one comes to the capability `id`. -/
structure LeadsTo (offset id : UInt8) (n : Nat) : Prop where
  linked : ∀ i ≤ n, space.follow address offset i ≠ 0
  announced : space.capabilityId address (space.follow address offset n) = id
  first : ∀ i < n, space.capabilityId address (space.follow address offset i) ≠ id

section Walk

variable {space address} {offset id : UInt8}

theorem leadsTo_zero :
    space.LeadsTo address offset id 0 ↔ offset ≠ 0 ∧ space.capabilityId address offset = id := by
  constructor
  · exact fun h => ⟨h.linked 0 (Nat.le_refl 0), h.announced⟩
  · rintro ⟨hoffset, hid⟩
    exact
      { linked := fun i hi => by
          rw [Nat.le_zero.1 hi]
          exact hoffset
        announced := hid
        first := fun i hi => absurd hi (Nat.not_lt_zero i) }

theorem leadsTo_succ {n : Nat} :
    space.LeadsTo address offset id (n + 1) ↔
      offset ≠ 0 ∧ space.capabilityId address offset ≠ id ∧
        space.LeadsTo address (space.nextPointer address offset) id n := by
  constructor
  · intro h
    exact ⟨h.linked 0 (Nat.zero_le _), h.first 0 (Nat.succ_pos n),
      { linked := fun i hi => h.linked (i + 1) (Nat.succ_le_succ hi)
        announced := h.announced
        first := fun i hi => h.first (i + 1) (Nat.succ_lt_succ hi) }⟩
  · rintro ⟨hoffset, hid, h⟩
    exact
      { linked := fun i hi => by
          cases i with
          | zero => exact hoffset
          | succ i => exact h.linked i (Nat.le_of_succ_le_succ hi)
        announced := h.announced
        first := fun i hi => by
          cases i with
          | zero => exact hid
          | succ i => exact h.first i (Nat.lt_of_succ_lt_succ hi) }

theorem walk_eq_found_iff {limit : Nat} {found : UInt8} :
    space.walk address id limit offset = .found found ↔
      ∃ n < limit, space.LeadsTo address offset id n ∧ space.follow address offset n = found := by
  induction limit generalizing offset with
  | zero => simp [walk]
  | succ limit ih =>
    rw [Nat.exists_lt_succ_left, leadsTo_zero, follow, walk]
    simp only [leadsTo_succ, follow]
    by_cases hend : offset = 0
    · simp [hend]
    · by_cases hid : space.capabilityId address offset = id
      · simp [hend, hid]
      · simp [hend, hid, ih]

theorem walk_eq_unterminated_iff {limit : Nat} :
    space.walk address id limit offset = .unterminated ↔
      ∀ i < limit, space.follow address offset i ≠ 0 ∧
        space.capabilityId address (space.follow address offset i) ≠ id := by
  induction limit generalizing offset with
  | zero => simp [walk]
  | succ limit ih =>
    rw [Nat.forall_lt_succ_left, follow, walk]
    simp only [follow]
    by_cases hend : offset = 0
    · simp [hend]
    · by_cases hid : space.capabilityId address offset = id
      · simp [hend, hid]
      · simp [hend, hid, ih]

end Walk

/-! ## The search -/

/-- The offset of the capability `id`, if the list of the function comes to one. -/
def capability? (space : ConfigSpace) (address : Address) (id : UInt8) : Option UInt8 :=
  if space.hasCapabilities address then
    match space.walk address id maxCapabilities (space.headPointer address) with
    | .found offset => some offset
    | .absent | .unterminated => none
  else none

section Search

variable {σ : Type}

theorem findCapability_eq (space : ConfigSpace) (address : Address) (id : UInt8) (state : σ) :
    ∃ log, space.findCapability address id state =
      ⟨.ok (space.capability? address id), state, log⟩ := by
  unfold findCapability capability?
  split
  · cases space.walk address id maxCapabilities (space.headPointer address) with
    | found | absent => exact ⟨[], rfl⟩
    | unterminated => exact ⟨[.listUnterminated address], rfl⟩
  · exact ⟨[], rfl⟩

variable {space address} {id : UInt8}

theorem capability?_eq_some_iff {offset : UInt8} :
    space.capability? address id = some offset ↔
      space.hasCapabilities address = true ∧
        ∃ n < maxCapabilities, space.LeadsTo address (space.headPointer address) id n ∧
          space.entry address n = offset := by
  unfold capability?
  split
  · rename_i hlisted
    simp only [hlisted, true_and]
    refine Iff.trans ?_ walk_eq_found_iff
    cases space.walk address id maxCapabilities (space.headPointer address) <;> simp
  · rename_i hlisted
    simp [hlisted]

/-- A walk along the list gives up where it is at the end of its limit before the list has ended or
come to the capability. -/
theorem walk_headPointer_eq_unterminated_iff {limit : Nat} :
    space.walk address id limit (space.headPointer address) = .unterminated ↔
      ∀ n < limit, space.HasEntry address n ∧
        space.capabilityId address (space.entry address n) ≠ id := by
  rw [walk_eq_unterminated_iff]
  constructor
  · exact fun h n hn => ⟨fun i hi => (h i (Nat.lt_of_le_of_lt hi hn)).1, (h n hn).2⟩
  · exact fun h n hn => ⟨(h n hn).1 n (Nat.le_refl n), (h n hn).2⟩

/-- A search gives notice of one thing only, that it has given up. -/
theorem log_findCapability (space : ConfigSpace) (address : Address) (id : UInt8) (state : σ) :
    (space.findCapability address id state).log =
      if space.hasCapabilities address = true ∧
          space.walk address id maxCapabilities (space.headPointer address) = .unterminated
        then [.listUnterminated address] else [] := by
  unfold findCapability
  split
  · rename_i hlisted
    simp only [hlisted, true_and]
    cases space.walk address id maxCapabilities (space.headPointer address) <;> rfl
  · rename_i hlisted
    rw [if_neg fun h => hlisted h.1]
    rfl

/-- The first of the entries that announce a capability, if any does. -/
theorem exists_leadsTo {n : Nat} (hentry : space.HasEntry address n)
    (announced : space.capabilityId address (space.entry address n) = id) :
    ∃ m, space.LeadsTo address (space.headPointer address) id m := by
  have hsome : ∃ n, space.capabilityId address (space.entry address n) = id := ⟨n, announced⟩
  have hle : Nat.find hsome ≤ n := Nat.find_min' hsome announced
  exact ⟨Nat.find hsome,
    { linked := fun i hi => hentry i (Nat.le_trans hi hle)
      announced := Nat.find_spec hsome
      first := fun i hi => Nat.find_min hsome hi }⟩

/-- Where all entries are behind the header, the search comes to the first that announces the
capability before it gives up. -/
theorem LeadsTo.lt_maxCapabilities {n : Nat}
    (h : space.LeadsTo address (space.headPointer address) id n)
    (behind : ∀ n, space.HasEntry address n → 0x40 ≤ space.entry address n) :
    n < maxCapabilities := by
  have hbehind : ∀ i < n + 1, 0x40 ≤ space.entry address i := fun i hi =>
    behind i fun j hj => h.linked j (Nat.le_trans hj (Nat.le_of_lt_succ hi))
  have hdistinct : ∀ i j, i < j → j < n + 1 → space.entry address i ≠ space.entry address j :=
    fun i j hij hj => entry_ne_of_first (P := fun offset => space.capabilityId address offset = id)
      h.announced h.first hij (Nat.le_of_lt_succ hj)
  exact ConfigSpace.le_maxCapabilities hbehind hdistinct

end Search

/-- A search gives an answer and leaves the state alone. It finds nothing in a function without a
list. In one with a list it finds the first entry that announces the capability, if that is among
the first 48. Where all entries are behind the header of the space the bound makes no difference,
whether the list ends or goes round: the capability is found if any entry at all announces it. -/
theorem findCapability_exact {σ : Type} (space : ConfigSpace) (address : Address) (id : UInt8)
    (state : σ) :
    ∃ answer log, space.findCapability address id state = ⟨.ok answer, state, log⟩ ∧
      (space.hasCapabilities address = false → answer = none) ∧
      (space.hasCapabilities address = true →
        (∀ offset, answer = some offset ↔
          ∃ n < 48, offset = space.entry address n ∧ space.HasEntry address n ∧
            space.capabilityId address (space.entry address n) = id ∧
            ∀ i < n, space.capabilityId address (space.entry address i) ≠ id) ∧
        ((∀ n, space.HasEntry address n → 0x40 ≤ space.entry address n) →
          (answer.isSome = true ↔
            ∃ n, space.HasEntry address n ∧
              space.capabilityId address (space.entry address n) = id))) := by
  obtain ⟨log, hreply⟩ := space.findCapability_eq address id state
  refine ⟨space.capability? address id, log, hreply, fun unlisted => ?unlisted,
    fun listed => ⟨fun offset => ?bounded, fun behind => ?whole⟩⟩
  case unlisted =>
    rw [capability?, if_neg (by simp [unlisted])]
  case bounded =>
    rw [capability?_eq_some_iff, and_iff_right listed]
    constructor
    · rintro ⟨n, hn, hleads, rfl⟩
      exact ⟨n, hn, rfl, hleads.linked, hleads.announced, hleads.first⟩
    · rintro ⟨n, hn, rfl, hentry, announced, first⟩
      exact ⟨n, hn, ⟨hentry, announced, first⟩, rfl⟩
  case whole =>
    rw [Option.isSome_iff_exists]
    simp only [capability?_eq_some_iff, and_iff_right listed]
    constructor
    · rintro ⟨_, n, -, hleads, -⟩
      exact ⟨n, hleads.linked, hleads.announced⟩
    · rintro ⟨n, hentry, announced⟩
      obtain ⟨m, hleads⟩ := exists_leadsTo hentry announced
      exact ⟨_, m, hleads.lt_maxCapabilities behind, hleads, rfl⟩

/-- A cyclic list: from 0x40 to 0x50 and back again. -/
def looping : ConfigSpace := fun _ offset =>
  if offset = 0x04 then 0x00100000
  else if offset = 0x34 then 0x40
  else if offset = 0x40 then 0x5005
  else if offset = 0x50 then 0x400F
  else 0

theorem entry_looping (n : Nat) :
    looping.entry ⟨0, 2, 0⟩ n = if n % 2 = 0 then 0x40 else 0x50 := by
  induction n with
  | zero => decide
  | succ n ih =>
    rw [entry_succ, ih]
    by_cases heven : n % 2 = 0
    · rw [if_pos heven, if_neg (by omega)]
      decide
    · rw [if_neg heven, if_pos (by omega)]
      decide

theorem findCapability_exact_looping :
    looping.hasCapabilities ⟨0, 2, 0⟩ = true ∧
      (∀ n, looping.HasEntry ⟨0, 2, 0⟩ n → 0x40 ≤ looping.entry ⟨0, 2, 0⟩ n) ∧
      ∃ answer, (looping.findCapability ⟨0, 2, 0⟩ 0x0F ()).outcome = .ok answer ∧
        answer = some 0x50 ∧ answer.isSome = true := by
  have listed : looping.hasCapabilities ⟨0, 2, 0⟩ = true := by decide
  have behind : ∀ n, looping.HasEntry ⟨0, 2, 0⟩ n → 0x40 ≤ looping.entry ⟨0, 2, 0⟩ n := by
    intro n _
    rw [entry_looping]
    split <;> decide
  have hentry : looping.HasEntry ⟨0, 2, 0⟩ 1 := by
    unfold HasEntry
    decide
  obtain ⟨answer, log, hreply, -, hanswer⟩ :=
    findCapability_exact looping ⟨0, 2, 0⟩ 0x0F ()
  obtain ⟨hbounded, hwhole⟩ := hanswer listed
  refine ⟨listed, behind, answer, congrArg Reply.outcome hreply, ?_, ?_⟩
  · exact (hbounded 0x50).2 ⟨1, by decide, rfl, hentry, rfl, by decide⟩
  · exact (hwhole behind).2 ⟨1, hentry, rfl⟩

/-! ## What is said of it -/

/-- A search gives one notice at most: a warning that the list does not end. It does so exactly
where 48 entries are there and none announces the capability. So it does of a list that goes round
without it. It does not of a list that ends, unless that fills all the space behind the header: of
such a list with 48 entries the warning is not true. -/
theorem unterminated_reported {σ : Type} (space : ConfigSpace) (address : Address) (id : UInt8)
    (state : σ) :
    let warning : Notice := .listUnterminated address
    let log := (space.findCapability address id state).log
    let announced (n : Nat) := space.capabilityId address (space.entry address n) = id
    warning.record = ⟨.warn, "concordia::iommu::pci",
      "PCI " ++ address.text ++ ": capability list does not terminate"⟩ ∧
    (log = [] ∨ log = [warning]) ∧
    (log = [warning] ↔ space.hasCapabilities address = true ∧
      ∀ n < 48, space.HasEntry address n ∧ ¬ announced n) ∧
    (∀ count, space.Ends address count →
      count ≤ 48 ∧ (log = [warning] ↔ space.hasCapabilities address = true ∧ count = 48 ∧
        ∀ n < 48, ¬ announced n)) ∧
    (space.hasCapabilities address = true → (∀ n, space.HasEntry address n ∧ ¬ announced n) →
      log = [warning]) := by
  intro warning log announced
  have hlog : log = if space.hasCapabilities address = true ∧
      space.walk address id maxCapabilities (space.headPointer address) = .unterminated
      then [warning] else [] := log_findCapability space address id state
  have honce : log = [] ∨ log = [warning] := by
    rw [hlog]
    split
    · exact .inr rfl
    · exact .inl rfl
  have hexact : log = [warning] ↔ space.hasCapabilities address = true ∧
      ∀ n < 48, space.HasEntry address n ∧ ¬ announced n := by
    have hwalk : space.walk address id maxCapabilities (space.headPointer address) =
        .unterminated ↔ ∀ n < 48, space.HasEntry address n ∧ ¬ announced n :=
      walk_headPointer_eq_unterminated_iff
    rw [← hwalk, hlog]
    split
    · rename_i h
      exact iff_of_true rfl h
    · rename_i h
      exact iff_of_false (by simp) h
  refine ⟨rfl, honce, hexact, fun count hends => ⟨hends.le_maxCapabilities, ?_⟩,
    fun listed round => hexact.2 ⟨listed, fun n _ => round n⟩⟩
  rw [hexact, and_congr_right_iff]
  intro _
  constructor
  · intro h
    have hlong : 47 < count := hends.hasEntry_iff.1 (h 47 (by omega)).1
    exact ⟨Nat.le_antisymm hends.le_maxCapabilities hlong, fun n hn => (h n hn).2⟩
  · rintro ⟨rfl, h⟩ n hn
    exact ⟨hends.hasEntry_iff.2 hn, h n hn⟩

/-- A list that fills the space behind the header, each entry a dword that leads to the next. -/
def filled : ConfigSpace := fun _ offset =>
  if offset = 0x04 then 0x00100000
  else if offset = 0x34 then 0x40
  else if offset < 0x40 then 0
  else ((offset + 4 &&& 0xFF).toUInt32 <<< 8) ||| 0x05

theorem ends_filled : filled.Ends ⟨0, 2, 0⟩ 48 where
  behind := by decide +kernel
  ends := by decide +kernel

/-- The cyclic list is reported where it lacks the capability, and the full list is not where it has
it. -/
theorem unterminated_reported_looping :
    (looping.hasCapabilities ⟨0, 2, 0⟩ = true ∧
      (∀ n, looping.HasEntry ⟨0, 2, 0⟩ n ∧
        looping.capabilityId ⟨0, 2, 0⟩ (looping.entry ⟨0, 2, 0⟩ n) ≠ 0x10) ∧
      (looping.findCapability ⟨0, 2, 0⟩ 0x10 ()).log = [.listUnterminated ⟨0, 2, 0⟩]) ∧
    filled.Ends ⟨0, 2, 0⟩ 48 ∧
      (filled.findCapability ⟨0, 2, 0⟩ 0x05 ()).log ≠ [.listUnterminated ⟨0, 2, 0⟩] := by
  have listed : looping.hasCapabilities ⟨0, 2, 0⟩ = true := by decide
  have round : ∀ n, looping.HasEntry ⟨0, 2, 0⟩ n ∧
      looping.capabilityId ⟨0, 2, 0⟩ (looping.entry ⟨0, 2, 0⟩ n) ≠ 0x10 := by
    refine fun n => ⟨fun i _ => ?_, ?_⟩
    · rw [entry_looping]
      split <;> decide
    · rw [entry_looping]
      split <;> decide
  obtain ⟨-, -, -, -, hround⟩ := unterminated_reported looping ⟨0, 2, 0⟩ 0x10 ()
  obtain ⟨-, -, -, hends, -⟩ := unterminated_reported filled ⟨0, 2, 0⟩ 0x05 ()
  refine ⟨⟨listed, round, hround listed round⟩, ends_filled, fun reported => ?_⟩
  obtain ⟨-, -, hunannounced⟩ := (hends 48 ends_filled).2.1 reported
  exact hunannounced 0 (by decide) (by decide)

/-- The list has 48 entries and ends with the last dword of the space, and is said not to end. -/
theorem full_list_reported :
    filled.Ends ⟨0, 2, 0⟩ 48 ∧
      filled.findCapability ⟨0, 2, 0⟩ 0x0F () =
        ⟨.ok none, (), [.listUnterminated ⟨0, 2, 0⟩]⟩ :=
  ⟨ends_filled, by decide +kernel⟩

end ConfigSpace
end Pci
end CellVisor
