import CellVisor.Barrier
import CellVisor.Proofs.Bits
import Mathlib.Data.List.Perm.Subperm

/-!
# CellVisor.Proofs.Barrier.Pending

The cores that a rendezvous waits for, as a list in place of the bits of a word.

* `Listed`: the lists that a word can stand for.
* `trailingZeros_mask`, `mask_and_pred`, `mask_and_not_bit`: the steps on the word take the first
  core of the list, go on to those after it, and remove one.
* `pollAll`, `await`: a round and the wait on the list.
* `poll_mask`, `wait_mask`: on the word the same cores are asked, one after the other, and the same
  ones are left.
-/

namespace CellVisor
namespace Barrier

/-! ## The word -/

/-- The cores stand in ascending order, and each has its bit in a word. -/
structure Listed (cores : List UInt32) : Prop where
  ascending : cores.Pairwise (· < ·)
  narrow : ∀ core ∈ cores, core.toNat < 64

section Mask

variable {core : UInt32} {cores before rest : List UInt32}

theorem Listed.sublist {late : List UInt32} (h : Listed cores) (hsub : late.Sublist cores) :
    Listed late where
  ascending := h.ascending.sublist hsub
  narrow core hcore := h.narrow core (hsub.subset hcore)

theorem Listed.nodup (h : Listed cores) : cores.Nodup :=
  h.ascending.imp fun hlt => UInt32.ne_of_lt hlt

theorem Listed.length_le (h : Listed cores) : cores.length ≤ 64 := by
  have hnodup : (cores.map UInt32.toNat).Nodup :=
    h.ascending.map UInt32.toNat fun _ _ hlt => Nat.ne_of_lt (UInt32.lt_iff_toNat_lt.1 hlt)
  have hsubset : cores.map UInt32.toNat ⊆ List.range 64 := by
    intro n hn
    obtain ⟨core, hcore, rfl⟩ := List.mem_map.1 hn
    exact List.mem_range.2 (h.narrow core hcore)
  have hlength := (hnodup.subperm hsubset).length_le
  rwa [List.length_map, List.length_range] at hlength

theorem listed_toList {range : CoreRange} (narrow : range.stop ≤ width) : Listed range.toList where
  ascending := range.pairwise_toList
  narrow core hcore :=
    have hbounds := (range.contains_iff core).1 ((range.mem_toList core).1 hcore)
    Nat.lt_of_lt_of_le hbounds.2 (UInt32.le_iff_toNat_le.1 narrow)

theorem getLsbD_bit (narrow : core.toNat < 64) (i : Nat) :
    (bit core).toBitVec.getLsbD i = true ↔ core.toNat = i := by
  have hcore : (core.toUInt64.toBitVec % 64).toNat = core.toNat := by
    simp [Nat.mod_eq_of_lt narrow]
  rw [bit, UInt64.toBitVec_shiftLeft, BitVec.shiftLeft_eq', BitVec.getLsbD_shiftLeft, hcore]
  show (_ && _ && (1#64).getLsbD _) = true ↔ _
  rw [BitVec.getLsbD_one]
  simp only [Bool.and_eq_true, Bool.not_eq_true', decide_eq_true_eq, decide_eq_false_iff_not]
  omega

/-- The bits that are set are those of the cores. -/
theorem getLsbD_mask (narrow : ∀ core ∈ cores, core.toNat < 64) (i : Nat) :
    (mask cores).toBitVec.getLsbD i = true ↔ ∃ core ∈ cores, core.toNat = i := by
  induction cores with
  | nil => simp [mask]
  | cons first rest ih =>
    obtain ⟨hfirst, hrest⟩ := List.forall_mem_cons.1 narrow
    show (mask rest ||| bit first).toBitVec.getLsbD i = true ↔ _
    rw [UInt64.toBitVec_or, BitVec.getLsbD_or, Bool.or_eq_true, ih hrest, getLsbD_bit hfirst]
    simp [or_comm]

theorem mask_eq_zero_iff (narrow : ∀ core ∈ cores, core.toNat < 64) :
    mask cores = 0 ↔ cores = [] := by
  constructor
  · intro h
    refine List.eq_nil_iff_forall_not_mem.2 fun core hcore => ?_
    have hbit := (getLsbD_mask narrow core.toNat).2 ⟨core, hcore, rfl⟩
    rw [h] at hbit
    simp at hbit
  · rintro rfl
    rfl

/-- The lowest bit is that of the first core. -/
theorem trailingZeros_mask (h : Listed (core :: rest)) :
    Word.trailingZeros (mask (core :: rest)) = core := by
  refine Word.trailingZeros_eq (h.narrow core (List.mem_cons_self ..)) ?_ fun j hj => ?_
  · exact (getLsbD_mask h.narrow core.toNat).2 ⟨core, List.mem_cons_self .., rfl⟩
  · rw [← Bool.not_eq_true, getLsbD_mask h.narrow]
    rintro ⟨other, hother, rfl⟩
    rcases List.mem_cons.1 hother with rfl | hrest
    · exact Nat.lt_irrefl _ hj
    · exact Nat.lt_asymm hj (UInt32.lt_iff_toNat_lt.1 (List.rel_of_pairwise_cons h.ascending hrest))

/-- Without its lowest bit the word stands for the cores after the first. -/
theorem mask_and_pred (h : Listed (core :: rest)) :
    mask (core :: rest) &&& (mask (core :: rest) - 1) = mask rest := by
  have hrest : ∀ other ∈ rest, other.toNat < 64 := (List.forall_mem_cons.1 h.narrow).2
  refine Word.eq_of_getLsbD_iff fun i => ?_
  rw [Word.getLsbD_and_pred, getLsbD_mask h.narrow, getLsbD_mask hrest]
  constructor
  · rintro ⟨⟨other, hother, rfl⟩, j, hj, hlower⟩
    rw [getLsbD_mask h.narrow] at hlower
    obtain ⟨lower, hlower, rfl⟩ := hlower
    rcases List.mem_cons.1 hother with rfl | hrest
    · -- no core of the list is below the first
      rcases List.mem_cons.1 hlower with rfl | hlower
      · exact absurd hj (Nat.lt_irrefl _)
      · exact absurd hj (Nat.lt_asymm
          (UInt32.lt_iff_toNat_lt.1 (List.rel_of_pairwise_cons h.ascending hlower)))
    · exact ⟨other, hrest, rfl⟩
  · rintro ⟨other, hother, rfl⟩
    refine ⟨⟨other, List.mem_cons_of_mem _ hother, rfl⟩, core.toNat, ?_, ?_⟩
    · exact UInt32.lt_iff_toNat_lt.1 (List.rel_of_pairwise_cons h.ascending hother)
    · exact (getLsbD_mask h.narrow _).2 ⟨core, List.mem_cons_self .., rfl⟩

/-- Clearing the bit of a core removes it from the list. -/
theorem mask_and_not_bit (h : Listed (before ++ core :: rest)) :
    mask (before ++ core :: rest) &&& ~~~bit core = mask (before ++ rest) := by
  have hcore : core.toNat < 64 :=
    h.narrow core (List.mem_append_right _ (List.mem_cons_self ..))
  have hremoved : core ∉ before ++ rest := 
    (List.nodup_cons.1 (List.perm_middle.nodup_iff.1 h.nodup)).1
  have hkept : (before ++ rest).Sublist (before ++ core :: rest) :=
    (List.sublist_cons_self core rest).append_left before
  refine Word.eq_of_getLsbD_iff fun i => ?_
  rw [UInt64.toBitVec_and, UInt64.toBitVec_not, BitVec.getLsbD_and, BitVec.getLsbD_not,
    Bool.and_eq_true, getLsbD_mask h.narrow, getLsbD_mask (h.sublist hkept).narrow]
  constructor
  · rintro ⟨⟨other, hother, rfl⟩, hclear⟩
    rcases List.mem_cons.1 (List.perm_middle.mem_iff.1 hother) with rfl | hother
    · rw [(getLsbD_bit hcore _).2 rfl] at hclear
      simp at hclear
    · exact ⟨other, hother, rfl⟩
  · rintro ⟨other, hother, rfl⟩
    have hbit : (bit core).toBitVec.getLsbD other.toNat = false := by
      rw [← Bool.not_eq_true, getLsbD_bit hcore]
      intro heq
      exact hremoved (UInt32.toNat.inj heq ▸ hother)
    have hnarrow := h.narrow other (hkept.subset hother)
    refine ⟨⟨other, hkept.subset hother, rfl⟩, ?_⟩
    rw [hbit, decide_eq_true hnarrow]
    rfl

end Mask

/-! ## The rounds -/

variable {M : Type} [Machine M]

/-- Asks the cores one after the other, and gives those that did not answer. -/
def pollAll (signal : Signal) : List UInt32 → M → List UInt32 × M
  | [], machine => ([], machine)
  | core :: rest, machine =>
    let (answered, machine) := Machine.acknowledged core signal machine
    let (pending, machine) := pollAll signal rest machine
    (if answered then pending else core :: pending, machine)

/-- The wait with a list of the cores that have not answered. -/
def await (signal : Signal) (timeout start : UInt64) :
    Nat → List UInt32 → M → Reply M (List UInt32)
  | 0, pending, machine => ⟨.ok pending, machine, []⟩
  | rounds + 1, pending, machine =>
    let (pending, machine) := pollAll signal pending machine
    if pending.isEmpty then ⟨.ok [], machine, []⟩
    else match Machine.now machine with
      | none => ⟨.fault .overflow, machine, []⟩
      | some (now, machine) =>
        if timeout ≤ Word.subClamped now start then ⟨.ok pending, machine, []⟩
        else await signal timeout start rounds pending machine

theorem pollAll_sublist (signal : Signal) (cores : List UInt32) (machine : M) :
    (pollAll signal cores machine).1.Sublist cores := by
  induction cores generalizing machine with
  | nil => exact .slnil
  | cons core rest ih =>
    unfold pollAll
    dsimp only
    split
    · exact (ih _).cons core
    · exact (ih _).cons_cons core

/-- `before` are the cores of the round that were asked and did not answer. -/
theorem poll_mask_append (signal : Signal) {before list : List UInt32} {turns : Nat}
    (h : Listed (before ++ list)) (hturns : list.length ≤ turns) (machine : M) :
    poll signal turns (mask list) (mask (before ++ list)) machine =
      (mask (before ++ (pollAll signal list machine).1), (pollAll signal list machine).2) := by
  induction list generalizing before turns machine with
  | nil =>
    cases turns <;> rfl
  | cons core rest ih =>
    obtain ⟨turns, rfl⟩ := Nat.exists_eq_add_one_of_ne_zero (Nat.ne_zero_of_lt hturns)
    have hlist : Listed (core :: rest) := h.sublist (List.sublist_append_right ..)
    have hwaiting : mask (core :: rest) ≠ 0 :=
      fun hzero => List.cons_ne_nil _ _ ((mask_eq_zero_iff hlist.narrow).1 hzero)
    rw [poll, if_neg hwaiting, trailingZeros_mask hlist, mask_and_pred hlist, pollAll]
    dsimp only
    split
    · rw [mask_and_not_bit h]
      exact ih (h.sublist ((List.sublist_cons_self core rest).append_left before))
        (Nat.le_of_succ_le_succ hturns) _
    · rw [List.append_cons] at h ⊢
      rw [ih h (Nat.le_of_succ_le_succ hturns), ← List.append_cons]

theorem poll_mask (signal : Signal) {pending : List UInt32} (h : Listed pending) (machine : M) :
    poll signal width.toNat (mask pending) (mask pending) machine =
      (mask (pollAll signal pending machine).1, (pollAll signal pending machine).2) :=
  @poll_mask_append _ _ signal [] _ _ h h.length_le machine

/-- On the word the same cores are asked, in the same order, and the same ones are left. -/
theorem wait_mask (signal : Signal) (timeout start : UInt64) (rounds : Nat) {pending : List UInt32}
    (h : Listed pending) (machine : M) :
    wait signal timeout start rounds (mask pending) machine =
      (await signal timeout start rounds pending machine).andThen fun late => pure (mask late) := by
  induction rounds generalizing pending machine with
  | zero => rfl
  | succ rounds ih =>
    have hlate := h.sublist (pollAll_sublist signal pending machine)
    rw [await, wait, poll_mask signal h]
    dsimp only
    by_cases hempty : (pollAll signal pending machine).1 = []
    · rw [hempty]
      rfl
    rw [if_neg (mt (mask_eq_zero_iff hlate.narrow).1 hempty),
      if_neg (mt List.isEmpty_iff.1 hempty)]
    cases Machine.now (pollAll signal pending machine).2 with
    | none => rfl
    | some reading =>
      dsimp only
      split
      · rfl
      · exact ih hlate _

end Barrier
end CellVisor
