import CellVisor.Proofs.Cpu.Division

/-!
# CellVisor.Proofs.Cpu.Detection

How many cores a processor is found to have, whatever it answers.

* `Leaves.CountsCores`: what it takes for the extended topology leaf to count the cores;
  `extendedCount_eq_some_iff`: this is the count that is taken from it.
* `Topology.Found`: where a count comes from, and `found_reported` that the reported one comes from
  there.
* `detect_eq`: what is detected is reported and not more than a machine may have.
* `probe_reported`: these cores are divided, and nothing of it fails or halts.
-/

namespace CellVisor
namespace Leaves

variable {leaves : Leaves}

/-! ## The extended topology leaf -/

theorem toNat_levelType (leaf : Leaf) : (levelType leaf).toNat = leaf.ecx.toNat / 256 % 256 := by
  have hmask (n : Nat) : n &&& 255 = n % 256 := Nat.and_two_pow_sub_one_eq_mod n 8
  simp [levelType, Nat.shiftRight_eq_div_pow, hmask]

theorem toNat_levelCount (leaf : Leaf) : (leaf.ebx &&& 0xFFFF).toNat = leaf.ebx.toNat % 65536 := by
  have hmask (n : Nat) : n &&& 65535 = n % 65536 := Nat.and_two_pow_sub_one_eq_mod n 16
  simp [hmask]

/-- The type of a level: 0 ends the list, 2 is the level of cores. -/
def typeAt (leaves : Leaves) (level : Nat) : Nat :=
  (leaves 0x0B (UInt32.ofNat level)).ecx.toNat / 256 % 256

/-- How many cores a level has. -/
def countAt (leaves : Leaves) (level : Nat) : Nat :=
  (leaves 0x0B (UInt32.ofNat level)).ebx.toNat % 65536

theorem coreLevelCount_of_end {first : Nat} (ends : leaves.typeAt first = 0)
    (rest : List UInt32) : leaves.coreLevelCount (UInt32.ofNat first :: rest) = none := by
  have htype : levelType (leaves 0x0B (UInt32.ofNat first)) = 0 :=
    UInt32.toNat.inj ((toNat_levelType _).trans ends)
  rw [coreLevelCount, if_pos htype]

theorem coreLevelCount_of_cores {first : Nat} (cores : leaves.typeAt first = 2)
    (rest : List UInt32) {count : UInt32} :
    leaves.coreLevelCount (UInt32.ofNat first :: rest) = some count ↔
      0 < count.toNat ∧ leaves.countAt first = count.toNat := by
  have htype : levelType (leaves 0x0B (UInt32.ofNat first)) = 2 :=
    UInt32.toNat.inj ((toNat_levelType _).trans cores)
  have hcount := toNat_levelCount (leaves 0x0B (UInt32.ofNat first))
  rw [coreLevelCount, htype, if_neg (by decide), if_pos rfl, countAt, ← hcount]
  generalize (leaves 0x0B (UInt32.ofNat first)).ebx &&& 0xFFFF = reported
  dsimp only
  rw [UInt32.toNat_inj]
  split
  · rename_i hzero
    simp only [reduceCtorEq, false_iff]
    rintro ⟨hpos, rfl⟩
    rw [hzero] at hpos
    exact absurd hpos (by decide)
  · rename_i hne
    rw [Option.some.injEq]
    refine ⟨?_, And.right⟩
    rintro rfl
    exact ⟨Nat.pos_of_ne_zero fun hzero => hne (UInt32.toNat.inj hzero), rfl⟩

theorem coreLevelCount_of_other {first : Nat} (goesOn : leaves.typeAt first ≠ 0)
    (other : leaves.typeAt first ≠ 2) (rest : List UInt32) :
    leaves.coreLevelCount (UInt32.ofNat first :: rest) = leaves.coreLevelCount rest := by
  have htype := toNat_levelType (leaves 0x0B (UInt32.ofNat first))
  rw [coreLevelCount, if_neg fun hzero => goesOn (by rw [typeAt, ← htype, hzero]; rfl),
    if_neg fun htwo => other (by rw [typeAt, ← htype, htwo]; rfl)]

/-- From `first` on, `level` is the first level of cores, and the list does not end before it. -/
structure FirstCores (leaves : Leaves) (first level : Nat) : Prop where
  le : first ≤ level
  cores : leaves.typeAt level = 2
  before : ∀ earlier, first ≤ earlier → earlier < level →
    leaves.typeAt earlier ≠ 2 ∧ leaves.typeAt earlier ≠ 0

theorem firstCores_of_cores {first level : Nat} (cores : leaves.typeAt first = 2) :
    leaves.FirstCores first level ↔ level = first := by
  constructor
  · intro h
    refine Nat.le_antisymm (Nat.le_of_not_lt fun hlt => ?_) h.le
    exact (h.before first (Nat.le_refl _) hlt).1 cores
  · rintro rfl
    exact ⟨Nat.le_refl _, cores, fun earlier hle hlt => absurd hle (Nat.not_le.2 hlt)⟩

theorem firstCores_of_other {first level : Nat} (other : leaves.typeAt first ≠ 2) :
    leaves.FirstCores first level ↔
      leaves.typeAt first ≠ 0 ∧ leaves.FirstCores (first + 1) level := by
  constructor
  · intro h
    have hlt : first < level := Nat.lt_of_le_of_ne h.le fun heq => other (heq ▸ h.cores)
    exact ⟨(h.before first (Nat.le_refl _) hlt).2, hlt, h.cores,
      fun earlier hle => h.before earlier (Nat.le_of_succ_le hle)⟩
  · rintro ⟨goesOn, h⟩
    refine ⟨Nat.le_of_succ_le h.le, h.cores, fun earlier hle hlt => ?_⟩
    rcases Nat.eq_or_lt_of_le hle with rfl | hlater
    · exact ⟨other, goesOn⟩
    · exact h.before earlier hlater hlt

theorem coreLevelCount_eq_some_iff {count : UInt32} (first levels : Nat) :
    leaves.coreLevelCount ((List.range' first levels).map UInt32.ofNat) = some count ↔
      0 < count.toNat ∧ ∃ level < first + levels, leaves.FirstCores first level ∧
        leaves.countAt level = count.toNat := by
  induction levels generalizing first with
  | zero =>
    simp only [List.range'_zero, List.map_nil, coreLevelCount, reduceCtorEq, false_iff]
    rintro ⟨-, level, hlt, hfirst, -⟩
    exact absurd hfirst.le (Nat.not_le.2 hlt)
  | succ levels ih =>
    have hlast : first + 1 + levels = first + (levels + 1) := by omega
    rw [List.range'_succ, List.map_cons]
    by_cases hcores : leaves.typeAt first = 2
    · simp only [coreLevelCount_of_cores hcores, firstCores_of_cores hcores]
      refine and_congr_right fun _ => ⟨fun h => ⟨first, by omega, rfl, h⟩, ?_⟩
      rintro ⟨_, -, rfl, h⟩
      exact h
    · simp only [firstCores_of_other hcores]
      by_cases hend : leaves.typeAt first = 0
      · simp [coreLevelCount_of_end hend, hend]
      · simp only [coreLevelCount_of_other hend hcores, ih, hlast, hend, ne_eq,
          not_false_eq_true, true_and]

/-- The processor has the extended topology leaf, and the first level of cores among its eight
levels, which the list does not end before, has `count` cores, at least one. -/
def CountsCores (leaves : Leaves) (count : Nat) : Prop :=
  0x0B ≤ (leaves 0 0).eax.toNat ∧ 0 < count ∧
    ∃ level < 8, leaves.FirstCores 0 level ∧ leaves.countAt level = count

theorem CountsCores.lt_size {count : Nat} (h : leaves.CountsCores count) :
    count < UInt32.size := by
  obtain ⟨-, -, level, -, -, rfl⟩ := h
  exact Nat.lt_trans (Nat.mod_lt _ (by decide)) (by decide : 65536 < UInt32.size)

theorem extendedCount_eq_some_iff {count : UInt32} :
    leaves.extendedCount = some count ↔ leaves.CountsCores count.toNat := by
  have hlevels : List.range 8 = List.range' 0 8 := rfl
  unfold extendedCount CountsCores
  split
  · rename_i hlt
    have hlt : (leaves 0 0).eax.toNat < 0x0B := UInt32.lt_iff_toNat_lt.1 hlt
    simp only [reduceCtorEq, false_iff]
    omega
  · rename_i hge
    have hge : 0x0B ≤ (leaves 0 0).eax.toNat := UInt32.le_iff_toNat_le.1 (UInt32.not_lt.1 hge)
    rw [hlevels, coreLevelCount_eq_some_iff, and_iff_right hge, Nat.zero_add]

theorem CountsCores.unique {count other : Nat} (h : leaves.CountsCores count)
    (hother : leaves.CountsCores other) : count = other := by
  have hcount := UInt32.toNat_ofNat_of_lt' h.lt_size
  have hother' := UInt32.toNat_ofNat_of_lt' hother.lt_size
  rw [← hcount, ← extendedCount_eq_some_iff] at h
  rw [← hother', ← extendedCount_eq_some_iff, h] at hother
  rw [← hcount, ← hother', Option.some.inj hother]

/-! ## Leaf 1 -/

/-- The count of logical processors in leaf 1. -/
theorem toNat_legacyCount (leaves : Leaves) :
    leaves.legacyCount.toNat = (leaves 1 0).ebx.toNat / 65536 % 256 := by
  have hmask (n : Nat) : n &&& 255 = n % 256 := Nat.and_two_pow_sub_one_eq_mod n 8
  simp [legacyCount, Nat.shiftRight_eq_div_pow, hmask]

end Leaves

namespace Topology

variable {σ : Type} {leaves : Leaves}

/-! ## Detection -/

/-- What a processor is found to have: as many cores as the extended topology leaf counts, else as
leaf 1 counts, else one. -/
inductive Found (leaves : Leaves) : Nat → CountSource → Prop where
  | extendedTopology {count : Nat} (counts : leaves.CountsCores count) :
      Found leaves count .extendedTopology
  | legacy (uncounted : ∀ count, ¬ leaves.CountsCores count)
      (pos : 0 < (leaves 1 0).ebx.toNat / 65536 % 256) :
      Found leaves ((leaves 1 0).ebx.toNat / 65536 % 256) .legacy
  | fallback (uncounted : ∀ count, ¬ leaves.CountsCores count)
      (unknown : (leaves 1 0).ebx.toNat / 65536 % 256 = 0) : Found leaves 1 .fallback

theorem Found.pos {count : Nat} {source : CountSource} (h : Found leaves count source) :
    0 < count := by
  cases h with
  | extendedTopology counts => exact counts.2.1
  | legacy _ pos => exact pos
  | fallback => exact Nat.one_pos

theorem found_reported (leaves : Leaves) :
    Found leaves (reported leaves).1.toNat (reported leaves).2 := by
  unfold reported
  cases hextended : leaves.extendedCount with
  | some count => exact .extendedTopology (Leaves.extendedCount_eq_some_iff.1 hextended)
  | none =>
    have uncounted : ∀ count, ¬ leaves.CountsCores count := by
      intro count counts
      rw [← UInt32.toNat_ofNat_of_lt' counts.lt_size, ← Leaves.extendedCount_eq_some_iff,
        hextended] at counts
      cases counts
    dsimp only
    split
    · rename_i hzero
      refine .fallback uncounted ?_
      rw [← Leaves.toNat_legacyCount, hzero]
      rfl
    · rename_i hne
      rw [Leaves.toNat_legacyCount]
      refine .legacy uncounted ?_
      rw [← Leaves.toNat_legacyCount]
      exact Nat.pos_of_ne_zero fun hzero => hne (UInt32.toNat.inj hzero)

theorem detect_eq (leaves : Leaves) (state : σ) :
    ∃ total log, detect leaves state = ⟨.ok (total, (reported leaves).2), state, log⟩ ∧
      total.toNat = min (reported leaves).1.toNat maxCores := by
  have clamped : ∃ total log,
      (if maxCores < (reported leaves).1.toNat then do
        Action.note (.coresClamped (reported leaves).1)
        pure (UInt32.ofNat maxCores, (reported leaves).2)
      else
        pure ((reported leaves).1, (reported leaves).2) : Action σ (UInt32 × CountSource)) state =
        ⟨.ok (total, (reported leaves).2), state, log⟩ ∧
        total.toNat = min (reported leaves).1.toNat maxCores := by
    split
    · rename_i hmany
      exact ⟨_, _, rfl, (Nat.min_eq_right (Nat.le_of_lt hmany)).symm⟩
    · rename_i hfew
      exact ⟨_, _, rfl, (Nat.min_eq_left (Nat.not_lt.1 hfew)).symm⟩
  obtain ⟨total, log, hreply, htotal⟩ := clamped
  unfold detect
  dsimp only
  split
  · refine ⟨total, [.topologyUnavailable] ++ log, ?_, htotal⟩
    rw [Action.note_bind, hreply, Reply.after_mk]
  · exact ⟨total, log, hreply, htotal⟩

/-! ## Detection and division -/

/-- Whatever a processor answers its cores are counted and split, without an error or a halt. -/
theorem probe_reported (leaves : Leaves) (linuxCores : Option UInt32) (state : σ) :
    ∃ (total linux : UInt32) (log : List Notice), probe leaves linuxCores state =
      ⟨.ok ⟨total, (reported leaves).2, ⟨⟨0, linux⟩, ⟨linux, total⟩⟩⟩, state, log⟩ ∧
        total.toNat = min (reported leaves).1.toNat maxCores ∧
        linux.toNat = share total.toNat linuxCores := by
  obtain ⟨total, log, hdetect, htotal⟩ := detect_eq leaves state
  have hfits : total.toNat + 1 < UInt32.size := by
    have hmax : maxCores + 1 < UInt32.size := by decide
    omega
  obtain ⟨linux, hlinux, hpartition⟩ :=
    partition_eq hfits (reported leaves).2 linuxCores state
  refine ⟨total, linux, log ++ (refusals total linuxCores ++ vacancies ⟨linux, total⟩ ++
    [.coresSplit total (reported leaves).2 ⟨0, linux⟩ ⟨linux, total⟩]), ?_, htotal, hlinux⟩
  unfold probe
  rw [Action.bind_of_ok hdetect]
  dsimp only
  rw [Action.bind_of_ok hpartition]
  rfl

end Topology
end CellVisor
