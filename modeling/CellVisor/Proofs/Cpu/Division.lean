import CellVisor.Cpu.CoreRange
import CellVisor.Cpu.Topology
import CellVisor.Proofs.Action

/-!
# CellVisor.Proofs.Cpu.Division

How any number of cores is divided between the cells, whatever is asked for.

* `share`: how many of the cores linux gets.
* `cut`: the two ranges of a division; a core is in at most one of them (`disjoint_cut`), and in
  some exactly if it is one of the cores that are divided (`exists_contains_cut_iff`).
* `ownerOf_eq_some_iff_of_disjoint`: where no core is in both, the owner of a core is the cell that
  has it.
* `partition_eq`: a division gives linux its share, and reports what it could not meet.
* `partition_exact`: all of it for every number of cores but the greatest, and what becomes of that.
-/

namespace CellVisor
namespace Topology

variable {σ : Type} {topology : Topology} {linux total core : UInt32}

/-! ## A row of cores in two -/

/-- Linux has the cores below `linux`, windows those from there on that are below `total`. -/
def cut (linux total : UInt32) : PerCell CoreRange := ⟨⟨0, linux⟩, ⟨linux, total⟩⟩

theorem contains_linux_cut :
    ((cut linux total).get .linux).contains core = true ↔ core.toNat < linux.toNat := by
  rw [CoreRange.contains_iff]
  exact and_iff_right (Nat.zero_le core.toNat)

theorem contains_windows_cut :
    ((cut linux total).get .windows).contains core = true ↔
      linux.toNat ≤ core.toNat ∧ core.toNat < total.toNat :=
  CoreRange.contains_iff _ _

theorem size_linux_cut (linux total : UInt32) : ((cut linux total).get .linux).size = linux := by
  apply UInt32.toNat.inj
  rw [CoreRange.toNat_size]
  exact Nat.sub_zero linux.toNat

theorem disjoint_cut (id : CellId) (h : ((cut linux total).get id).contains core = true) :
    ((cut linux total).get id.other).contains core = false := by
  rw [← Bool.not_eq_true]
  cases id with
  | linux =>
    rw [contains_linux_cut] at h
    rw [CellId.other, contains_windows_cut]
    omega
  | windows =>
    rw [contains_windows_cut] at h
    rw [CellId.other, contains_linux_cut]
    omega

theorem exists_contains_cut_iff (h : linux.toNat ≤ total.toNat) :
    (∃ id, ((cut linux total).get id).contains core = true) ↔ core.toNat < total.toNat := by
  constructor
  · rintro ⟨id, hcore⟩
    cases id with
    | linux => exact Nat.lt_of_lt_of_le (contains_linux_cut.1 hcore) h
    | windows => exact (contains_windows_cut.1 hcore).2
  · intro hcore
    by_cases hfirst : core.toNat < linux.toNat
    · exact ⟨.linux, contains_linux_cut.2 hfirst⟩
    · exact ⟨.windows, contains_windows_cut.2 ⟨Nat.not_lt.1 hfirst, hcore⟩⟩

/-! ## Owners -/

section Owner

variable (disjoint : ∀ id core, (topology.ranges.get id).contains core = true →
  (topology.ranges.get id.other).contains core = false)

include disjoint

/-- The first cell that has a core is the only one. -/
theorem ownerOf_eq_some_iff_of_disjoint {id : CellId} :
    topology.ownerOf core = some id ↔ (topology.ranges.get id).contains core = true := by
  unfold ownerOf CellId.all
  rw [List.find?_cons, List.find?_singleton]
  cases first : (topology.ranges.get .linux).contains core with
  | true =>
    have hwindows := disjoint .linux core first
    rw [CellId.other] at hwindows
    cases id <;> simp [first, hwindows]
  | false => cases id <;> simp [first]

theorem ownerOf_eq_some_iff_only {id : CellId} :
    topology.ownerOf core = some id ↔
      ∀ other, (topology.ranges.get other).contains core = true ↔ other = id := by
  rw [ownerOf_eq_some_iff_of_disjoint disjoint]
  constructor
  · intro howns other
    refine ⟨fun hother => ?_, fun hsame => hsame ▸ howns⟩
    refine (CellId.eq_or_eq_other other id).resolve_right fun hopposite => ?_
    have hnot := disjoint id core howns
    rw [← hopposite, hother] at hnot
    cases hnot
  · intro honly
    exact (honly id).2 rfl

theorem isSome_ownerOf_iff :
    (topology.ownerOf core).isSome = true ↔
      ∃ id, (topology.ranges.get id).contains core = true := by
  rw [Option.isSome_iff_exists]
  exact exists_congr fun _ => ownerOf_eq_some_iff_of_disjoint disjoint

end Owner

/-! ## The division -/

/-- How many of `total` cores linux gets: as many as are asked for, if there are as many, else half
of them, rounded up. -/
def share (total : Nat) : Option UInt32 → Nat
  | some count =>
    if 1 ≤ count.toNat ∧ count.toNat ≤ total then count.toNat else (total + 1) / 2
  | none => (total + 1) / 2

theorem share_le (total : Nat) (linuxCores : Option UInt32) : share total linuxCores ≤ total := by
  cases linuxCores with
  | none => simp only [share]; omega
  | some count =>
    simp only [share]
    split <;> omega

theorem share_pos {total : Nat} (h : 0 < total) (linuxCores : Option UInt32) :
    0 < share total linuxCores ∧ share total linuxCores ≤ total := by
  refine ⟨?_, share_le total linuxCores⟩
  cases linuxCores with
  | none => simp only [share]; omega
  | some count =>
    simp only [share]
    split <;> omega

/-- What is said of a request that there are not the cores for. -/
def refusals (total : UInt32) : Option UInt32 → List Notice
  | some count =>
    if 1 ≤ count.toNat ∧ count.toNat ≤ total.toNat then [] else [.splitRefused count total]
  | none => []

/-- What is said where windows gets no cores. -/
def vacancies (windows : CoreRange) : List Notice :=
  if windows.isEmpty then [.windowsOwnsNoCores] else []

theorem partition_eq (h : total.toNat + 1 < UInt32.size) (source : CountSource)
    (linuxCores : Option UInt32) (state : σ) :
    ∃ linux, linux.toNat = share total.toNat linuxCores ∧
      partition total source linuxCores state =
        ⟨.ok ⟨total, source, cut linux total⟩, state,
          refusals total linuxCores ++ vacancies ⟨linux, total⟩⟩ := by
  obtain ⟨next, hnext⟩ : ∃ next, Word.succ? total = some next := by
    cases hsucc : Word.succ? total with
    | none => exact absurd (Word.succ?_eq_none_iff.1 hsucc) (Nat.not_le.2 h)
    | some next => exact ⟨next, rfl⟩
  have heven : (next / 2).toNat = (total.toNat + 1) / 2 := by
    rw [UInt32.toNat_div, ← Word.succ?_eq_some_iff.1 hnext]
    rfl
  have divided (linux : UInt32) :
      (if CoreRange.isEmpty ⟨linux, total⟩ then do
        Action.note .windowsOwnsNoCores
        pure ⟨total, source, cut linux total⟩
      else
        pure ⟨total, source, cut linux total⟩ : Action σ Topology) state =
        ⟨.ok ⟨total, source, cut linux total⟩, state, vacancies ⟨linux, total⟩⟩ := by
    unfold vacancies
    split <;> rfl
  have asked (count : UInt32) : (0 < count ∧ count ≤ total) ↔
      1 ≤ count.toNat ∧ count.toNat ≤ total.toNat := by
    rw [UInt32.lt_iff_toNat_lt, UInt32.le_iff_toNat_le]
    rfl
  have hword : Action.word (Word.succ? total) state = ⟨.ok next, state, []⟩ := by
    rw [hnext]
    rfl
  unfold partition
  rw [Action.bind_of_ok hword, Reply.after_nil]
  cases linuxCores with
  | none => exact ⟨next / 2, heven, divided (next / 2)⟩
  | some count =>
    dsimp only [share, refusals]
    by_cases hmet : 1 ≤ count.toNat ∧ count.toNat ≤ total.toNat
    · rw [if_pos hmet, if_pos hmet, if_pos ((asked count).2 hmet)]
      exact ⟨count, rfl, divided count⟩
    · rw [if_neg hmet, if_neg hmet, if_neg (mt (asked count).1 hmet)]
      refine ⟨next / 2, heven, ?_⟩
      rw [Action.note_bind, Action.bind_of_ok (Action.pure_apply (next / 2) state),
        Reply.after_nil]
      exact congrArg (Reply.after · [.splitRefused count total]) (divided (next / 2))

/-- Half of the cores, rounded up, is taken from a sum, and it is taken whether it is needed or
not. -/
theorem partition_of_greatest (source : CountSource) (linuxCores : Option UInt32) (state : σ) :
    partition 0xFFFFFFFF source linuxCores state = ⟨.fault .overflow, state, []⟩ := rfl

/-- Any number of cores is divided without an error or a halt, unless it is the greatest that a word
holds. Linux has its cores from 0 on, as many as were asked for, if there are as many and at least
one, and else half of all, rounded up. Windows has the others, no core belongs to both, and a core
has an owner if it is one of those divided: the one cell that has it. A request that was not met is
reported, and so is a windows without cores. With the greatest number the division halts, whatever
is asked for. -/
theorem partition_exact (total : UInt32) (source : CountSource) (linuxCores : Option UInt32)
    (state : σ) :
    (total = 0xFFFFFFFF →
      partition total source linuxCores state = ⟨.fault .overflow, state, []⟩) ∧
    (total ≠ 0xFFFFFFFF → ∃ topology,
      partition total source linuxCores state =
        ⟨.ok topology, state,
          refusals total linuxCores ++ vacancies (topology.ranges.get .windows)⟩ ∧
      (topology.total = total ∧ topology.source = source) ∧
      (∀ id core, (topology.ranges.get id).contains core = true →
        (topology.ranges.get id.other).contains core = false) ∧
      (∀ core, (∃ id, (topology.ranges.get id).contains core = true) ↔
        core.toNat < total.toNat) ∧
      ((∀ count, linuxCores = some count → 1 ≤ count.toNat → count.toNat ≤ total.toNat →
          (topology.ranges.get .linux).size = count) ∧
        ((∀ count, linuxCores = some count → ¬ (1 ≤ count.toNat ∧ count.toNat ≤ total.toNat)) →
          (topology.ranges.get .linux).size.toNat = (total.toNat + 1) / 2)) ∧
      (∀ core, (topology.ownerOf core).isSome = true ↔ core.toNat < total.toNat) ∧
      ∀ core id, topology.ownerOf core = some id ↔
        ∀ other, (topology.ranges.get other).contains core = true ↔ other = id) := by
  constructor
  · rintro rfl
    exact partition_of_greatest source linuxCores state
  intro hless
  have hfits : total.toNat + 1 < UInt32.size := by
    have hlt := total.toNat_lt_size
    have hne : total.toNat ≠ UInt32.size - 1 := fun h => hless (UInt32.toNat.inj h)
    omega
  obtain ⟨linux, hlinux, hreply⟩ := partition_eq hfits source linuxCores state
  have hle : linux.toNat ≤ total.toNat := hlinux ▸ share_le total.toNat linuxCores
  let topology : Topology := ⟨total, source, cut linux total⟩
  have hdisjoint : ∀ id core, (topology.ranges.get id).contains core = true →
      (topology.ranges.get id.other).contains core = false := fun id _ => disjoint_cut id
  refine ⟨topology, hreply, ⟨rfl, rfl⟩, hdisjoint,
    fun core => exists_contains_cut_iff hle, ⟨?asked, ?even⟩, fun core => ?owned,
    fun core id => ownerOf_eq_some_iff_only hdisjoint⟩
  case asked =>
    rintro count rfl hpos hcount
    rw [size_linux_cut]
    exact UInt32.toNat.inj (hlinux.trans (if_pos ⟨hpos, hcount⟩))
  case even =>
    intro hunmet
    rw [size_linux_cut, hlinux]
    cases linuxCores with
    | none => rfl
    | some count => exact if_neg (hunmet count rfl)
  case owned =>
    rw [isSome_ownerOf_iff hdisjoint]
    exact exists_contains_cut_iff hle

/-- The sum that halts the division is not needed here, since 8 of the cores are asked for. -/
theorem partition_halts_asked :
    ((1 : UInt32) ≤ 8 ∧ (8 : UInt32) ≤ 0xFFFFFFFF) ∧
      partition 0xFFFFFFFF .extendedTopology (some 8) () = ⟨.fault .overflow, (), []⟩ :=
  ⟨by decide, partition_of_greatest .extendedTopology (some 8) ()⟩

end Topology
end CellVisor
