import CellVisor.Proofs.Cpu.Detection

/-!
# CellVisor.Proofs.Cpu.Split

How the detected cores are split between the cells.

* `Divides`: linux has the cores from 0 on, at least one, and windows those after them.
* `divides_of_probe`: whatever a processor reports, between 1 and `maxCores` cores are divided so.
* `linux_owned_of_probe`, `owned_of_probe`: so linux has a core, and windows may have none.
* `isSplit_of_probe`: no core belongs to both cells, and every core of a cell has a mailbox.
* `ownerOf_eq_some_iff`: a core is owned by the cell that has it.
* `probe_exact`: what a processor must answer for each way to count and split its cores.
-/

namespace CellVisor
namespace Topology

variable {σ : Type}

/-- No core belongs to both cells, and no cell reaches past the cores a machine may have. -/
structure IsSplit (topology : Topology) : Prop where
  disjoint : ∀ id core, (topology.ranges.get id).contains core = true →
    (topology.ranges.get id.other).contains core = false
  bounded : ∀ id, (topology.ranges.get id).stop.toNat ≤ maxCores

/-- A division of all `total` cores in which linux has the first ones, and at least one. -/
def Divides (total : UInt32) (topology : Topology) : Prop :=
  topology.total = total ∧ ∃ linux : UInt32, 0 < linux.toNat ∧ linux.toNat ≤ total.toNat ∧
    topology.ranges = ⟨⟨0, linux⟩, ⟨linux, total⟩⟩

theorem ok_of_probe (leaves : Leaves) (linuxCores : Option UInt32) (state : σ) :
    ∃ topology, (probe leaves linuxCores state).outcome = .ok topology := by
  obtain ⟨total, linux, log, hreply, -⟩ := probe_reported leaves linuxCores state
  exact ⟨_, congrArg Reply.outcome hreply⟩

/-- A detection gives its notices and leaves the state alone. -/
theorem probe_eq {leaves : Leaves} {linuxCores : Option UInt32} {state : σ} {topology : Topology}
    (h : (probe leaves linuxCores state).outcome = .ok topology) :
    ∃ log, probe leaves linuxCores state = ⟨.ok topology, state, log⟩ := by
  obtain ⟨total, linux, log, hreply, -⟩ := probe_reported leaves linuxCores state
  rw [hreply] at h ⊢
  cases h
  exact ⟨log, rfl⟩

section Probe

variable {leaves : Leaves} {linuxCores : Option UInt32} {state : σ} {topology : Topology}
  (h : (probe leaves linuxCores state).outcome = .ok topology)

include h

theorem divides_of_probe :
    ∃ total : UInt32, 0 < total.toNat ∧ total.toNat ≤ maxCores ∧ topology.Divides total := by
  obtain ⟨total, linux, log, hreply, htotal, hlinux⟩ := probe_reported leaves linuxCores state
  rw [hreply] at h
  cases h
  have hmax : 0 < maxCores := by decide
  have hpos : 0 < total.toNat := by
    have := (found_reported leaves).pos
    omega
  have hshare := share_pos hpos linuxCores
  rw [← hlinux] at hshare
  exact ⟨total, hpos, by omega, rfl, linux, hshare.1, hshare.2, rfl⟩

theorem isSplit_of_probe : topology.IsSplit := by
  obtain ⟨total, -, htotal, -, linux, -, hlinux, hranges⟩ := divides_of_probe h
  constructor
  · rw [hranges]
    exact fun id _ => disjoint_cut id
  · intro id
    cases id with
    | linux | windows =>
      simp only [hranges, PerCell.get]
      omega

theorem linux_owned_of_probe : (topology.ranges.get .linux).isEmpty = false := by
  obtain ⟨total, -, -, -, linux, hlinux, -, hranges⟩ := divides_of_probe h
  rw [← Bool.not_eq_true, CoreRange.isEmpty_iff, UInt32.le_iff_toNat_le]
  simp only [hranges, PerCell.get, UInt32.toNat_zero]
  omega

/-- Where windows has a core, linux has one too. -/
theorem owned_of_probe (owned : (topology.ranges.get .windows).isEmpty = false) (id : CellId) :
    (topology.ranges.get id).isEmpty = false := by
  cases id with
  | linux => exact linux_owned_of_probe h
  | windows => exact owned

end Probe

/-! ## Owners -/

/-- A core is owned by the cell that has it. -/
theorem ownerOf_eq_some_iff {topology : Topology} (h : topology.IsSplit) {core : UInt32}
    {id : CellId} :
    topology.ownerOf core = some id ↔ (topology.ranges.get id).contains core = true :=
  ownerOf_eq_some_iff_of_disjoint h.disjoint

/-- Some cell has a core exactly if the core is one of those divided. -/
theorem Divides.exists_contains_iff {total : UInt32} {topology : Topology}
    (h : topology.Divides total) {core : UInt32} :
    (∃ id, (topology.ranges.get id).contains core = true) ↔ core.toNat < total.toNat := by
  obtain ⟨-, linux, -, hlinux, hranges⟩ := h
  rw [hranges]
  exact exists_contains_cut_iff hlinux

/-- The cores are counted and split without an error or a halt, whatever a processor answers and
whatever is asked for. There are between 1 and 32 of them: as many as the extended topology leaf
counts, if it does, else as many as leaf 1 counts, else one, and never more than 32. Linux has its
share of them from core 0 on, at least one core, and windows the rest. A core has an owner if it is
one of those counted, and this is the one cell that has it. -/
theorem probe_exact (leaves : Leaves) (linuxCores : Option UInt32) (state : σ) :
    ∃ topology log, probe leaves linuxCores state = ⟨.ok topology, state, log⟩ ∧
      (1 ≤ topology.total.toNat ∧ topology.total.toNat ≤ 32) ∧
      (topology.source = .extendedTopology ↔ ∃ count, leaves.CountsCores count) ∧
      (∀ count, leaves.CountsCores count → topology.total.toNat = min count 32) ∧
      ((¬ ∃ count, leaves.CountsCores count) →
        let count := (leaves 1 0).ebx.toNat / 65536 % 256
        (0 < count → topology.source = .legacy ∧ topology.total.toNat = min count 32) ∧
        (count = 0 → topology.source = .fallback ∧ topology.total.toNat = 1)) ∧
      (∃ linux : UInt32, topology.ranges = ⟨⟨0, linux⟩, ⟨linux, topology.total⟩⟩ ∧
        1 ≤ linux.toNat ∧ linux.toNat = share topology.total.toNat linuxCores) ∧
      (∀ core, (topology.ownerOf core).isSome = true ↔ core.toNat < topology.total.toNat) ∧
      ∀ core id, topology.ownerOf core = some id ↔
        (topology.ranges.get id).contains core = true := by
  obtain ⟨total, linux, log, hreply, htotal, hlinux⟩ := probe_reported leaves linuxCores state
  have hfound := found_reported leaves
  generalize reported leaves = found at hreply htotal hfound
  obtain ⟨count, source⟩ := found
  dsimp only at hreply htotal hfound
  generalize count.toNat = count at htotal hfound
  have hmax : maxCores = 32 := rfl
  have hpos : 0 < total.toNat := by
    have := hfound.pos
    omega
  have hshare := share_pos hpos linuxCores
  have houtcome := congrArg Reply.outcome hreply
  have hdivides : Divides total ⟨total, source, ⟨⟨0, linux⟩, ⟨linux, total⟩⟩⟩ :=
    ⟨rfl, linux, by omega, by omega, rfl⟩
  refine ⟨_, log, hreply, ⟨hpos, ?most⟩, ?source, fun counted counts => ?extended,
    fun uncounted => ?other, ⟨linux, rfl, by omega, hlinux⟩, fun core => ?owned,
    fun core id => ownerOf_eq_some_iff (isSplit_of_probe houtcome)⟩
  case most =>
    dsimp only
    omega
  case source =>
    cases hfound with
    | extendedTopology counts => exact ⟨fun _ => ⟨count, counts⟩, fun _ => rfl⟩
    | legacy uncounted | fallback uncounted =>
      exact iff_of_false (by simp) fun ⟨counted, counts⟩ => uncounted counted counts
  case extended =>
    cases hfound with
    | extendedTopology found =>
      rw [counts.unique found]
      exact htotal
    | legacy uncounted | fallback uncounted => exact absurd counts (uncounted counted)
  case other =>
    cases hfound with
    | extendedTopology counts => exact absurd ⟨count, counts⟩ uncounted
    | legacy _ pos => exact ⟨fun _ => ⟨rfl, htotal⟩, fun unknown => absurd unknown (by omega)⟩
    | fallback _ unknown => exact ⟨fun pos => absurd pos (by omega), fun _ => ⟨rfl, htotal⟩⟩
  case owned =>
    rw [Option.isSome_iff_exists]
    simp only [ownerOf_eq_some_iff (isSplit_of_probe houtcome)]
    exact hdivides.exists_contains_iff

end Topology
end CellVisor
