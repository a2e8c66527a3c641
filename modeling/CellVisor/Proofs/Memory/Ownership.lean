import CellVisor.Memory.Partition
import CellVisor.Proofs.Memory.Bump

/-!
# CellVisor.Proofs.Memory.Ownership

Who owns an address in a partition that is built from an accepted configuration. `ownerOf` takes the
first region that has the address and `isOwnedBy` looks at one region only; they agree since no
address is in two of them.

* `ownerOf_eq_some_iff`, `ownerOf_of_contains`: the owner of an address is the owner of the part
  that the address is in.
* `state_serve`: a request does to the allocator what it would do to it alone, and nothing else.
* `run_owned`: whatever is allocated, the cells own their memory, nobody owns the stores, and what
  has been handed out belongs to the hypervisor.
-/

namespace CellVisor

/-- Whom a part belongs to. A partition has no regions for the stores. -/
def Config.Holding.regionOwner? : Config.Holding → Option RegionOwner
  | hypervisor => some .hypervisor
  | memory id => some (.cell id)
  | store _ => none

namespace MemoryPartition

open Bump (Ledger Request)

theorem mem_regions {partition : MemoryPartition} {region : Region} :
    region ∈ partition.regions ↔
      region = partition.hypervisor ∨ ∃ id, region = partition.cells.get id := by
  simp only [regions, PerCell.toList, List.cons_append, List.nil_append, List.mem_cons,
    List.not_mem_nil, or_false]
  constructor
  · rintro (rfl | rfl | rfl)
    · exact .inr ⟨.linux, rfl⟩
    · exact .inr ⟨.windows, rfl⟩
    · exact .inl rfl
  · rintro (rfl | ⟨_ | _, rfl⟩)
    · exact .inr (.inr rfl)
    · exact .inl rfl
    · exact .inr (.inl rfl)

/-- The regions are those of the configuration, whatever has been allocated. -/
structure Follows (config : Config) (partition : MemoryPartition) : Prop where
  cells : partition.cells = (ofConfig config).cells
  hypervisor : partition.hypervisor = (ofConfig config).hypervisor

section Owners

variable {config : Config} {partition : MemoryPartition} {holding : Config.Holding}
  {owner : RegionOwner} {address : UInt64}

section Regions

variable (h : partition.Follows config)

include h

theorem toExtent_cell (id : CellId) :
    (partition.cells.get id).toExtent = (config.cells.get id).memory := by
  rw [h.cells]
  cases id <;> rfl

theorem owner_cell (id : CellId) : (partition.cells.get id).owner = .cell id := by
  rw [h.cells]
  cases id <;> rfl

theorem region_of_holding (howner : holding.regionOwner? = some owner) :
    ∃ region ∈ partition.regions, region.toExtent = config.extentOf holding ∧
      region.owner = owner := by
  cases holding with
  | hypervisor =>
    cases howner
    refine ⟨_, mem_regions.2 (.inl rfl), ?_, ?_⟩ <;> rw [h.hypervisor] <;> rfl
  | memory id =>
    cases howner
    exact ⟨_, mem_regions.2 (.inr ⟨id, rfl⟩), toExtent_cell h id, owner_cell h id⟩
  | store id => cases howner

theorem holding_of_region {region : Region} (hregion : region ∈ partition.regions) :
    ∃ holding : Config.Holding, holding.regionOwner? = some region.owner ∧
      config.extentOf holding = region.toExtent := by
  rcases mem_regions.1 hregion with rfl | ⟨id, rfl⟩
  · rw [h.hypervisor]
    exact ⟨.hypervisor, rfl, rfl⟩
  · rw [toExtent_cell h, owner_cell h]
    exact ⟨.memory id, rfl, rfl⟩

theorem isOwnedBy_eq (id : CellId) :
    partition.isOwnedBy address id = (config.extentOf (.memory id)).contains address := by
  unfold isOwnedBy
  rw [toExtent_cell h]
  rfl

end Regions

variable (hsound : config.IsSound) (h : partition.Follows config)

include hsound h

/-- The first region that has the address is the only one. -/
theorem ownerOf_eq_some_iff :
    partition.ownerOf address = some owner ↔
      ∃ holding : Config.Holding, holding.regionOwner? = some owner ∧
        (config.extentOf holding).contains address = true := by
  unfold ownerOf
  rw [Option.map_eq_some_iff]
  constructor
  · rintro ⟨region, hfound, rfl⟩
    obtain ⟨holding, howner, hextent⟩ := holding_of_region h (List.mem_of_find?_eq_some hfound)
    have hcontains := List.find?_some hfound
    rw [← hextent] at hcontains
    exact ⟨holding, howner, hcontains⟩
  · rintro ⟨holding, howner, hcontains⟩
    obtain ⟨region, hregion, hextent, -⟩ := region_of_holding h howner
    have hexists : (partition.regions.find? fun region => region.contains address).isSome :=
      List.find?_isSome.2 ⟨region, hregion, by rw [hextent]; exact hcontains⟩
    obtain ⟨first, hfirst⟩ := Option.isSome_iff_exists.1 hexists
    obtain ⟨other, hother, hfirstExtent⟩ :=
      holding_of_region h (List.mem_of_find?_eq_some hfirst)
    have hcontainsFirst := List.find?_some hfirst
    rw [← hfirstExtent] at hcontainsFirst
    have hsame : other = holding := hsound.eq_of_contains hcontainsFirst hcontains
    rw [hsame, howner] at hother
    exact ⟨first, hfirst, (Option.some.inj hother).symm⟩

theorem ownerOf_of_contains (hcontains : (config.extentOf holding).contains address = true) :
    partition.ownerOf address = holding.regionOwner? := by
  refine Option.ext fun owner => ?_
  rw [ownerOf_eq_some_iff hsound h]
  constructor
  · rintro ⟨other, hother, hcontainsOther⟩
    rw [← hsound.eq_of_contains hcontainsOther hcontains]
    exact hother
  · intro howner
    exact ⟨holding, howner, hcontains⟩

theorem ownerOf_eq_cell_iff (id : CellId) :
    partition.ownerOf address = some (.cell id) ↔ partition.isOwnedBy address id = true := by
  rw [ownerOf_eq_some_iff hsound h, isOwnedBy_eq h]
  constructor
  · rintro ⟨holding, howner, hcontains⟩
    cases holding <;> cases howner
    exact hcontains
  · intro hcontains
    exact ⟨.memory id, rfl, hcontains⟩

end Owners

/-! ## Requests -/

/-- Takes a request, and enters the answer if memory is asked for. -/
def serve : Request → Action (Ledger MemoryPartition) Unit
  | .allocate size => Ledger.record (.allocate size) (allocate size)
  | .allocateAligned size align =>
    Ledger.record (.allocateAligned size align) (allocateAligned size align)
  | .free address size => Ledger.change (free address size)

/-- The answers, and the allocator that gave them. -/
def allocatorLedger (ledger : Ledger MemoryPartition) : Ledger Bump :=
  ⟨ledger.state.allocator, ledger.entries⟩

theorem state_record_onAllocator (request : Request) (action : Action Bump UInt64)
    (ledger : Ledger MemoryPartition) :
    (Ledger.record request (onAllocator action) ledger).state =
      ⟨{ ledger.state with
          allocator := (Ledger.record request action (allocatorLedger ledger)).state.state },
        (Ledger.record request action (allocatorLedger ledger)).state.entries⟩ := by
  unfold Ledger.record onAllocator
  rw [Action.zoom_apply]
  dsimp only [allocatorLedger]
  cases action ledger.state.allocator with
  | mk outcome after log => cases outcome <;> rfl

theorem state_serve (request : Request) (ledger : Ledger MemoryPartition) :
    (serve request ledger).state =
      ⟨{ ledger.state with
          allocator := (Bump.serve request (allocatorLedger ledger)).state.state },
        (Bump.serve request (allocatorLedger ledger)).state.entries⟩ := by
  cases request with
  | allocate size => exact state_record_onAllocator _ _ ledger
  | allocateAligned size align => exact state_record_onAllocator _ _ ledger
  | free address size => rfl

/-- The requests of a list, one after the other, to the partition of a configuration. -/
def run (config : Config) (requests : List Request) : Reply (Ledger MemoryPartition) Unit :=
  Action.attemptEach serve requests ⟨ofConfig config, []⟩

theorem follows_serve (config : Config) (request : Request) :
    Action.Keeps (fun ledger => ledger.state.Follows config) (serve request) := by
  intro ledger h
  rw [state_serve]
  exact ⟨h.cells, h.hypervisor⟩

theorem settled_allocator_serve (extent : Extent) (request : Request) :
    Action.Keeps (fun ledger => (allocatorLedger ledger).Settled extent) (serve request) := by
  intro ledger h
  rw [state_serve]
  exact Bump.settled_serve extent request (allocatorLedger ledger) h

section Run

variable (config : Config) (requests : List Request)

theorem follows_run : (run config requests).state.state.Follows config :=
  Action.keeps_attemptEach (follows_serve config) requests ⟨ofConfig config, []⟩ ⟨rfl, rfl⟩

theorem settled_run : (allocatorLedger (run config requests).state).Settled config.hypervisor :=
  Action.keeps_attemptEach (settled_allocator_serve config.hypervisor) requests
    ⟨ofConfig config, []⟩ (Bump.settled_fresh config.hypervisor)

theorem contains_of_handed {block : Bump.Block}
    (hblock : block ∈ (run config requests).state.blocks) {address : UInt64}
    (h : block.Covers address) : config.hypervisor.contains address = true := by
  have hsettled := settled_run config requests
  have hstop := hsettled.le_stop
  obtain ⟨-, hlow, hhigh, -⟩ := hsettled.handed block hblock
  unfold Extent.Covers at h
  rw [Extent.contains_iff]
  omega

end Run

/-- In the partition of an accepted configuration, after any requests: a cell owns its memory and
nothing else, by both ways to ask, and no address is owned by both cells; nobody owns an address of
a store; and whatever has been handed out belongs to the hypervisor, to no cell and to no store. -/
theorem run_owned {config : Config} (hvalid : config.validate = .ok ())
    (requests : List Request) :
    let ledger := (run config requests).state
    let partition := ledger.state
    (∀ address id,
        (partition.ownerOf address = some (.cell id) ↔ partition.isOwnedBy address id = true) ∧
          (partition.isOwnedBy address id = true ↔
            (config.cells.get id).memory.Covers address)) ∧
      (∀ address a b, partition.isOwnedBy address a = true →
        partition.isOwnedBy address b = true → a = b) ∧
      (∀ address id, (config.cells.get id).store.Covers address →
        partition.ownerOf address = none) ∧
      ∀ block ∈ ledger.blocks, ∀ address, block.Covers address →
        partition.ownerOf address = some .hypervisor ∧
          ∀ id, partition.isOwnedBy address id = false ∧
            ¬ (config.cells.get id).store.Covers address := by
  intro ledger partition
  have hsound := Config.isSound_of_validate hvalid
  have hfollows : partition.Follows config := follows_run config requests
  have covers (holding : Config.Holding) (address : UInt64) :
      (config.extentOf holding).contains address = true ↔
        (config.extentOf holding).Covers address :=
    Extent.contains_iff_covers (hsound.fits holding) address
  refine ⟨fun address id => ⟨ownerOf_eq_cell_iff hsound hfollows id, ?memory⟩, ?exclusive, ?stores,
    ?blocks⟩
  case memory =>
    rw [isOwnedBy_eq hfollows]
    exact covers (.memory id) address
  case exclusive =>
    intro address a b ha hb
    rw [isOwnedBy_eq hfollows] at ha hb
    exact Config.Holding.memory.inj (hsound.eq_of_contains ha hb)
  case stores =>
    intro address id hstore
    exact ownerOf_of_contains hsound hfollows ((covers (.store id) address).2 hstore)
  case blocks =>
    intro block hblock address haddress
    have hcontains : (config.extentOf .hypervisor).contains address = true :=
      contains_of_handed config requests hblock haddress
    refine ⟨ownerOf_of_contains hsound hfollows hcontains, fun id => ⟨?_, fun hstore => ?_⟩⟩
    · rw [isOwnedBy_eq hfollows, ← Bool.not_eq_true]
      intro hmemory
      cases hsound.eq_of_contains hcontains hmemory
    · cases hsound.eq_of_contains hcontains ((covers (.store id) address).2 hstore)

/-- Two blocks are handed out. The last byte of the second one is not the memory of a guest. -/
theorem run_owned_compact :
    let ledger := (run .compact [.allocate 0x1000, .allocateAligned 0x40 0x200000]).state
    ledger.blocks = [⟨⟨0x100000, 0x1000⟩, 1⟩, ⟨⟨0x200000, 0x40⟩, 0x200000⟩] ∧
      ledger.state.ownerOf 0x20003F = some .hypervisor := by
  intro ledger
  have hblocks : ledger.blocks = [⟨⟨0x100000, 0x1000⟩, 1⟩, ⟨⟨0x200000, 0x40⟩, 0x200000⟩] := by
    decide
  refine ⟨hblocks, ?_⟩
  have hcovers : Extent.Covers ⟨0x200000, 0x40⟩ 0x20003F := ⟨by decide, by decide⟩
  have hlast : ⟨⟨0x200000, 0x40⟩, 0x200000⟩ ∈ ledger.blocks := by
    rw [hblocks]
    exact List.mem_cons_of_mem _ List.mem_cons_self
  exact ((run_owned rfl _).2.2.2 _ hlast 0x20003F hcovers).1

end MemoryPartition
end CellVisor
