import CellVisor.Proofs.Iommu.Controller
import CellVisor.Proofs.Sim.Plugged

/-!
# CellVisor.Proofs.Iommu.Simulated

What a detection finds on a simulated machine, whose functions it reads back the way they were
plugged in.

* `baseAt_controller`: the base that a controller was plugged in with is read back.
* `SimMachine.usable_addController`: a controller that was plugged in can be used.
* `SimMachine.added_found`: what was added to a function is found there, and the first controller
  that was plugged in is detected.
-/

namespace CellVisor
namespace SimMachine

variable {built after : SimMachine} {address : Pci.Address} {base : UInt64}

/-- The page that an address is in. -/
theorem toNat_and_not_page (base : UInt64) :
    (base &&& ~~~0xFFF).toNat = base.toNat / 4096 * 4096 := by
  have hmask : (base &&& ~~~((0x1000 : UInt64) - 1)).toNat = base.toNat - base.toNat % 4096 :=
    Word.toNat_and_not_pred (by decide)
  rw [show (0xFFF : UInt64) = 0x1000 - 1 from rfl, hmask]
  omega

/-- The mark is one of the bits that do not count. -/
theorem toNat_marked (low : UInt32) : (low ||| 1).toNat / 4096 = low.toNat / 4096 := by
  have hshift : (low.toNat ||| 1) >>> 12 = low.toNat >>> 12 := by
    rw [Nat.shiftRight_or_distrib, show 1 >>> 12 = 0 from rfl, Nat.or_zero]
  rw [Nat.shiftRight_eq_div_pow, Nat.shiftRight_eq_div_pow] at hshift
  rw [UInt32.toNat_or]
  exact hshift

/-- The base is divided into two dwords, and the low one is marked. -/
theorem baseAt_controller
    (h : after.HasLaid address ⟨0x1022, 0x1451, 0x08⟩ (controllerCapabilities base)) :
    Controller.baseAt after.configRead address 0x4C = base &&& ~~~0xFFF := by
  have hlow : after.configRead address ((0x4C : UInt8).toUInt16 + 4) = base.toUInt32 ||| 1 :=
    h.offers.payload 1 _ rfl 0 _ rfl
  have hhigh : after.configRead address ((0x4C : UInt8).toUInt16 + 8) = (base >>> 32).toUInt32 :=
    h.offers.payload 1 _ rfl 1 _ rfl
  have hlt := base.toNat_lt
  apply UInt64.toNat.inj
  rw [Controller.toNat_baseAt, hlow, hhigh, toNat_and_not_page, toNat_marked,
    UInt64.toNat_toUInt32, UInt64.toNat_toUInt32, UInt64.toNat_shiftRight,
    show (32 : UInt64).toNat % 64 = 32 from rfl, Nat.shiftRight_eq_div_pow, UInt32.size]
  omega

theorem Plugged.isSome_identity? (h : after.Plugged) (hbus : address.bus = 0)
    {device : Sim.Device} (hdevice : after.devices.get? address = some device) :
    (Pci.ConfigSpace.identity? after.configRead address).isSome = true := by
  obtain ⟨identity, capabilities, hlaid, hvendor⟩ := h address device hbus hdevice
  rw [hlaid.identity? (configRead_of_get? hdevice) hvendor]
  rfl

theorem identity?_of_absent (h : after.devices.get? address = none) :
    Pci.ConfigSpace.identity? after.configRead address = none := by
  have hread (offset : UInt16) : after.configRead address offset = 0xFFFFFFFF := by
    unfold configRead
    rw [h]
  rw [Pci.ConfigSpace.identity?, hread]
  rfl

theorem isMultifunction_congr (same : after.devices.get? address = built.devices.get? address) :
    Pci.ConfigSpace.isMultifunction after.configRead address =
      Pci.ConfigSpace.isMultifunction built.configRead address := by
  unfold Pci.ConfigSpace.isMultifunction configRead
  rw [same]

/-- Where a controller is another function, function 0 is the bridge. -/
theorem bridge_addController (hfunction : address.function ≠ 0)
    (hreply : addController address base built = ⟨.ok (), after, []⟩) :
    (∃ device, after.devices.get? { address with function := 0 } = some device) ∧
      Pci.ConfigSpace.isMultifunction after.configRead { address with function := 0 } = true := by
  obtain ⟨plugged, hplugged, -, hothers⟩ := addController_eq address base built
  cases hplugged.symm.trans hreply
  have hne : ({ address with function := 0 } : Pci.Address) ≠ address :=
    fun hsame => hfunction (congrArg Pci.Address.function hsame).symm
  have hbridge := hothers _ hne
  rw [bridged, if_pos hfunction] at hbridge
  refine ⟨⟨_, hbridge.trans ((get?_addHostBridge _ _ _).trans (if_pos rfl))⟩, ?_⟩
  rw [isMultifunction_congr hbridge]
  exact isMultifunction_addHostBridge _ _

/-- A controller that was plugged in can be used. -/
theorem usable_addController (h : built.Plugged) (hbus : address.bus = 0)
    (hdevice : address.device < 32) (hfunction : address.function < 8)
    (hbase : base &&& ~~~0xFFF ≠ 0)
    (hreply : addController address base built = ⟨.ok (), after, []⟩) :
    Controller.Usable after.configRead ⟨address, .amdVi, base &&& ~~~0xFFF⟩ := by
  obtain ⟨plugged, hplugged, hlaid, -⟩ := addController_eq address base built
  cases hplugged.symm.trans hreply
  have hidentity := hlaid.identity? (by decide)
  have hzero : (⟨0, address.device, 0⟩ : Pci.Address) = { address with function := 0 } := by
    rw [hbus]
  have hshown : (Pci.ConfigSpace.identity? after.configRead ⟨0, address.device, 0⟩).isSome = true ∧
      (address.function = 0 ∨
        Pci.ConfigSpace.isMultifunction after.configRead ⟨0, address.device, 0⟩ = true) := by
    rw [hzero]
    by_cases hfirst : address.function = 0
    · have hsame : ({ address with function := 0 } : Pci.Address) = address := by rw [← hfirst]
      rw [hsame, hidentity]
      exact ⟨rfl, .inl hfirst⟩
    · have hafter : after.Plugged := (keeps_plugged_addController address base).of_eq h hreply
      obtain ⟨⟨bridge, hbridge⟩, hmultifunction⟩ := bridge_addController hfirst hreply
      exact ⟨hafter.isSome_identity? hbus hbridge, .inr hmultifunction⟩
  exact
    { bus := hbus
      device := hdevice
      function := hfunction
      present := hshown.1
      shown := hshown.2
      known := ⟨_, hidentity, by decide⟩
      based := ⟨0x4C, hlaid.offers.found 0x0F, (baseAt_controller hlaid).symm⟩
      nonzero := hbase }

/-- Behind the functions that are no controllers, a controller that was plugged in is detected. -/
theorem detect_addController (h : built.Plugged) (hbus : address.bus = 0)
    (hdevice : address.device < 32) (hfunction : address.function < 8)
    (hbase : base &&& ~~~0xFFF ≠ 0)
    (hfirst : ∀ other identity, other.bus = 0 → other < address →
      Pci.ConfigSpace.identity? built.configRead other = some identity →
        ¬ (identity.vendor = 0x1022 ∧ 0x1447 ≤ identity.device ∧ identity.device ≤ 0x1457))
    (directory : Directory) :
    ∃ after, addController address base built = ⟨.ok (), after, []⟩ ∧
      (Devices.detect ⟨after, directory⟩).outcome =
        .ok ⟨address, .amdVi, base &&& ~~~0xFFF⟩ := by
  obtain ⟨after, hreply, -, hothers⟩ := addController_eq address base built
  refine ⟨after, hreply, ?_⟩
  rw [Devices.outcome_detect_eq_ok_iff, Directory.scanned_eq_some_iff]
  refine ⟨usable_addController h hbus hdevice hfunction hbase hreply, fun other hother => ?_⟩
  by_contra hle
  have hlt : other.address < address := Nat.not_le.1 hle
  have hne : other.address ≠ address := fun hsame => hle (Nat.le_of_eq (congrArg _ hsame.symm))
  obtain ⟨identity, hidentity, hknown⟩ := hother.known
  cases hdevice : after.devices.get? other.address with
  | none => cases (identity?_of_absent hdevice).symm.trans hidentity
  | some device =>
    obtain ⟨_, capabilities, hlaid, hvendor, hbefore⟩ :=
      h.hasLaid_of_bridged hother.bus ((hothers _ hne).symm.trans hdevice)
    cases (hlaid.identity? (configRead_of_get? hdevice) hvendor).symm.trans hidentity
    rcases hbefore with hbuilt | hbridge
    · exact hfirst _ _ hother.bus hlt (hbuilt.identity? hvendor) hknown
    · rw [hbridge] at hknown
      exact absurd hknown (by decide)

/-- What is added to a simulated function is found there. Capabilities can be added to a new
function exactly as long as they fit into its space; then a search finds the first of each kind, the
payloads are read back, and what is added later changes neither. So where bus 0 was built by adding
functions to it, a controller that is added behind the functions that are no controllers is
detected, with its base rounded down to a page, unless that is zero. -/
theorem added_found :
    (∀ (machine : SimMachine) (address : Pci.Address) (vendor device : UInt16) (baseClass : UInt8)
        (capabilities : List Sim.Addition),
      let added := addCapabilities address capabilities
        (machine.addDevice address (.ofIdentity vendor device baseClass))
      (added.outcome = .ok () ↔ Sim.Addition.extent capabilities ≤ 48) ∧
      (added.outcome = .ok () → added.state.Offers address capabilities ∧
        ∀ more, (addCapabilities address more added.state).outcome = .ok () →
          let later := (addCapabilities address more added.state).state
          later.Offers address (capabilities ++ more) ∧
          (∀ id, (∃ addition ∈ capabilities, addition.id = id) ∨
              (∀ addition ∈ more, addition.id ≠ id) →
            later.search address id = added.state.search address id) ∧
          ∀ k addition, capabilities[k]? = some addition →
            ∀ i value, addition.payload[i]? = some value →
              later.configRead address
                ((Sim.Addition.offset capabilities k).toUInt16 + 4 + 4 * UInt16.ofNat i) =
                  value)) ∧
    ∀ (start : SimMachine) (operations : List Operation) (address : Pci.Address) (base : UInt64)
        (directory : Directory),
      let built := (Action.attemptEach Operation.act operations start).state
      (∀ other, other.bus = 0 → start.devices.get? other = none) →
      (∀ operation ∈ operations, operation.Plugs) →
      address.bus = 0 → address.device < 32 → address.function < 8 →
      (∀ other identity, other.bus = 0 → other < address →
        Pci.ConfigSpace.identity? built.configRead other = some identity →
          ¬ (identity.vendor = 0x1022 ∧
            0x1447 ≤ identity.device ∧ identity.device ≤ 0x1457)) →
      base &&& ~~~0xFFF ≠ 0 →
      ∃ machine, addController address base built = ⟨.ok (), machine, []⟩ ∧
        (Devices.detect ⟨machine, directory⟩).outcome =
          .ok ⟨address, .amdVi, base &&& ~~~0xFFF⟩ := by
  constructor
  · intro machine address vendor device baseClass capabilities added
    obtain ⟨hfits, hoffers⟩ :=
      offers_addCapabilities machine address vendor device baseClass capabilities
    refine ⟨hfits, fun hadded => ?_⟩
    obtain ⟨hfound, hmore⟩ := hoffers hadded
    exact ⟨hfound, fun more hlater => ⟨hmore more hlater, hfound.kept (hmore more hlater)⟩⟩
  · intro start operations address base directory built hempty hplugs hbus hdevice hfunction
      hfirst hbase
    have hstart : start.Plugged := fun other device hbus hfound => by
      rw [hempty other hbus] at hfound
      cases hfound
    exact detect_addController (plugged_run hplugs hstart) hbus hdevice hfunction hbase hfirst
      directory

/-- A second capability of a kind does not hide the first, and a controller is found behind a bridge
of its vendor. -/
theorem added_found_bridge :
    (let added := addCapabilities ⟨0, 3, 0⟩ [⟨0x05, [0, 0]⟩, ⟨0x09, [7]⟩]
        ((ofCores 2).addDevice ⟨0, 3, 0⟩ (.ofIdentity 0x8086 0x1234 0x02))
      let later := addCapabilities ⟨0, 3, 0⟩ [⟨0x09, [8]⟩] added.state
      added.outcome = .ok () ∧ later.outcome = .ok () ∧
        later.state.search ⟨0, 3, 0⟩ 0x09 = .ok (some 0x4C)) ∧
    ∃ machine,
      addController ⟨0, 0, 1⟩ 0x1FED80123
          (Action.attemptEach Operation.act [.addHostBridge ⟨0, 0, 0⟩] (ofCores 2)).state =
        ⟨.ok (), machine, []⟩ ∧
      (Devices.detect ⟨machine, {}⟩).outcome = .ok ⟨⟨0, 0, 1⟩, .amdVi, 0x1FED80000⟩ := by
  constructor
  · intro added later
    obtain ⟨hfits, hmore⟩ := added_found.1 (ofCores 2) ⟨0, 3, 0⟩ 0x8086 0x1234 0x02
      [⟨0x05, [0, 0]⟩, ⟨0x09, [7]⟩]
    have hadded : added.outcome = .ok () := hfits.2 (by decide)
    have hlater : later.outcome = .ok () := by decide +kernel
    obtain ⟨hoffers, -⟩ := (hmore hadded).2 _ hlater
    exact ⟨hadded, hlater, hoffers.found 0x09⟩
  · refine added_found.2 (ofCores 2) [.addHostBridge ⟨0, 0, 0⟩] ⟨0, 0, 1⟩ 0x1FED80123 {}
      (fun _ _ => rfl) (by simp [Operation.Plugs]) rfl (by decide) (by decide) ?_ (by decide)
    intro other identity hbus hlt hidentity hknown
    have hzero : other = ⟨0, 0, 0⟩ := Pci.Address.rank_inj.1 (Nat.lt_one_iff.1 hlt)
    rw [hzero] at hidentity
    have hbridge : identity = ⟨0x1022, 0x1480, 0x06⟩ := Option.some.inj hidentity.symm
    rw [hbridge] at hknown
    exact absurd hknown (by decide)

end SimMachine
end CellVisor
