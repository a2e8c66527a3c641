import CellVisor.Iommu.Directory
import CellVisor.Proofs.Action
import CellVisor.Proofs.Pci.Capabilities
import CellVisor.Proofs.Pci.Enumeration

/-!
# CellVisor.Proofs.Iommu.Detection

Which controller a detection finds, whatever the configuration space holds and whatever was known
before. The scan takes no notice of the directory, so it is a search through the functions of bus 0.

* `toNat_baseAt`: the base that two dwords hold.
* `Controller.found?`: what there is at an address, and `firstOf_eq` that a scan gives the first.
* `Directory.detect_eq`: what a detection answers, and what it leaves.
* `Controller.Usable`: a controller of bus 0 that can be used.
* `Directory.detect_first`: a detection finds the one of these with the least address.
-/

namespace CellVisor

/-! ## Controllers -/

namespace Controller

variable {space : Pci.ConfigSpace} {address : Pci.Address}

theorem kindOf_eq_some_iff {identity : Pci.Identity} {kind : ControllerKind} :
    kindOf identity = some kind ↔
      identity.vendor = 0x1022 ∧ 0x1447 ≤ identity.device ∧ identity.device ≤ 0x1457 := by
  unfold kindOf
  cases kind
  split <;> simp [*]

/-- Without its low 12 bits a dword is rounded down to a multiple of 4 KiB. -/
theorem toNat_and_baseMask (low : UInt32) :
    (low &&& 0xFFFFF000).toNat = low.toNat / 4096 * 4096 := by
  have hlt := low.toNat_lt
  have hmask : low.toNat &&& 0xFFFFF000 = (low.toNat >>> 12 % 1048576) <<< 12 :=
    Word.and_mask low.toNat 12 20
  rw [Nat.shiftLeft_eq, Nat.shiftRight_eq_div_pow, Nat.mod_eq_of_lt (by omega)] at hmask
  rw [UInt32.toNat_and]
  exact hmask

/-- The base has the low dword without its low 12 bits in its low half, and the high dword in the
other. -/
theorem toNat_baseAt (space : Pci.ConfigSpace) (address : Pci.Address) (offset : UInt8) :
    (baseAt space address offset).toNat =
      (space address (offset.toUInt16 + 8)).toNat * UInt32.size +
        (space address (offset.toUInt16 + 4)).toNat / 4096 * 4096 := by
  have hhigh := (space address (offset.toUInt16 + 8)).toNat_lt
  have hlow := (space address (offset.toUInt16 + 4)).toNat_lt
  have hshift : ((space address (offset.toUInt16 + 8)).toUInt64 <<< 32).toNat =
      (space address (offset.toUInt16 + 8)).toNat <<< 32 := by
    rw [UInt64.toNat_shiftLeft, UInt32.toNat_toUInt64, show (32 : UInt64).toNat % 64 = 32 from rfl]
    refine Nat.mod_eq_of_lt ?_
    rw [Nat.shiftLeft_eq]
    omega
  unfold baseAt
  -- the two halves have no bit in common
  rw [UInt64.toNat_or, hshift, UInt32.toNat_toUInt64, toNat_and_baseMask,
    ← Nat.shiftLeft_add_eq_or_of_lt (by omega), Nat.shiftLeft_eq]

/-- What a probe of an address gives. -/
def found? (space : Pci.ConfigSpace) (address : Pci.Address) : Option Controller := do
  let kind ← (space.identity? address).bind kindOf
  let offset ← space.capability? address capabilityId
  let base := baseAt space address offset
  if base = 0 then none else some { address, kind, base }

section Scan

variable {σ : Type} (space : Pci.ConfigSpace) (state : σ)

theorem probe_eq (address : Pci.Address) :
    ∃ log, probe space address state = ⟨.ok (found? space address), state, log⟩ := by
  unfold probe found?
  cases (space.identity? address).bind kindOf with
  | none => exact ⟨[], rfl⟩
  | some kind =>
    obtain ⟨log, hfound⟩ := space.findCapability_eq address capabilityId state
    dsimp only
    rw [Action.bind_of_ok hfound]
    cases space.capability? address capabilityId with
    | none => exact ⟨log ++ [.controllerWithoutCapability address], rfl⟩
    | some offset =>
      dsimp only [Option.bind_eq_bind, Option.bind_some]
      split
      · exact ⟨log ++ [.controllerWithoutBase address], rfl⟩
      · exact ⟨log ++ [], rfl⟩

/-- A scan passes over what is no controller and over controllers that cannot be used. -/
theorem firstOf_eq (addresses : List Pci.Address) :
    ∃ log, firstOf space addresses state =
      ⟨.ok (addresses.findSome? (found? space)), state, log⟩ := by
  induction addresses with
  | nil => exact ⟨[], rfl⟩
  | cons address rest ih =>
    obtain ⟨log, hprobe⟩ := probe_eq space state address
    rw [firstOf, Action.bind_of_ok hprobe, List.findSome?_cons]
    cases found? space address with
    | some controller => exact ⟨log ++ [], rfl⟩
    | none =>
      obtain ⟨later, hrest⟩ := ih
      dsimp only
      rw [hrest]
      exact ⟨log ++ later, rfl⟩

end Scan

end Controller

/-- What the scan of bus 0 comes to. -/
def Directory.scanned (space : Pci.ConfigSpace) : Option Controller :=
  (space.busFunctions 0).findSome? (Controller.found? space)

theorem Directory.detect_eq (space : Pci.ConfigSpace) (directory : Directory) :
    ∃ log, detect space directory =
      ⟨match scanned space with
        | some controller => .ok controller
        | none => .error (.unavailable .iommu),
        { directory with controller := scanned space }, log⟩ := by
  obtain ⟨log, hfirst⟩ := Controller.firstOf_eq space
    ({ directory with controller := none } : Directory) (space.busFunctions 0)
  unfold detect
  rw [Action.bind_of_ok (Action.update_apply _ directory), Action.bind_of_ok hfirst]
  unfold scanned
  cases (space.busFunctions 0).findSome? (Controller.found? space) with
  | none => exact ⟨_, rfl⟩
  | some controller => exact ⟨_, rfl⟩

theorem Directory.outcome_detect_eq_ok_iff {space : Pci.ConfigSpace} {directory : Directory}
    {controller : Controller} :
    (detect space directory).outcome = .ok controller ↔ scanned space = some controller := by
  obtain ⟨log, hreply⟩ := detect_eq space directory
  rw [hreply]
  cases scanned space <;> simp

namespace Controller

/-- A controller of bus 0 that can be used: function 0 of its device is there, and announces more
functions where the controller is one of these; it is of a known kind, and has a capability with a
base that is not zero. -/
structure Usable (space : Pci.ConfigSpace) (controller : Controller) : Prop where
  bus : controller.address.bus = 0
  device : controller.address.device < 32
  function : controller.address.function < 8
  present : (space.identity? ⟨0, controller.address.device, 0⟩).isSome = true
  shown : controller.address.function = 0 ∨
    space.isMultifunction ⟨0, controller.address.device, 0⟩ = true
  known : ∃ identity, space.identity? controller.address = some identity ∧
    identity.vendor = 0x1022 ∧ 0x1447 ≤ identity.device ∧ identity.device ≤ 0x1457
  based : ∃ offset, (space.findCapability controller.address 0x0F ()).outcome = .ok (some offset) ∧
    controller.base =
      ((space controller.address (offset.toUInt16 + 8)).toUInt64 <<< 32) |||
        (space controller.address (offset.toUInt16 + 4) &&& 0xFFFFF000).toUInt64
  nonzero : controller.base ≠ 0

section Usable

variable {space : Pci.ConfigSpace} {address : Pci.Address} {controller other : Controller}

theorem found?_eq_some_iff :
    found? space address = some controller ↔
      controller.address = address ∧
        (space.identity? address).bind kindOf = some controller.kind ∧
        ∃ offset, space.capability? address capabilityId = some offset ∧
          controller.base = baseAt space address offset ∧ controller.base ≠ 0 := by
  unfold found?
  constructor
  · intro h
    obtain ⟨kind, hkind, h⟩ := Option.bind_eq_some_iff.1 h
    obtain ⟨offset, hoffset, h⟩ := Option.bind_eq_some_iff.1 h
    dsimp only at h
    split at h
    · cases h
    · rename_i hnonzero
      cases h
      exact ⟨rfl, hkind, offset, hoffset, rfl, hnonzero⟩
  · rintro ⟨rfl, hkind, offset, hoffset, hbase, hnonzero⟩
    refine Option.bind_eq_some_iff.2 ⟨_, hkind, Option.bind_eq_some_iff.2 ⟨offset, hoffset, ?_⟩⟩
    dsimp only
    rw [← hbase, if_neg hnonzero]

theorem usable_iff :
    Usable space controller ↔ controller.address ∈ space.busFunctions 0 ∧
      found? space controller.address = some controller := by
  rw [found?_eq_some_iff, Pci.ConfigSpace.mem_busFunctions]
  have hknown : (space.identity? controller.address).bind kindOf = some controller.kind ↔
      ∃ identity, space.identity? controller.address = some identity ∧
        identity.vendor = 0x1022 ∧ 0x1447 ≤ identity.device ∧ identity.device ≤ 0x1457 := by
    simp only [Option.bind_eq_some_iff, kindOf_eq_some_iff]
  have hvalid : controller.address.isValid = true ↔
      controller.address.device < 32 ∧ controller.address.function < 8 := by
    simp [Pci.Address.isValid]
  have hcapability (offset : UInt8) :
      (space.findCapability controller.address 0x0F ()).outcome = .ok (some offset) ↔
        space.capability? controller.address capabilityId = some offset := by
    obtain ⟨log, hfound⟩ := space.findCapability_eq controller.address capabilityId ()
    rw [show (0x0F : UInt8) = capabilityId from rfl, hfound, Outcome.ok.injEq]
  rw [hknown, hvalid]
  constructor
  · intro h
    obtain ⟨offset, hoffset, hbase⟩ := h.based
    exact ⟨⟨h.bus, ⟨h.device, h.function⟩, h.present, h.shown⟩, rfl, h.known, offset,
      (hcapability offset).1 hoffset, hbase, h.nonzero⟩
  · rintro ⟨⟨hbus, ⟨hdevice, hfunction⟩, hpresent, hshown⟩, -, hknown, offset, hoffset, hbase,
      hnonzero⟩
    exact ⟨hbus, hdevice, hfunction, hpresent, hshown, hknown,
      ⟨offset, (hcapability offset).2 hoffset, hbase⟩, hnonzero⟩

/-- There is one controller at most at an address. -/
theorem Usable.eq_of_address (h : Usable space controller) (hother : Usable space other)
    (same : controller.address = other.address) : controller = other := by
  have hfound := (usable_iff.1 h).2
  rw [same, (usable_iff.1 hother).2] at hfound
  exact (Option.some.inj hfound).symm

/-- The base is a multiple of 4 KiB, so there is room for the registers behind it. -/
theorem Usable.register (h : Usable space controller) :
    controller.base.toNat % 4096 = 0 ∧
      controller.controlRegister.toNat = controller.base.toNat + 0x18 := by
  obtain ⟨offset, -, hbase⟩ := h.based
  have hnat : controller.base.toNat = _ :=
    (congrArg UInt64.toNat hbase).trans (toNat_baseAt space controller.address offset)
  have haligned : controller.base.toNat % 4096 = 0 := by
    have hsize : UInt32.size = 1048576 * 4096 := rfl
    rw [hnat, hsize]
    omega
  have hlt := controller.base.toNat_lt
  refine ⟨haligned, ?_⟩
  rw [controlRegister, UInt64.toNat_add, show (0x18 : UInt64).toNat = 0x18 from rfl]
  exact Nat.mod_eq_of_lt (by omega)

end Usable
end Controller

namespace Directory

variable {space : Pci.ConfigSpace} {controller : Controller}

/-- The scan goes through the functions in the order of their addresses, so what it comes to first
has the least. -/
theorem least_of_scanned (h : scanned space = some controller) :
    Controller.Usable space controller ∧
      ∀ other, Controller.Usable space other → controller.address ≤ other.address := by
  obtain ⟨earlier, address, later, hscan, hfound, hpassed⟩ := List.findSome?_eq_some_iff.1 h
  have haddress : controller.address = address := (Controller.found?_eq_some_iff.1 hfound).1
  have husable : Controller.Usable space controller := by
    rw [Controller.usable_iff, haddress, hscan]
    exact ⟨List.mem_append_right _ List.mem_cons_self, hfound⟩
  refine ⟨husable, fun other hother => ?_⟩
  obtain ⟨hmem, hother⟩ := Controller.usable_iff.1 hother
  have hordered : (space.busFunctions 0).Pairwise (· < ·) := Pci.ConfigSpace.pairwise_busFunctions
  rw [hscan] at hmem hordered
  rw [haddress]
  rcases List.mem_append.1 hmem with hearlier | hlater
  · cases (hpassed _ hearlier).symm.trans hother
  · rcases List.mem_cons.1 hlater with hsame | hlater
    · exact Nat.le_of_eq (congrArg Pci.Address.rank hsame.symm)
    · exact Nat.le_of_lt ((List.pairwise_cons.1 (List.pairwise_append.1 hordered).2.1).1 _ hlater)

theorem scanned_eq_none_iff :
    scanned space = none ↔ ∀ controller, ¬ Controller.Usable space controller := by
  constructor
  · intro h controller husable
    obtain ⟨hmem, hfound⟩ := Controller.usable_iff.1 husable
    cases (List.findSome?_eq_none_iff.1 h _ hmem).symm.trans hfound
  · intro h
    cases hscan : scanned space with
    | none => rfl
    | some controller => exact absurd (least_of_scanned hscan).1 (h controller)

theorem scanned_eq_some_iff :
    scanned space = some controller ↔
      Controller.Usable space controller ∧
        ∀ other, Controller.Usable space other → controller.address ≤ other.address := by
  refine ⟨least_of_scanned, fun ⟨husable, hleast⟩ => ?_⟩
  cases hscan : scanned space with
  | none => exact absurd husable (scanned_eq_none_iff.1 hscan controller)
  | some first =>
    obtain ⟨hfirst, hbefore⟩ := least_of_scanned hscan
    have hrank := Nat.le_antisymm (hbefore controller husable) (hleast first hfirst)
    rw [hfirst.eq_of_address husable (Pci.Address.rank_inj.1 hrank)]

/-- A detection finds the usable controller with the least device and function of bus 0, whatever
was known before: controllers that cannot be used are passed over. It is refused where there is
none. Afterwards the controller that was found is known, or none, and nothing else has changed. The
base of what is found is a multiple of 4 KiB and not zero, so its control register is behind it. -/
theorem detect_first (space : Pci.ConfigSpace) (directory : Directory) :
    let reply := detect space directory
    (∀ controller, reply.outcome = .ok controller ↔
      Controller.Usable space controller ∧
        ∀ other, Controller.Usable space other → controller.address ≤ other.address) ∧
    (reply.outcome = .error (.unavailable .iommu) ↔
      ∀ controller, ¬ Controller.Usable space controller) ∧
    ((∃ controller, reply.outcome = .ok controller ∧
        reply.state = { directory with controller := some controller }) ∨
      reply.outcome = .error (.unavailable .iommu) ∧
        reply.state = { directory with controller := none }) ∧
    ∀ controller, reply.outcome = .ok controller →
      controller.base ≠ 0 ∧ controller.base.toNat % 4096 = 0 ∧
        controller.controlRegister.toNat = controller.base.toNat + 0x18 := by
  intro reply
  obtain ⟨log, hreply⟩ := detect_eq space directory
  have hreply : reply = _ := hreply
  have hok (controller : Controller) :
      reply.outcome = .ok controller ↔ scanned space = some controller := by
    rw [hreply]
    cases scanned space <;> simp
  refine ⟨fun controller => (hok controller).trans scanned_eq_some_iff, ?refused, ?known,
    fun controller found => ?base⟩
  case refused =>
    rw [← scanned_eq_none_iff, hreply]
    cases scanned space <;> simp
  case known =>
    rw [hreply]
    cases scanned space with
    | none => exact .inr ⟨rfl, rfl⟩
    | some controller => exact .inl ⟨controller, rfl, rfl⟩
  case base =>
    have husable := (scanned_eq_some_iff.1 ((hok controller).1 found)).1
    exact ⟨husable.nonzero, husable.register⟩

end Directory
end CellVisor
