import CellVisor.Config
import Mathlib.Data.List.Pairwise

/-!
# CellVisor.Proofs.Config.Layout

What a layout that `Config.validate` accepts is like.

* `overlaps_eq_false_iff`: ranges that fit into the address space pass when they are apart.
* `checkExtents_eq_ok`: the ranges fit into the address space and no two of them overlap.
* `validate_eq_ok`: a configuration is accepted when it passes every check.
* `isSound_of_validate`: an accepted configuration is sound.
* `IsSound.eq_of_contains`: in a sound one, two different parts have no address in common.
-/

namespace CellVisor

namespace Extent

/-- One of the two extents ends before the other begins. -/
def Apart (a b : Extent) : Prop :=
  a.base.toNat + a.size.toNat ≤ b.base.toNat ∨ b.base.toNat + b.size.toNat ≤ a.base.toNat

/-- `address` is one of the addresses from the base on, of which there are as many as the size
says. In contrast to `contains` nothing is clamped. -/
def Covers (extent : Extent) (address : UInt64) : Prop :=
  extent.base.toNat ≤ address.toNat ∧ address.toNat < extent.base.toNat + extent.size.toNat

theorem contains_iff_covers {extent : Extent} (h : extent.fits = true) (address : UInt64) :
    extent.contains address = true ↔ extent.Covers address := by
  rw [fits_iff] at h
  rw [contains_iff, toNat_stop]
  unfold Covers
  omega

theorem Apart.not_covers {a b : Extent} (h : a.Apart b) {address : UInt64}
    (ha : a.Covers address) : ¬ b.Covers address := by
  unfold Apart at h
  unfold Covers at ha ⊢
  omega

theorem overlaps_eq_false_iff {a b : Extent} (ha : a.fits = true) (hb : b.fits = true) :
    a.overlaps b = false ↔ a.Apart b := by
  rw [fits_iff] at ha hb
  rw [← Bool.not_eq_true, overlaps_iff, toNat_stop, toNat_stop]
  unfold Apart
  omega

end Extent

namespace Config

/-- A part of the address space that a configuration sets aside. -/
inductive Holding
  | hypervisor
  | memory (id : CellId)
  | store (id : CellId)
  deriving DecidableEq

def Holding.all : List Holding :=
  [.hypervisor, .memory .linux, .memory .windows, .store .linux, .store .windows]

theorem Holding.mem_all (holding : Holding) : holding ∈ all := by
  rcases holding with _ | ⟨_ | _⟩ | ⟨_ | _⟩ <;> decide

/-- The cell that a part is set aside for. -/
def Holding.owner? : Holding → Option CellId
  | hypervisor => none
  | memory id | store id => some id

def extentOf (config : Config) : Holding → Extent
  | .hypervisor => config.hypervisor
  | .memory id => (config.cells.get id).memory
  | .store id => (config.cells.get id).store

/-- What the control plane relies on in a configuration. -/
structure IsSound (config : Config) : Prop where
  hypervisor_pos : 0 < config.hypervisor.size.toNat
  memory_pos : ∀ id, 0 < (config.cells.get id).memory.size.toNat
  store_large : ∀ id,
    (config.cells.get id).memory.size.toNat ≤ (config.cells.get id).store.size.toNat
  fits : ∀ holding, (config.extentOf holding).fits = true
  apart : ∀ a b, a ≠ b → (config.extentOf a).Apart (config.extentOf b)
  block_pos : 0 < config.blockSize.toNat
  timeout_pos : 0 < config.freezeTimeout.toNat

theorem map_extentOf (config : Config) : Holding.all.map config.extentOf = config.extents := rfl

namespace IsSound

variable {config : Config} (h : config.IsSound) (id : CellId)

include h

theorem memory_fits : (config.cells.get id).memory.base.toNat +
    (config.cells.get id).memory.size.toNat < UInt64.size :=
  (Extent.fits_iff _).1 (h.fits (.memory id))

theorem store_fits : (config.cells.get id).store.base.toNat +
    (config.cells.get id).store.size.toNat < UInt64.size :=
  (Extent.fits_iff _).1 (h.fits (.store id))

/-- The part of the store that the image takes up is apart from the memory. -/
theorem image_apart : Extent.Apart
    ⟨(config.cells.get id).store.base, (config.cells.get id).memory.size⟩
    (config.cells.get id).memory := by
  have happart : (config.cells.get id).store.Apart (config.cells.get id).memory :=
    h.apart (.store id) (.memory id) Holding.noConfusion
  have hlarge := h.store_large id
  unfold Extent.Apart at happart ⊢
  dsimp only
  omega

omit id in
/-- No address belongs to two parts. -/
theorem eq_of_contains {a b : Holding} {address : UInt64}
    (ha : (config.extentOf a).contains address = true)
    (hb : (config.extentOf b).contains address = true) : a = b := by
  refine Decidable.byContradiction fun hne => ?_
  have happart := h.apart a b hne
  rw [Extent.contains_iff, Extent.toNat_stop] at ha hb
  unfold Extent.Apart at happart
  omega

/-- Both parts of a cell have room for its image. -/
theorem image_le {holding : Holding} (howner : holding.owner? = some id) :
    (config.cells.get id).memory.size.toNat ≤ (config.extentOf holding).size.toNat := by
  cases holding with
  | hypervisor => cases howner
  | memory owner =>
    cases howner
    exact Nat.le_refl _
  | store owner =>
    cases howner
    exact h.store_large id

/-- The image ends inside the address space wherever it is. -/
theorem image_fits {holding : Holding} (howner : holding.owner? = some id) :
    (config.extentOf holding).base.toNat + (config.cells.get id).memory.size.toNat <
      UInt64.size := by
  have hroom := h.image_le id howner
  have hfits := (Extent.fits_iff _).1 (h.fits holding)
  omega

/-- A block of the image in a part of a cell is inside the part. -/
theorem contains_of_block {holding : Holding} (howner : holding.owner? = some id)
    {start chunk address : UInt64} {offset : Nat}
    (hstart : start.toNat = (config.extentOf holding).base.toNat + offset)
    (hend : offset + chunk.toNat ≤ (config.cells.get id).memory.size.toNat)
    (hinside : start.toNat ≤ address.toNat ∧ address.toNat < start.toNat + chunk.toNat) :
    (config.extentOf holding).contains address = true := by
  have hroom := h.image_le id howner
  have hfits := (Extent.fits_iff _).1 (h.fits holding)
  rw [Extent.contains_iff, Extent.toNat_stop]
  omega

end IsSound

/-! ## The checks -/

section Steps

variable {α β : Type} {value : β}

theorem guard_eq_ok {p : Prop} [Decidable p] {error : Error} {next : Except Error β} :
    (if p then .error error else next) = .ok value ↔ ¬ p ∧ next = .ok value := by
  split <;> simp_all

theorem error_bind (error : Error) (next : α → Except Error β) :
    (.error error >>= next) = .error error := rfl

theorem bind_eq_ok {first : Except Error α} {next : α → Except Error β} :
    (first >>= next) = .ok value ↔ ∃ middle, first = .ok middle ∧ next middle = .ok value := by
  cases first <;> simp [bind, Except.bind]

end Steps

theorem cover_eq_ok {covered total : UInt64} {layout : CellLayout} :
    cover covered layout = .ok total ↔
      0 < layout.memory.size.toNat ∧ layout.memory.size.toNat ≤ layout.store.size.toNat ∧
        covered.toNat + layout.memory.size.toNat = total.toNat := by
  unfold cover
  rw [guard_eq_ok, guard_eq_ok, UInt64.not_lt, UInt64.le_iff_toNat_le, ← Word.add?_eq_some_iff,
    ← Word.ne_zero_iff]
  cases Word.add? covered layout.memory.size <;> simp

/-- A list of ranges passes when each fits into the address space and no two overlap. -/
theorem checkExtents_eq_ok {extents : List Extent} :
    checkExtents extents = .ok () ↔
      (∀ extent ∈ extents, extent.fits = true) ∧
        extents.Pairwise fun a b => a.overlaps b = false := by
  induction extents with
  | nil => simp [checkExtents]
  | cons extent later ih =>
    unfold checkExtents
    split
    · rename_i hfits
      simp_all
    · split
      · rename_i hover
        simp only [reduceCtorEq, List.pairwise_cons, false_iff, not_and]
        rintro - hnone
        obtain ⟨other, hmem, hother⟩ := List.any_eq_true.1 hover
        rw [hnone other hmem] at hother
        cases hother
      · rename_i hfits hover
        simp_all

theorem checkExtents_extents {config : Config} :
    checkExtents config.extents = .ok () ↔
      (∀ holding, (config.extentOf holding).fits = true) ∧
        ∀ a b, a ≠ b → (config.extentOf a).Apart (config.extentOf b) := by
  rw [checkExtents_eq_ok, ← map_extentOf, List.forall_mem_map, List.pairwise_map]
  constructor
  · rintro ⟨hfits, hover⟩
    have hfit : ∀ holding, (config.extentOf holding).fits = true := fun holding =>
      hfits _ (Holding.mem_all holding)
    have listed : Holding.all.Pairwise fun a b => (config.extentOf a).Apart (config.extentOf b) :=
      hover.imp fun h => (Extent.overlaps_eq_false_iff (hfit _) (hfit _)).1 h
    have : Std.Symm fun a b => (config.extentOf a).Apart (config.extentOf b) :=
      ⟨fun _ _ => Or.symm⟩
    exact ⟨hfit, fun a b hne => listed.forall (Holding.mem_all a) (Holding.mem_all b) hne⟩
  · rintro ⟨hfit, hapart⟩
    have distinct : Holding.all.Pairwise (· ≠ ·) := by decide
    exact ⟨fun holding _ => hfit holding, distinct.imp fun hne =>
      (Extent.overlaps_eq_false_iff (hfit _) (hfit _)).2 (hapart _ _ hne)⟩

theorem validate_eq_ok {config : Config} :
    config.validate = .ok () ↔
      config.hypervisor.size ≠ 0 ∧
        (∃ covered, cover 0 config.cells.linux = .ok covered ∧
          cover covered config.cells.windows = .ok config.guestMemory) ∧
        checkExtents config.extents = .ok () ∧ Word.isPowerOfTwo config.blockSize = true ∧
        config.freezeTimeout ≠ 0 ∧ config.linuxCores ≠ some 0 := by
  unfold validate
  simp only [throw, throwThe, MonadExceptOf.throw, error_bind, guard_eq_ok, bind_eq_ok, not_not,
    Bool.not_eq_true', Bool.not_eq_false]
  constructor
  · rintro ⟨hhypervisor, covered, hlinux, _, hwindows, rfl, ⟨⟩, hextents, hblock, htimeout, hcores,
      -⟩
    exact ⟨hhypervisor, ⟨covered, hlinux, hwindows⟩, hextents, hblock, htimeout, hcores⟩
  · rintro ⟨hhypervisor, ⟨covered, hlinux, hwindows⟩, hextents, hblock, htimeout, hcores⟩
    exact ⟨hhypervisor, covered, hlinux, _, hwindows, rfl, (), hextents, hblock, htimeout, hcores,
      rfl⟩

theorem isSound_of_validate {config : Config} (h : config.validate = .ok ()) :
    config.IsSound := by
  obtain ⟨hhypervisor, ⟨covered, hlinux, hwindows⟩, hextents, hblock, htimeout, -⟩ :=
    validate_eq_ok.1 h
  obtain ⟨hfits, hapart⟩ := checkExtents_extents.1 hextents
  obtain ⟨hlinuxPos, hlinuxStore, -⟩ := cover_eq_ok.1 hlinux
  obtain ⟨hwindowsPos, hwindowsStore, -⟩ := cover_eq_ok.1 hwindows
  exact {
    hypervisor_pos := Word.ne_zero_iff.1 hhypervisor
    memory_pos := fun id => by cases id <;> assumption
    store_large := fun id => by cases id <;> assumption
    fits := hfits
    apart := hapart
    block_pos := Word.pos_of_isPowerOfTwo hblock
    timeout_pos := Word.ne_zero_iff.1 htimeout }

end Config
end CellVisor
