import CellVisor.Pci.ConfigSpace
import CellVisor.Proofs.Bits
import CellVisor.Sim.Device

/-!
# CellVisor.Proofs.Sim.Layout

How capabilities are laid out in the space of a simulated function: one after the other behind the
header of the space, each linked to the one before it.

* `Addition.start`: where each of them starts.
* `Device.Appended`: what it makes of a function to append one, and `appended_of_room` that this
  is what the appending does.
* `Device.Laid`: a function with an identity and the capabilities that were added to it.
* `Laid.add`, `Laid.add_of_full`: it takes another one exactly where there is room for it.
-/

namespace CellVisor
namespace Sim

/-- A capability as it is added: its number, and the dwords behind its header. -/
structure Addition where
  id : UInt8
  payload : List UInt32

namespace Addition

/-- How many dwords capabilities take, with their headers. -/
def extent : List Addition → Nat
  | [] => 0
  | addition :: rest => addition.payload.length + 1 + extent rest

/-- The dword where the capability with number `k` starts. The first is behind the header of the
space, and each of the others behind the one before it. -/
def start (capabilities : List Addition) (k : Nat) : Nat := 16 + extent (capabilities.take k)

/-- The offset of the capability with number `k`. -/
def offset (capabilities : List Addition) (k : Nat) : UInt8 :=
  UInt8.ofNat (4 * start capabilities k)

/-- What the header of the capability with number `k` leads to: the next one, or zero. -/
def link (capabilities : List Addition) (k : Nat) : Nat :=
  if k + 1 < capabilities.length then 4 * start capabilities (k + 1) else 0

/-- A header with its number and a link. -/
def header (id : UInt8) (link : Nat) : UInt32 := id.toUInt32 ||| (UInt32.ofNat link <<< 8)

section Layout

variable {capabilities : List Addition} {addition : Addition} {k : Nat}

theorem extent_append (capabilities more : List Addition) :
    extent (capabilities ++ more) = extent capabilities + extent more := by
  induction capabilities with
  | nil => exact (Nat.zero_add _).symm
  | cons addition rest ih => rw [List.cons_append, extent, ih, extent, Nat.add_assoc (_ + 1)]

theorem start_zero (capabilities : List Addition) : start capabilities 0 = 16 := rfl

theorem start_append (hk : k ≤ capabilities.length) (more : List Addition) :
    start (capabilities ++ more) k = start capabilities k := by
  rw [start, start, List.take_append_of_le_length hk]

theorem start_length (capabilities : List Addition) :
    start capabilities capabilities.length = 16 + extent capabilities := by
  rw [start, List.take_length]

theorem start_succ (h : capabilities[k]? = some addition) :
    start capabilities (k + 1) = start capabilities k + (addition.payload.length + 1) := by
  rw [start, start, List.take_add_one, h, Option.toList_some, extent_append, extent, extent]
  omega

theorem start_add (k n : Nat) :
    start capabilities (k + n) = start capabilities k + extent ((capabilities.drop k).take n) := by
  rw [start, start, List.take_add, extent_append, Nat.add_assoc]

theorem le_start (capabilities : List Addition) (k : Nat) : 16 ≤ start capabilities k :=
  Nat.le_add_right 16 _

theorem start_mono {j : Nat} (h : k ≤ j) : start capabilities k ≤ start capabilities j := by
  rw [← Nat.add_sub_cancel' h, start_add]
  exact Nat.le_add_right _ _

/-- A capability ends where a later one starts, or before. -/
theorem start_add_size_le {j : Nat} (h : capabilities[k]? = some addition) (hkj : k < j) :
    start capabilities k + (addition.payload.length + 1) ≤ start capabilities j := by
  rw [← start_succ h]
  exact start_mono hkj

theorem start_add_size_le_extent (h : capabilities[k]? = some addition) :
    start capabilities k + (addition.payload.length + 1) ≤ 16 + extent capabilities := by
  rw [← start_length]
  exact start_add_size_le h (List.getElem?_eq_some_iff.1 h).1

theorem length_le_extent (capabilities : List Addition) :
    capabilities.length ≤ extent capabilities := by
  induction capabilities with
  | nil => exact Nat.le_refl 0
  | cons addition rest ih =>
    rw [List.length_cons, extent]
    omega

end Layout

/-- The link is put into the header of the last capability once there is a next one. -/
theorem header_or (id : UInt8) (offset : UInt16) :
    header id 0 ||| (offset.toUInt32 <<< 8) = header id offset.toNat := by
  rw [header, header]
  simp

end Addition

namespace Device

open Addition (extent start header link)

/-- The dword with an index; every bit is set outside the space. -/
def dword (device : Device) (index : Nat) : UInt32 := device.dwords[index]?.getD 0xFFFFFFFF

theorem read_eq (device : Device) (offset : UInt16) :
    device.read offset = device.dword (offset.toNat / 4) := by
  rw [read, dword, UInt16.toNat_div]
  rfl

/-! ## One capability -/

section Put

variable {index : Nat} {values : List UInt32}

theorem putList?_of_room (dwords : Vector UInt32 64) (room : index + values.length ≤ 64) :
    ∃ after, putList? dwords index values = some after ∧
      (∀ j < index, after[j]? = dwords[j]?) ∧
      ∀ i value, values[i]? = some value → after[index + i]? = some value := by
  induction values generalizing dwords index with
  | nil => exact ⟨dwords, rfl, fun _ _ => rfl, fun i value hvalue => by simp at hvalue⟩
  | cons first rest ih =>
    rw [List.length_cons] at room
    have hindex : index < 64 := by omega
    have hroom : index + 1 + rest.length ≤ 64 := by omega
    obtain ⟨after, hafter, hbefore, hvalues⟩ := ih (dwords.set index first) hroom
    refine ⟨after, ?_, fun j hj => ?_, fun i value hvalue => ?_⟩
    · rw [putList?, put?, dif_pos hindex]
      exact hafter
    · rw [hbefore j (by omega), Vector.getElem?_set_ne _ (by omega)]
    · cases i with
      | zero =>
        rw [Nat.add_zero, hbefore index (by omega), Vector.getElem?_set_self]
        exact hvalue
      | succ i =>
        rw [← hvalues i value hvalue]
        congr 1
        omega

theorem putList?_of_full (dwords : Vector UInt32 64) (inside : index ≤ 64)
    (full : 64 < index + values.length) : putList? dwords index values = none := by
  induction values generalizing dwords index with
  | nil =>
    rw [List.length_nil] at full
    omega
  | cons first rest ih =>
    rw [List.length_cons] at full
    rw [putList?, put?]
    by_cases hindex : index < 64
    · rw [dif_pos hindex]
      exact ih _ hindex (by omega)
    · rw [dif_neg hindex]
      rfl

end Put

/-- What it makes of a function to append a capability to it. -/
structure Appended (device : Device) (addition : Addition) (after : Device) : Prop where
  next : after.nextCapability =
    device.nextCapability + 4 * (1 + UInt16.ofNat addition.payload.length)
  last : after.lastCapability = some device.nextCapability
  header : after.dword (device.nextCapability.toNat / 4) = header addition.id 0
  payload : ∀ i value, addition.payload[i]? = some value →
    after.dword (device.nextCapability.toNat / 4 + 1 + i) = value
  /-- The first one becomes the head of the list. -/
  headed : device.lastCapability = none →
    after.dword 1 = device.dword 1 ||| 0x00100000 ∧
      after.dword 13 = device.nextCapability.toUInt32 ∧
      ∀ j < device.nextCapability.toNat / 4, j ≠ 1 → j ≠ 13 → after.dword j = device.dword j
  /-- Each of the others is linked to the one before it. -/
  linked : ∀ last, device.lastCapability = some last →
    after.dword (last.toNat / 4) =
        device.dword (last.toNat / 4) ||| (device.nextCapability.toUInt32 <<< 8) ∧
      ∀ j < device.nextCapability.toNat / 4, j ≠ last.toNat / 4 → after.dword j = device.dword j

section Append

variable {device : Device} {addition : Addition} {written : Vector UInt32 64}

theorem addCapability?_first
    (hwritten : putList? device.dwords (device.nextCapability.toNat / 4)
      (addition.id.toUInt32 :: addition.payload) = some written)
    (first : device.lastCapability = none) :
    device.addCapability? addition.id addition.payload = some
      { dwords :=
          (written.set 13 device.nextCapability.toUInt32 (by decide)).set 1
            (getElem written 1 (by decide) ||| 0x00100000) (by decide)
        nextCapability := device.nextCapability + 4 * (1 + UInt16.ofNat addition.payload.length)
        lastCapability := some device.nextCapability } := by
  have hset : (written.set 13 device.nextCapability.toUInt32)[1] = written[1] :=
    Vector.getElem_set_ne _ _ (by omega)
  unfold addCapability?
  simp only [hwritten, first, Option.bind_eq_bind, Option.bind_some, setBits?]
  rw [dif_pos (by omega), hset]
  rfl

theorem addCapability?_later {last : UInt16}
    (hwritten : putList? device.dwords (device.nextCapability.toNat / 4)
      (addition.id.toUInt32 :: addition.payload) = some written)
    (later : device.lastCapability = some last) (inside : last.toNat / 4 < 64) :
    device.addCapability? addition.id addition.payload = some
      { dwords := written.set (last.toNat / 4)
          (written[last.toNat / 4] ||| (device.nextCapability.toUInt32 <<< 8))
        nextCapability := device.nextCapability + 4 * (1 + UInt16.ofNat addition.payload.length)
        lastCapability := some device.nextCapability } := by
  unfold addCapability?
  simp only [hwritten, later, Option.bind_eq_bind, Option.bind_some, setBits?, dif_pos inside]
  rfl

theorem appended_of_room (behind : 16 ≤ device.nextCapability.toNat / 4)
    (earlier : ∀ last, device.lastCapability = some last →
      last.toNat / 4 < device.nextCapability.toNat / 4)
    (room : device.nextCapability.toNat / 4 + (addition.payload.length + 1) ≤ 64) :
    ∃ after, device.addCapability? addition.id addition.payload = some after ∧
      Appended device addition after := by
  have hroom : device.nextCapability.toNat / 4 +
      (addition.id.toUInt32 :: addition.payload).length ≤ 64 := room
  obtain ⟨written, hwritten, hbefore, hvalues⟩ := putList?_of_room device.dwords hroom
  have hkept {j : Nat} (hj : j < device.nextCapability.toNat / 4) (hin : j < 64) :
      written[j] = device.dword j := by
    rw [dword, ← hbefore j hj, Vector.getElem?_eq_getElem hin]
    rfl
  have hheader : written[device.nextCapability.toNat / 4]? = some (header addition.id 0) := by
    rw [header]
    simpa using hvalues 0 addition.id.toUInt32 rfl
  have hpayload (i : Nat) (value : UInt32) (h : addition.payload[i]? = some value) :
      written[device.nextCapability.toNat / 4 + 1 + i]? = some value := by
    rw [Nat.add_right_comm]
    exact hvalues (i + 1) value h
  cases hlast : device.lastCapability with
  | none =>
    refine ⟨_, addCapability?_first hwritten hlast, ?_⟩
    exact
      { next := rfl
        last := rfl
        header := by
          rw [dword, Vector.getElem?_set_ne _ (by omega), Vector.getElem?_set_ne _ (by omega),
            hheader]
          rfl
        payload := fun i value h => by
          rw [dword, Vector.getElem?_set_ne _ (by omega), Vector.getElem?_set_ne _ (by omega),
            hpayload i value h]
          rfl
        headed := fun _ => by
          refine ⟨?_, ?_, fun j hj hstatus hhead => ?_⟩
          · rw [dword, Vector.getElem?_set_self, hkept (by omega)]
            rfl
          · rw [dword, Vector.getElem?_set_ne _ (by omega), Vector.getElem?_set_self]
            rfl
          · rw [dword, Vector.getElem?_set_ne _ (by omega), Vector.getElem?_set_ne _ (by omega),
              hbefore j hj]
            rfl
        linked := fun last hsome => by
          rw [hlast] at hsome
          cases hsome }
  | some last =>
    have hlt := earlier last hlast
    refine ⟨_, addCapability?_later hwritten hlast (by omega), ?_⟩
    exact
      { next := rfl
        last := rfl
        header := by
          rw [dword, Vector.getElem?_set_ne _ (by omega), hheader]
          rfl
        payload := fun i value h => by
          rw [dword, Vector.getElem?_set_ne _ (by omega), hpayload i value h]
          rfl
        headed := fun first => by
          rw [hlast] at first
          cases first
        linked := fun other hother => by
          rw [hlast] at hother
          cases hother
          refine ⟨?_, fun j hj hne => ?_⟩
          · rw [dword, Vector.getElem?_set_self, hkept hlt]
            rfl
          · rw [dword, Vector.getElem?_set_ne _ (by omega), hbefore j hj]
            rfl }

theorem addCapability?_of_full (inside : device.nextCapability.toNat / 4 ≤ 64)
    (full : 64 < device.nextCapability.toNat / 4 + (addition.payload.length + 1)) :
    device.addCapability? addition.id addition.payload = none := by
  have hfull : 64 < device.nextCapability.toNat / 4 +
      (addition.id.toUInt32 :: addition.payload).length := full
  unfold addCapability?
  dsimp only
  rw [putList?_of_full device.dwords inside hfull]
  rfl

end Append

/-! ## All of them -/

/-- A function with an identity and the capabilities that were added to it. -/
structure Laid (identity : Pci.Identity) (device : Device) (capabilities : List Addition) :
    Prop where
  ids : device.dword 0 = (identity.device.toUInt32 <<< 16) ||| identity.vendor.toUInt32
  baseClass : device.dword 2 = identity.baseClass.toUInt32 <<< 24
  room : 16 + extent capabilities ≤ 64
  next : device.nextCapability.toNat = 4 * (16 + extent capabilities)
  unlisted : capabilities = [] → device.lastCapability = none ∧ device.dword 1 &&& 0x00100000 = 0
  listed : capabilities ≠ [] →
    device.lastCapability =
        some (UInt16.ofNat (4 * start capabilities (capabilities.length - 1))) ∧
      device.dword 1 &&& 0x00100000 ≠ 0 ∧ device.dword 13 = 0x40
  header : ∀ k addition, capabilities[k]? = some addition →
    device.dword (start capabilities k) = header addition.id (link capabilities k)
  payload : ∀ k addition, capabilities[k]? = some addition →
    ∀ i value, addition.payload[i]? = some value →
      device.dword (start capabilities k + 1 + i) = value

section Laid

variable {identity : Pci.Identity} {device after : Device} {capabilities : List Addition}
  {addition : Addition}

theorem laid_ofIdentity (vendor device : UInt16) (baseClass : UInt8) :
    (ofIdentity vendor device baseClass).Laid ⟨vendor, device, baseClass⟩ [] where
  ids := by simp [dword, ofIdentity]
  baseClass := by simp [dword, ofIdentity]
  room := by decide
  next := rfl
  unlisted := fun _ => by simp [dword, ofIdentity]
  listed := fun h => absurd rfl h
  header := fun k addition h => by simp at h
  payload := fun k addition h => by simp at h

theorem Laid.nextIndex (h : Laid identity device capabilities) :
    device.nextCapability.toNat / 4 = 16 + extent capabilities := by
  rw [h.next, Nat.mul_div_cancel_left _ (by decide)]

/-- Where the last capability is. -/
theorem Laid.lastIndex (h : Laid identity device capabilities) {last : UInt16}
    (hlast : device.lastCapability = some last) :
    capabilities ≠ [] ∧ last.toNat / 4 = start capabilities (capabilities.length - 1) := by
  have hlisted : capabilities ≠ [] := by
    intro hnil
    rw [(h.unlisted hnil).1] at hlast
    cases hlast
  rw [(h.listed hlisted).1] at hlast
  cases hlast
  have hroom := h.room
  have hle : start capabilities (capabilities.length - 1) ≤ 16 + extent capabilities := by
    rw [← Addition.start_length]
    exact Addition.start_mono (Nat.sub_le _ _)
  refine ⟨hlisted, ?_⟩
  rw [UInt16.toNat_ofNat_of_lt' (by rw [UInt16.size]; omega), Nat.mul_div_cancel_left _ (by decide)]

/-- What was there stays, apart from the head of the list, the status and the last header. -/
theorem Laid.kept (h : Laid identity device capabilities)
    (hafter : Appended device addition after) {j : Nat} (hj : j < 16 + extent capabilities)
    (hstatus : j ≠ 1) (hhead : j ≠ 13)
    (hlast : ∀ k, k + 1 = capabilities.length → j ≠ start capabilities k) :
    after.dword j = device.dword j := by
  rw [← h.nextIndex] at hj
  cases hsome : device.lastCapability with
  | none => exact (hafter.headed hsome).2.2 j hj hstatus hhead
  | some last =>
    obtain ⟨hlisted, hindex⟩ := h.lastIndex hsome
    refine (hafter.linked last hsome).2 j hj ?_
    rw [hindex]
    exact hlast _ (Nat.sub_add_cancel (List.length_pos_iff.2 hlisted))

/-- So the capabilities stay as they are, apart from the last header. -/
theorem Laid.kept_of_earlier (h : Laid identity device capabilities)
    (hafter : Appended device addition after) {k : Nat} {other : Addition}
    (hother : capabilities[k]? = some other) {i : Nat} (hi : i ≤ other.payload.length)
    (hlast : i ≠ 0 ∨ k + 1 ≠ capabilities.length) :
    after.dword (start capabilities k + i) = device.dword (start capabilities k + i) := by
  have hbehind := Addition.le_start capabilities k
  have hsize := Addition.start_add_size_le_extent hother
  refine h.kept hafter (by omega) (by omega) (by omega) fun j hj => ?_
  have hk := (List.getElem?_eq_some_iff.1 hother).1
  rcases Nat.lt_or_ge k j with hlt | hge
  · have hbefore := Addition.start_add_size_le hother hlt
    omega
  · rw [show j = k by omega]
    omega

/-- The header that was the last leads to the new capability. -/
theorem Laid.linked (h : Laid identity device capabilities)
    (hafter : Appended device addition after) {k : Nat} (hk : k + 1 = capabilities.length) :
    after.dword (start capabilities k) =
      device.dword (start capabilities k) ||| (device.nextCapability.toUInt32 <<< 8) := by
  have hlisted : capabilities ≠ [] := by
    rw [← List.length_pos_iff]
    omega
  obtain ⟨last, hsome⟩ : ∃ last, device.lastCapability = some last := ⟨_, (h.listed hlisted).1⟩
  have hindex := (h.lastIndex hsome).2
  rw [show capabilities.length - 1 = k by omega] at hindex
  rw [← hindex]
  exact (hafter.linked last hsome).1

theorem Laid.status (h : Laid identity device capabilities)
    (hafter : Appended device addition after) :
    after.dword 1 &&& 0x00100000 ≠ 0 ∧ after.dword 13 = 0x40 := by
  by_cases hnil : capabilities = []
  · obtain ⟨hstatus, hhead, -⟩ := hafter.headed (h.unlisted hnil).1
    have hnext : device.nextCapability = 0x40 := by
      apply UInt16.toNat.inj
      rw [h.next, hnil]
      rfl
    rw [hstatus, hhead, hnext, Word.or_and_self]
    decide
  · obtain ⟨hlast, hstatus, hhead⟩ := h.listed hnil
    have hkept := (hafter.linked _ hlast).2
    have hindex := (h.lastIndex hlast).2
    have hbehind := Addition.le_start capabilities (capabilities.length - 1)
    rw [h.nextIndex] at hkept
    rw [hkept 1 (by omega) (by omega), hkept 13 (by omega) (by omega)]
    exact ⟨hstatus, hhead⟩

theorem Laid.appended (h : Laid identity device capabilities)
    (hafter : Appended device addition after)
    (room : 16 + extent (capabilities ++ [addition]) ≤ 64) :
    Laid identity after (capabilities ++ [addition]) := by
  have hextent : extent (capabilities ++ [addition]) =
      extent capabilities + (addition.payload.length + 1) := Addition.extent_append _ _
  have hlength : (capabilities ++ [addition]).length = capabilities.length + 1 :=
    List.length_append
  have hstart {k : Nat} (hk : k ≤ capabilities.length) :
      start (capabilities ++ [addition]) k = start capabilities k := Addition.start_append hk _
  have hbehind (k : Nat) : 16 ≤ start capabilities k := Addition.le_start _ _
  have hnew {k : Nat} {other : Addition} (hk : capabilities.length ≤ k)
      (hother : (capabilities ++ [addition])[k]? = some other) :
      k = capabilities.length ∧ other = addition := by
    rw [List.getElem?_append_right hk, List.getElem?_singleton] at hother
    split at hother
    · cases hother
      exact ⟨by omega, rfl⟩
    · cases hother
  refine
    { ids := ?ids, baseClass := ?baseClass, room, next := ?next
      unlisted := fun hnil => by simp at hnil
      listed := fun _ => ⟨?last, h.status hafter⟩
      header := fun k other hother => ?header
      payload := fun k other hother i value hvalue => ?payload }
  case ids =>
    rw [h.kept hafter (by omega) (by omega) (by omega) fun k _ => by
      have := hbehind k
      omega]
    exact h.ids
  case baseClass =>
    rw [h.kept hafter (by omega) (by omega) (by omega) fun k _ => by
      have := hbehind k
      omega]
    exact h.baseClass
  case next =>
    have hroom := h.room
    rw [hafter.next, UInt16.toNat_add, UInt16.toNat_mul, UInt16.toNat_add,
      UInt16.toNat_ofNat_of_lt' (by rw [UInt16.size]; omega), h.next, hextent]
    simp only [UInt16.reduceToNat]
    omega
  case last =>
    rw [hafter.last, hlength, Nat.add_sub_cancel, hstart (Nat.le_refl _), Addition.start_length,
      ← h.next, UInt16.ofNat_toNat]
  case header =>
    rcases Nat.lt_or_ge k capabilities.length with hk | hk
    · rw [List.getElem?_append_left hk] at hother
      rw [hstart (Nat.le_of_lt hk)]
      by_cases hlast : k + 1 = capabilities.length
      · -- the header that was the last had no link
        rw [h.linked hafter hlast, h.header k other hother, link, if_neg (by omega),
          Addition.header_or, link, if_pos (by omega), hlast, hstart (Nat.le_refl _),
          Addition.start_length, h.next]
      · have hkept := h.kept_of_earlier hafter hother (Nat.zero_le _) (.inr hlast)
        rw [Nat.add_zero] at hkept
        rw [hkept, h.header k other hother, link, if_pos (by omega), link, if_pos (by omega),
          hstart (by omega)]
    · obtain ⟨rfl, rfl⟩ := hnew hk hother
      rw [hstart (Nat.le_refl _), Addition.start_length, ← h.nextIndex, hafter.header, link,
        if_neg (by omega)]
  case payload =>
    rcases Nat.lt_or_ge k capabilities.length with hk | hk
    · rw [List.getElem?_append_left hk] at hother
      have hi := (List.getElem?_eq_some_iff.1 hvalue).1
      rw [hstart (Nat.le_of_lt hk), Nat.add_assoc,
        h.kept_of_earlier hafter hother (by omega) (.inl (by omega)), ← Nat.add_assoc]
      exact h.payload k other hother i value hvalue
    · obtain ⟨rfl, rfl⟩ := hnew hk hother
      rw [hstart (Nat.le_refl _), Addition.start_length, ← h.nextIndex]
      exact hafter.payload i value hvalue

/-- Where there is room for it another capability is added. -/
theorem Laid.add (h : Laid identity device capabilities)
    (room : 16 + extent (capabilities ++ [addition]) ≤ 64) :
    ∃ after, device.addCapability? addition.id addition.payload = some after ∧
      Laid identity after (capabilities ++ [addition]) := by
  have hextent : extent (capabilities ++ [addition]) =
      extent capabilities + (addition.payload.length + 1) := Addition.extent_append _ _
  have hindex := h.nextIndex
  have hearlier (last : UInt16) (hlast : device.lastCapability = some last) :
      last.toNat / 4 < device.nextCapability.toNat / 4 := by
    obtain ⟨hlisted, hlastIndex⟩ := h.lastIndex hlast
    have hlt : capabilities.length - 1 < capabilities.length :=
      Nat.sub_lt (List.length_pos_iff.2 hlisted) Nat.one_pos
    have hsize := Addition.start_add_size_le_extent (List.getElem?_eq_getElem hlt)
    omega
  obtain ⟨after, hadd, hafter⟩ := appended_of_room (by omega) hearlier
    (show _ + (addition.payload.length + 1) ≤ 64 by omega)
  exact ⟨after, hadd, h.appended hafter room⟩

/-- Where there is none the addition fails. -/
theorem Laid.add_of_full (h : Laid identity device capabilities)
    (full : 64 < 16 + extent (capabilities ++ [addition])) :
    device.addCapability? addition.id addition.payload = none := by
  have hextent : extent (capabilities ++ [addition]) =
      extent capabilities + (addition.payload.length + 1) := Addition.extent_append _ _
  have hindex := h.nextIndex
  have hroom := h.room
  exact addCapability?_of_full (by omega) (by omega)

theorem dword_setMultifunction (device : Device) :
    device.setMultifunction.dword 3 &&& 0x00800000 ≠ 0 := by
  rw [dword, Device.setMultifunction, Vector.getElem?_set_self, Option.getD_some, Word.or_and_self]
  decide

/-- To make a function multi-function changes nothing of that. -/
theorem Laid.setMultifunction (h : Laid identity device capabilities) :
    Laid identity device.setMultifunction capabilities := by
  have hkept {j : Nat} (hj : j ≠ 3) : device.setMultifunction.dword j = device.dword j := by
    rw [dword, Device.setMultifunction, Vector.getElem?_set_ne _ hj.symm]
    rfl
  have hbehind (k : Nat) : 16 ≤ start capabilities k := Addition.le_start _ _
  exact
    { ids := by
        rw [hkept (by decide)]
        exact h.ids
      baseClass := by
        rw [hkept (by decide)]
        exact h.baseClass
      room := h.room
      next := h.next
      unlisted := fun hnil => by
        rw [hkept (by decide)]
        exact h.unlisted hnil
      listed := fun hlisted => by
        rw [hkept (by decide), hkept (by decide)]
        exact h.listed hlisted
      header := fun k other hother => by
        have := hbehind k
        rw [hkept (by omega)]
        exact h.header k other hother
      payload := fun k other hother i value hvalue => by
        have := hbehind k
        rw [hkept (by omega)]
        exact h.payload k other hother i value hvalue }

end Laid

end Device
end Sim
end CellVisor
