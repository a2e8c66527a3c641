import CellVisor.BareMetal
import CellVisor.Proofs.Config.Layout
import CellVisor.Proofs.Image.Copy
import CellVisor.Proofs.Operation

/-!
# CellVisor.Proofs.Image.Admission

Whether a machine takes the blocks of an image. The simulated machine asks that both ranges end
inside the address space, and so does the bare one, which also takes nothing from or to the address
zero. An accepted configuration promises the first, but a memory or a store may begin at zero.

* `Audited`: a machine that keeps a list of the copies it is asked for, and otherwise goes on as
  before (`copy_audited`).
* `isBlock_of_requested`, `first_requested`: which copies an image asks for, in any case the first
  block.
* `requests_admitted`: every block is admitted by the simulated machine, and by the bare one unless
  it begins at zero; such a block, which there is only where the memory or the store begins at zero,
  is refused as one that cannot be copied.
* `save_refused_grounded`: an accepted configuration for which the bare machine refuses a block.
-/

namespace CellVisor

/-! ## Requests -/

/-- A copy of physical memory that a machine is asked for. -/
structure CopyRequest where
  target : UInt64
  source : UInt64
  size : UInt64
  deriving Repr, DecidableEq

/-- The bare machine takes the copy, in whatever state it is. -/
def BareMetal.Admits (request : CopyRequest) : Prop :=
  ∀ machine : BareMetal,
    (Machine.copy request.target request.source request.size machine).1 = .ok ()

/-- The bare machine refuses the copy, in whatever state it is, and stays as it is. -/
def BareMetal.Refuses (request : CopyRequest) : Prop :=
  ∀ machine : BareMetal,
    Machine.copy request.target request.source request.size machine = (.error .copyFailed, machine)

/-- The simulated machine takes the copy unless its copies are made to fail. -/
def SimMachine.Admits (request : CopyRequest) : Prop :=
  ∀ machine : SimMachine, machine.copiesLeft = none →
    (Machine.copy request.target request.source request.size machine).1 = .ok ()

/-- A machine and the copies it has been asked for, the latest first. -/
structure Audited (M : Type) where
  machine : M
  requests : List CopyRequest := []

variable {M : Type} [Machine M]

instance : Machine (Audited M) where
  signal core signal audited :=
    (Machine.signal core signal audited.machine).map fun machine => { audited with machine }
  acknowledged core signal audited :=
    let (answer, machine) := Machine.acknowledged core signal audited.machine
    (answer, { audited with machine })
  context audited := Machine.context audited.machine
  setContext core context audited :=
    { audited with machine := Machine.setContext core context audited.machine }
  copy target source size audited :=
    let (outcome, machine) := Machine.copy target source size audited.machine
    (outcome, ⟨machine, ⟨target, source, size⟩ :: audited.requests⟩)
  now audited :=
    (Machine.now audited.machine).map fun (time, machine) => (time, { audited with machine })

theorem Audited.copy_eq (target source size : UInt64) (audited : Audited M) :
    Machine.copy target source size audited =
      ((Machine.copy target source size audited.machine).1,
        ⟨(Machine.copy target source size audited.machine).2,
          ⟨target, source, size⟩ :: audited.requests⟩) := rfl

namespace Image

variable {target source size block : UInt64}

theorem copyBlocks_audited (left : Nat) (offset : UInt64) (blocks : UInt32)
    (audited : Audited M) :
    (copyBlocks target source size block left offset blocks audited).outcome =
        (copyBlocks target source size block left offset blocks audited.machine).outcome ∧
      (copyBlocks target source size block left offset blocks audited).state.machine =
        (copyBlocks target source size block left offset blocks audited.machine).state := by
  induction left generalizing offset blocks audited with
  | zero => exact ⟨rfl, rfl⟩
  | succ left ih =>
    rw [copyBlocks, copyBlocks]
    cases Word.add? target offset with
    | none => exact ⟨rfl, rfl⟩
    | some blockTarget =>
      cases Word.add? source offset with
      | none => exact ⟨rfl, rfl⟩
      | some blockSource =>
        dsimp only
        rw [Audited.copy_eq]
        cases Machine.copy blockTarget blockSource (min block (size - offset)) audited.machine with
        | mk outcome after =>
          cases outcome with
          | error => exact ⟨rfl, rfl⟩
          | ok =>
            dsimp only
            cases Word.add? offset (min block (size - offset)) with
            | none => exact ⟨rfl, rfl⟩
            | some offset' =>
              cases Word.succ? blocks with
              | none => exact ⟨rfl, rfl⟩
              | some blocks' => exact ih offset' blocks' _

/-- Keeping the list changes nothing else. -/
theorem copy_audited (audited : Audited M) :
    (copy target source size block audited).outcome =
        (copy target source size block audited.machine).outcome ∧
      (copy target source size block audited).state.machine =
        (copy target source size block audited.machine).state :=
  copyBlocks_audited _ 0 0 audited

theorem isBlock_of_requested (machine : M) :
    ∀ request ∈ (copy target source size block (⟨machine, []⟩ : Audited M)).state.requests,
      IsBlock target source size request.target request.source request.size := by
  refine keeps_copy (P := fun audited : Audited M => ∀ request ∈ audited.requests,
    IsBlock target source size request.target request.source request.size) ?_ ⟨machine, []⟩ ?_
  · intro blockTarget blockSource chunk audited hblock h request hrequest
    rw [Audited.copy_eq] at hrequest
    rcases List.mem_cons.1 hrequest with rfl | hrequest
    · exact hblock
    · exact h request hrequest
  · intro request hrequest
    cases hrequest

/-! ## The first block -/

section First

variable (hblock : 0 < block.toNat) (hsize : 0 < size.toNat)

include hblock hsize

/-- A copy of something begins with the block at offset zero. -/
theorem copy_eq_first (target source : UInt64) (machine : M) :
    ∃ left, copy target source size block machine =
      match Machine.copy target source (min block size) machine with
      | (.error error, after) => ⟨.error error, after, []⟩
      | (.ok (), after) => copyBlocks target source size block left (min block size) 1 after := by
  obtain ⟨left, hleft⟩ := Nat.exists_eq_succ_of_ne_zero
    (Nat.pos_iff_ne_zero.1 (blockCount_pos hblock hsize))
  refine ⟨left, ?_⟩
  unfold copy
  rw [hleft, copyBlocks, Word.add?_zero, Word.add?_zero, UInt64.sub_zero, Word.zero_add?]
  rfl

theorem copy_of_refused {machine after : M} {error : Error}
    (h : Machine.copy target source (min block size) machine = (.error error, after)) :
    copy target source size block machine = ⟨.error error, after, []⟩ := by
  obtain ⟨left, hcopy⟩ := copy_eq_first hblock hsize target source machine
  rw [hcopy, h]

theorem first_requested (target source : UInt64) (machine : M) :
    ⟨target, source, min block size⟩ ∈
      (copy target source size block (⟨machine, []⟩ : Audited M)).state.requests := by
  obtain ⟨left, hcopy⟩ := copy_eq_first hblock hsize target source (⟨machine, []⟩ : Audited M)
  rw [hcopy, Audited.copy_eq]
  cases Machine.copy target source (min block size) machine with
  | mk outcome after =>
    cases outcome with
    | error error => exact List.mem_singleton.2 rfl
    | ok =>
      have hinside : (min block size).toNat ≤ size.toNat := by
        have hchunk := toNat_chunk block (start_le size)
        rw [UInt64.sub_zero] at hchunk
        omega
      -- what has been asked for stays in the list while the other blocks are copied
      refine keeps_copyBlocks (P := fun audited : Audited M =>
        ⟨target, source, min block size⟩ ∈ audited.requests) ?_ left hinside 1
          ⟨after, [⟨target, source, min block size⟩]⟩ (List.mem_singleton.2 rfl)
      intro _ _ _ audited _ h
      exact List.mem_cons_of_mem _ h

end First

end Image

/-! ## Admission -/

theorem BareMetal.copy_of_not_accepts {target source size : UInt64} {machine : BareMetal}
    (h : ¬ acceptsCopy target source size = true) :
    Machine.copy target source size machine = (.error .copyFailed, machine) := if_neg h

section Admits

variable {request : CopyRequest}
  (htarget : request.target.toNat + request.size.toNat < UInt64.size)
  (hsource : request.source.toNat + request.size.toNat < UInt64.size)

include htarget hsource

theorem SimMachine.admits : SimMachine.Admits request :=
  fun _ unlimited => fst_copy_of_unlimited unlimited htarget hsource

theorem BareMetal.acceptsCopy_iff :
    acceptsCopy request.target request.source request.size = true ↔
      request.target ≠ 0 ∧ request.source ≠ 0 := by
  have htargetEnd : (Word.add? request.target request.size).isSome = true :=
    (Extent.fits_iff ⟨_, _⟩).2 htarget
  have hsourceEnd : (Word.add? request.source request.size).isSome = true :=
    (Extent.fits_iff ⟨_, _⟩).2 hsource
  simp [acceptsCopy, htargetEnd, hsourceEnd]

theorem BareMetal.admits_of_ne_zero (h : request.target ≠ 0 ∧ request.source ≠ 0) :
    BareMetal.Admits request := fun _ =>
  congrArg Prod.fst (if_pos ((acceptsCopy_iff htarget hsource).2 h))

theorem BareMetal.refuses_of_eq_zero (h : request.target = 0 ∨ request.source = 0) :
    BareMetal.Refuses request := fun _ =>
  copy_of_not_accepts fun haccepts =>
    not_or.2 ((acceptsCopy_iff htarget hsource).1 haccepts) h

/-- A copy of addresses that there are is either taken or refused. -/
theorem BareMetal.admits_iff :
    BareMetal.Admits request ↔ request.target ≠ 0 ∧ request.source ≠ 0 := by
  refine ⟨fun h => not_or.1 fun hzero => ?_, admits_of_ne_zero htarget hsource⟩
  have hcopy := h { ticksPerMicrosecond := 1 }
  rw [refuses_of_eq_zero htarget hsource hzero] at hcopy
  cases hcopy

theorem BareMetal.refuses_iff :
    BareMetal.Refuses request ↔ request.target = 0 ∨ request.source = 0 := by
  refine ⟨fun h => ?_, refuses_of_eq_zero htarget hsource⟩
  refine Decidable.byContradiction fun hnone => ?_
  have hcopy := admits_of_ne_zero htarget hsource (not_or.1 hnone) { ticksPerMicrosecond := 1 }
  rw [h] at hcopy
  cases hcopy

end Admits

/-! ## Images of cells -/

/-- The two ways of an image: into the store, and back into the memory. -/
inductive Way
  | save
  | load
  deriving Repr, DecidableEq

namespace Way

def target (id : CellId) : Way → Config.Holding
  | save => .store id
  | load => .memory id

def source (id : CellId) : Way → Config.Holding
  | save => .memory id
  | load => .store id

theorem owner_target (id : CellId) (way : Way) : (way.target id).owner? = some id := by
  cases way <;> rfl

theorem owner_source (id : CellId) (way : Way) : (way.source id).owner? = some id := by
  cases way <;> rfl

end Way

namespace Cells

def move (cells : Cells) (id : CellId) : Way → Action M UInt32
  | .save => cells.saveImage id
  | .load => cells.loadImage id

/-- The copies that are asked for when the image of a cell is moved. -/
def requests (cells : Cells) (id : CellId) (way : Way) (machine : M) : List CopyRequest :=
  (cells.move id way (⟨machine, []⟩ : Audited M)).state.requests

variable {config : Config} {topology : Topology} {cells : Cells}

theorem move_eq (hlaid : cells.Laid config topology) (id : CellId) (way : Way) :
    (cells.move id way : Action M UInt32) =
      Image.copy (config.extentOf (way.target id)).base (config.extentOf (way.source id)).base
        (config.cells.get id).memory.size config.blockSize := by
  cases way with
  | save =>
    show cells.saveImage id = _
    rw [saveImage, hlaid.store, hlaid.memory, hlaid.blockSize]
    rfl
  | load =>
    show cells.loadImage id = _
    rw [loadImage, hlaid.store, hlaid.memory, hlaid.blockSize]
    rfl

section Moved

/-- The request is a block of the image of the cell `id`, which is moved this way. -/
def OfImage (config : Config) (id : CellId) (way : Way) (request : CopyRequest) : Prop :=
  Image.IsBlock (config.extentOf (way.target id)).base (config.extentOf (way.source id)).base
    (config.cells.get id).memory.size request.target request.source request.size

variable {id : CellId} {way : Way} {request : CopyRequest} (hvalid : config.validate = .ok ())
  (hlaid : cells.Laid config topology)

theorem base_ne_zero_iff :
    (config.extentOf (way.target id)).base ≠ 0 ∧ (config.extentOf (way.source id)).base ≠ 0 ↔
      (config.cells.get id).memory.base ≠ 0 ∧ (config.cells.get id).store.base ≠ 0 := by
  cases way with
  | save => exact and_comm
  | load => exact Iff.rfl

include hvalid

theorem ends_of_ofImage (h : OfImage config id way request) :
    request.target.toNat + request.size.toNat < UInt64.size ∧
      request.source.toNat + request.size.toNat < UInt64.size := by
  have hsound := Config.isSound_of_validate hvalid
  have htarget := hsound.image_fits id (way.owner_target id)
  have hsource := hsound.image_fits id (way.owner_source id)
  obtain ⟨offset, htargetBlock, hsourceBlock, hinside⟩ := h
  omega

/-- Where neither part begins at zero, no block does. -/
theorem admits_of_ofImage
    (hbases : (config.cells.get id).memory.base ≠ 0 ∧ (config.cells.get id).store.base ≠ 0)
    (h : OfImage config id way request) : BareMetal.Admits request := by
  obtain ⟨htargetEnd, hsourceEnd⟩ := ends_of_ofImage hvalid h
  have hstart : (config.extentOf (way.target id)).base ≠ 0 ∧
      (config.extentOf (way.source id)).base ≠ 0 := base_ne_zero_iff.2 hbases
  obtain ⟨offset, htarget, hsource, -⟩ := h
  rw [Word.ne_zero_iff, Word.ne_zero_iff] at hstart
  rw [BareMetal.admits_iff htargetEnd hsourceEnd, Word.ne_zero_iff, Word.ne_zero_iff]
  omega

omit hvalid in
include hlaid in
theorem ofImage_of_requested (machine : M) (h : request ∈ cells.requests id way machine) :
    OfImage config id way request := by
  rw [requests, move_eq hlaid] at h
  exact Image.isBlock_of_requested machine request h

/-- The first block goes from base to base. -/
def firstRequest (config : Config) (id : CellId) (way : Way) : CopyRequest :=
  ⟨(config.extentOf (way.target id)).base, (config.extentOf (way.source id)).base,
    min config.blockSize (config.cells.get id).memory.size⟩

include hlaid

theorem firstRequest_requested (machine : M) :
    firstRequest config id way ∈ cells.requests id way machine := by
  have hsound := Config.isSound_of_validate hvalid
  rw [requests, move_eq hlaid]
  exact Image.first_requested hsound.block_pos (hsound.memory_pos id) _ _ machine

theorem all_admitted_iff (machine : M) :
    (∀ request ∈ cells.requests id way machine, BareMetal.Admits request) ↔
      (config.cells.get id).memory.base ≠ 0 ∧ (config.cells.get id).store.base ≠ 0 := by
  constructor
  · intro h
    have hfirst : firstRequest config id way ∈ cells.requests id way machine :=
      firstRequest_requested hvalid hlaid machine
    obtain ⟨htarget, hsource⟩ := ends_of_ofImage hvalid (ofImage_of_requested hlaid machine hfirst)
    exact base_ne_zero_iff.1 ((BareMetal.admits_iff htarget hsource).1 (h _ hfirst))
  · intro hbases request hrequest
    exact admits_of_ofImage hvalid hbases (ofImage_of_requested hlaid machine hrequest)

/-- On the bare machine an image cannot be moved where the memory or the store begins at zero: its
first block cannot be copied. -/
theorem move_of_zero (machine : BareMetal)
    (hzero : (config.cells.get id).memory.base = 0 ∨ (config.cells.get id).store.base = 0) :
    cells.move id way machine = ⟨.error .copyFailed, machine, []⟩ := by
  have hsound := Config.isSound_of_validate hvalid
  have hfirst : OfImage config id way (firstRequest config id way) :=
    ofImage_of_requested hlaid machine (firstRequest_requested hvalid hlaid machine)
  obtain ⟨htarget, hsource⟩ := ends_of_ofImage hvalid hfirst
  have hbase : (firstRequest config id way).target = 0 ∨
      (firstRequest config id way).source = 0 := by
    refine Decidable.byContradiction fun hnone => ?_
    exact not_or.2 (base_ne_zero_iff.1 (not_or.1 hnone)) hzero
  have hrefuses := BareMetal.refuses_of_eq_zero htarget hsource hbase machine
  rw [move_eq hlaid]
  exact Image.copy_of_refused hsound.block_pos (hsound.memory_pos id) hrefuses

/-- Otherwise no error comes up. -/
theorem zero_of_move_error {machine : BareMetal} {error : Error}
    (h : (cells.move id way machine).outcome = .error error) :
    (config.cells.get id).memory.base = 0 ∨ (config.cells.get id).store.base = 0 := by
  refine Decidable.byContradiction fun hnone => ?_
  have hcopy : Image.copy (config.extentOf (way.target id)).base
      (config.extentOf (way.source id)).base (config.cells.get id).memory.size config.blockSize
      machine = ⟨.error error, (cells.move id way machine).state,
        (cells.move id way machine).log⟩ := by
    rw [← move_eq hlaid, ← h]
  obtain ⟨blockTarget, blockSource, chunk, before, hblock, -, hfailed⟩ :=
    Image.failed_of_copy (P := fun _ => True) (fun _ _ => trivial) trivial hcopy
  have hadmits : BareMetal.Admits ⟨blockTarget, blockSource, chunk⟩ :=
    admits_of_ofImage hvalid (not_or.1 hnone) hblock
  have hok := hadmits before
  rw [hfailed] at hok
  cases hok

/-- Every block of the image of a cell that an accepted configuration lays out is admitted by the
simulated machine, on its way into the store and on its way back, and by the bare machine unless it
begins at zero, at either end; such a block every bare machine refuses as one that cannot be copied.
So the bare machine admits all of them exactly where neither the memory nor the store begins at
zero. Moving the image on it fails exactly otherwise, with that error and no other. -/
theorem requests_admitted (id : CellId) (way : Way) (machine : M) :
    (∀ request ∈ cells.requests id way machine,
        SimMachine.Admits request ∧
          (BareMetal.Admits request ↔ request.target ≠ 0 ∧ request.source ≠ 0) ∧
          (BareMetal.Refuses request ↔ request.target = 0 ∨ request.source = 0)) ∧
      ((∀ request ∈ cells.requests id way machine, BareMetal.Admits request) ↔
        (config.cells.get id).memory.base ≠ 0 ∧ (config.cells.get id).store.base ≠ 0) ∧
      ∀ (bare : BareMetal) (error : Error), (cells.move id way bare).outcome = .error error ↔
        error = .copyFailed ∧
          ((config.cells.get id).memory.base = 0 ∨ (config.cells.get id).store.base = 0) := by
  refine ⟨fun request hrequest => ?_, all_admitted_iff hvalid hlaid machine, fun bare error => ?_⟩
  · obtain ⟨htarget, hsource⟩ :=
      ends_of_ofImage hvalid (ofImage_of_requested hlaid machine hrequest)
    exact ⟨SimMachine.admits htarget hsource, BareMetal.admits_iff htarget hsource,
      BareMetal.refuses_iff htarget hsource⟩
  · constructor
    · intro herror
      have hzero := zero_of_move_error hvalid hlaid herror
      rw [move_of_zero hvalid hlaid bare hzero] at herror
      cases herror
      exact ⟨rfl, hzero⟩
    · rintro ⟨rfl, hzero⟩
      rw [move_of_zero hvalid hlaid bare hzero]

end Moved

/-- The store of windows goes back into its memory in four blocks, and the bare machine would take
each of them. -/
theorem requests_admitted_compact :
    ((fresh .compact .halved).requests .windows .load (SimMachine.ofCores 4)).length = 4 ∧
      ∀ request ∈ (fresh .compact .halved).requests .windows .load (SimMachine.ofCores 4),
        BareMetal.Admits request := by
  refine ⟨by decide +kernel, ?_⟩
  exact (requests_admitted validate_compact (laid_fresh _ _) .windows .load _).2.1.2 (by decide)

end Cells

/-- The memory of linux is the first page of the address space. -/
def Config.grounded : Config :=
  { compact with
    guestMemory := 8 * mib + 4 * kib
    cells := { compact.cells with
      linux := { memory := ⟨0, 4 * kib⟩, store := ⟨4 * gib, 4 * kib⟩ } }
    blockSize := 4 * kib }

/-- Such a configuration is accepted, and its page is the only block of its image. The simulated
machine would take it, the bare one refuses it. -/
theorem save_refused_grounded :
    Config.grounded.validate = .ok () ∧
      (Cells.fresh .grounded .halved).requests .linux .save (SimMachine.ofCores 4) =
        [⟨4 * gib, 0, 4 * kib⟩] ∧
      SimMachine.Admits ⟨4 * gib, 0, 4 * kib⟩ ∧ ¬ BareMetal.Admits ⟨4 * gib, 0, 4 * kib⟩ ∧
      BareMetal.Refuses ⟨4 * gib, 0, 4 * kib⟩ := by
  have hvalid : Config.grounded.validate = .ok () := rfl
  refine ⟨hvalid, by decide +kernel, SimMachine.admits (by decide) (by decide), fun h => ?_, ?_⟩
  · exact ((BareMetal.admits_iff (by decide) (by decide)).1 h).2 rfl
  · exact BareMetal.refuses_of_eq_zero (by decide) (by decide) (.inr rfl)

end CellVisor
