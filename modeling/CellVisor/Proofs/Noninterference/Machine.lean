import CellVisor.Barrier
import CellVisor.Cpu.Topology
import CellVisor.Proofs.Coupling
import CellVisor.Proofs.Image.Bytes

/-!
# CellVisor.Proofs.Noninterference.Machine

Two simulated machines that differ only in what is private to one cell.

* `SimMachine.Agree`: they agree on everything but the bytes of the memory and the store of the cell
  and the registers of its cores.
* `coupled_rendezvous`: a rendezvous looks at nothing private, and goes the same way on both.
* `coupled_copy`: neither does the copy of an image; and what it brings to an address that is not
  private comes from one that is not.
-/

namespace CellVisor

/-! ## What is private -/

namespace Config

variable {config : Config} {id : CellId}

/-- The address belongs neither to the memory nor to the store of the cell `id`. -/
def Public (config : Config) (id : CellId) (address : UInt64) : Prop :=
  (config.cells.get id).memory.contains address = false ∧
    (config.cells.get id).store.contains address = false

theorem public_iff {address : UInt64} : config.Public id address ↔
    ∀ holding : Holding, holding.owner? = some id →
      (config.extentOf holding).contains address = false := by
  constructor
  · rintro ⟨hmemory, hstore⟩ holding howner
    cases holding with
    | hypervisor => cases howner
    | memory owner =>
      cases howner
      exact hmemory
    | store owner =>
      cases howner
      exact hstore
  · intro h
    exact ⟨h (.memory id) rfl, h (.store id) rfl⟩

/-- What a block of the image of any cell brings to a public address comes from a public address. -/
theorem IsSound.public_of_block (hsound : config.IsSound) {cell : CellId} {source target : Holding}
    (hsource : source.owner? = some cell) (htarget : target.owner? = some cell)
    {blockTarget blockSource chunk address : UInt64}
    (hblock : Image.IsBlock (config.extentOf target).base (config.extentOf source).base
      (config.cells.get cell).memory.size blockTarget blockSource chunk)
    (hinside : blockTarget.toNat ≤ address.toNat ∧
      address.toNat < blockTarget.toNat + chunk.toNat)
    (hpublic : config.Public id address) :
    config.Public id (blockSource + (address - blockTarget)) := by
  obtain ⟨offset, htargetBlock, hsourceBlock, hend⟩ := hblock
  have hroom := hsound.image_le cell hsource
  have hfits := (Extent.fits_iff _).1 (hsound.fits source)
  have hfrom : (blockSource + (address - blockTarget)).toNat =
      blockSource.toNat + (address.toNat - blockTarget.toNat) :=
    Physical.toNat_moved chunk (by omega) hinside.1 hinside.2
  rw [public_iff] at hpublic ⊢
  intro holding howner
  by_cases hcell : cell = id
  · -- the block is written to the private cell itself, so its target is no public address
    subst hcell
    have hpart := hsound.contains_of_block cell htarget htargetBlock hend hinside
    rw [hpublic target htarget] at hpart
    cases hpart
  · have hread : blockSource.toNat ≤ (blockSource + (address - blockTarget)).toNat ∧
        (blockSource + (address - blockTarget)).toNat < blockSource.toNat + chunk.toNat := by omega
    have hpart := hsound.contains_of_block cell hsource hsourceBlock hend hread
    refine Bool.eq_false_iff.2 fun hother => hcell ?_
    rw [hsound.eq_of_contains hother hpart, hsource] at howner
    exact Option.some.inj howner

end Config

namespace Sim.Core

/-- The core without its registers. -/
def bare (core : Core) : Core := { core with context := {} }

theorem bare_post (core : Core) (signal : Signal) :
    (core.post signal).bare = core.bare.post signal := rfl

theorem answer_bare (core : Core) (signal : Signal) :
    core.bare.answer signal = core.answer signal := rfl

theorem bare_asked (core : Core) (signal : Signal) :
    (core.asked signal).bare = core.bare.asked signal := by
  unfold asked
  rw [answer_bare]
  by_cases hold : 0 < core.holdoff
  · rw [if_pos hold, if_pos (show 0 < core.bare.holdoff from hold)]
    rfl
  · rw [if_neg hold, if_neg (show ¬ 0 < core.bare.holdoff from hold)]
    cases core.answer signal <;> rfl

end Sim.Core

namespace SimMachine

/-- The machine without its cores and its memory. -/
def bare (machine : SimMachine) : SimMachine := { machine with cores := {}, memory := {} }

/-- Two machines that agree on everything but what is private to the cell `id`: the bytes of its
memory and of its store, and the registers of its cores. -/
structure Agree (config : Config) (topology : Topology) (id : CellId)
    (first second : SimMachine) : Prop where
  rest : first.bare = second.bare
  cores : ∀ core, (first.core core).bare = (second.core core).bare
  contexts : ∀ core, (topology.ranges.get id).contains core = false →
    first.context core = second.context core
  bytes : ∀ address, config.Public id address →
    first.memory.byteAt address = second.memory.byteAt address

section Agree

variable {config : Config} {topology : Topology} {id : CellId} {first second : SimMachine}

theorem agree_refl (machine : SimMachine) : Agree config topology id machine machine :=
  ⟨rfl, fun _ => rfl, fun _ _ => rfl, fun _ _ => rfl⟩

namespace Agree

variable (h : Agree config topology id first second)

include h

theorem history : first.history = second.history := by
  simpa [bare] using congrArg SimMachine.history h.rest

theorem clock : first.clock = second.clock := by
  simpa [bare] using congrArg SimMachine.clock h.rest

theorem copiesLeft : first.copiesLeft = second.copiesLeft := by
  simpa [bare] using congrArg SimMachine.copiesLeft h.rest

theorem events : first.events = second.events := congrArg List.reverse h.history

theorem record (event : SimEvent) :
    Agree config topology id (first.record event) (second.record event) where
  rest := congrArg (SimMachine.record · event) h.rest
  cores := h.cores
  contexts := h.contexts
  bytes := h.bytes

theorem counted (copiesLeft : Option Nat) :
    Agree config topology id { first with copiesLeft } { second with copiesLeft } where
  rest := congrArg (fun machine => { machine with copiesLeft }) h.rest
  cores := h.cores
  contexts := h.contexts
  bytes := h.bytes

theorem remembered {memory memory' : Physical}
    (hbytes : ∀ address, config.Public id address →
      memory.byteAt address = memory'.byteAt address) :
    Agree config topology id { first with memory } { second with memory := memory' } where
  rest := h.rest
  cores := h.cores
  contexts := h.contexts
  bytes := hbytes

/-- Other cores in the same place, with the same registers where these are not private. -/
theorem setCore (core : UInt32) {next next' : Sim.Core} (hbare : next.bare = next'.bare)
    (hcontext : (topology.ranges.get id).contains core = false → next.context = next'.context) :
    Agree config topology id (first.setCore core next) (second.setCore core next') where
  rest := h.rest
  cores := by
    intro other
    rw [core_setCore, core_setCore]
    split
    · exact hbare
    · exact h.cores other
  contexts := by
    intro other hother
    unfold SimMachine.context
    rw [core_setCore, core_setCore]
    split
    · rename_i hsame
      exact hcontext (hsame ▸ hother)
    · exact h.contexts other hother
  bytes := h.bytes

theorem answer (core : UInt32) (signal : Signal) :
    (first.core core).answer signal = (second.core core).answer signal := by
  rw [← Sim.Core.answer_bare, h.cores, Sim.Core.answer_bare]

/-! ## Primitives -/

theorem signalled (core : UInt32) (signal : Signal) :
    (∃ error, signalCore core signal first = .error error ∧
        signalCore core signal second = .error error) ∨
      ∃ next next', signalCore core signal first = .ok next ∧
        signalCore core signal second = .ok next' ∧ Agree config topology id next next' := by
  unfold signalCore
  split
  · exact .inl ⟨_, rfl, rfl⟩
  · have hbare : ((first.core core).post signal).bare = ((second.core core).post signal).bare := by
      rw [Sim.Core.bare_post, Sim.Core.bare_post, h.cores]
    have hnext := h.setCore core hbare (h.contexts core)
    exact .inr ⟨_, _, rfl, rfl, hnext.record _⟩

theorem asked (core : UInt32) (signal : Signal) :
    (acknowledged core signal first).1 = (acknowledged core signal second).1 ∧
      Agree config topology id (acknowledged core signal first).2
        (acknowledged core signal second).2 := by
  have hnext : Agree config topology id
      (first.setCore core ((first.core core).asked signal))
      (second.setCore core ((second.core core).asked signal)) := by
    refine h.setCore core ?_ fun hcore => ?_
    · rw [Sim.Core.bare_asked, Sim.Core.bare_asked, h.cores]
    · rw [Sim.Core.context_asked, Sim.Core.context_asked]
      exact h.contexts core hcore
  rw [acknowledged_fst, acknowledged_fst, acknowledged_snd, acknowledged_snd, h.answer]
  refine ⟨rfl, ?_⟩
  dsimp only
  split
  · exact hnext.record _
  · exact hnext

theorem timed : (first.now = none ∧ second.now = none) ∨
    ∃ time next next', first.now = some (time, next) ∧ second.now = some (time, next') ∧
      Agree config topology id next next' := by
  cases hnow : first.now with
  | none =>
    rw [now_eq_none, h.clock, ← now_eq_none] at hnow
    exact .inl ⟨rfl, hnow⟩
  | some reading =>
    obtain ⟨time, next⟩ := reading
    obtain ⟨htime, rfl⟩ := now_eq_some.1 hnow
    rw [h.clock] at htime
    exact .inr ⟨time, _, _, rfl, now_eq_some.2 ⟨htime, rfl⟩,
      congrArg (fun machine => { machine with clock := time }) h.rest, h.cores, h.contexts, h.bytes⟩

/-- A copy that brings only public bytes to public addresses. -/
theorem copied {target source size : UInt64}
    (hclosed : ∀ address, target.toNat ≤ address.toNat ∧
      address.toNat < target.toNat + size.toNat → config.Public id address →
        config.Public id (source + (address - target))) :
    (first.copy target source size).1 = (second.copy target source size).1 ∧
      Agree config topology id (first.copy target source size).2
        (second.copy target source size).2 := by
  have hbytes (htarget : target.toNat + size.toNat < UInt64.size)
      (hsource : source.toNat + size.toNat < UInt64.size) : ∀ address, config.Public id address →
      (first.memory.copy target source size).byteAt address =
        (second.memory.copy target source size).byteAt address := by
    intro address hpublic
    by_cases hinside : target.toNat ≤ address.toNat ∧ address.toNat < target.toNat + size.toNat
    · rw [Physical.byteAt_copy_of_mem htarget hsource hinside,
        Physical.byteAt_copy_of_mem htarget hsource hinside]
      exact h.bytes _ (hclosed address hinside hpublic)
    · rw [Physical.byteAt_copy_of_not_mem htarget hsource hinside,
        Physical.byteAt_copy_of_not_mem htarget hsource hinside]
      exact h.bytes address hpublic
  unfold SimMachine.copy
  rw [h.copiesLeft]
  split
  · exact ⟨rfl, h⟩
  · have hcounted := h.counted (second.copiesLeft.map (· - 1))
    dsimp only
    split
    · exact ⟨rfl, hcounted⟩
    · rename_i hfits
      simp only [Option.isNone_iff_eq_none, Word.add?_eq_none_iff, not_or, Nat.not_le] at hfits
      exact ⟨rfl, (hcounted.remembered (hbytes hfits.2 hfits.1)).record _⟩

theorem setContext_same (core : UInt32) (context : Context) :
    Agree config topology id (first.setContext core context)
      (second.setContext core context) :=
  h.setCore core (h.cores core) fun _ => rfl

end Agree

/-! ## Contexts of the private cores -/

theorem Agree.setContext_left (h : Agree config topology id first second) {core : UInt32}
    (hcore : (topology.ranges.get id).contains core = true) (context : Context) :
    Agree config topology id (first.setContext core context) second where
  rest := h.rest
  cores := by
    intro other
    unfold setContext
    rw [core_modifyCore]
    split
    · rename_i hsame
      rw [hsame]
      exact h.cores core
    · exact h.cores other
  contexts := by
    intro other hother
    rw [context_setContext, if_neg]
    · exact h.contexts other hother
    · rintro rfl
      rw [hcore] at hother
      cases hother
  bytes := h.bytes

theorem Agree.symm (h : Agree config topology id first second) :
    Agree config topology id second first where
  rest := h.rest.symm
  cores core := (h.cores core).symm
  contexts core hcore := (h.contexts core hcore).symm
  bytes address hpublic := (h.bytes address hpublic).symm

end Agree

/-! ## Rendezvous and copies -/

section Coupled

variable {config : Config} {topology : Topology} {id : CellId} {first second : SimMachine}

theorem coupled_signalAll (signal : Signal) (list : List UInt32) :
    Action.Coupled (Agree config topology id) Eq (Barrier.signalAll signal list)
      (Barrier.signalAll signal list) := by
  induction list with
  | nil => exact Action.coupled_pure rfl
  | cons core rest ih =>
    have hstep : Action.Coupled (Agree config topology id) Eq
        (Action.ofStep (Machine.signal core signal))
        (Action.ofStep (Machine.signal core signal)) :=
      Action.coupled_ofStep fun _ _ h => h.signalled core signal
    exact hstep.bind_eq fun _ => ih

theorem agree_poll (h : Agree config topology id first second) (signal : Signal) (turns : Nat)
    (waiting pending : UInt64) :
    (Barrier.poll signal turns waiting pending first).1 =
        (Barrier.poll signal turns waiting pending second).1 ∧
      Agree config topology id (Barrier.poll signal turns waiting pending first).2
        (Barrier.poll signal turns waiting pending second).2 := by
  induction turns generalizing waiting pending first second with
  | zero => exact ⟨rfl, h⟩
  | succ turns ih =>
    rw [Barrier.poll, Barrier.poll]
    dsimp only
    split
    · exact ⟨rfl, h⟩
    · obtain ⟨hanswer, hasked⟩ := h.asked (Word.trailingZeros waiting) signal
      simp only [Machine.acknowledged, hanswer]
      exact ih hasked _ _

theorem coupled_wait (signal : Signal) (timeout start : UInt64) (rounds : Nat) (pending : UInt64) :
    Action.Coupled (Agree config topology id) Eq
      (Barrier.wait signal timeout start rounds pending)
      (Barrier.wait signal timeout start rounds pending) := by
  induction rounds generalizing pending with
  | zero => exact Action.coupled_pure rfl
  | succ rounds ih =>
    intro first second h
    obtain ⟨hlate, hpolled⟩ := agree_poll h signal Barrier.width.toNat pending pending
    rw [Barrier.wait, Barrier.wait]
    dsimp only
    rw [hlate]
    split
    · exact .ok [] rfl hpolled
    · rcases hpolled.timed with ⟨hnone, hnone'⟩ | ⟨time, next, next', hsome, hsome', htimed⟩
      · rw [show Machine.now _ = none from hnone, show Machine.now _ = none from hnone']
        exact .fault .overflow [] hpolled
      · rw [show Machine.now _ = some (time, next) from hsome,
          show Machine.now _ = some (time, next') from hsome']
        dsimp only
        split
        · exact .ok [] rfl htimed
        · exact ih _ _ _ htimed

theorem coupled_rendezvous (barrier : Barrier) (cores : CoreRange) (signal : Signal) :
    Action.Coupled (Agree config topology id) Eq (barrier.rendezvous cores signal)
      (barrier.rendezvous cores signal) := by
  have hreading : Action.Coupled (Agree config topology id) Eq
      (Action.ofReading Machine.now) (Action.ofReading Machine.now) :=
    Action.coupled_ofReading fun _ _ h => h.timed
  unfold Barrier.rendezvous
  dsimp only
  refine Action.coupled_ite Iff.rfl (Action.coupled_fail_bind _) ?_
  refine (coupled_signalAll signal cores.toList).bind_eq fun _ => hreading.bind_eq fun start => ?_
  refine (coupled_wait signal _ start _ _).bind_eq fun pending => ?_
  exact Action.coupled_ite Iff.rfl (Action.coupled_note _)
    ((Action.coupled_note _).bind_eq fun _ => Action.coupled_fail _)

/-- Where the copy of every block goes the same way on both machines, the whole copy does. -/
theorem coupled_copyBlocks {R : SimMachine → SimMachine → Prop} {target source size : UInt64}
    (block : UInt64)
    (h : ∀ {blockTarget blockSource chunk first second},
      Image.IsBlock target source size blockTarget blockSource chunk → R first second →
        (SimMachine.copy blockTarget blockSource chunk first).1 =
            (SimMachine.copy blockTarget blockSource chunk second).1 ∧
          R (SimMachine.copy blockTarget blockSource chunk first).2
            (SimMachine.copy blockTarget blockSource chunk second).2)
    (left : Nat) {offset : UInt64} (hoffset : offset.toNat ≤ size.toNat) (blocks : UInt32) :
    Action.Coupled R Eq (Image.copyBlocks target source size block left offset blocks)
      (Image.copyBlocks target source size block left offset blocks) := by
  induction left generalizing offset blocks with
  | zero => exact Action.coupled_pure rfl
  | succ left ih =>
    intro first second states
    rw [Image.copyBlocks, Image.copyBlocks]
    cases htarget : Word.add? target offset with
    | none => exact .fault .overflow [] states
    | some blockTarget =>
      cases hsource : Word.add? source offset with
      | none => exact .fault .overflow [] states
      | some blockSource =>
        have inside := Image.isBlock_next block hoffset (Word.toNat_add? htarget)
          (Word.toNat_add? hsource)
        have hcopied := h inside states
        have hchunk := Image.toNat_chunk block hoffset
        dsimp only [Machine.copy]
        generalize SimMachine.copy blockTarget blockSource (min block (size - offset)) first =
          reply at hcopied ⊢
        generalize SimMachine.copy blockTarget blockSource (min block (size - offset)) second =
          reply' at hcopied ⊢
        obtain ⟨outcome, after⟩ := reply
        obtain ⟨outcome', after'⟩ := reply'
        obtain ⟨rfl, hafter⟩ := hcopied
        cases outcome with
        | error error => exact .error error [] hafter
        | ok =>
          dsimp only
          cases hnext : Word.add? offset (min block (size - offset)) with
          | none => exact .fault .overflow [] hafter
          | some offset' =>
            cases Word.succ? blocks with
            | none => exact .fault .overflow [] hafter
            | some blocks' =>
              have hnext := Word.toNat_add? hnext
              exact ih (by omega) blocks' _ _ hafter

/-- The copy of the image of a cell goes the same way whichever cell is private. -/
theorem coupled_copy (hsound : config.IsSound) {cell : CellId} (source target : Config.Holding)
    (hsource : source.owner? = some cell) (htarget : target.owner? = some cell) (block : UInt64) :
    Action.Coupled (Agree config topology id) Eq
      (Image.copy (config.extentOf target).base (config.extentOf source).base
        (config.cells.get cell).memory.size block)
      (Image.copy (config.extentOf target).base (config.extentOf source).base
        (config.cells.get cell).memory.size block) := by
  refine coupled_copyBlocks block ?_ _ (Image.start_le _) 0
  intro blockTarget blockSource chunk first second hblock h
  exact h.copied fun address hinside hpublic =>
    hsound.public_of_block hsource htarget hblock hinside hpublic

end Coupled
end SimMachine
end CellVisor
