import CellVisor.Cpu.Features
import CellVisor.Proofs.Action
import CellVisor.Proofs.Bits
import CellVisor.Sim.Machine

/-!
# CellVisor.Proofs.Cpu.Features

What becomes of the control registers when the features are switched on, whatever the processor
supports, whatever the registers hold and whichever of their bits are stuck.

* `ControlBank.Raised`: some bits are switched on, as far as they are not stuck, and nothing else
  changes. Raising in turns is raising together (`Raised.trans`), once is enough (`Raised.again`),
  and there is one way to do it (`Raised.unique`).
* `FeatureSet.Switches`: a feature raises its own bits and knows whether it works; each of the three
  does (`switches_sse`, `switches_avx`, `switches_nx`).
* `FeatureSet.enable_raised`: so do all of them together, and those are reported whose bits are on
  in the end.
* `FeatureSet.enable_exact`: nothing else is reported or changed, and a second time nothing is.
-/

namespace CellVisor

/-! ## Bits of the registers -/

namespace ControlBank

variable {bank before middle after other : ControlBank} {register : ControlRegister}

/-- Bit `i` of a register. -/
def bit (bank : ControlBank) (register : ControlRegister) (i : Nat) : Bool :=
  (bank.read register).toBitVec.getLsbD i

/-- Whether bit `i` of a register never changes. -/
def isStuck (bank : ControlBank) (register : ControlRegister) (i : Nat) : Bool :=
  (bank.get register).stuck.toBitVec.getLsbD i

theorem read_eq_of_bit {first second : ControlBank} {register : ControlRegister}
    (h : ∀ i, first.bit register i = second.bit register i) :
    first.read register = second.read register :=
  UInt64.toBitVec_inj.1 (BitVec.eq_of_getLsbD_eq fun i _ => h i)

theorem eq_of_get {first second : ControlBank}
    (h : ∀ register, first.get register = second.get register) : first = second := by
  cases first
  cases second
  congr 1
  · exact h .cr4
  · exact h .xcr0
  · exact h .efer

theorem bit_write (bank : ControlBank) (register other : ControlRegister) (value : UInt64)
    (i : Nat) :
    (bank.write register value).bit other i =
      if other = register ∧ bank.isStuck register i = false then value.toBitVec.getLsbD i
      else bank.bit other i := by
  unfold bit isStuck
  rw [read_write]
  by_cases hregister : other = register
  · subst hregister
    rw [if_pos rfl, UInt64.toBitVec_or, UInt64.toBitVec_and, UInt64.toBitVec_and,
      UInt64.toBitVec_not, Word.getLsbD_mixed]
    simp [read]
  · rw [if_neg hregister, if_neg fun h => hregister h.1]

theorem stuck_write (bank : ControlBank) (register other : ControlRegister) (value : UInt64) :
    ((bank.write register value).get other).stuck = (bank.get other).stuck := by
  unfold write
  rw [get_set]
  split
  · rename_i hregister
    rw [hregister]
  · rfl

/-- All bits of a mask read back as set. -/
theorem read_and_eq_iff {mask : UInt64} :
    bank.read register &&& mask = mask ↔
      ∀ i, mask.toBitVec.getLsbD i = true → bank.bit register i = true := by
  rw [← UInt64.toBitVec_inj, UInt64.toBitVec_and]
  exact Word.and_eq_right_iff

/-! ## Raising bits -/

/-- The `wanted` bits were switched on, those that are not stuck, and nothing else changed. -/
structure Raised (wanted : ControlRegister → Nat → Bool) (before after : ControlBank) : Prop where
  bit : ∀ register i, after.bit register i =
    (before.bit register i || (wanted register i && !before.isStuck register i))
  stuck : ∀ register, (after.get register).stuck = (before.get register).stuck

variable {wanted more : ControlRegister → Nat → Bool}

theorem Raised.isStuck (h : Raised wanted before after) (register : ControlRegister) (i : Nat) :
    after.isStuck register i = before.isStuck register i := by
  rw [ControlBank.isStuck, h.stuck]
  rfl

theorem raised_nothing (bank : ControlBank) : Raised (fun _ _ => false) bank bank :=
  ⟨fun _ _ => by simp, fun _ => rfl⟩

theorem Raised.trans (first : Raised wanted before middle) (rest : Raised more middle after) :
    Raised (fun register i => wanted register i || more register i) before after where
  bit register i := by
    rw [rest.bit, first.bit, first.isStuck]
    cases before.bit register i <;> cases before.isStuck register i <;> simp
  stuck register := (rest.stuck register).trans (first.stuck register)

theorem Raised.again (h : Raised wanted before after) : Raised wanted after after where
  bit register i := by
    rw [h.isStuck, h.bit]
    cases before.bit register i <;> cases before.isStuck register i <;> simp
  stuck _ := rfl

theorem Raised.unique (h : Raised wanted before after) (hother : Raised wanted before other) :
    after = other := by
  refine eq_of_get fun register => ?_
  have hvalue : after.read register = other.read register :=
    read_eq_of_bit fun i => (h.bit register i).trans (hother.bit register i).symm
  have hstuck : (after.get register).stuck = (other.get register).stuck :=
    (h.stuck register).trans (hother.stuck register).symm
  unfold read at hvalue
  cases hafter : after.get register
  cases hlast : other.get register
  rw [hafter, hlast] at hvalue hstuck
  dsimp only at hvalue hstuck
  rw [hvalue, hstuck]

theorem Raised.of_wanted (h : Raised wanted before after)
    (hwanted : ∀ register i, wanted register i = more register i) : Raised more before after :=
  ⟨fun register i => by rw [← hwanted, h.bit], h.stuck⟩

/-- Bits that are not wanted stay as they are. -/
theorem Raised.bit_of_unwanted (h : Raised wanted before after) {i : Nat}
    (unwanted : wanted register i = false) : after.bit register i = before.bit register i := by
  rw [h.bit, unwanted, Bool.false_and, Bool.or_false]

theorem Raised.wanted_of_ne (h : Raised wanted before after) {i : Nat}
    (changed : after.bit register i ≠ before.bit register i) : wanted register i = true := by
  rw [← Bool.not_eq_false]
  exact fun unwanted => changed (h.bit_of_unwanted unwanted)

theorem Raised.bit_of_bit (h : Raised wanted before after) {i : Nat}
    (set : before.bit register i = true) : after.bit register i = true := by
  rw [h.bit, set, Bool.true_or]

/-- To write a mask on top of what a register holds raises the bits of the mask. -/
theorem raised_write (bank : ControlBank) (register : ControlRegister) (mask : UInt64) :
    Raised (fun other i => decide (other = register) && mask.toBitVec.getLsbD i) bank
      (bank.write register (bank.read register ||| mask)) where
  bit other i := by
    rw [bit_write]
    by_cases hregister : other = register
    · subst hregister
      cases hstuck : bank.isStuck other i with
      | true => simp
      | false =>
        rw [if_pos ⟨rfl, rfl⟩, UInt64.toBitVec_or, BitVec.getLsbD_or]
        simp [bit]
    · rw [if_neg fun h => hregister h.1]
      simp [hregister]
  stuck other := stuck_write _ _ _ _

end ControlBank

namespace FeatureSet

open ControlBank

/-! ## One feature -/

theorem getLsbD_osfxsr (i : Nat) : osfxsr.toBitVec.getLsbD i = decide (i = 9) :=
  Word.getLsbD_eq_of_lt (fun i => decide (i = 9)) (by decide)
    (fun _ _ => decide_eq_false (by omega)) i

theorem getLsbD_osxsave (i : Nat) : osxsave.toBitVec.getLsbD i = decide (i = 18) :=
  Word.getLsbD_eq_of_lt (fun i => decide (i = 18)) (by decide)
    (fun _ _ => decide_eq_false (by omega)) i

theorem getLsbD_vectorState (i : Nat) : vectorState.toBitVec.getLsbD i = decide (i < 3) :=
  Word.getLsbD_eq_of_lt (fun i => decide (i < 3)) (by decide)
    (fun _ _ => decide_eq_false (by omega)) i

theorem getLsbD_nxe (i : Nat) : nxe.toBitVec.getLsbD i = decide (i = 11) :=
  Word.getLsbD_eq_of_lt (fun i => decide (i = 11)) (by decide)
    (fun _ _ => decide_eq_false (by omega)) i

/-- The bits that features are switched on with. XCR0 has its bits only where CR4 allows it. -/
def wanted (features : FeatureSet) (bank : ControlBank) : ControlRegister → Nat → Bool
  | .cr4, i => features.sse && decide (i = 9) || features.avx && decide (i = 18)
  | .xcr0, i => features.avx && bank.bit .cr4 18 && decide (i < 3)
  | .efer, i => features.nx && decide (i = 11)

/-- All bits that there are to be switched on. -/
def switchBits : List (ControlRegister × Nat) :=
  [(.cr4, 9), (.cr4, 18), (.xcr0, 0), (.xcr0, 1), (.xcr0, 2), (.efer, 11)]

theorem mem_switchBits_of_wanted {features : FeatureSet} {bank : ControlBank}
    {register : ControlRegister} {i : Nat} (h : wanted features bank register i = true) :
    (register, i) ∈ switchBits := by
  cases register with
  | cr4 =>
    simp only [wanted, Bool.or_eq_true, Bool.and_eq_true, decide_eq_true_iff] at h
    obtain ⟨-, rfl⟩ | ⟨-, rfl⟩ := h <;> simp [switchBits]
  | xcr0 =>
    simp only [wanted, Bool.and_eq_true, decide_eq_true_iff] at h
    have hi : i = 0 ∨ i = 1 ∨ i = 2 := by omega
    obtain rfl | rfl | rfl := hi <;> simp [switchBits]
  | efer =>
    simp only [wanted, Bool.and_eq_true, decide_eq_true_iff] at h
    obtain ⟨-, rfl⟩ := h
    simp [switchBits]

/-- The switch raises the bits of the features and does nothing else, and tells whether there is
what makes a feature work. -/
def Switches (features : FeatureSet) (Works : ControlBank → Prop)
    (switch : Action SimMachine Bool) : Prop :=
  ∀ machine, ∃ (enabled : Bool) (bank : ControlBank) (log : List Notice),
    switch machine = ⟨.ok enabled, { machine with control := bank }, log⟩ ∧
      Raised (wanted features bank) machine.control bank ∧ (enabled = true ↔ Works bank)

/-- A mask is raised, and it is told whether all its bits are on. -/
theorem latch_raised (register : ControlRegister) (mask : UInt64) (machine : SimMachine) :
    ∃ (latched : Bool) (bank : ControlBank),
      latch register mask machine = ⟨.ok latched, { machine with control := bank }, []⟩ ∧
        Raised (fun other i => decide (other = register) && mask.toBitVec.getLsbD i)
          machine.control bank ∧
        (latched = true ↔ ∀ i, mask.toBitVec.getLsbD i = true → bank.bit register i = true) := by
  refine ⟨_, _, rfl, raised_write _ _ _, ?_⟩
  rw [beq_iff_eq]
  exact read_and_eq_iff

theorem switches_sse :
    Switches { sse := true } (fun bank => bank.bit .cr4 9 = true) (latch .cr4 osfxsr) := by
  intro machine
  obtain ⟨latched, bank, hreply, hraised, hlatched⟩ := latch_raised .cr4 osfxsr machine
  simp only [getLsbD_osfxsr, decide_eq_true_iff, forall_eq] at hraised hlatched
  refine ⟨latched, bank, [], hreply, hraised.of_wanted fun register i => ?_, hlatched⟩
  cases register <;> simp [wanted]

theorem switches_nx :
    Switches { nx := true } (fun bank => bank.bit .efer 11 = true) (latch .efer nxe) := by
  intro machine
  obtain ⟨latched, bank, hreply, hraised, hlatched⟩ := latch_raised .efer nxe machine
  simp only [getLsbD_nxe, decide_eq_true_iff, forall_eq] at hraised hlatched
  refine ⟨latched, bank, [], hreply, hraised.of_wanted fun register i => ?_, hlatched⟩
  cases register <;> simp [wanted]

theorem switches_avx :
    Switches { avx := true }
      (fun bank => bank.bit .cr4 18 = true ∧ ∀ i < 3, bank.bit .xcr0 i = true) latchAvx := by
  intro machine
  obtain ⟨up, allowed, hallow, hraised, hup⟩ := latch_raised .cr4 osxsave machine
  simp only [getLsbD_osxsave, decide_eq_true_iff, forall_eq] at hraised hup
  unfold latchAvx
  rw [Action.bind_of_ok hallow, Reply.after_nil]
  cases up with
  | false =>
    -- the bit has not come up, and XCR0 is left alone
    have hdown : allowed.bit .cr4 18 = false := by
      rw [← Bool.not_eq_true, ← hup]
      exact Bool.false_ne_true
    refine ⟨false, allowed, [], rfl, hraised.of_wanted fun register i => ?_, by simp [hdown]⟩
    cases register <;> simp [wanted, hdown]
  | true =>
    obtain ⟨latched, bank, hlatch, hvector, hlatched⟩ :=
      latch_raised .xcr0 vectorState { machine with control := allowed }
    simp only [getLsbD_vectorState, decide_eq_true_iff] at hvector hlatched
    have hkept : bank.bit .cr4 18 = true :=
      (hvector.bit_of_unwanted (by simp)).trans (hup.1 rfl)
    refine ⟨latched, bank, [], hlatch, (hraised.trans hvector).of_wanted fun register i => ?_,
      hlatched.trans (and_iff_right hkept).symm⟩
    cases register <;> simp [wanted, hkept]

/-- Where a feature is not supported its switch is not tried. -/
theorem enableOne_of_switches {features : FeatureSet} {Works : ControlBank → Prop}
    {switch : Action SimMachine Bool} (h : Switches features Works switch) (supported : Bool)
    (capability : Capability) (refused : Notice) (machine : SimMachine) :
    ∃ (enabled : Bool) (bank : ControlBank) (log : List Notice),
      enableOne supported capability refused switch machine =
        ⟨.ok enabled, { machine with control := bank }, log⟩ ∧
      Raised (fun register i => supported && wanted features bank register i)
        machine.control bank ∧
      (enabled = true ↔ supported = true ∧ Works bank) := by
  unfold enableOne
  cases supported with
  | false =>
    exact ⟨false, machine.control, _, rfl, raised_nothing _, by simp⟩
  | true =>
    obtain ⟨enabled, bank, log, hswitch, hraised, henabled⟩ := h machine
    rw [if_pos rfl, Action.bind_of_ok hswitch]
    cases enabled <;> exact ⟨_, bank, _, rfl, by simpa using hraised, by simpa using henabled⟩

/-! ## All features -/

/-- Every feature of the one set is in the other. -/
instance : HasSubset FeatureSet where
  Subset features others :=
    (features.sse = true → others.sse = true) ∧ (features.avx = true → others.avx = true) ∧
      (features.nx = true → others.nx = true)

/-- What the processor of the machine has. -/
abbrev supported (machine : SimMachine) : FeatureSet := (Board.leaves machine).features

/-- The features of the processor whose bits are on in the bank. -/
structure Reports (supported : FeatureSet) (bank : ControlBank) (enabled : FeatureSet) : Prop where
  sse : enabled.sse = true ↔ supported.sse = true ∧ bank.bit .cr4 9 = true
  avx : enabled.avx = true ↔
    supported.avx = true ∧ bank.bit .cr4 18 = true ∧ ∀ i < 3, bank.bit .xcr0 i = true
  nx : enabled.nx = true ↔ supported.nx = true ∧ bank.bit .efer 11 = true

theorem Reports.subset {features enabled : FeatureSet} {bank : ControlBank}
    (h : Reports features bank enabled) : enabled ⊆ features :=
  ⟨fun on => (h.sse.1 on).1, fun on => (h.avx.1 on).1, fun on => (h.nx.1 on).1⟩

theorem Reports.unique {features enabled other : FeatureSet} {bank : ControlBank}
    (h : Reports features bank enabled) (hother : Reports features bank other) :
    enabled = other := by
  cases enabled
  cases other
  congr 1
  · exact Bool.eq_iff_iff.2 (h.sse.trans hother.sse.symm)
  · exact Bool.eq_iff_iff.2 (h.avx.trans hother.avx.symm)
  · exact Bool.eq_iff_iff.2 (h.nx.trans hother.nx.symm)

/-- The supported features raise their bits, and those are reported whose bits are on in the
end. -/
theorem enable_raised (machine : SimMachine) :
    ∃ (enabled : FeatureSet) (bank : ControlBank) (log : List Notice),
      enable machine = ⟨.ok enabled, { machine with control := bank }, log⟩ ∧
      Raised (wanted (supported machine) bank) machine.control bank ∧
      Reports (supported machine) bank enabled := by
  obtain ⟨sse, first, log, hsse, hfirst, hsse_iff⟩ := enableOne_of_switches switches_sse
    (supported machine).sse .sse .sseNotLatched machine
  obtain ⟨avx, second, log', havx, hsecond, havx_iff⟩ := enableOne_of_switches switches_avx
    (supported machine).avx .avx .xsaveNotLatched { machine with control := first }
  obtain ⟨nx, last, log'', hnx, hlast, hnx_iff⟩ := enableOne_of_switches switches_nx
    (supported machine).nx .noExecute .nxNotLatched { machine with control := second }
  have hreply : ∃ log,
      enable machine = ⟨.ok ⟨sse, avx, nx⟩, { machine with control := last }, log⟩ := by
    unfold enable
    rw [Action.bind_of_ok (Action.get_apply machine), Reply.after_nil, Action.bind_of_ok hsse,
      Action.bind_of_ok havx, Action.bind_of_ok hnx]
    exact ⟨_, rfl⟩
  obtain ⟨log, hreply⟩ := hreply
  -- no feature touches the bits of another, so what was found at each turn still stands
  have hfeature : first.bit .cr4 9 = last.bit .cr4 9 := by
    rw [hlast.bit_of_unwanted (by simp [wanted]), hsecond.bit_of_unwanted (by simp [wanted])]
  have hxsave : second.bit .cr4 18 = last.bit .cr4 18 :=
    (hlast.bit_of_unwanted (by simp [wanted])).symm
  have hvector (i : Nat) : second.bit .xcr0 i = last.bit .xcr0 i :=
    (hlast.bit_of_unwanted (by simp [wanted])).symm
  rw [hfeature] at hsse_iff
  simp only [hxsave, hvector] at havx_iff
  refine ⟨⟨sse, avx, nx⟩, last, log, hreply, ?_, ⟨hsse_iff, havx_iff, hnx_iff⟩⟩
  refine ((hfirst.trans hsecond).trans hlast).of_wanted fun register i => ?_
  cases register <;> simp [wanted, hxsave, Bool.and_assoc]

/-- A second time the same features are found, and no bit changes. -/
theorem enable_again {machine : SimMachine} {enabled : FeatureSet} {bank : ControlBank}
    (hraised : Raised (wanted (supported machine) bank) machine.control bank)
    (hreports : Reports (supported machine) bank enabled) :
    ∃ log, enable { machine with control := bank } =
      ⟨.ok enabled, { machine with control := bank }, log⟩ := by
  obtain ⟨found, last, log, hreply, hlast, hfound⟩ :=
    enable_raised { machine with control := bank }
  -- XCR0 is allowed to change the second time if and only if it was the first time
  have hwanted (register : ControlRegister) (i : Nat) :
      wanted (supported machine) last register i = wanted (supported machine) bank register i := by
    cases register with
    | cr4 | efer => rfl
    | xcr0 =>
      cases havx : (supported machine).avx with
      | false => simp [wanted, havx]
      | true =>
        have hallowed : last.bit .cr4 18 = bank.bit .cr4 18 := by
          rw [hlast.bit, hraised.isStuck, hraised.bit]
          cases machine.control.bit .cr4 18 <;> cases machine.control.isStuck .cr4 18 <;>
            simp [wanted, havx]
        simp [wanted, hallowed]
  obtain rfl : last = bank := (hlast.of_wanted hwanted).unique hraised.again
  obtain rfl : found = enabled := hfound.unique hreports
  exact ⟨log, hreply⟩

theorem bit_vectorState_iff {bank : ControlBank} :
    (∀ i < 3, bank.bit .xcr0 i = true) ↔
      bank.bit .xcr0 0 = true ∧ bank.bit .xcr0 1 = true ∧ bank.bit .xcr0 2 = true := by
  constructor
  · exact fun h => ⟨h 0 (by decide), h 1 (by decide), h 2 (by decide)⟩
  · rintro ⟨h0, h1, h2⟩ i hi
    have hcases : i = 0 ∨ i = 1 ∨ i = 2 := by omega
    obtain rfl | rfl | rfl := hcases
    · exact h0
    · exact h1
    · exact h2

/-- What is switched on is what is supported and reads back, as far as bits are not stuck; nothing
is switched off and nothing else is touched; and a second time nothing happens. -/
theorem enable_exact (machine : SimMachine) :
    ∃ (enabled : FeatureSet) (bank : ControlBank) (log again : List Notice),
      enable machine = ⟨.ok enabled, { machine with control := bank }, log⟩ ∧
      enabled ⊆ supported machine ∧
      (enabled.sse = true ↔ (supported machine).sse = true ∧ bank.bit .cr4 9 = true) ∧
      (enabled.avx = true ↔ (supported machine).avx = true ∧ bank.bit .cr4 18 = true ∧
        bank.bit .xcr0 0 = true ∧ bank.bit .xcr0 1 = true ∧ bank.bit .xcr0 2 = true) ∧
      (enabled.nx = true ↔ (supported machine).nx = true ∧ bank.bit .efer 11 = true) ∧
      Raised (wanted (supported machine) bank) machine.control bank ∧
      (∀ register i, machine.control.bit register i = true → bank.bit register i = true) ∧
      (∀ register i, bank.bit register i ≠ machine.control.bit register i →
        (register, i) ∈ switchBits) ∧
      (bank.read .xcr0 ≠ machine.control.read .xcr0 →
        (supported machine).avx = true ∧ bank.bit .cr4 18 = true) ∧
      ((supported machine).sse = false → bank.bit .cr4 9 = machine.control.bit .cr4 9) ∧
      ((supported machine).avx = false →
        bank.bit .cr4 18 = machine.control.bit .cr4 18 ∧
          bank.read .xcr0 = machine.control.read .xcr0) ∧
      ((supported machine).nx = false → bank.bit .efer 11 = machine.control.bit .efer 11) ∧
      enable { machine with control := bank } =
        ⟨.ok enabled, { machine with control := bank }, again⟩ := by
  obtain ⟨enabled, bank, log, hreply, hraised, hreports⟩ := enable_raised machine
  obtain ⟨again, hagain⟩ := enable_again hraised hreports
  have hvector (h : ¬((supported machine).avx = true ∧ bank.bit .cr4 18 = true)) :
      bank.read .xcr0 = machine.control.read .xcr0 :=
    read_eq_of_bit fun i => hraised.bit_of_unwanted (by
      rw [wanted, ← Bool.and_eq_true, Bool.not_eq_true] at *
      rw [h, Bool.false_and])
  refine ⟨enabled, bank, log, again, hreply, hreports.subset, hreports.sse,
    hreports.avx.trans ?_, hreports.nx, hraised, fun register i => hraised.bit_of_bit,
    fun register i changed => mem_switchBits_of_wanted (hraised.wanted_of_ne changed),
    fun changed => ?_, fun absent => ?_, fun absent => ⟨?_, ?_⟩,
    fun absent => ?_, hagain⟩
  · rw [bit_vectorState_iff]
  · exact Decidable.not_not.1 fun h => changed (hvector h)
  · exact hraised.bit_of_unwanted (by simp [wanted, absent])
  · exact hraised.bit_of_unwanted (by simp [wanted, absent])
  · exact hvector fun h => by simp [absent] at h
  · exact hraised.bit_of_unwanted (by simp [wanted, absent])

end FeatureSet
end CellVisor
