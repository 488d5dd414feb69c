import ArmSimulator.Registers

/-!
# Register writes of the debugger (`gdb_protocol.c`)

The packets `P` and `G` write the register file from outside the processor, between two steps of it.
This file models what they do to the registers, on the values that `read_uint32` has read from the
packet; how the values are read, and what is answered, is modelled with the rest of the protocol.

The two halves are apart because they are needed at different places: the invariants of the register
file are about every writer of it, and the debugger is one of them, while the protocol needs the
texts as well.

Two points of the code are kept as they are.

* A handler writes in the *current* mode, and asserts that the register number is below 16.  It is
  `none` when the assertion fails.
* `write_general_registers` writes the sixteen registers before the CPSR, so that the new mode comes
  too late for them.  Whatever the mode of the new CPSR, the registers go to the bank of the old
  one.
-/

namespace ArmSimulator

/-- `write_register`, for any register number that the packet may hold. -/
def writeRegister (r : Registers) (reg : ℕ) (value : Word) : Option Registers :=
  if reg < 16 then some (registersWrite r (BitVec.ofNat 8 reg) (registersGetMode r) value)
  else none

/-- `write_general_registers`: the sixteen registers in the mode of the old CPSR, then the CPSR. -/
def writeGeneralRegisters (r : Registers) (values : Fin 16 → Word) (cpsr : Word) :
    Option Registers :=
  ((List.finRange 16).foldlM (fun r i => writeRegister r i.val (values i)) r).map fun r =>
    registersWriteCpsr r cpsr

/-! ## What a register write leaves alone

`registers_write` changes one register.  The status registers and the mode are not its business, and
a loop of such writes leaves them alone as well. -/

/-- The same status registers and the same mode.  The general registers may differ. -/
structure SameStatus (r q : Registers) : Prop where
  cpsr : q.cpsr = r.cpsr
  spsr : q.spsr = r.spsr
  currentMode : q.currentMode = r.currentMode

theorem SameStatus.trans {r q s : Registers} (h₁ : SameStatus r q) (h₂ : SameStatus q s) :
    SameStatus r s :=
  ⟨h₂.cpsr.trans h₁.cpsr, h₂.spsr.trans h₁.spsr, h₂.currentMode.trans h₁.currentMode⟩

theorem writeRegister_sameStatus {r q : Registers} {reg : ℕ} {value : Word}
    (h : writeRegister r reg value = some q) : SameStatus r q := by
  unfold writeRegister at h
  split_ifs at h
  cases h
  exact ⟨registersWrite_cpsr .., registersWrite_spsr .., registersWrite_currentMode ..⟩

/-- The loop over the registers leaves the status registers alone. -/
theorem writeRegisters_sameStatus (values : Fin 16 → Word) :
    ∀ (is : List (Fin 16)) {r q : Registers},
      is.foldlM (fun r i => writeRegister r i.val (values i)) r = some q → SameStatus r q := by
  intro is
  induction is with
  | nil =>
      intro r q h
      cases h
      exact ⟨rfl, rfl, rfl⟩
  | cons i is ih =>
      intro r q h
      rw [List.foldlM_cons] at h
      obtain ⟨s, hs, hrest⟩ := Option.bind_eq_some_iff.mp h
      exact (writeRegister_sameStatus hs).trans (ih hrest)

/-- **A `G` packet sets the CPSR** and, with it, the mode; the SPSRs are unchanged.  A debugger can
so put the processor in any mode, or in none, whatever the mode it was in. -/
theorem writeGeneralRegisters_status {r q : Registers} {values : Fin 16 → Word} {cpsr : Word}
    (h : writeGeneralRegisters r values cpsr = some q) :
    q.cpsr = cpsr ∧ q.currentMode = modeUpdate cpsr ∧ q.spsr = r.spsr := by
  obtain ⟨s, hs, rfl⟩ := Option.map_eq_some_iff.mp h
  exact ⟨rfl, rfl, (writeRegisters_sameStatus values _ hs).spsr⟩

end ArmSimulator
