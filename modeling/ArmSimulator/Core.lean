import ArmSimulator.Memory
import ArmSimulator.Registers

/-!
# The processor state (`arm_core.c`)

`arm_core_data` holds the cycle count, the register file and the memory.  The model adds the bytes
written by `putchar`, the one effect of the simulated processor outside that structure.  Functions
that change the state take the state and return it; the trace functions print and change nothing,
and are left out.

Makefile.am builds the simulator with `BIG_ENDIAN_SIMULATOR`, so `ENDIANESS` is `1`.

Two things about `R15` are peculiar to this file.  The stored program counter is that of the *next*
instruction, since a fetch advances it before the instruction is executed, and a read through
`arm_read_register` gives 4 more and clears bit 1 (`pcRead`).  A write stores the value as it is.
So a value that has been written to `R15` does not read back, and code that writes a destination and
reads it again behaves differently there; several of the results below come from that.

The last sections give each state change its effect on each component, so that nothing later unfolds
these functions.  The lemmas that say what does *not* change are in the simp set; the ones that say
what does are cited by name, with the slot they are about.
-/

namespace ArmSimulator

/-- `struct arm_core_data`, with the bytes written to the standard output.  The cycle
count is a `uint32_t` and wraps; only the traces read it. -/
structure ArmCore where
  cycleCount : Word
  reg : Registers
  mem : Memory
  /-- The bytes given to `putchar`, oldest first. -/
  out : List Byte

/-- Big endian, as built by Makefile.am. -/
def ENDIANESS : Byte := 1

/-! ## Registers -/

/-- `arm_current_mode_has_spsr`. -/
def armCurrentModeHasSpsr (p : ArmCore) : Bool := registersCurrentModeHasSpsr p.reg

/-- `arm_in_a_privileged_mode`. -/
def armInAPrivilegedMode (p : ArmCore) : Bool := registersInAPrivilegedMode p.reg

/-- What `arm_read_register_internal` makes of the stored program counter: the
fetch has added 4 already, the read adds 4 more and clears bit 1. -/
def pcRead (stored : Word) : Word := (stored + 4) &&& 0xFFFFFFFD

/-- `arm_read_register_internal`. -/
def armReadRegisterInternal (p : ArmCore) (reg mode : Byte) : Word :=
  let value := registersRead p.reg reg mode
  if reg = 15 then pcRead value else value

/-- `arm_read_register`: the register of the cached mode, with the offset of `R15`. -/
def armReadRegister (p : ArmCore) (reg : Byte) : Word :=
  armReadRegisterInternal p reg (registersGetMode p.reg)

/-- `arm_read_cpsr`. -/
def armReadCpsr (p : ArmCore) : Word := registersReadCpsr p.reg

/-- `arm_read_spsr`: the SPSR of the cached mode, `UINT32_MAX` where there is none. -/
def armReadSpsr (p : ArmCore) : Word := registersReadSpsr p.reg (registersGetMode p.reg)

/-- `arm_write_register`: the register of the cached mode, `R15` without any offset. -/
def armWriteRegister (p : ArmCore) (reg : Byte) (value : Word) : ArmCore :=
  { p with reg := registersWrite p.reg reg (registersGetMode p.reg) value }

/-- `arm_write_cpsr`. -/
def armWriteCpsr (p : ArmCore) (value : Word) : ArmCore :=
  { p with reg := registersWriteCpsr p.reg value }

/-- `arm_write_spsr`. -/
def armWriteSpsr (p : ArmCore) (value : Word) : ArmCore :=
  { p with reg := registersWriteSpsr p.reg (registersGetMode p.reg) value }

/-! ## Memory -/

/-- `arm_read_byte`. -/
def armReadByte (p : ArmCore) (address : Word) : Option Byte := memoryReadByte p.mem address

/-- `arm_read_half`. -/
def armReadHalf (p : ArmCore) (address : Word) : Option Half :=
  memoryReadHalf p.mem address ENDIANESS

/-- `arm_read_word`. -/
def armReadWord (p : ArmCore) (address : Word) : Option Word :=
  memoryReadWord p.mem address ENDIANESS

/-- The result of a memory write as an `int`, and the state it leaves. -/
def ArmCore.afterWrite (p : ArmCore) : Option Memory → Int × ArmCore
  | some mem => (0, { p with mem := mem })
  | none => (-1, p)

/-- `arm_write_byte`. -/
def armWriteByte (p : ArmCore) (address : Word) (value : Byte) : Int × ArmCore :=
  p.afterWrite (memoryWriteByte p.mem address value)

/-- `arm_write_half`. -/
def armWriteHalf (p : ArmCore) (address : Word) (value : Half) : Int × ArmCore :=
  p.afterWrite (memoryWriteHalf p.mem address value ENDIANESS)

/-- `arm_write_word`. -/
def armWriteWord (p : ArmCore) (address : Word) (value : Word) : Int × ArmCore :=
  p.afterWrite (memoryWriteWord p.mem address value ENDIANESS)

/-- The state after a fetch: `R15` advanced by 4, one more cycle.  It is this state that an
instruction is executed in, also when the read of its word has failed. -/
def ArmCore.fetched (p : ArmCore) : ArmCore :=
  let mode := registersGetMode p.reg
  let address := registersRead p.reg 15 mode
  { p with
    reg := registersWrite p.reg 15 mode (address + 4)
    cycleCount := p.cycleCount + 1 }

/-- `arm_fetch`: the word at `R15`, read after `R15` has been advanced. -/
def armFetch (p : ArmCore) : Option Word × ArmCore :=
  let address := registersRead p.reg 15 (registersGetMode p.reg)
  (memoryReadWord p.mem address ENDIANESS, p.fetched)

/-- A processor about to run a program from address `0`, with the given CPSR and
every register `0`. -/
def ArmCore.load (cpsr : Word) (words : List Word) : ArmCore where
  cycleCount := 0
  reg := {
    pc := 0, tabR0R7 := fun _ => 0, tabR8R12 := fun _ _ => 0, tabR13R14 := fun _ _ => 0
    cpsr := cpsr, spsr := fun _ => 0, currentMode := modeUpdate cpsr }
  mem := Memory.image words
  out := []

/-! ## What each state change does

For a write to a register, to the CPSR, to an SPSR and to the memory, and for a fetch, there is one
lemma for each component that it leaves alone, and one for the component it changes. -/

section Components

variable (p : ArmCore) (reg : Byte) (value : Word)

@[simp] theorem armWriteRegister_cpsr : (armWriteRegister p reg value).reg.cpsr = p.reg.cpsr :=
  registersWrite_cpsr ..

@[simp] theorem armWriteRegister_spsr : (armWriteRegister p reg value).reg.spsr = p.reg.spsr :=
  registersWrite_spsr ..

@[simp] theorem armWriteRegister_currentMode :
    (armWriteRegister p reg value).reg.currentMode = p.reg.currentMode :=
  registersWrite_currentMode ..

@[simp] theorem armWriteRegister_mem : (armWriteRegister p reg value).mem = p.mem := rfl

@[simp] theorem armWriteRegister_cycleCount :
    (armWriteRegister p reg value).cycleCount = p.cycleCount := rfl

/-- A register write reaches the slot it names in the current mode. -/
theorem get_armWriteRegister (s : Slot) :
    (armWriteRegister p reg value).reg.get s =
      if slot reg p.reg.currentMode = some s then value else p.reg.get s :=
  get_registersWrite ..

@[simp] theorem armWriteCpsr_cpsr : (armWriteCpsr p value).reg.cpsr = value := rfl

@[simp] theorem armWriteCpsr_spsr : (armWriteCpsr p value).reg.spsr = p.reg.spsr := rfl

@[simp] theorem armWriteCpsr_currentMode :
    (armWriteCpsr p value).reg.currentMode = modeUpdate value := rfl

@[simp] theorem armWriteCpsr_mem : (armWriteCpsr p value).mem = p.mem := rfl

@[simp] theorem armWriteCpsr_cycleCount :
    (armWriteCpsr p value).cycleCount = p.cycleCount := rfl

@[simp] theorem get_armWriteCpsr (s : Slot) :
    (armWriteCpsr p value).reg.get s = p.reg.get s := by
  cases s <;> rfl

/-- An SPSR write changes the SPSR of the current mode, when there is one. -/
theorem armWriteSpsr_spsr :
    (armWriteSpsr p value).reg.spsr =
      ((spsrIndex p.reg.currentMode).map fun i =>
        Function.update p.reg.spsr i value).getD p.reg.spsr := by
  simp only [armWriteSpsr, registersGetMode, registersWriteSpsr_eq]
  cases spsrIndex p.reg.currentMode <;> rfl

/-- Everything but the SPSRs is unchanged by an SPSR write. -/
theorem armWriteSpsr_eq :
    armWriteSpsr p value = { p with
      reg := { p.reg with spsr := (armWriteSpsr p value).reg.spsr } } := by
  simp only [armWriteSpsr, registersGetMode, registersWriteSpsr_eq]
  cases spsrIndex p.reg.currentMode <;> rfl

@[simp] theorem armWriteSpsr_cpsr : (armWriteSpsr p value).reg.cpsr = p.reg.cpsr := by
  rw [armWriteSpsr_eq]

@[simp] theorem armWriteSpsr_currentMode :
    (armWriteSpsr p value).reg.currentMode = p.reg.currentMode := by
  rw [armWriteSpsr_eq]

@[simp] theorem armWriteSpsr_mem : (armWriteSpsr p value).mem = p.mem := rfl

@[simp] theorem armWriteSpsr_cycleCount :
    (armWriteSpsr p value).cycleCount = p.cycleCount := rfl

@[simp] theorem get_armWriteSpsr (s : Slot) :
    (armWriteSpsr p value).reg.get s = p.reg.get s := by
  rw [armWriteSpsr_eq]
  cases s <;> rfl

@[simp] theorem afterWrite_reg (mem : Option Memory) : (p.afterWrite mem).2.reg = p.reg := by
  cases mem <;> rfl

@[simp] theorem fetched_cpsr : p.fetched.reg.cpsr = p.reg.cpsr := registersWrite_cpsr ..

@[simp] theorem fetched_spsr : p.fetched.reg.spsr = p.reg.spsr := registersWrite_spsr ..

@[simp] theorem fetched_currentMode : p.fetched.reg.currentMode = p.reg.currentMode :=
  registersWrite_currentMode ..

@[simp] theorem fetched_mem : p.fetched.mem = p.mem := rfl

@[simp] theorem fetched_cycleCount : p.fetched.cycleCount = p.cycleCount + 1 := rfl

/-- A fetch advances the program counter by 4 and changes no other register. -/
theorem get_fetched (s : Slot) :
    p.fetched.reg.get s = if s = .pc then p.reg.pc + 4 else p.reg.get s := by
  cases s <;> rfl

@[simp] theorem fetched_pc : p.fetched.reg.pc = p.reg.pc + 4 := rfl

end Components

/-- Reads of registers go through the slot the number names in the current mode;
the program counter reads 4 ahead. -/
theorem armReadRegister_eq (p : ArmCore) (reg : Byte) :
    armReadRegister p reg = if reg = 15 then pcRead p.reg.pc
      else ((slot reg p.reg.currentMode).map p.reg.get).getD UINT32_MAX := by
  unfold armReadRegister armReadRegisterInternal
  split_ifs with h
  · subst h
    rfl
  · exact registersRead_eq ..

/-- What a register reads depends on the registers and on the mode. -/
theorem armReadRegister_congr {p q : ArmCore} (hget : ∀ s, q.reg.get s = p.reg.get s)
    (hmode : q.reg.currentMode = p.reg.currentMode) (reg : Byte) :
    armReadRegister q reg = armReadRegister p reg := by
  have hslots : q.reg.get = p.reg.get := funext hget
  have hpc : q.reg.pc = p.reg.pc := hget .pc
  rw [armReadRegister_eq, armReadRegister_eq, hslots, hmode, hpc]

theorem armReadRegister_pc (p : ArmCore) : armReadRegister p 15 = pcRead p.reg.pc := rfl

/-- A register other than `R15` reads as its slot. -/
theorem armReadRegister_of_slot {p : ArmCore} {reg : Byte} {s : Slot} (hreg : reg ≠ 15)
    (hslot : slot reg p.reg.currentMode = some s) : armReadRegister p reg = p.reg.get s := by
  rw [armReadRegister_eq, if_neg hreg, hslot]
  rfl

/-- The mode has a register of the number.  An invalid mode has no `R13` and no `R14`; a read of
these gives `UINT32_MAX` and a write is dropped, so an instruction that uses one can do nothing
right. -/
def HasRegister (p : ArmCore) (reg : Byte) : Prop := (slot reg p.reg.currentMode).isSome

instance decidableHasRegister (p : ArmCore) (reg : Byte) : Decidable (HasRegister p reg) :=
  inferInstanceAs (Decidable (_ = true))

/-- A register that is missing reads as `UINT32_MAX`. -/
theorem armReadRegister_of_missing {p : ArmCore} {reg : Byte} (hreg : reg ≠ 15)
    (h : ¬ HasRegister p reg) : armReadRegister p reg = UINT32_MAX := by
  have hslot : slot reg p.reg.currentMode = none := by
    rwa [HasRegister, Option.not_isSome_iff_eq_none] at h
  rw [armReadRegister_eq, if_neg hreg, hslot]
  rfl

/-- What a register other than `R15` reads depends on its slot, if the mode has it. -/
theorem armReadRegister_congr_slot {p q : ArmCore} {reg : Byte} (hreg : reg ≠ 15)
    (hmode : q.reg.currentMode = p.reg.currentMode)
    (hget : ∀ s, slot reg p.reg.currentMode = some s → q.reg.get s = p.reg.get s) :
    armReadRegister q reg = armReadRegister p reg := by
  rw [armReadRegister_eq, armReadRegister_eq, if_neg hreg, if_neg hreg, hmode]
  cases hslot : slot reg p.reg.currentMode with
  | none => rfl
  | some s => exact hget s hslot

/-- Registers of two numbers have two slots. -/
theorem slot_ne_of_ne {reg reg' mode : Byte} {s : Slot} (hne : reg' ≠ reg)
    (hslot : slot reg mode = some s) : slot reg' mode ≠ some s := fun hsame =>
  hne (BitVec.eq_of_toNat_eq ((toNat_of_slot hsame).trans (toNat_of_slot hslot).symm))

/-- A register write does not change what another register reads. -/
theorem armReadRegister_write_of_ne (p : ArmCore) {reg reg' : Byte} (value : Word)
    (hne : reg' ≠ reg) :
    armReadRegister (armWriteRegister p reg value) reg' = armReadRegister p reg' := by
  have hget : ∀ s, slot reg' p.reg.currentMode = some s →
      (armWriteRegister p reg value).reg.get s = p.reg.get s := by
    intro s hslot
    rw [get_armWriteRegister, if_neg (slot_ne_of_ne hne.symm hslot)]
  rw [armReadRegister_eq, armReadRegister_eq, armWriteRegister_currentMode]
  split_ifs with hpc
  · have hslot : slot reg' p.reg.currentMode = some .pc := by rw [hpc, slot_pc]
    exact congrArg pcRead (hget .pc hslot)
  · cases hslot : slot reg' p.reg.currentMode with
    | none => rfl
    | some s => exact hget s hslot

/-- Writing back the value of a register other than `R15` changes nothing. -/
theorem armWriteRegister_self (p : ArmCore) {reg : Byte} (hreg : reg ≠ 15) :
    armWriteRegister p reg (armReadRegister p reg) = p := by
  have hsame : (armWriteRegister p reg (armReadRegister p reg)).reg = p.reg := by
    refine Registers.ext_slots (fun s => ?_) (armWriteRegister_cpsr ..) (armWriteRegister_spsr ..)
      (armWriteRegister_currentMode ..)
    rw [get_armWriteRegister]
    split_ifs with hslot
    · exact armReadRegister_of_slot hreg hslot
    · rfl
  exact congrArg (fun r => { p with reg := r }) hsame

/-! ## The SPSR of the mode

The tests `arm_current_mode_has_spsr` and the reads of the SPSR go through one index. -/

theorem hasSpsr_eq (p : ArmCore) :
    armCurrentModeHasSpsr p = (spsrIndex p.reg.currentMode).isSome :=
  registersModeHasSpsr_eq _

/-- The SPSR of a mode is the one with its index. -/
theorem armReadSpsr_of_index {p : ArmCore} {i : Fin 5} (hi : spsrIndex p.reg.currentMode = some i) :
    armReadSpsr p = p.reg.spsr i := by
  rw [armReadSpsr, registersGetMode, registersReadSpsr_eq, hi]
  rfl

/-- A mode that has an SPSR has its index. -/
theorem spsrIndex_of_hasSpsr {p : ArmCore} (h : armCurrentModeHasSpsr p = true) :
    ∃ i, spsrIndex p.reg.currentMode = some i ∧ armReadSpsr p = p.reg.spsr i := by
  rw [hasSpsr_eq] at h
  obtain ⟨i, hi⟩ := Option.isSome_iff_exists.mp h
  exact ⟨i, hi, armReadSpsr_of_index hi⟩

/-! ## The program counter

What a read of `R15` gives, with the stored value aligned and not. -/

/-- The read of a stored program counter, as an addition and a subtraction. -/
theorem pcRead_eq (stored : Word) : pcRead stored = stored + 4 - (stored &&& 2#32) := by
  rw [pcRead, and_not_two, add_four_and_two]

/-- A word address: the two low bits are clear.  `arm_read_register` clears bit 1 of what it gives
for `R15`, which makes no difference at such an address. -/
def WordAligned (address : Word) : Prop := address.toNat % 4 = 0

instance decidableWordAligned (address : Word) : Decidable (WordAligned address) :=
  inferInstanceAs (Decidable (_ = _))

/-- The next word has an address of a word, also at the end of the address space. -/
theorem WordAligned.add_four {address : Word} (h : WordAligned address) :
    WordAligned (address + 4) := by
  rw [WordAligned] at h ⊢
  rw [BitVec.toNat_add]
  simp only [BitVec.ofNat_eq_ofNat, BitVec.toNat_ofNat]
  omega

/-- The read of an aligned program counter is 4 ahead. -/
theorem pcRead_of_aligned {stored : Word} (h : WordAligned stored) :
    pcRead stored = stored + 4 := by
  have hbit : stored &&& 2#32 = 0 := by
    apply BitVec.eq_of_toNat_eq
    rw [toNat_and_two]
    rw [WordAligned] at h
    simp only [BitVec.ofNat_eq_ofNat, BitVec.toNat_ofNat]
    omega
  rw [pcRead_eq, hbit]
  exact BitVec.sub_zero _

/-- After a fetch the program counter reads 8 ahead of an aligned instruction. -/
theorem armReadRegister_fetched_pc {p : ArmCore} (h : WordAligned p.reg.pc) :
    armReadRegister p.fetched 15 = p.reg.pc + 8 := by
  rw [armReadRegister_pc, fetched_pc, pcRead_of_aligned h.add_four, BitVec.add_assoc]
  rfl

/-- A fetch does not change what the other registers read. -/
theorem armReadRegister_fetched (p : ArmCore) {reg : Byte} (hreg : reg ≠ 15) :
    armReadRegister p.fetched reg = armReadRegister p reg :=
  armReadRegister_write_of_ne p (p.reg.pc + 4) hreg

/-- After a fetch the program counter reads 8 ahead of the instruction, and 8 below
that read is at or below the address of the instruction. -/
theorem fetched_pcRead_sub_le (p : ArmCore) :
    (armReadRegister p.fetched 15 - 8).toNat ≤ p.reg.pc.toNat := by
  -- 4 of the fetch, 4 of the read, and bit 1 cleared
  have haddress : armReadRegister p.fetched 15 - 8 = p.reg.pc - (p.reg.pc &&& 2#32) := by
    rw [armReadRegister_pc, fetched_pc, pcRead_eq, add_four_and_two]
    generalize p.reg.pc &&& 2#32 = bit
    bv_omega
  have hle : (p.reg.pc &&& 2#32).toNat ≤ p.reg.pc.toNat := by
    rw [toNat_and_two]
    omega
  rw [haddress, BitVec.toNat_sub_of_le (BitVec.le_def.mpr hle)]
  exact Nat.sub_le _ _

end ArmSimulator
