import ArmSimulator.Core

/-!
# Exceptions (`arm_exception.c`) and processor creation

`arm_exception` is called with an exception number, by `arm_step` after an instruction that did not
return 0 and by the interrupt listener with any byte it received.  Five routines enter an exception
mode; they differ in the return address, the mode, the FIQ mask bit and the vector, and are one
function `exceptionEntry` of these.  Each routine keeps its own definition, with the return address
computed as its C function computes it.

The order inside an entry matters: `R14` and the SPSR are written *before* the mode bits of the
CPSR, hence in the bank of the interrupted mode.  `exceptionEntry_get`, `exceptionEntry_spsr` and
`exceptionEntry_cpsr` say what an entry leaves, and are all that later files use.

The mask bits of the CPSR are written by an entry and never read: `arm_exception` takes every
exception that it is given.  A number without a test in the function changes nothing and is
returned.

An uninitialised local of the C code (here the word `instruction`, when the read that should set it
fails) is a parameter, `junk`: the code may find anything there.
-/

namespace ArmSimulator

/-! ## Entry

The C functions in the order of the file. -/

/-- `set_exception_cpsr`: the SPSR first, then the CPSR bit by bit, each time read and written
through the accessors.  The first write changes the mode, so the SPSR written before it is that of
the interrupted mode. -/
def setExceptionCpsr (p : ArmCore) (mode bit6 : Byte) : ArmCore :=
  let p := armWriteSpsr p (armReadCpsr p)
  let p := armWriteCpsr p ((armReadCpsr p &&& ~~~(0x0000001f#32)) ||| u32 mode)
  let p := armWriteCpsr p (clrBit (armReadCpsr p) 5)
  let p := if bit6 ≠ 0 then armWriteCpsr p (setBit (armReadCpsr p) 6) else p
  let p := armWriteCpsr p (setBit (armReadCpsr p) 7)
  let p := armWriteCpsr p (setBit (armReadCpsr p) 8)
  armWriteCpsr p (clrBit (armReadCpsr p) 9)

/-- The common body of the five entry routines: `R14`, then the status registers, then the vector.
-/
def exceptionEntry (p : ArmCore) (link : Word) (mode bit6 : Byte) (vector : Word) : ArmCore :=
  let p := armWriteRegister p 14 link
  let p := setExceptionCpsr p mode bit6
  armWriteRegister p 15 vector

/-- `data_abort`. -/
def dataAbort (p : ArmCore) : ArmCore :=
  exceptionEntry p ((armReadRegister p 15 - 4) + 8) 0b10111 0 0x00000010

/-- `unterrupt`, the entry for `INTERRUPT`.  It is taken whatever the mask bits of the CPSR are, as
all entries are. -/
def unterrupt (p : ArmCore) : ArmCore :=
  exceptionEntry p ((armReadRegister p 15 - 4) + 4) 0b10010 0 0x00000018

/-- `undefined_unstruction`. -/
def undefinedUnstruction (p : ArmCore) : ArmCore :=
  exceptionEntry p (armReadRegister p 15) 0b11011 0 0x00000004

/-- `fetch_abort`. -/
def fetchAbort (p : ArmCore) : ArmCore :=
  let abortedInstructionAddress := armReadRegister p 15 - 4
  exceptionEntry p (abortedInstructionAddress + 4) 0b10111 0 0x0000000C

/-- `fast_interrupt_request`. -/
def fastInterruptRequest (p : ArmCore) : ArmCore :=
  let nextInstructionAddress := armReadRegister p 15
  exceptionEntry p (nextInstructionAddress + 4) 0b10001 1 0x0000001C

/-- `putchar(value)`. -/
def putchar (p : ArmCore) (value : Word) : ArmCore := { p with out := p.out ++ [u8 value] }

/-- The part of `arm_exception` after the software interrupts: the exceptions that
change the state, tested one after the other. -/
def takeException (p : ArmCore) (exception : Byte) : ArmCore :=
  let number : Int := exception.toNat
  let p := if number = RESET then armWriteRegister (armWriteCpsr p 0x1d3) 15 0 else p
  let p := if number = DATA_ABORT then dataAbort p else p
  let p := if number = INTERRUPT then unterrupt p else p
  let p := if number = UNDEFINED_INSTRUCTION then undefinedUnstruction p else p
  let p := if number = PREFETCH_ABORT then fetchAbort p else p
  if number = FAST_INTERRUPT then fastInterruptRequest p else p

/-- `arm_exception`.  A software interrupt looks at the instruction two words below what `R15` reads
as: `0x123456` ends the simulation, 1 prints the character in `R0`, and any other is returned as a
software interrupt, for which there is no entry. -/
def armException (p : ArmCore) (exception : Byte) (junk : Word) : Int × ArmCore :=
  let number : Int := exception.toNat
  let other : Int × ArmCore := (number, takeException p exception)
  if number = SOFTWARE_INTERRUPT then
    let address := armReadRegister p 15 - 8
    let instruction := (armReadWord p address).getD junk &&& 0xFFFFFF
    if instruction = 0x123456 then (END_SIMULATION, p)
    else if instruction = 0x000001 then (0, putchar p (armReadRegister p 0))
    else other
  else other

/-- `arm_create`, on a register file and a memory with any contents: a reset, and the size of the
memory in `R13`.  A reset writes the CPSR and `R15` and leaves every other register as it finds it.
-/
def armCreate (reg : Registers) (mem : Memory) : ArmCore :=
  let p : ArmCore := { cycleCount := 0, reg := reg, mem := mem, out := [] }
  let p := (armException p 1 0).2
  armWriteRegister p 13 ((memoryGetSize mem).setWidth 32)

/-! ## What an entry does

One lemma for each component.  The section variables are the arguments that the five routines give
to the common body. -/

/-- At most one of the tests of `arm_exception` holds. -/
theorem takeException_eq (p : ArmCore) (exception : Byte) :
    takeException p exception =
      match exception.toNat with
      | 1 => armWriteRegister (armWriteCpsr p 0x1d3) 15 0
      | 2 => dataAbort p
      | 3 => fastInterruptRequest p
      | 4 => unterrupt p
      | 6 => fetchAbort p
      | 7 => undefinedUnstruction p
      | _ => p := by
  unfold takeException
  generalize exception.toNat = number
  match number with
  | 0 | 1 | 2 | 3 | 4 | 5 | 6 | 7 => rfl
  | n + 8 =>
      -- no test is for a number above 7
      have hne : ∀ code : Int, code < 8 → ¬ ((n + 8 : ℕ) : Int) = code := by
        intro code hcode
        omega
      dsimp only
      rw [if_neg (hne FAST_INTERRUPT (by decide)), if_neg (hne PREFETCH_ABORT (by decide)),
        if_neg (hne UNDEFINED_INSTRUCTION (by decide)), if_neg (hne INTERRUPT (by decide)),
        if_neg (hne DATA_ABORT (by decide)), if_neg (hne RESET (by decide))]
      rfl

/-- Without `putchar`, `arm_exception` is `takeException`: a software interrupt is
none of the exceptions that change the state. -/
theorem armException_snd (p : ArmCore) (exception : Byte) (junk : Word) :
    (armException p exception junk).2.reg = (takeException p exception).reg ∧
      (armException p exception junk).2.mem = (takeException p exception).mem ∧
      (armException p exception junk).2.cycleCount =
        (takeException p exception).cycleCount := by
  unfold armException
  dsimp only
  by_cases hswi : (exception.toNat : Int) = SOFTWARE_INTERRUPT
  · have height : exception.toNat = 8 := by
      rw [SOFTWARE_INTERRUPT] at hswi
      exact_mod_cast hswi
    have hnone : takeException p exception = p := by
      rw [takeException_eq, height]
      rfl
    rw [if_pos hswi, hnone]
    split_ifs <;> exact ⟨rfl, rfl, rfl⟩
  · rw [if_neg hswi]
    exact ⟨rfl, rfl, rfl⟩

/-- The CPSR after an entry: mode field, T clear, F set for FIQ, I and A set,
E clear. -/
def entryCpsr (cpsr : Word) (mode bit6 : Byte) : Word :=
  let c := clrBit ((cpsr &&& ~~~(0x0000001f#32)) ||| u32 mode) 5
  let c := if bit6 ≠ 0 then setBit c 6 else c
  clrBit (setBit (setBit c 7) 8) 9

section Entry

variable (p : ArmCore) (link vector : Word) (mode bit6 : Byte)

theorem setExceptionCpsr_eq :
    setExceptionCpsr p mode bit6 =
      armWriteCpsr (armWriteSpsr p p.reg.cpsr) (entryCpsr p.reg.cpsr mode bit6) := by
  unfold setExceptionCpsr entryCpsr
  split_ifs <;>
    simp only [armReadCpsr, registersReadCpsr, armWriteCpsr, registersWriteCpsr,
      armWriteSpsr_cpsr]

@[simp] theorem exceptionEntry_cpsr :
    (exceptionEntry p link mode bit6 vector).reg.cpsr = entryCpsr p.reg.cpsr mode bit6 := by
  simp [exceptionEntry, setExceptionCpsr_eq]

@[simp] theorem exceptionEntry_mem :
    (exceptionEntry p link mode bit6 vector).mem = p.mem := by
  simp [exceptionEntry, setExceptionCpsr_eq]

@[simp] theorem exceptionEntry_cycleCount :
    (exceptionEntry p link mode bit6 vector).cycleCount = p.cycleCount := by
  simp [exceptionEntry, setExceptionCpsr_eq]

@[simp] theorem exceptionEntry_currentMode :
    (exceptionEntry p link mode bit6 vector).reg.currentMode =
      modeUpdate (entryCpsr p.reg.cpsr mode bit6) := by
  simp [exceptionEntry, setExceptionCpsr_eq]

/-- **The SPSR written is the one of the mode the entry starts in**, if that mode has one; no other
SPSR changes. -/
theorem exceptionEntry_spsr :
    (exceptionEntry p link mode bit6 vector).reg.spsr =
      ((spsrIndex p.reg.currentMode).map fun i =>
        Function.update p.reg.spsr i p.reg.cpsr).getD p.reg.spsr := by
  simp [exceptionEntry, setExceptionCpsr_eq, armWriteSpsr_spsr]

/-- **The `R14` written is the one of the mode the entry starts in**; the other register that
changes is `R15`, which gets the vector. -/
theorem exceptionEntry_get (s : Slot) :
    (exceptionEntry p link mode bit6 vector).reg.get s =
      if s = .pc then vector
      else if slot 14 p.reg.currentMode = some s then link
      else p.reg.get s := by
  simp only [exceptionEntry, setExceptionCpsr_eq, get_armWriteRegister, get_armWriteCpsr,
    get_armWriteSpsr, slot_pc, Option.some.injEq, eq_comm (a := Slot.pc)]

end Entry

end ArmSimulator
