import ArmSimulator.Exception

/-!
# Exception entry

The five exceptions that have an entry routine, as a table (`Entry`): the number `arm_exception` is
called with, the mode entered, the FIQ mask bit, the vector and the link value.
`takeException_entry` says that the table is what the code does, `getLsbD_entryCpsr` what becomes of
each bit of the CPSR, and `exception_frame` what an entry sets and what it leaves alone.

The last section is about the bank that receives `R14` and the SPSR.  Since both are written before
the mode bits, it is the bank of the interrupted mode, and `savedInBank_iff` says on which states
the outcome is nevertheless the architectural one.

The comments of `arm_exception.c` name the banks of the mode that is entered and give a return
address for each exception; `Entry.returnAddress` is that documentation, `Entry.link` what the
routine computes.  For an aligned program counter the two agree for the interrupt alone
(`storedLink_eq_returnAddress`).

Everything is proved for the five entries at once, with the table in place of the routines; only
where the numbers matter are there five cases.  A state in no valid mode has no bank at all: there
the frame holds too, and nothing is saved anywhere.
-/

namespace ArmSimulator

/-- The exceptions with an entry routine. -/
inductive Entry
  | undefined | prefetchAbort | dataAbort | interrupt | fastInterrupt
  deriving DecidableEq, Repr

namespace Entry

/-- The exception number. -/
def number : Entry → Byte
  | undefined => 7
  | prefetchAbort => 6
  | dataAbort => 2
  | interrupt => 4
  | fastInterrupt => 3

/-- The mode entered. -/
def mode : Entry → Mode
  | undefined => .und
  | prefetchAbort => .abt
  | dataAbort => .abt
  | interrupt => .irq
  | fastInterrupt => .fiq

/-- The argument `bit6` of `set_exception_cpsr`. -/
def bit6 : Entry → Byte
  | fastInterrupt => 1
  | _ => 0

/-- The vector. -/
def vector : Entry → Word
  | undefined => 0x04
  | prefetchAbort => 0x0C
  | dataAbort => 0x10
  | interrupt => 0x18
  | fastInterrupt => 0x1C

/-- The value written to `R14`, from the value that `arm_read_register` gives for
`R15`. -/
def link (pc : Word) : Entry → Word
  | undefined => pc
  | prefetchAbort => pc - 4 + 4
  | dataAbort => pc - 4 + 8
  | interrupt => pc - 4 + 4
  | fastInterrupt => pc + 4

/-- The state after the entry. -/
def enter (e : Entry) (p : ArmCore) : ArmCore :=
  exceptionEntry p (e.link (armReadRegister p 15)) e.mode.number e.bit6 e.vector

/-- The exception modes are the banked ones. -/
theorem mode_banked (e : Entry) : e.mode.spsr.isSome = true := by
  cases e <;> rfl

end Entry

/-- The table is what `arm_exception` does. -/
theorem takeException_entry (e : Entry) (p : ArmCore) :
    takeException p e.number = e.enter p := by
  rw [takeException_eq]
  cases e <;> rfl

/-- **The outcomes of `arm_exception` on the registers**: an entry, a reset, or nothing. -/
theorem takeException_cases (p : ArmCore) (exception : Byte) :
    (∃ e : Entry, exception = e.number ∧ takeException p exception = e.enter p) ∨
      takeException p exception = armWriteRegister (armWriteCpsr p 0x1d3) 15 0 ∨
      takeException p exception = p := by
  by_cases hentry : ∃ e : Entry, exception = e.number
  · obtain ⟨e, rfl⟩ := hentry
    exact Or.inl ⟨e, rfl, takeException_entry e p⟩
  · right
    have hne : ∀ e : Entry, exception.toNat ≠ e.number.toNat := fun e heq =>
      hentry ⟨e, BitVec.eq_of_toNat_eq heq⟩
    rw [takeException_eq]
    split
    next => exact Or.inl rfl
    next h => exact absurd h (hne .dataAbort)
    next h => exact absurd h (hne .fastInterrupt)
    next h => exact absurd h (hne .interrupt)
    next h => exact absurd h (hne .prefetchAbort)
    next h => exact absurd h (hne .undefined)
    next => exact Or.inr rfl

/-- The result of an entry exception is its number. -/
theorem armException_entry (e : Entry) (p : ArmCore) (junk : Word) :
    armException p e.number junk = ((e.number.toNat : Int), e.enter p) := by
  rw [← takeException_entry]
  cases e <;> rfl

/-! ## The state after a reset

What `arm_create` leaves in the status registers.  The other registers are whatever the allocated
memory held. -/

section Create

variable (reg : Registers) (mem : Memory)

/-- `arm_create` is a reset and a write of `R13`. -/
theorem armCreate_reg :
    (armCreate reg mem).reg =
      (armWriteRegister (armWriteRegister (armWriteCpsr ⟨0, reg, mem, []⟩ 0x1d3) 15 0) 13
        ((memoryGetSize mem).setWidth 32)).reg := by
  have hreset := (armException_snd ⟨0, reg, mem, []⟩ 1 0).1
  rw [takeException_eq] at hreset
  rw [armCreate, armWriteRegister, hreset]
  rfl

/-- The processor starts in supervisor mode with both kinds of interrupts disabled. -/
theorem armCreate_cpsr : (armCreate reg mem).reg.cpsr = 0x1d3 := by
  rw [armCreate_reg, armWriteRegister_cpsr, armWriteRegister_cpsr, armWriteCpsr_cpsr]

/-- The mode is consistent from the start. -/
theorem armCreate_currentMode : (armCreate reg mem).reg.currentMode = modeUpdate 0x1d3 := by
  rw [armCreate_reg, armWriteRegister_currentMode, armWriteRegister_currentMode,
    armWriteCpsr_currentMode]

/-- No SPSR is written, so they keep what the memory held. -/
theorem armCreate_spsr : (armCreate reg mem).reg.spsr = reg.spsr := by
  rw [armCreate_reg, armWriteRegister_spsr, armWriteRegister_spsr, armWriteCpsr_spsr]

end Create

/-! ## The CPSR after an entry

The CPSR is written seven times by an entry; bit by bit the outcome is simple. -/

/-- **Every bit of the CPSR after an entry.** -/
theorem getLsbD_entryCpsr (cpsr : Word) (m : Mode) (bit6 : Byte) (i : ℕ) :
    (entryCpsr cpsr m.number bit6).getLsbD i =
      if i < 5 then m.number.getLsbD i
      else if i = 5 ∨ i = 9 then false
      else if i = 7 ∨ i = 8 then true
      else if i = 6 then cpsr.getLsbD 6 || decide (bit6 ≠ 0)
      else cpsr.getLsbD i := by
  have hmask : (0x0000001f#32) = BitField.lowMask 32 5 := rfl
  -- the mode field first; the rest is one bit at a time
  have hbase : ((cpsr &&& ~~~(0x0000001f#32)) ||| u32 m.number).getLsbD i =
      if i < 5 then m.number.getLsbD i else cpsr.getLsbD i := by
    rw [BitVec.getLsbD_or, BitVec.getLsbD_and, BitVec.getLsbD_not, hmask,
      BitField.getLsbD_lowMask, u32, BitVec.getLsbD_setWidth]
    by_cases hi : i < 5
    · simp [hi, Nat.lt_trans hi (by decide : 5 < 32)]
    · by_cases h32 : i < 32
      · simp [hi, h32, m.getLsbD_number (Nat.le_of_not_lt hi)]
      · simp [hi, h32, BitVec.getLsbD_of_ge cpsr i (Nat.le_of_not_lt h32)]
  unfold entryCpsr
  dsimp only
  rw [getLsbD_clrBit _ (by decide), getLsbD_setBit _ (by decide), getLsbD_setBit _ (by decide)]
  split_ifs with hset
  all_goals
    simp only [getLsbD_setBit _ (by decide : 6 < 32), getLsbD_clrBit _ (by decide : 5 < 32),
      hbase]
    grind

/-- An entry ends in its mode. -/
theorem modeField_entryCpsr (cpsr : Word) (m : Mode) (bit6 : Byte) :
    modeField (entryCpsr cpsr m.number bit6) = m.number := by
  rw [modeField_eq_number]
  intro i hi
  rw [getLsbD_entryCpsr, if_pos hi]

/-- Every entry leads to the mode of its exception. -/
theorem enter_currentMode (e : Entry) (p : ArmCore) :
    (e.enter p).reg.currentMode = e.mode.number := by
  have hfield := modeField_entryCpsr p.reg.cpsr e.mode e.bit6
  rw [Entry.enter, exceptionEntry_currentMode, modeUpdate_of_valid ⟨e.mode, hfield⟩, hfield]

/-! ## What an entry sets, and what it leaves alone -/

/-- Only `R14` is named by the number 14. -/
theorem slot_fourteen {mode : Byte} {s : Slot} (h : slot 14 mode = some s) :
    ∃ bank, s = .high 1 bank := by
  have hnumber : 14 = s.number := toNat_of_slot h
  cases s with
  | pc => cases hnumber
  | low i => exact absurd hnumber (Nat.ne_of_gt (Nat.lt_trans i.isLt (by decide)))
  | mid i bank =>
      have hi := i.isLt
      simp only [Slot.number] at hnumber
      omega
  | high i bank =>
      have hone : i = 1 := by
        apply Fin.ext
        simp only [Slot.number] at hnumber
        exact (Nat.add_left_cancel (hnumber : 13 + 1 = 13 + i.val)).symm
      exact ⟨bank, by rw [hone]⟩

/-- The state `q` is that of a processor which has entered the exception `e` from `p`: the status
word, the mode and the program counter are set, and the memory, the cycle count and every register
but the program counter, an `R14` and an SPSR are as before. -/
structure EntersException (e : Entry) (p q : ArmCore) : Prop where
  modeBits : modeField q.reg.cpsr = e.mode.number
  thumb : q.reg.cpsr.getLsbD 5 = false
  fiqMask : q.reg.cpsr.getLsbD 6 = (p.reg.cpsr.getLsbD 6 || decide (e = .fastInterrupt))
  irqMask : q.reg.cpsr.getLsbD 7 = true
  abortMask : q.reg.cpsr.getLsbD 8 = true
  endianness : q.reg.cpsr.getLsbD 9 = false
  rest : ∀ i, 9 < i → q.reg.cpsr.getLsbD i = p.reg.cpsr.getLsbD i
  mode : q.reg.currentMode = e.mode.number
  pc : q.reg.pc = e.vector
  mem : q.mem = p.mem
  cycleCount : q.cycleCount = p.cycleCount
  low : ∀ i, q.reg.get (.low i) = p.reg.get (.low i)
  mid : ∀ i bank, q.reg.get (.mid i bank) = p.reg.get (.mid i bank)
  r13 : ∀ bank, q.reg.get (.high 0 bank) = p.reg.get (.high 0 bank)

/-- The FIQ mask is the argument `bit6`. -/
theorem Entry.bit6_ne_zero (e : Entry) : decide (e.bit6 ≠ 0) = decide (e = fastInterrupt) := by
  cases e <;> rfl

/-- A register that is neither the program counter nor an `R14` is not written. -/
theorem enter_get (e : Entry) (p : ArmCore) {s : Slot} (hpc : s ≠ .pc)
    (hlink : ∀ bank, s ≠ .high 1 bank) : (e.enter p).reg.get s = p.reg.get s := by
  rw [Entry.enter, exceptionEntry_get, if_neg hpc, if_neg]
  intro hslot
  obtain ⟨bank, hs⟩ := slot_fourteen hslot
  exact hlink bank hs

/-- **The frame of an exception entry**, from every state, whatever its mode.  It says nothing of
the two places where the old state is saved; these are the subject of `savedInBank_iff`. -/
theorem exception_frame (e : Entry) (p : ArmCore) (junk : Word) :
    (armException p e.number junk).1 = e.number.toNat ∧
      EntersException e p (armException p e.number junk).2 := by
  have hbit : ∀ i, (e.enter p).reg.cpsr.getLsbD i =
      if i < 5 then e.mode.number.getLsbD i
      else if i = 5 ∨ i = 9 then false
      else if i = 7 ∨ i = 8 then true
      else if i = 6 then p.reg.cpsr.getLsbD 6 || decide (e.bit6 ≠ 0)
      else p.reg.cpsr.getLsbD i := by
    intro i
    rw [Entry.enter, exceptionEntry_cpsr, getLsbD_entryCpsr]
  rw [armException_entry]
  refine ⟨rfl, ?_⟩
  exact {
    modeBits := by rw [Entry.enter, exceptionEntry_cpsr, modeField_entryCpsr]
    thumb := hbit 5
    fiqMask := (hbit 6).trans (congrArg (p.reg.cpsr.getLsbD 6 || ·) e.bit6_ne_zero)
    irqMask := hbit 7
    abortMask := hbit 8
    endianness := hbit 9
    rest := fun i hi => by
      rw [hbit, if_neg (by omega), if_neg (by omega), if_neg (by omega), if_neg (by omega)]
    mode := enter_currentMode e p
    pc := (exceptionEntry_get ..).trans (if_pos rfl)
    mem := exceptionEntry_mem ..
    cycleCount := exceptionEntry_cycleCount ..
    low := fun i => enter_get e p (by simp) (by simp)
    mid := fun i bank => enter_get e p (by simp) (by simp)
    r13 := fun bank => enter_get e p (by simp) (by simp) }

/-! ## The bank that is written

The modes are those of `Mode` here: the interrupted one, the one entered, and any other. -/

section Bank

variable (e : Entry) {p : ArmCore} {m : Mode}

/-- `R13` of every mode is unchanged by an entry. -/
theorem enter_r13 (n : Mode) (hmode : p.reg.currentMode = m.number) :
    registersRead (e.enter p).reg 13 n.number = registersRead p.reg 13 n.number := by
  rw [registersRead_r13, registersRead_r13, Entry.enter, exceptionEntry_get,
    if_neg (by simp), hmode, slot_r14, if_neg (by simp)]

/-- `R14` is written in the bank of the mode the entry starts in. -/
theorem enter_r14 (n : Mode) (hmode : p.reg.currentMode = m.number) :
    registersRead (e.enter p).reg 14 n.number =
      if n.bank = m.bank then e.link (armReadRegister p 15)
      else registersRead p.reg 14 n.number := by
  rw [registersRead_r14, registersRead_r14, Entry.enter, exceptionEntry_get,
    if_neg (by simp), hmode, slot_r14]
  simp only [Option.some.injEq, Slot.high.injEq, true_and, eq_comm]

/-- The SPSR written is the one of the mode the entry starts in. -/
theorem enter_readSpsr (n : Mode) (hmode : p.reg.currentMode = m.number) :
    registersReadSpsr (e.enter p).reg n.number =
      if n = m ∧ m.spsr.isSome = true then p.reg.cpsr
      else registersReadSpsr p.reg n.number := by
  rw [registersReadSpsr_eq, registersReadSpsr_eq, Entry.enter, exceptionEntry_spsr, hmode,
    Mode.spsrIndex_number, Mode.spsrIndex_number]
  cases m <;> cases n <;> rfl

/-- The return address that the comments of `arm_exception.c` give for an exception
taken with the stored program counter `pc`. -/
def Entry.returnAddress (pc : Word) : Entry → Word
  | undefined => pc
  | prefetchAbort => pc
  | dataAbort => pc + 4
  | interrupt => pc + 4
  | fastInterrupt => pc + 4

/-- The value that the routine writes to `R14` when the program counter is
aligned. -/
def Entry.storedLink (pc : Word) : Entry → Word
  | undefined => pc + 4
  | prefetchAbort => pc + 4
  | dataAbort => pc + 8
  | interrupt => pc + 4
  | fastInterrupt => pc + 8

/-- From an aligned address this is what the routine writes. -/
theorem link_of_aligned (haligned : WordAligned p.reg.pc) :
    e.link (armReadRegister p 15) = e.storedLink p.reg.pc := by
  rw [armReadRegister_pc, pcRead_of_aligned haligned]
  cases e <;> simp only [Entry.link, Entry.storedLink] <;> bv_omega

/-- The routine writes the documented return address for IRQ only. -/
theorem storedLink_eq_returnAddress (pc : Word) :
    e.storedLink pc = e.returnAddress pc ↔ e = .interrupt := by
  cases e <;> simp [Entry.storedLink, Entry.returnAddress]

end Bank

/-- The state `q` after an exception has the old CPSR in the SPSR of the mode entered and the return
address in its `R14`, and the `R13`, `R14` and SPSR of every other mode as before. -/
structure SavedInBank (e : Entry) (p q : ArmCore) : Prop where
  spsr : registersReadSpsr q.reg e.mode.number = p.reg.cpsr
  link : registersRead q.reg 14 e.mode.number = e.returnAddress p.reg.pc
  others : ∀ n : Mode, n ≠ e.mode →
    registersRead q.reg 13 n.number = registersRead p.reg 13 n.number ∧
      registersRead q.reg 14 n.number = registersRead p.reg 14 n.number ∧
      registersReadSpsr q.reg n.number = registersReadSpsr p.reg n.number

/-- A mode with an SPSR shares its bank with no other mode. -/
theorem Mode.bank_ne {m n : Mode} (hspsr : m.spsr.isSome = true) (hne : n ≠ m) :
    n.bank ≠ m.bank := by
  revert hspsr hne
  cases m <;> cases n <;> decide

section Saved

variable (e : Entry) {p : ArmCore} {m : Mode}

/-- Taken in its own mode, an exception saves the state in the right bank; only the
link value may be wrong. -/
theorem savedInBank_same (hmode : p.reg.currentMode = e.mode.number)
    (haligned : WordAligned p.reg.pc) :
    SavedInBank e p (e.enter p) ↔ e = .interrupt := by
  rw [← storedLink_eq_returnAddress e p.reg.pc, ← link_of_aligned e haligned]
  constructor
  · intro h
    have hlink := h.link
    rw [enter_r14 e e.mode hmode, if_pos rfl] at hlink
    exact hlink
  · intro hlink
    refine ⟨?_, ?_, fun n hn => ⟨enter_r13 e n hmode, ?_, ?_⟩⟩
    · rw [enter_readSpsr e e.mode hmode, if_pos ⟨rfl, e.mode_banked⟩]
    · rw [enter_r14 e e.mode hmode, if_pos rfl, hlink]
    · rw [enter_r14 e n hmode, if_neg (Mode.bank_ne e.mode_banked hn)]
    · rw [enter_readSpsr e n hmode, if_neg fun h => hn h.1]

/-- Taken in another mode, an exception leaves the bank of the mode entered as it
was, and overwrites the bank of the interrupted mode. -/
theorem savedInBank_other (hmode : p.reg.currentMode = m.number) (hne : m ≠ e.mode)
    (haligned : WordAligned p.reg.pc) :
    SavedInBank e p (e.enter p) ↔
      registersReadSpsr p.reg e.mode.number = p.reg.cpsr ∧
        registersRead p.reg 14 e.mode.number = e.returnAddress p.reg.pc ∧
        registersRead p.reg 14 m.number = e.storedLink p.reg.pc ∧
        (m.spsr.isSome = true → registersReadSpsr p.reg m.number = p.reg.cpsr) := by
  have hspsr : registersReadSpsr (e.enter p).reg e.mode.number =
      registersReadSpsr p.reg e.mode.number := by
    rw [enter_readSpsr e e.mode hmode, if_neg fun h => hne h.1.symm]
  have hlink : registersRead (e.enter p).reg 14 e.mode.number =
      registersRead p.reg 14 e.mode.number := by
    rw [enter_r14 e e.mode hmode, if_neg fun h => Mode.bank_ne e.mode_banked hne h.symm]
  constructor
  · intro h
    obtain ⟨-, hr14, hr⟩ := h.others m hne
    refine ⟨hspsr.symm.trans h.spsr, hlink.symm.trans h.link, ?_, fun hm => ?_⟩
    · rw [← hr14, enter_r14 e m hmode, if_pos rfl, link_of_aligned e haligned]
    · rw [← hr, enter_readSpsr e m hmode, if_pos ⟨rfl, hm⟩]
  · rintro ⟨hs, hl, hm14, hmspsr⟩
    refine ⟨hspsr.trans hs, hlink.trans hl, fun n _ => ⟨enter_r13 e n hmode, ?_, ?_⟩⟩
    · rw [enter_r14 e n hmode]
      split_ifs with hbank
      · -- `n` is `m`, or the one of USR and SYS that `m` is not
        rw [link_of_aligned e haligned, ← hm14, registersRead_r14, registersRead_r14, hbank]
      · rfl
    · rw [enter_readSpsr e n hmode]
      split_ifs with hn
      · rw [hn.1, hmspsr hn.2]
      · rfl

/-- **When an exception entry saves the state in the bank of the mode it enters.**
Either it is an IRQ taken in mode IRQ; or the interrupted mode is another one, the
bank entered already holds the return address and the CPSR, and the bank of the
interrupted mode already holds what the routine writes there. -/
theorem savedInBank_iff (hmode : p.reg.currentMode = m.number)
    (haligned : WordAligned p.reg.pc) (junk : Word) :
    SavedInBank e p (armException p e.number junk).2 ↔
      (e = .interrupt ∧ m = .irq) ∨
        (m ≠ e.mode ∧
          registersReadSpsr p.reg e.mode.number = p.reg.cpsr ∧
          registersRead p.reg 14 e.mode.number = e.returnAddress p.reg.pc ∧
          registersRead p.reg 14 m.number = e.storedLink p.reg.pc ∧
          (m.spsr.isSome = true → registersReadSpsr p.reg m.number = p.reg.cpsr)) := by
  rw [armException_entry]
  by_cases hne : m = e.mode
  · subst hne
    rw [savedInBank_same e hmode haligned]
    constructor
    · rintro rfl
      exact Or.inl ⟨rfl, rfl⟩
    · rintro (⟨he, -⟩ | ⟨hself, -⟩)
      · exact he
      · exact absurd rfl hself
  · rw [savedInBank_other e hmode hne haligned]
    constructor
    · exact fun h => Or.inr ⟨hne, h⟩
    · rintro (⟨rfl, hirq⟩ | ⟨-, h⟩)
      · exact absurd hirq hne
      · exact h

end Saved

/-- An IRQ taken in mode IRQ. -/
theorem savedInBank_iff_irq :
    SavedInBank .interrupt (ArmCore.load 0x12 [])
      (armException (ArmCore.load 0x12 []) Entry.interrupt.number 0).2 :=
  (savedInBank_iff .interrupt (m := .irq) (by decide) (by decide) 0).mpr (Or.inl ⟨rfl, rfl⟩)

/-- An undefined instruction in mode USR: the SPSR of UND is not written. -/
theorem savedInBank_counterexample :
    ¬ ∀ (e : Entry) (p : ArmCore) (m : Mode) (junk : Word), p.reg.currentMode = m.number →
      WordAligned p.reg.pc → SavedInBank e p (armException p e.number junk).2 := by
  intro h
  have hspsr := (h .undefined (ArmCore.load 0x10 []) .usr 0 (by decide) (by decide)).spsr
  exact absurd hspsr (by decide)

end ArmSimulator
