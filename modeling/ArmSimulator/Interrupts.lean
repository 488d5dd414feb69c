import ArmSimulator.ModeInvariant

/-!
# Interrupts

What an interrupt does to the program it interrupts, in the runs of the simulator.

* `interrupt_resumed_iff` — an IRQ whose handler is the one instruction `SUBS pc, lr, #4` gives back
  the interrupted state only where the IRQ bank already held what the entry should have saved there.
* `masked_untouched_iff` — `arm_exception` does not look at the mask bits; a masked interrupt leaves
  a run untouched only where it finds the processor in the state it would itself have led to.

For the first, the state after the interrupt and its return is computed slot by slot
(`interrupt_return`, `get_interrupt_return`, `spsr_interrupt_return`) and compared with the one
before: the entry has written `R14` and the SPSR of the interrupted mode, so these two must have
held already what it writes, and the return has taken its address and its status from the IRQ bank,
so that must have held them.

For the second, the states that an entry leaves as they are are found by solving the equations of
the entry for the state (`enter_untouched_iff`).  The result for runs is about every masked
interrupt of every run of the simulator: either all leave it untouched, or one of them arrives where
it does not.
-/

namespace ArmSimulator

/-! ## The return from an interrupt

The handler is the shortest there is; every longer one begins from the same banks. -/

/-- `SUBS pc, lr, #4`. -/
def SUBS_PC_LR_4 : Word := 0xE25EF004

/-- **`SUBS pc, lr, #4` in a mode with an SPSR.** -/
theorem armStep_subs_pc_lr {p : ArmCore} {m : Mode} (hmode : p.reg.currentMode = m.number)
    (hspsr : m.spsr.isSome = true) (hfetch : (armFetch p).1 = some SUBS_PC_LR_4)
    (junk : Word) :
    armStep p junk = some (0, armWriteCpsr
      (armWriteRegister p.fetched 15 (registersRead p.reg 14 m.number - 4))
      (registersReadSpsr p.reg m.number)) := by
  have hfetched : p.fetched.reg.currentMode = m.number := by
    rw [fetched_currentMode, hmode]
  have hr14 : armReadRegister p.fetched 14 = registersRead p.reg 14 m.number := by
    rw [armReadRegister_eq, if_neg (by decide), hfetched, slot_r14, registersRead_r14,
      Option.map_some, Option.getD_some, get_fetched, if_neg (by simp)]
  have hhas : armCurrentModeHasSpsr p.fetched = true := by
    rw [armCurrentModeHasSpsr, registersCurrentModeHasSpsr, registersGetMode, hfetched,
      Mode.hasSpsr_number, hspsr]
  have hread : armReadSpsr p.fetched = registersReadSpsr p.reg m.number := by
    rw [armReadSpsr, registersGetMode, hfetched, registersReadSpsr_eq, registersReadSpsr_eq,
      fetched_spsr]
  have hsub : dispatch p.fetched SUBS_PC_LR_4 junk =
      some (DataProcessing.sub p.fetched (armReadRegister p.fetched 14) 4 15 1) := rfl
  have hexec : armExecuteInstruction p junk = some (0, armWriteCpsr
      (armWriteRegister p.fetched 15 (registersRead p.reg 14 m.number - 4))
      (registersReadSpsr p.reg m.number)) := by
    have hpassed : conditionPassed p.fetched SUBS_PC_LR_4 ≠ 0 := by
      rw [show conditionPassed p.fetched SUBS_PC_LR_4 = 1 from rfl]
      decide
    rw [armExecuteInstruction_of_fetch hfetch, if_pos hpassed, hsub, DataProcessing.sub,
      writeResult_pc, if_pos hhas, hr14, hread]
  rw [armStep_of_execute hexec]
  rfl

/-- The state `q` resumes the interrupted state `p`: everything but `R14_irq`, `SPSR_irq` and the
cycle count is as it was. -/
structure Resumed (p q : ArmCore) : Prop where
  registers : ∀ s : Slot, s ≠ .high 1 Mode.irq.bank → q.reg.get s = p.reg.get s
  cpsr : q.reg.cpsr = p.reg.cpsr
  spsr : ∀ i, Mode.irq.spsr ≠ some i → q.reg.spsr i = p.reg.spsr i
  mode : q.reg.currentMode = p.reg.currentMode
  mem : q.mem = p.mem

section Resume

variable {p : ArmCore} {m : Mode}

/-- The state after an IRQ and its return. -/
theorem interrupt_return (hmode : p.reg.currentMode = m.number) (hirq : m ≠ .irq)
    (hvector : armReadWord p 0x18 = some SUBS_PC_LR_4) (junk junk' : Word) :
    armStep (armException p Entry.interrupt.number junk).2 junk' = some (0, armWriteCpsr
      (armWriteRegister (Entry.interrupt.enter p).fetched 15
        (registersRead p.reg 14 Mode.irq.number - 4))
      (registersReadSpsr p.reg Mode.irq.number)) := by
  have hfetch : (armFetch (Entry.interrupt.enter p)).1 = some SUBS_PC_LR_4 := hvector
  have hr14 : registersRead (Entry.interrupt.enter p).reg 14 Mode.irq.number =
      registersRead p.reg 14 Mode.irq.number := by
    rw [enter_r14 .interrupt .irq hmode, if_neg fun h => Mode.bank_ne rfl hirq h.symm]
  have hspsr : registersReadSpsr (Entry.interrupt.enter p).reg Mode.irq.number =
      registersReadSpsr p.reg Mode.irq.number := by
    rw [enter_readSpsr .interrupt .irq hmode, if_neg fun h => hirq h.1.symm]
  rw [armException_entry, armStep_subs_pc_lr (enter_currentMode .interrupt p) rfl hfetch]
  rw [Entry.mode, hr14, hspsr]

/-- A register of that state. -/
theorem get_interrupt_return (hmode : p.reg.currentMode = m.number)
    (haligned : WordAligned p.reg.pc) (value cpsr : Word) (s : Slot) :
    (armWriteCpsr (armWriteRegister (Entry.interrupt.enter p).fetched 15 value) cpsr).reg.get s =
      if s = .pc then value
      else if s = .high 1 m.bank then p.reg.pc + 4
      else p.reg.get s := by
  rw [get_armWriteCpsr, get_armWriteRegister, slot_pc, get_fetched, Entry.enter,
    exceptionEntry_get, hmode, slot_r14, link_of_aligned .interrupt haligned]
  simp only [Option.some.injEq, eq_comm (b := s), Entry.storedLink]
  split_ifs <;> rfl

/-- An SPSR of that state. -/
theorem spsr_interrupt_return (hmode : p.reg.currentMode = m.number) (value cpsr : Word)
    (i : Fin 5) :
    (armWriteCpsr (armWriteRegister (Entry.interrupt.enter p).fetched 15 value) cpsr).reg.spsr i =
      if m.spsr = some i then p.reg.cpsr else p.reg.spsr i := by
  rw [armWriteCpsr_spsr, armWriteRegister_spsr, fetched_spsr, Entry.enter,
    exceptionEntry_spsr, hmode, Mode.spsrIndex_number]
  cases m.spsr with
  | none => rfl
  | some k =>
      simp only [Option.map_some, Option.getD_some, Function.update_apply, Option.some.injEq,
        eq_comm (a := k)]

/-- **When an interrupted program is resumed as it was.**  For a reachable state in a
mode other than IRQ, with an aligned program counter and `SUBS pc, lr, #4` at the
vector, an IRQ followed by one step gives the state back if and only if the IRQ bank
already held the return address and the CPSR, and the bank of the interrupted mode
already held the values that the entry writes there by mistake. -/
theorem interrupt_resumed_iff (hreach : Reachable p) (hmode : p.reg.currentMode = m.number)
    (hirq : m ≠ .irq) (haligned : WordAligned p.reg.pc)
    (hvector : armReadWord p 0x18 = some SUBS_PC_LR_4) (junk junk' : Word) :
    (∃ r, armStep (armException p Entry.interrupt.number junk).2 junk' = some r ∧
        Resumed p r.2) ↔
      registersRead p.reg 14 Mode.irq.number = p.reg.pc + 4 ∧
        registersReadSpsr p.reg Mode.irq.number = p.reg.cpsr ∧
        registersRead p.reg 14 m.number = p.reg.pc + 4 ∧
        (m.spsr.isSome = true → registersReadSpsr p.reg m.number = p.reg.cpsr) := by
  rw [interrupt_return hmode hirq hvector]
  have hget := get_interrupt_return hmode haligned (registersRead p.reg 14 Mode.irq.number - 4)
    (registersReadSpsr p.reg Mode.irq.number)
  have hbank : Slot.high 1 m.bank ≠ Slot.high 1 Mode.irq.bank := by
    intro h
    exact Mode.bank_ne rfl hirq (Slot.high.inj h).2
  constructor
  · rintro ⟨r, hr, hresumed⟩
    obtain rfl := Option.some.inj hr
    have hpc := hresumed.registers .pc (by simp)
    have hlink := hresumed.registers (.high 1 m.bank) hbank
    rw [hget, if_pos rfl] at hpc
    rw [hget, if_neg (by simp), if_pos rfl, ← registersRead_r14] at hlink
    have hstored : p.reg.get .pc = p.reg.pc := rfl
    refine ⟨?_, hresumed.cpsr, hlink.symm, fun hm => ?_⟩
    · -- the return went to `R14_irq - 4`
      rw [hstored] at hpc
      bv_omega
    · obtain ⟨i, hi⟩ := Option.isSome_iff_exists.mp hm
      have hsaved := hresumed.spsr i (Mode.spsr_ne hirq hi)
      rw [spsr_interrupt_return hmode, if_pos hi] at hsaved
      rw [registersReadSpsr_eq, Mode.spsrIndex_number, hi]
      exact hsaved.symm
  · rintro ⟨hr14, hspsr, hlink, hm⟩
    refine ⟨_, rfl, fun s hs => ?_, hspsr, fun i hi => ?_, ?_, ?_⟩
    · rw [hget]
      split_ifs with hpc hself
      · rw [hr14, hpc]
        exact BitVec.add_sub_cancel _ _
      · rw [← hlink, registersRead_r14, hself]
      · rfl
    · rw [spsr_interrupt_return hmode]
      split_ifs with hself
      · rw [← hm (by simp [hself]), registersReadSpsr_eq, Mode.spsrIndex_number, hself]
        rfl
      · rfl
    · rw [armWriteCpsr_currentMode, hspsr, hreach.consistent]
    · rw [armWriteCpsr_mem, armWriteRegister_mem, fetched_mem, Entry.enter,
        exceptionEntry_mem]

end Resume

/-- The simulator at its start, with `SUBS pc, lr, #4` at the vector of IRQ and the
given contents of every `R14` and SPSR. -/
def irqSample (r14 spsr : Word) : ArmCore :=
  armCreate { (ArmCore.load 0 []).reg with
      tabR13R14 := fun _ _ => r14
      spsr := fun _ => spsr }
    (Memory.image [0, 0, 0, 0, 0, 0, SUBS_PC_LR_4])

/-- Resumed, because the banks happen to hold the right values. -/
theorem interrupt_resumed_irqSample :
    ∃ r, armStep (armException (irqSample 4 0x1d3) Entry.interrupt.number 0).2 0 = some r ∧
      Resumed (irqSample 4 0x1d3) r.2 :=
  (interrupt_resumed_iff (m := .svc) ⟨_, _, [], rfl⟩ (by decide) (by decide) (by decide)
    (by decide) 0 0).mpr ⟨by decide, by decide, by decide, fun _ => by decide⟩

/-- With zeros there, the return goes to `0xFFFFFFFC`. -/
theorem interrupt_resumed_counterexample :
    ¬ ∀ (p : ArmCore) (m : Mode) (junk junk' : Word), Reachable p →
      p.reg.currentMode = m.number → m ≠ .irq → WordAligned p.reg.pc →
      armReadWord p 0x18 = some SUBS_PC_LR_4 →
        ∃ r, armStep (armException p Entry.interrupt.number junk).2 junk' = some r ∧
          Resumed p r.2 := by
  intro h
  obtain ⟨r, hr, hresumed⟩ := h (irqSample 0 0) .svc 0 0 ⟨_, _, [], rfl⟩ (by decide)
    (by decide) (by decide) (by decide)
  have hpc : (armStep (armException (irqSample 0 0) Entry.interrupt.number 0).2 0).map
      (fun r => r.2.reg.pc) = some 0xFFFFFFFC := by decide
  rw [hr] at hpc
  have hback : r.2.reg.pc = (irqSample 0 0).reg.pc := hresumed.registers .pc (by simp)
  rw [show r.2.reg.pc = 0xFFFFFFFC from Option.some.inj hpc] at hback
  exact absurd hback (by decide)

/-! ## Masked interrupts

Bit 7 of the CPSR masks IRQ and bit 6 masks FIQ. -/

/-- An interrupt that the CPSR masks: IRQ under bit 7, FIQ under bit 6. -/
def Masked (p : ArmCore) : Entry → Prop
  | .interrupt => getBit p.reg.cpsr 7 = 1
  | .fastInterrupt => getBit p.reg.cpsr 6 = 1
  | _ => False

/-- The program counter, every register, the CPSR and every SPSR are the same. -/
structure Untouched (p q : ArmCore) : Prop where
  registers : ∀ s : Slot, q.reg.get s = p.reg.get s
  cpsr : q.reg.cpsr = p.reg.cpsr
  spsr : q.reg.spsr = p.reg.spsr

/-- The state is one that the entry `e` leaves as it is: at the vector, in the mode of
`e` with bits 9 and 5 clear, 8 and 7 set (and 6 for FIQ), the CPSR in the SPSR and the
link value of the vector in `R14`. -/
structure AlreadyEntered (e : Entry) (p : ArmCore) : Prop where
  pc : p.reg.pc = e.vector
  mode : modeField p.reg.cpsr = e.mode.number
  clear : getBit p.reg.cpsr 9 = 0 ∧ getBit p.reg.cpsr 5 = 0
  set : getBit p.reg.cpsr 8 = 1 ∧ getBit p.reg.cpsr 7 = 1
  fiq : e = .fastInterrupt → getBit p.reg.cpsr 6 = 1
  r14 : registersRead p.reg 14 e.mode.number = e.storedLink e.vector
  spsr : registersReadSpsr p.reg e.mode.number = p.reg.cpsr

/-- The status words that the CPSR update of an entry leaves as they are. -/
theorem entryCpsr_eq_self (e : Entry) (cpsr : Word) :
    entryCpsr cpsr e.mode.number e.bit6 = cpsr ↔
      modeField cpsr = e.mode.number ∧ (getBit cpsr 9 = 0 ∧ getBit cpsr 5 = 0) ∧
        (getBit cpsr 8 = 1 ∧ getBit cpsr 7 = 1) ∧
        (e = .fastInterrupt → getBit cpsr 6 = 1) := by
  have hbit6 : e.bit6 ≠ 0 ↔ e = .fastInterrupt := by
    cases e <;> decide
  -- both sides say which bits of the word are which
  have hbits := getLsbD_entryCpsr cpsr e.mode e.bit6
  rw [modeField_eq_number]
  simp only [getBit_eq_one, getBit_eq_zero]
  constructor
  · intro h
    rw [h] at hbits
    refine ⟨fun i hi => ?_, ⟨?_, ?_⟩, ⟨?_, ?_⟩, fun he => ?_⟩
    · rw [hbits, if_pos hi]
    · simpa using hbits 9
    · simpa using hbits 5
    · simpa using hbits 8
    · simpa using hbits 7
    · have hset : ¬ e.bit6 = 0#8 := hbit6.mpr he
      simpa [hset] using hbits 6
  · rintro ⟨hmode, ⟨h9, h5⟩, ⟨h8, h7⟩, h6⟩
    apply BitVec.eq_of_getLsbD_eq
    intro i _
    rw [hbits]
    split_ifs with hi h59 h78 hsix
    · exact (hmode i hi).symm
    · rcases h59 with rfl | rfl
      · exact h5.symm
      · exact h9.symm
    · rcases h78 with rfl | rfl
      · exact h7.symm
      · exact h8.symm
    · subst hsix
      by_cases he : e = .fastInterrupt
      · rw [h6 he, Bool.true_or]
      · rw [decide_eq_false (mt hbit6.mp he), Bool.or_false]
    · rfl

/-- **The states that an entry leaves untouched** are the ones that are already as the entry would
make them. -/
theorem enter_untouched_iff (e : Entry) {p : ArmCore} (hp : Consistent p) :
    Untouched p (e.enter p) ↔ AlreadyEntered e p := by
  have hcpsr : (e.enter p).reg.cpsr = entryCpsr p.reg.cpsr e.mode.number e.bit6 :=
    exceptionEntry_cpsr ..
  have hvector : WordAligned e.vector := by
    cases e <;> decide
  have hself : ∀ status : Word, modeField status = e.mode.number →
      modeUpdate status = e.mode.number := fun status h => by
    rw [modeUpdate_of_valid ⟨e.mode, h⟩, h]
  constructor
  · intro h
    have hfix := hcpsr.symm.trans h.cpsr
    obtain ⟨hmode, hclear, hset, hfiq⟩ := (entryCpsr_eq_self e _).mp hfix
    have hcurrent : p.reg.currentMode = e.mode.number := hp.trans (hself _ hmode)
    have hpc : p.reg.pc = e.vector := by
      have hget := h.registers .pc
      rw [Entry.enter, exceptionEntry_get, if_pos rfl] at hget
      exact hget.symm
    refine ⟨hpc, hmode, hclear, hset, hfiq, ?_, ?_⟩
    · rw [registersRead_r14, ← h.registers, ← registersRead_r14, enter_r14 e e.mode hcurrent,
        if_pos rfl, link_of_aligned e (hpc ▸ hvector), hpc]
    · have hread := enter_readSpsr e e.mode hcurrent
      rw [if_pos ⟨rfl, e.mode_banked⟩] at hread
      rw [← hread, registersReadSpsr_eq, registersReadSpsr_eq, h.spsr]
  · intro h
    have hfix := (entryCpsr_eq_self e _).mpr ⟨h.mode, h.clear, h.set, h.fiq⟩
    have hcurrent : p.reg.currentMode = e.mode.number := hp.trans (hself _ h.mode)
    refine ⟨fun s => ?_, hcpsr.trans hfix, ?_⟩
    · rw [Entry.enter, exceptionEntry_get, hcurrent, slot_r14]
      split_ifs with hs hlink
      · rw [hs]
        exact h.pc.symm
      · obtain rfl := Option.some.inj hlink
        rw [link_of_aligned e (h.pc ▸ hvector), h.pc, ← h.r14, registersRead_r14]
      · rfl
    · have hread := h.spsr
      rw [registersReadSpsr_eq, Mode.spsrIndex_number] at hread
      rw [Entry.enter, exceptionEntry_spsr, hcurrent, Mode.spsrIndex_number]
      cases hindex : e.mode.spsr with
      | none => rfl
      | some i =>
          rw [hindex, Option.map_some, Option.getD_some] at hread
          rw [Option.map_some, Option.getD_some, ← hread, Function.update_eq_self]

/-- The event of an interrupt `e` arriving at `irq_listener`. -/
def Event.arrival (e : Entry) (junk : Word) : Event := .exception e.number junk

/-- **When masked interrupts leave a run untouched.**  In every run of the simulator,
all masked interrupts leave the registers, the CPSR and the SPSRs as they are if and
only if each of them arrives in a state that its entry does not change: the mask bits
make no difference. -/
theorem masked_untouched_iff (reg : Registers) (mem : Memory) (events : List Event) :
    (∀ p e junk, simulator.Visits (armCreate reg mem) events p (.arrival e junk) →
        Masked p e → Untouched p (armException p e.number junk).2) ↔
      ∀ p e junk, simulator.Visits (armCreate reg mem) events p (.arrival e junk) →
        Masked p e → AlreadyEntered e p := by
  have hvisit : ∀ {p e junk},
      simulator.Visits (armCreate reg mem) events p (.arrival e junk) →
        (Untouched p (armException p e.number junk).2 ↔ AlreadyEntered e p) := by
    intro p e junk hp
    rw [armException_entry]
    exact enter_untouched_iff e (simulator.visits_invariant (fun _ _ _ => consistent_event)
      (consistent_armCreate reg mem) hp)
  constructor
  · exact fun h p e junk hp hmasked => (hvisit hp).mp (h p e junk hp hmasked)
  · exact fun h p e junk hp hmasked => (hvisit hp).mpr (h p e junk hp hmasked)

/-- An IRQ just after the reset, which masks both interrupts, is taken. -/
theorem masked_untouched_counterexample :
    ¬ ∀ (reg : Registers) (mem : Memory) (events : List Event) (p : ArmCore) (e : Entry)
      (junk : Word), simulator.Visits (armCreate reg mem) events p (.arrival e junk) →
        Masked p e → Untouched p (armException p e.number junk).2 := by
  intro h
  have hmasked : Masked (armCreate (ArmCore.load 0 []).reg (Memory.image [])) .interrupt := by
    rw [Masked, armCreate_cpsr]
    decide
  have huntouched := h (ArmCore.load 0 []).reg (Memory.image []) [.arrival .interrupt 0] _
    .interrupt 0 ⟨[], [], rfl, rfl⟩ hmasked
  exact absurd (huntouched.registers .pc) (by decide)

end ArmSimulator
