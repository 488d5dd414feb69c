import ArmSimulator.Assembly.Encoding
import ArmSimulator.ModeInvariant
import ArmSimulator.RegisterHistory

/-!
# Assembly: what is seen of a processor

A processor is seen as a state of the assembly machine by what it holds for its current mode
(`view`).  `Becomes` is the relation between a processor, a later one and the state that is seen of
that: whatever is not seen is kept.  Each change that a handler makes is a rule of the relation.

So a handler is followed from its first change to its last, each by a rule, and at the end the whole
relation is there: what is seen is what the machine has computed, and the frame has been carried
along.  The rules are for a register, the memory and the flags.

Three things are in the frame.

* What the machine has no place for: the banks of the other modes, the SPSRs, the mode, the low bits
  of the CPSR and the output.  They are as before.
* The count of cycles.  It goes up by one for each instruction, so the relation is counted.
* C and V.  Nothing is said about them.
-/

namespace ArmSimulator.Assembly

open BitField

/-! ## Registers

A register of the language is 4 bits and one of the code is a byte. -/

namespace Register

theorem toNat_number (r : Register) : r.number.toNat = r.toNat := by
  rw [number, BitVec.toNat_setWidth]
  omega

theorem number_lt (r : Register) : r.number.toNat < 16 := by
  rw [toNat_number]
  exact r.isLt

theorem number_inj {r r' : Register} : r.number = r'.number ↔ r = r' := by
  rw [← BitVec.toNat_inj, toNat_number, toNat_number, BitVec.toNat_inj]

theorem number_eq_pc {r : Register} : r.number = 15 ↔ r = 15 := by
  rw [← number_inj]
  rfl

end Register

/-! ## The view

The registers of the view are read in the current mode, but for `R15`, which is seen as it is held.
-/

/-- The state that the assembly machine sees of a processor. -/
def view (p : ArmCore) : State where
  reg r := if r = 15 then p.reg.pc else armReadRegister p r.number
  n := (armReadCpsr p).getLsbD N
  z := (armReadCpsr p).getLsbD Z
  mem := p.mem

/-- A processor in one of the seven modes, and with the mode of its CPSR.  Both are needed: outside
the seven modes a register may be missing, and a flag update takes the mode from the CPSR. -/
structure Ready (p : ArmCore) : Prop where
  valid : ValidMode p.reg.currentMode
  consistent : Consistent p

/-- After `n` instructions, what the assembly machine does not see is as before; the cycles are
counted. -/
structure Kept (n : ℕ) (p q : ArmCore) : Prop where
  cpsr : SameBelow 28 q.reg.cpsr p.reg.cpsr
  spsr : q.reg.spsr = p.reg.spsr
  mode : q.reg.currentMode = p.reg.currentMode
  hidden : ∀ s, (∀ r : Register, slot r.number p.reg.currentMode ≠ some s) →
    q.reg.get s = p.reg.get s
  out : q.out = p.out
  cycleCount : q.cycleCount = p.cycleCount + BitVec.ofNat 32 n

/-- After `n` instructions the processor `p` has become `q`, which is seen as `t`, and keeps what is
not seen. -/
structure Becomes (n : ℕ) (p q : ArmCore) (t : State) : Prop where
  ready : Ready q
  view : view q = t
  kept : Kept n p q

section View

variable {p q : ArmCore} {s t : State}

@[simp] theorem view_pc (p : ArmCore) : (view p).reg 15 = p.reg.pc := by
  simp only [view, if_true]

theorem view_reg {r : Register} (h : r ≠ 15) : (view p).reg r = armReadRegister p r.number :=
  if_neg h

@[simp] theorem view_mem (p : ArmCore) : (view p).mem = p.mem := rfl

/-- After the fetch the registers read as the machine reads them. -/
theorem read_fetched (h : WordAligned p.reg.pc) (r : Register) :
    armReadRegister p.fetched r.number = (view p).read r := by
  by_cases hpc : r = 15
  · subst hpc
    rw [State.read, if_pos rfl, view_pc]
    exact armReadRegister_fetched_pc h
  · rw [State.read, if_neg hpc, view_reg hpc]
    exact armReadRegister_fetched p fun heq => hpc (Register.number_eq_pc.mp heq)

/-- A register write, as it is seen. -/
theorem view_write (hvalid : ValidMode p.reg.currentMode) (r : Register) (value : Word) :
    view (armWriteRegister p r.number value) = (view p).write r value := by
  obtain ⟨t, hslot⟩ := slot_isSome r.number_lt hvalid
  have hget : (armWriteRegister p r.number value).reg.get t = value :=
    (get_armWriteRegister ..).trans (if_pos hslot)
  have hreg : (view (armWriteRegister p r.number value)).reg =
      Function.update (view p).reg r value := by
    funext r'
    by_cases hr : r' = r
    · subst hr
      rw [Function.update_self]
      by_cases hpc : r' = 15
      · subst hpc
        obtain rfl : Slot.pc = t := Option.some.inj ((slot_pc _).symm.trans hslot)
        exact (view_pc _).trans hget
      · have hnumber : r'.number ≠ 15 := fun heq => hpc (Register.number_eq_pc.mp heq)
        rw [view_reg hpc, armReadRegister_of_slot hnumber (by rwa [armWriteRegister_currentMode]),
          hget]
    · have hnumber : r'.number ≠ r.number := fun heq => hr (Register.number_inj.mp heq)
      rw [Function.update_of_ne hr]
      by_cases hpc : r' = 15
      · subst hpc
        rw [view_pc, view_pc]
        exact (get_armWriteRegister p r.number value .pc).trans
          (if_neg fun heq => slot_ne_of_ne hnumber.symm (slot_pc _) heq)
      · rw [view_reg hpc, view_reg hpc, armReadRegister_write_of_ne p value hnumber]
  have hcpsr : armReadCpsr (armWriteRegister p r.number value) = armReadCpsr p :=
    armWriteRegister_cpsr ..
  exact State.ext hreg (congrArg (BitVec.getLsbD · N) hcpsr) (congrArg (BitVec.getLsbD · Z) hcpsr)
    rfl

end View

/-! ## Changes

The rules of the relation.  Only the fetch counts a cycle. -/

namespace Kept

variable {n m : ℕ} {p q r : ArmCore}

theorem refl (p : ArmCore) : Kept 0 p p :=
  ⟨SameBelow.refl _ _, rfl, rfl, fun _ _ => rfl, rfl, (BitVec.add_zero _).symm⟩

theorem trans (h : Kept n p q) (h' : Kept m q r) : Kept (n + m) p r where
  cpsr := h'.cpsr.trans h.cpsr
  spsr := h'.spsr.trans h.spsr
  mode := h'.mode.trans h.mode
  hidden s hs := (h'.hidden s (by rwa [h.mode])).trans (h.hidden s hs)
  out := h'.out.trans h.out
  cycleCount := by rw [h'.cycleCount, h.cycleCount, BitVec.ofNat_add, BitVec.add_assoc]

/-- A change in the middle of an instruction. -/
theorem within (h : Kept n p q) (h' : Kept 0 q r) : Kept n p r := h.trans h'

end Kept

namespace Becomes

variable {n m : ℕ} {p q r : ArmCore} {t u : State}

theorem refl (h : Ready p) : Becomes 0 p p (Assembly.view p) := ⟨h, rfl, Kept.refl p⟩

/-- Instructions one after the other. -/
theorem trans (h : Becomes n p q t) (h' : Becomes m q r u) : Becomes (n + m) p r u :=
  ⟨h'.ready, h'.view, h.kept.trans h'.kept⟩

/-- A register is written. -/
theorem write (h : Becomes n p q t) (x : Register) (value : Word) :
    Becomes n p (armWriteRegister q x.number value) (t.write x value) where
  ready := by
    refine ⟨?_, consistent_effect h.ready.consistent (.register _ _)⟩
    rw [armWriteRegister_currentMode]
    exact h.ready.valid
  view := by rw [view_write h.ready.valid, h.view]
  kept := h.kept.within {
    cpsr := by rw [armWriteRegister_cpsr]
    spsr := armWriteRegister_spsr ..
    mode := armWriteRegister_currentMode ..
    hidden := fun s hs => (get_armWriteRegister ..).trans (if_neg (hs x))
    out := rfl
    cycleCount := (BitVec.add_zero _).symm }

/-- The memory is written. -/
theorem memory (h : Becomes n p q t) (mem : Memory) :
    Becomes n p { q with mem := mem } { t with mem := mem } where
  ready := ⟨h.ready.valid, h.ready.consistent⟩
  view := by
    rw [← h.view]
    rfl
  kept := h.kept.within
    ⟨SameBelow.refl _ _, rfl, rfl, fun _ _ => rfl, rfl, (BitVec.add_zero _).symm⟩

/-- The flags are written. -/
theorem flags (h : Becomes n p q t) {cpsr : Word} (hbelow : SameBelow 28 cpsr q.reg.cpsr) :
    Becomes n p (armWriteCpsr q cpsr) { t with n := cpsr.getLsbD N, z := cpsr.getLsbD Z } := by
  have hmode : (armWriteCpsr q cpsr).reg.currentMode = q.reg.currentMode := by
    rw [armWriteCpsr_currentMode, modeUpdate_congr (hbelow.mono (by decide)), h.ready.consistent]
  have hread := armReadRegister_congr (get_armWriteCpsr q cpsr) hmode
  have hreg : (Assembly.view (armWriteCpsr q cpsr)).reg = t.reg := by
    rw [← h.view]
    funext r
    simp only [Assembly.view, hread]
    rfl
  refine ⟨⟨?_, rfl⟩, ?_, h.kept.within ⟨hbelow, rfl, hmode, fun s _ => get_armWriteCpsr .., rfl,
    (BitVec.add_zero _).symm⟩⟩
  · rw [hmode]
    exact h.ready.valid
  · have hmem : q.mem = t.mem := congrArg State.mem h.view
    exact State.ext hreg rfl rfl hmem

/-- The instruction is fetched. -/
theorem fetched (h : Ready p) : Becomes 1 p p.fetched (Assembly.view p).next := by
  have hwrite := (refl h).write 15 (p.reg.pc + 4)
  rw [State.next, view_pc]
  exact ⟨⟨hwrite.ready.valid, hwrite.ready.consistent⟩, hwrite.view,
    ⟨hwrite.kept.cpsr, hwrite.kept.spsr, hwrite.kept.mode, hwrite.kept.hidden, rfl, rfl⟩⟩

end Becomes

end ArmSimulator.Assembly
