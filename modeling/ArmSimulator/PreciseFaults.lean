import ArmSimulator.Effects
import ArmSimulator.Results

/-!
# Precise faults

An instruction that returns a non-zero code should leave the state as the fetch left it.  Four kinds
of instruction may change it first: a single transfer writes its base back before the access, a
data-processing instruction with the S bit writes `Rd` before it finds that the mode has no SPSR,
ADC does so twice, and an MSR that is carried out returns `DATA_ABORT`.

`faultHarmless` collects, class by class, when these writes change nothing, and `fault_precise_iff`
says that a fault is precise exactly then.  All conditions are on the fetched state, in terms of
what registers hold and what the instruction would write; none of them looks at the state after the
step.

A write changes nothing when the register it names already holds the value, or when it names none
(`unchanged_write_iff`): the second case is a register that the mode does not have, where the code
drops the write.  For each handler there is one lemma that ends in an equivalence, *the state is
unchanged if and only if the handler's condition holds* (the `_fault` lemmas), and `dispatch_fault`
collects them by category.

ADC is the long case.  Its first addition may return from an exception, set the flags or fault, and
the second starts from the state the first has left; `adcHarmless` says in which combinations both
together are the identity.
-/

namespace ArmSimulator

/-- The state `q` of a fault is the state `p` before the instruction, with the program counter
advanced by 4.  Of the other components only the cycle count may differ, and what has been printed.
-/
structure Precise (p q : ArmCore) : Prop where
  pc : q.reg.pc = p.reg.pc + 4
  registers : ∀ s : Slot, s ≠ .pc → q.reg.get s = p.reg.get s
  cpsr : q.reg.cpsr = p.reg.cpsr
  spsr : q.reg.spsr = p.reg.spsr
  mode : q.reg.currentMode = p.reg.currentMode
  mem : q.mem = p.mem

/-- The same registers and the same memory.  The status registers and the mode are part of the
register file. -/
def Unchanged (p q : ArmCore) : Prop := q.reg = p.reg ∧ q.mem = p.mem

theorem Unchanged.refl (p : ArmCore) : Unchanged p p := ⟨rfl, rfl⟩

/-- A fault is precise when the fetched state is unchanged. -/
theorem precise_iff {p q : ArmCore} : Precise p q ↔ Unchanged p.fetched q := by
  constructor
  · intro h
    refine ⟨Registers.ext_slots (fun s => ?_) ?_ ?_ ?_, h.mem⟩
    · rw [get_fetched]
      split_ifs with hs
      · rw [hs]
        exact h.pc
      · exact h.registers s hs
    · rw [fetched_cpsr, h.cpsr]
    · rw [fetched_spsr, h.spsr]
    · rw [fetched_currentMode, h.mode]
  · rintro ⟨hreg, hmem⟩
    refine ⟨by rw [hreg, fetched_pc], fun s hs => ?_, by rw [hreg, fetched_cpsr],
      by rw [hreg, fetched_spsr], by rw [hreg, fetched_currentMode], hmem⟩
    rw [hreg, get_fetched, if_neg hs]

/-! ## Writes that change nothing

The equivalence for one write, of a register, of the CPSR and of an SPSR. -/

/-- The register `reg` already holds `value`, if the number names a register. -/
def Holds (p : ArmCore) (reg : Byte) (value : Word) : Prop :=
  ∀ s, slot reg p.reg.currentMode = some s → p.reg.get s = value

/-- A register write changes nothing if the register holds the value already, or if there is none.
-/
theorem unchanged_write_iff {p : ArmCore} {reg : Byte} {value : Word} :
    Unchanged p (armWriteRegister p reg value) ↔ Holds p reg value := by
  constructor
  · rintro ⟨hreg, -⟩ s hs
    have hget := get_armWriteRegister p reg value s
    rw [hreg, if_pos hs] at hget
    exact hget
  · intro h
    refine ⟨Registers.ext_slots (fun s => ?_) ?_ ?_ ?_, rfl⟩
    · rw [get_armWriteRegister]
      split_ifs with hs
      · exact (h s hs).symm
      · rfl
    · rw [armWriteRegister_cpsr]
    · rw [armWriteRegister_spsr]
    · rw [armWriteRegister_currentMode]

/-- A CPSR write changes nothing if the CPSR holds the value already and the cached mode is its
mode. -/
theorem unchanged_writeCpsr_iff {p : ArmCore} {cpsr : Word} :
    Unchanged p (armWriteCpsr p cpsr) ↔
      cpsr = p.reg.cpsr ∧ modeUpdate cpsr = p.reg.currentMode := by
  constructor
  · rintro ⟨hreg, -⟩
    exact ⟨congrArg Registers.cpsr hreg, congrArg Registers.currentMode hreg⟩
  · rintro ⟨hcpsr, hmode⟩
    refine ⟨?_, rfl⟩
    rw [armWriteCpsr, registersWriteCpsr, hmode, hcpsr]

/-- An SPSR write changes nothing if the SPSR holds the value already. -/
theorem unchanged_writeSpsr_iff {p : ArmCore} {value : Word}
    (hspsr : armCurrentModeHasSpsr p = true) :
    Unchanged p (armWriteSpsr p value) ↔ armReadSpsr p = value := by
  obtain ⟨i, hi, hread⟩ := spsrIndex_of_hasSpsr hspsr
  have hwrite := armWriteSpsr_spsr p value
  rw [hi, Option.map_some, Option.getD_some] at hwrite
  rw [hread]
  constructor
  · rintro ⟨hreg, -⟩
    rw [hreg] at hwrite
    rw [hwrite, Function.update_self]
  · intro hvalue
    refine ⟨Registers.ext_slots (fun s => ?_) ?_ ?_ ?_, rfl⟩
    · rw [get_armWriteSpsr]
    · rw [armWriteSpsr_cpsr]
    · rw [hwrite, ← hvalue, Function.update_eq_self]
    · rw [armWriteSpsr_currentMode]

/-! ## Single transfers -/

/-- A failed access changes nothing. -/
theorem processMemoryAccess_fault {p : ArmCore} {address loadStore b rd : Word}
    (h : (processMemoryAccess p address loadStore b rd).1 ≠ 0) :
    (processMemoryAccess p address loadStore b rd).2 = p := by
  have hwrite : ∀ mem, (p.afterWrite mem).1 ≠ 0 → (p.afterWrite mem).2 = p := by
    intro mem
    cases mem with
    | none => exact fun _ => rfl
    | some mem => exact fun h => absurd rfl h
  unfold processMemoryAccess at h ⊢
  split_ifs at h ⊢
  · exact hwrite _ h
  · exact hwrite _ h
  · cases hread : armReadWord p address with
    | none => rfl
    | some value =>
        rw [hread] at h
        exact absurd rfl h
  · cases hread : armReadByte p address with
    | none => rfl
    | some value =>
        rw [hread] at h
        exact absurd rfl h

/-- A failed access of a half-word changes nothing. -/
theorem processMemoryAccessHalf_fault {p : ArmCore} {address loadStore rd : Word}
    (h : (processMemoryAccessHalf p address loadStore rd).1 ≠ 0) :
    (processMemoryAccessHalf p address loadStore rd).2 = p := by
  unfold processMemoryAccessHalf armWriteHalf at h ⊢
  split_ifs at h ⊢
  · cases hwrite : memoryWriteHalf p.mem address
        ((armReadRegister p (u8 rd)).setWidth 16) ENDIANESS with
    | none => rfl
    | some mem =>
        rw [hwrite] at h
        exact absurd rfl h
  · cases hread : armReadHalf p address with
    | none => rfl
    | some value =>
        rw [hread] at h
        exact absurd rfl h

/-- A write-back to `address` is not made, or makes no difference. -/
def WriteBackHarmless (p : ArmCore) (ins : Word) (write : Bool) (address : Word) : Prop :=
  write = true → Holds p (u8 (getBits ins 19 16)) address

theorem unchanged_writeBack_iff {p : ArmCore} {ins : Word} {write : Bool} {address : Word} :
    Unchanged p (writeBack p write (getBits ins 19 16) address) ↔
      WriteBackHarmless p ins write address := by
  cases write
  · exact iff_of_true (Unchanged.refl p) fun h => absurd h (by decide)
  · exact unchanged_write_iff.trans ⟨fun h _ => h, fun h => h rfl⟩

/-- LDR and STR: the base already holds the address of the access. -/
def ldrStrHarmless (p : ArmCore) (ins : Word) : Prop :=
  ∀ offset, memoryOperationOffset p ins = some offset →
    WriteBackHarmless p ins (determineAddressingModeLdrStr ins).writesBack
      (calculateAddress p (getBits ins 19 16) offset (getBit ins 23))

/-- LDRH and STRH, which the simulator executes with the immediate offset. -/
def ldrhStrhHarmless (p : ArmCore) (ins : Word) : Prop :=
  WriteBackHarmless p ins (determineAddressingModeLdrStr ins).writesBack
    (calculateAddress p (getBits ins 19 16)
      (logicalShiftLeft (getBits ins 11 8) 4 ||| getBits ins 3 0) (getBit ins 23))

/-- When LDR or STR fails, the write-back is all that it has done. -/
theorem handleMemoryOperation_fault {p : ArmCore} {ins : Word} {write : Bool}
    (h : (handleMemoryOperation p ins write).1 ≠ 0) :
    Unchanged p (handleMemoryOperation p ins write).2 ↔
      ∀ offset, memoryOperationOffset p ins = some offset → WriteBackHarmless p ins write
        (calculateAddress p (getBits ins 19 16) offset (getBit ins 23)) := by
  unfold handleMemoryOperation at h ⊢
  dsimp only at h ⊢
  cases hoffset : memoryOperationOffset p ins with
  | none => exact iff_of_true (Unchanged.refl p) fun offset hnone => by cases hnone
  | some offset =>
      rw [hoffset] at h
      dsimp only at h ⊢
      rw [processMemoryAccess_fault h, unchanged_writeBack_iff]
      exact ⟨fun hbase o ho => Option.some.inj ho ▸ hbase, fun hall => hall offset rfl⟩

/-- LDR and STR. -/
theorem handleLdrStr_fault {p : ArmCore} {ins : Word} (h : (handleLdrStr p ins).1 ≠ 0) :
    Unchanged p (handleLdrStr p ins).2 ↔ ldrStrHarmless p ins := by
  rw [handleLdrStr_eq] at h ⊢
  split_ifs at h ⊢ with hmode
  · rw [ldrStrHarmless, hmode]
    exact iff_of_true (Unchanged.refl p) fun _ _ hwrite => absurd hwrite (by decide)
  · exact handleMemoryOperation_fault h

theorem handleCommonLdrhStrh_fault {p : ArmCore} {ins offset : Word} {write : Bool}
    (h : (handleCommonLdrhStrh p ins offset write).1 ≠ 0) :
    Unchanged p (handleCommonLdrhStrh p ins offset write).2 ↔ WriteBackHarmless p ins write
      (calculateAddress p (getBits ins 19 16) offset (getBit ins 23)) := by
  unfold handleCommonLdrhStrh at h ⊢
  dsimp only at h ⊢
  rw [processMemoryAccessHalf_fault h, unchanged_writeBack_iff]

/-- LDRH and STRH, whose addressing mode is an immediate one. -/
theorem handleLdrhStrh_fault {p : ArmCore} {ins : Word} (hbit : getBit ins 25 = 0)
    (h : (handleLdrhStrh p ins).1 ≠ 0) :
    Unchanged p (handleLdrhStrh p ins).2 ↔ ldrhStrhHarmless p ins := by
  rw [handleLdrhStrh_eq p hbit] at h ⊢
  split_ifs at h ⊢ with hmode
  · rw [ldrhStrhHarmless, hmode]
    exact iff_of_true (Unchanged.refl p) fun hwrite => absurd hwrite (by decide)
  · exact handleCommonLdrhStrh_fault h

/-! ## Data processing

The common body faults after it has written `Rd`; ADC is its two additions. -/

/-- The body of the opcodes faults in one place: the result makes `Rd` read as `R15`, and the mode
has no SPSR.  `Rd` has then been written. -/
theorem writeResult_fault {p : ArmCore} {result : Word} {rd : Byte} {setCond : Word}
    {updateFlags : ArmCore → ArmCore}
    (h : (writeResult p result rd setCond updateFlags).1 ≠ 0) :
    setCond = 1 ∧ ReadsAsPc p rd result ∧ armCurrentModeHasSpsr p = false ∧
      (writeResult p result rd setCond updateFlags).2 = armWriteRegister p rd result := by
  by_cases hset : setCond = 1
  · subst hset
    rw [writeResult_one] at h ⊢
    split_ifs at h ⊢ with hpc hspsr
    · exact absurd rfl h
    · exact ⟨rfl, hpc, by simpa using hspsr, rfl⟩
    · exact absurd rfl h
  · rw [writeResult_of_ne_one p result rd updateFlags hset] at h
    exact absurd rfl h

/-- The CPSR after the flags of an addition: what `add` writes when it does not take its result for
a jump. -/
def addCpsr (cpsr op1 op2 : Word) : Word :=
  vCpsr (nzcCpsr cpsr (op1 + op2) (truth (op1 + op2 < op1))) (signRaised op1 (op1 + op2))

/-- ADC, which adds twice.  If the first addition makes `Rd` read as `R15`, it must be
the one that faults, and `Rd` must already hold its sum; otherwise the CPSR must
already hold its flags, and `Rd` the sum of all three operands. -/
def adcHarmless (p : ArmCore) (op1 op2 carryIn : Word) (rd : Byte) : Prop :=
  if ReadsAsPc p rd (op1 + op2) then
    armCurrentModeHasSpsr p = false ∧ Holds p rd (op1 + op2)
  else
    (addCpsr p.reg.cpsr op1 op2 = p.reg.cpsr ∧
        modeUpdate p.reg.cpsr = p.reg.currentMode) ∧
      Holds p rd (op1 + op2 + carryIn)

/-- A register other than `R15` that has just been written reads as what was written,
also after a CPSR write that stays in the mode. -/
theorem read_write_writeCpsr {p : ArmCore} {reg : Byte} {value cpsr : Word} {s : Slot}
    (hreg : reg ≠ 15) (hmode : modeUpdate cpsr = p.reg.currentMode)
    (hs : slot reg p.reg.currentMode = some s) :
    armReadRegister (armWriteCpsr (armWriteRegister p reg value) cpsr) reg = value := by
  rw [armReadRegister_eq, if_neg hreg, armWriteCpsr_currentMode, hmode, hs, Option.map_some,
    Option.getD_some, get_armWriteCpsr, get_armWriteRegister, if_pos hs]

/-- An addition with the S bit, with its three outcomes written out. -/
theorem add_one (p : ArmCore) (op1 op2 : Word) (rd : Byte) :
    DataProcessing.add p op1 op2 rd 1 =
      if ReadsAsPc p rd (op1 + op2) then
        if armCurrentModeHasSpsr p then
          (0, armWriteCpsr (armWriteRegister p rd (op1 + op2)) (armReadSpsr p))
        else (UNDEFINED_INSTRUCTION, armWriteRegister p rd (op1 + op2))
      else
        (0, armWriteCpsr (armWriteRegister p rd (op1 + op2))
          (addCpsr p.reg.cpsr op1 op2)) := by
  rw [DataProcessing.add, writeResult_one]
  have hflags : arithmeticFlags (armWriteRegister p rd (op1 + op2)) (op1 + op2)
      (truth (op1 + op2 < op1)) (signRaised op1 (op1 + op2)) =
        armWriteCpsr (armWriteRegister p rd (op1 + op2)) (addCpsr p.reg.cpsr op1 op2) := by
    rw [arithmeticFlags, nzcShifftercarryUpdate, addCpsr, armReadCpsr, registersReadCpsr,
      armWriteRegister_cpsr]
    rfl
  rw [hflags]

/-- Two additions of which the first returned from an exception.  The restoration is to a mode
without an SPSR, as the second addition faults, and so the mode has changed. -/
theorem adc_restore_not_unchanged {p q : ArmCore} {rd : Byte} {value : Word}
    (hp : armCurrentModeHasSpsr p = true) (hq : armCurrentModeHasSpsr q = false) :
    ¬ Unchanged p (armWriteRegister q rd value) := by
  rintro ⟨hreg, -⟩
  have hmode := congrArg Registers.currentMode hreg
  rw [armWriteRegister_currentMode] at hmode
  rw [armCurrentModeHasSpsr, registersCurrentModeHasSpsr, registersGetMode] at hp hq
  rw [hmode, hp] at hq
  exact absurd hq (by decide)

/-- Two additions of which the first set the flags.  `Rd` has been written twice, and only what the
second has left counts. -/
theorem adc_flags_unchanged_iff {p : ArmCore} {op1 op2 carryIn : Word} {rd : Byte}
    (hrd : rd ≠ 15) :
    Unchanged p
        (armWriteRegister
          (armWriteCpsr (armWriteRegister p rd (op1 + op2)) (addCpsr p.reg.cpsr op1 op2)) rd
          (armReadRegister (armWriteCpsr (armWriteRegister p rd (op1 + op2))
            (addCpsr p.reg.cpsr op1 op2)) rd + carryIn)) ↔
      (addCpsr p.reg.cpsr op1 op2 = p.reg.cpsr ∧
          modeUpdate p.reg.cpsr = p.reg.currentMode) ∧
        Holds p rd (op1 + op2 + carryIn) := by
  generalize addCpsr p.reg.cpsr op1 op2 = cpsr
  -- the second write is in the mode that the flags decode to
  have hget : ∀ (value : Word) (s : Slot),
      (armWriteRegister (armWriteCpsr (armWriteRegister p rd (op1 + op2)) cpsr) rd value).reg.get s
        = if slot rd (modeUpdate cpsr) = some s then value
          else if slot rd p.reg.currentMode = some s then op1 + op2
          else p.reg.get s := by
    intro value s
    rw [get_armWriteRegister, get_armWriteCpsr, get_armWriteRegister, armWriteCpsr_currentMode]
  constructor
  · rintro ⟨hreg, -⟩
    have hcpsr := congrArg Registers.cpsr hreg
    have hmode := congrArg Registers.currentMode hreg
    rw [armWriteRegister_cpsr, armWriteCpsr_cpsr] at hcpsr
    rw [armWriteRegister_currentMode, armWriteCpsr_currentMode] at hmode
    refine ⟨⟨hcpsr, hcpsr ▸ hmode⟩, fun s hs => ?_⟩
    rw [← hreg, hget, hmode, if_pos hs, read_write_writeCpsr hrd hmode hs]
  · rintro ⟨⟨rfl, hmode⟩, hholds⟩
    refine ⟨Registers.ext_slots (fun s => ?_) ?_ ?_ ?_, rfl⟩
    · rw [hget, hmode]
      split_ifs with hs
      · rw [read_write_writeCpsr hrd hmode hs, hholds s hs]
      · rfl
    · rw [armWriteRegister_cpsr, armWriteCpsr_cpsr]
    · rw [armWriteRegister_spsr, armWriteCpsr_spsr, armWriteRegister_spsr]
    · rw [armWriteRegister_currentMode, armWriteCpsr_currentMode, hmode]

/-- ADC: the two additions together, by what the first has done. -/
theorem adc_fault {p : ArmCore} {op1 op2 carryIn setCond : Word} {rd : Byte}
    (h : (DataProcessing.adc p op1 op2 rd setCond carryIn).1 ≠ 0) :
    Unchanged p (DataProcessing.adc p op1 op2 rd setCond carryIn).2 ↔
      adcHarmless p op1 op2 carryIn rd := by
  unfold DataProcessing.adc at h ⊢
  dsimp only at h ⊢
  by_cases hfirst : (DataProcessing.add p op1 op2 rd setCond).1 = 0
  · -- the second addition faults
    rw [if_pos hfirst] at h ⊢
    obtain ⟨rfl, -, hspsr, hstate⟩ := writeResult_fault h
    rw [DataProcessing.add, hstate]
    clear hstate h
    rw [add_one] at hfirst hspsr ⊢
    unfold adcHarmless
    split_ifs at hfirst hspsr ⊢ with hpc hhas
    · -- the first addition left for a mode without an SPSR
      exact iff_of_false (adc_restore_not_unchanged hhas hspsr) fun h => by
        rw [hhas] at h
        exact absurd h.1 (by decide)
    · exact absurd (show UNDEFINED_INSTRUCTION = 0 from hfirst) (by decide)
    · refine adc_flags_unchanged_iff ?_
      rintro rfl
      exact hpc rfl
  · -- the first addition faults, and `Rd` is all it has written
    rw [if_neg hfirst]
    obtain ⟨rfl, hpc, hspsr, hstate⟩ := writeResult_fault hfirst
    rw [DataProcessing.add, hstate, unchanged_write_iff, adcHarmless, if_pos hpc]
    exact (and_iff_right hspsr).symm

/-- Data processing: `Rd` already holds the result.  ADC has a condition of its own. -/
def dataProcessingHarmless (p : ArmCore) (ins : Word) : Prop :=
  let opGauche := armReadRegister p (u8 (getBits ins 19 16))
  let shifterOperand := (carry ins p).2
  let c := (carry ins p).1
  let rd := u8 (getBits ins 15 12)
  if (getBits ins 24 21).toNat = 5 then adcHarmless p opGauche shifterOperand c rd
  else Holds p rd (opcodeResult (getBits ins 24 21).toNat opGauche shifterOperand c)

/-- A fault of data processing, by its opcode. -/
theorem dataProcessing_fault {p : ArmCore} {ins : Word}
    (h : (armDataProcessingShift p ins).1 ≠ 0) :
    Unchanged p (armDataProcessingShift p ins).2 ↔ dataProcessingHarmless p ins := by
  have hlt : (getBits ins 24 21).toNat < 16 := by
    rw [toNat_getBits]
    exact Nat.mod_lt _ (by decide)
  unfold dataProcessingHarmless
  by_cases hadc : (getBits ins 24 21).toNat = 5
  · have hcall : armDataProcessingShift p ins =
        DataProcessing.adc p (armReadRegister p (u8 (getBits ins 19 16))) (carry ins p).2
          (u8 (getBits ins 15 12)) (getBit ins 20) (carry ins p).1 := by
      unfold armDataProcessingShift
      rw [hadc]
      rfl
    rw [hcall] at h ⊢
    rw [if_pos hadc]
    exact adc_fault h
  · have hcommon : IsCommonOpcode (getBits ins 24 21).toNat := by
      refine ⟨fun hmem => h ?_, hlt⟩
      -- the comparisons return 0
      unfold armDataProcessingShift
      generalize (getBits ins 24 21).toNat = opcode at *
      simp only [List.mem_cons, List.not_mem_nil, or_false] at hmem
      rcases hmem with rfl | rfl | rfl | rfl | rfl
      · exact absurd rfl hadc
      all_goals rfl
    rw [armDataProcessingShift_common p hcommon] at h ⊢
    obtain ⟨-, -, -, hstate⟩ := writeResult_fault h
    rw [if_neg hadc, hstate]
    exact unchanged_write_iff

/-! ## MSR

An MSR that is carried out has written its status register when it returns. -/

/-- MSR, which returns `DATA_ABORT` when it is carried out: it is refused as an
undefined instruction, or the status register already holds the merged value.  For
the CPSR that is a value outside the seven modes, so that the processor must be
outside them already. -/
def msrHarmless (p : ArmCore) (ins : Word) : Prop :=
  ∀ operand, msrOperand p ins = some operand →
    if getBit ins 22 = 0 then
      (armInAPrivilegedMode p = true ∧ u32 operand &&& 0x00000020 ≠ 0) ∨
        (msrMerge p.reg.cpsr (msrByteMask ins &&& 0xF0000000) operand = p.reg.cpsr ∧
          p.reg.currentMode = 255)
    else
      armCurrentModeHasSpsr p = false ∨
        armReadSpsr p = msrMerge (armReadSpsr p)
          (msrByteMask ins &&& (0xF0000000 ||| 0x0000000F ||| 0x00000020)) operand

/-- MSR never returns 0, so every MSR is a fault here. -/
theorem msr_fault (p : ArmCore) (ins : Word) :
    Unchanged p (armDataProcessingImmediateMsr p ins).2 ↔ msrHarmless p ins := by
  unfold armDataProcessingImmediateMsr msrHarmless
  cases hoperand : msrOperand p ins with
  | none => exact iff_of_true (Unchanged.refl p) fun operand hnone => by cases hnone
  | some operand =>
      have hone : ∀ P : Byte → Prop, (∀ o, some operand = some o → P o) ↔ P operand :=
        fun P => ⟨fun h => h operand rfl, fun h o ho => Option.some.inj ho ▸ h⟩
      dsimp only
      rw [hone]
      split_ifs with hbit hstate hspsr
      · exact iff_of_true (Unchanged.refl p) (Or.inl hstate)
      · rw [unchanged_writeCpsr_iff, modeUpdate_msrMerge, or_iff_right hstate]
        exact and_congr_right fun _ => eq_comm
      · rw [unchanged_writeSpsr_iff hspsr, or_iff_right (by simp [hspsr])]
      · exact iff_of_true (Unchanged.refl p) (Or.inl (by simpa using hspsr))

/-! ## Every instruction

The categories one by one. -/

/-- The condition under which a fault of the instruction `ins` leaves the fetched state `p` as it
is, by category.  The tests are those of the dispatch, in its order. -/
def faultHarmless (p : ArmCore) (ins : Word) : Prop :=
  match (getBits ins 27 25).toNat with
  | 0 =>
      if getBits ins 27 20 = 18 then True
      else if getBits ins 7 4 = 0b1011 then ldrhStrhHarmless p ins
      else if getBits ins 24 23 = 2 ∧ getBit ins 20 = 0 then True
      else if getBit ins 4 = 1 ∧ getBit ins 7 = 1 then True
      else dataProcessingHarmless p ins
  | 1 =>
      if getBits ins 24 23 = 2 ∧ getBits ins 21 20 = 0 then True
      else if getBits ins 21 20 = 2 ∧ getBits ins 24 23 = 2 then msrHarmless p ins
      else dataProcessingHarmless p ins
  | 2 => ldrStrHarmless p ins
  | 3 => if getBit ins 4 = 0 then ldrStrHarmless p ins else True
  | _ => True

/-- A word that `arm_branch` refuses changes nothing. -/
theorem armBranch_fault {p : ArmCore} {ins : Word} (h : (armBranch p ins).1 ≠ 0) :
    (armBranch p ins).2 = p := by
  unfold armBranch at h ⊢
  dsimp only at h ⊢
  split_ifs at h ⊢ <;> first | rfl | exact absurd rfl h

/-- An MRS that is refused changes nothing. -/
theorem armMiscellaneous_fault {p : ArmCore} {ins : Word} (h : (armMiscellaneous p ins).1 ≠ 0) :
    (armMiscellaneous p ins).2 = p := by
  unfold armMiscellaneous at h ⊢
  dsimp only at h ⊢
  split_ifs at h ⊢ <;> first | rfl | exact absurd rfl h

theorem loadStore_word_fault {p : ArmCore} {ins : Word}
    (htype : (getBits ins 27 26).toNat = 1) (h : (armLoadStore p ins).1 ≠ 0) :
    Unchanged p (armLoadStore p ins).2 ↔ ldrStrHarmless p ins := by
  rw [armLoadStore_of_type_one htype] at h ⊢
  exact handleLdrStr_fault h

theorem loadStore_half_fault {p : ArmCore} {ins : Word}
    (hcategory : (getBits ins 27 25).toNat = 0) (h : (armLoadStore p ins).1 ≠ 0) :
    Unchanged p (armLoadStore p ins).2 ↔ ldrhStrhHarmless p ins := by
  rw [armLoadStore_of_type_zero (type_of_category hcategory)] at h ⊢
  exact handleLdrhStrh_fault (bit25_of_category_zero hcategory) h

/-- **The fault of a dispatched instruction.**  The cases are those of the dispatch, and each is the
lemma on its handler. -/
theorem dispatch_fault {p : ArmCore} {ins junk : Word} {r : Int × ArmCore}
    (h : dispatch p ins junk = some r) (hfault : r.1 ≠ 0) :
    Unchanged p r.2 ↔ faultHarmless p ins := by
  -- the handlers that fail before their first write
  have hnothing : ∀ {q : ArmCore}, q = p → (Unchanged p q ↔ True) := by
    rintro q rfl
    exact iff_true_intro (Unchanged.refl q)
  rcases category_cases ins with hcategory | hcategory | hcategory | hcategory | hcategory |
    hcategory | hcategory | hcategory <;> simp only [faultHarmless, hcategory]
  · rw [dispatch_zero hcategory] at h
    split_ifs at h ⊢ <;> cases h
    · exact hnothing (armBranch_fault hfault)
    · exact loadStore_half_fault hcategory hfault
    · exact hnothing (armMiscellaneous_fault hfault)
    · exact hnothing rfl
    · exact dataProcessing_fault hfault
  · rw [dispatch_one hcategory] at h
    split_ifs at h ⊢ <;> cases h
    · exact hnothing rfl
    · exact msr_fault p ins
    · exact dataProcessing_fault hfault
  · rw [dispatch_two hcategory] at h
    cases h
    exact loadStore_word_fault (type_of_category hcategory) hfault
  · rw [dispatch_three hcategory] at h
    split_ifs at h ⊢ <;> cases h
    · exact loadStore_word_fault (type_of_category hcategory) hfault
    · exact hnothing rfl
    · exact hnothing (armCoprocessorOthersSwi_snd p ins)
  · rw [dispatch_four hcategory] at h
    exact absurd (armLoadStoreMultiple_result h) hfault
  · rw [dispatch_five hcategory] at h
    cases h
    exact hnothing (armBranch_fault hfault)
  · rw [dispatch_six hcategory] at h
    cases h
    exact hnothing rfl
  · rw [dispatch_seven hcategory] at h
    split_ifs at h <;> cases h
    · exact hnothing (armCoprocessorOthersSwi_snd p ins)
    · exact hnothing rfl

/-- **When a fault is precise.**  For every state and every step in which
`arm_execute_instruction` returns a non-zero value, the state is as the fetch left it
if and only if no instruction was dispatched, or the writes that the instruction makes
before it fails change nothing. -/
theorem fault_precise_iff {p : ArmCore} {junk : Word} {r : Int × ArmCore}
    (hexec : armExecuteInstruction p junk = some r) (hfault : r.1 ≠ 0) :
    Precise p r.2 ↔
      ∀ ins, (armFetch p).1 = some ins → conditionPassed p.fetched ins ≠ 0 →
        faultHarmless p.fetched ins := by
  rw [precise_iff]
  rcases armExecuteInstruction_cases hexec with
    ⟨hfetch, rfl⟩ | ⟨ins, hfetch, ⟨hfailed, rfl⟩ | ⟨hpassed, hdispatch⟩⟩
  · refine iff_of_true (Unchanged.refl _) fun ins hins => ?_
    rw [hfetch] at hins
    cases hins
  · refine iff_of_true (Unchanged.refl _) fun ins' hins hpassed => ?_
    rw [hfetch] at hins
    exact absurd (Option.some.inj hins ▸ hfailed) hpassed
  · rw [dispatch_fault hdispatch hfault]
    constructor
    · intro hharmless ins' hins _
      rw [hfetch] at hins
      exact Option.some.inj hins ▸ hharmless
    · exact fun hall => hall ins hfetch hpassed

/-- `LDR r0, [r1, #-4]` at the end of the address space: without write-back its fault is
precise. -/
theorem fault_precise_iff_ldr :
    ∃ r, armExecuteInstruction (ArmCore.load 0x1d3 [0xE5110004]) 0 = some r ∧ r.1 ≠ 0 ∧
      Precise (ArmCore.load 0x1d3 [0xE5110004]) r.2 := by
  have hcategory : (getBits (0xE5110004 : Word) 27 25).toNat = 2 := by decide
  have hmode : (determineAddressingModeLdrStr 0xE5110004).writesBack = false := by decide
  have hresult : (armExecuteInstruction (ArmCore.load 0x1d3 [0xE5110004]) 0).map Prod.fst =
      some (-1) := by decide
  obtain ⟨r, hexec, hr⟩ := Option.map_eq_some_iff.mp hresult
  have hfault : r.1 ≠ 0 := by rw [hr]; decide
  refine ⟨r, hexec, hfault, (fault_precise_iff hexec hfault).mpr fun ins hins _ => ?_⟩
  have hfetch : (armFetch (ArmCore.load 0x1d3 [0xE5110004])).1 = some 0xE5110004 := by decide
  rw [hfetch] at hins
  cases hins
  simp only [faultHarmless, hcategory]
  intro offset _ hwrite
  rw [hmode] at hwrite
  exact absurd hwrite (by decide)

/-- `LDR r0, [r1, #-4]!`: the access fails after the base has become `0xFFFFFFFC`. -/
theorem fault_precise_counterexample :
    ¬ ∀ (p : ArmCore) (junk : Word) (r : Int × ArmCore),
      armExecuteInstruction p junk = some r → r.1 ≠ 0 → Precise p r.2 := by
  intro h
  have hresult : (armExecuteInstruction (ArmCore.load 0x1d3 [0xE5310004]) 0).map
      (fun r => (r.1, r.2.reg.get (.low 1))) = some (-1, 0xFFFFFFFC) := by decide
  obtain ⟨r, hexec, hr⟩ := Option.map_eq_some_iff.mp hresult
  have hbase : r.2.reg.get (.low 1) = 0xFFFFFFFC := congrArg Prod.snd hr
  have hfault : r.1 ≠ 0 := by rw [congrArg Prod.fst hr]; decide
  have hprecise := h _ _ r hexec hfault
  rw [hprecise.registers (.low 1) (by decide)] at hbase
  exact absurd hbase (by decide)

end ArmSimulator
