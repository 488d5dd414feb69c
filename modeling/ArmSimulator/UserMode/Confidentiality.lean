import ArmSimulator.UserMode.Integrity

/-!
# Confidentiality of the privileged state in user mode

Two processors in mode USR that agree on what USR can see cannot be told apart by one `arm_step`:
they return the same code and agree again, whatever the banked registers of the other modes and the
SPSRs hold.

The relation carried through an instruction is `Twin`: agreement, and the same mode, one without an
SPSR.  Reading a register of a twin gives the same value (`Twin.read`), writing one keeps twins
(`Twin.write`), and each handler is a sequence of these.  An MSR leaves no valid mode; that mode has
no SPSR either. After an exception entry the two are in a banked mode and only agreement is left,
which is all that the result asks.

The uninitialised local of the two runs is not the same: an LDM that reads outside memory copies it
to a register, and is excluded (`LdmReadsInside`).  Inside memory every read of the loop succeeds,
so that the local is overwritten before it is used, and the two runs may begin with any two values
of it.

Unlike integrity, this is about two runs, and the lemmas are all of one shape: for a function of the
code, *twins go in, the same result and twins come out*.  They follow the call graph from the flag
updates to `dispatch`, and none looks into a function that another one is about.  What a handler
computes on the way, such as an address or an operand, is the same for twins and is rewritten, not
related.
-/

namespace ArmSimulator

/-- Agreement on what mode USR can see: its registers, the CPSR, the memory and the count of cycles.
What the terminal has been given is not compared; a program cannot read it back. -/
structure UserAgree (p q : ArmCore) : Prop where
  registers : ∀ s : Slot, s.UserVisible → p.reg.get s = q.reg.get s
  cpsr : p.reg.cpsr = q.reg.cpsr
  mem : p.mem = q.mem
  cycleCount : p.cycleCount = q.cycleCount

/-- Agreement, in the same mode, one that has no SPSR.  The second field is what makes a flag update
harmless: the CPSR decodes to the mode that the two are in. -/
structure Twin (p q : ArmCore) : Prop extends UserAgree p q where
  mode : p.reg.currentMode = q.reg.currentMode
  decoded : modeUpdate p.reg.cpsr = p.reg.currentMode
  unbanked : spsrIndex p.reg.currentMode = none

/-- The same result, and twins.  It is what each handler that returns a number gives for twins. -/
def TwinResult (r s : Int × ArmCore) : Prop := r.1 = s.1 ∧ Twin r.2 s.2

/-! ## Reads and writes of twins

What twins agree on, and that the state changes of the processor keep them twins. -/

namespace Twin

variable {p q : ArmCore}

/-- The other processor is in the same mode, so it has no SPSR either. -/
theorem unbanked_right (h : Twin p q) : spsrIndex q.reg.currentMode = none := by
  rw [← h.mode]
  exact h.unbanked

/-- Twins return the same value for every register. -/
theorem read (h : Twin p q) (reg : Byte) : armReadRegister p reg = armReadRegister q reg := by
  rw [armReadRegister_eq, armReadRegister_eq, h.mode, show p.reg.pc = q.reg.pc from
    h.registers .pc trivial]
  cases hslot : slot reg q.reg.currentMode with
  | none => rfl
  | some s =>
      simp only [Option.map_some, Option.getD_some,
        h.registers s (userVisible_of_slot h.unbanked_right hslot)]

/-- Both see the same status. -/
theorem readCpsr (h : Twin p q) : armReadCpsr p = armReadCpsr q := h.cpsr

/-- Both read the same memory. -/
theorem readWord (h : Twin p q) (address : Word) :
    armReadWord p address = armReadWord q address := by
  rw [armReadWord, armReadWord, h.mem]

/-- Neither twin has an SPSR to read or to restore. -/
theorem noSpsr (h : Twin p q) :
    armCurrentModeHasSpsr p = false ∧ armCurrentModeHasSpsr q = false := by
  simp only [armCurrentModeHasSpsr, registersCurrentModeHasSpsr, registersGetMode,
    registersModeHasSpsr_eq, h.unbanked, h.unbanked_right, Option.isSome_none, and_self]

/-- A write of the same value to the same register keeps twins.  In a mode without banks of its own
the register is one that USR can see, or there is none. -/
theorem write (h : Twin p q) (reg : Byte) (value : Word) :
    Twin (armWriteRegister p reg value) (armWriteRegister q reg value) where
  registers s hs := by
    rw [get_armWriteRegister, get_armWriteRegister, h.mode, h.registers s hs]
  cpsr := by simpa using h.cpsr
  mem := h.mem
  cycleCount := h.cycleCount
  mode := by simpa using h.mode
  decoded := by simpa using h.decoded
  unbanked := by simpa using h.unbanked

/-- A CPSR write to a mode without an SPSR. -/
theorem writeCpsr (h : Twin p q) {cpsr : Word} (hcpsr : spsrIndex (modeUpdate cpsr) = none) :
    Twin (armWriteCpsr p cpsr) (armWriteCpsr q cpsr) where
  registers s hs := by
    rw [get_armWriteCpsr, get_armWriteCpsr, h.registers s hs]
  cpsr := rfl
  mem := h.mem
  cycleCount := h.cycleCount
  mode := rfl
  decoded := rfl
  unbanked := hcpsr

/-- A CPSR write that keeps the mode bits. -/
theorem writeFlags (h : Twin p q) {cpsr : Word} (hcpsr : BitField.SameBelow 28 cpsr p.reg.cpsr) :
    Twin (armWriteCpsr p cpsr) (armWriteCpsr q cpsr) := by
  refine h.writeCpsr ?_
  rw [modeUpdate_congr (hcpsr.mono (by decide)), h.decoded, h.unbanked]

/-- Both get the same memory. -/
theorem writeMemory (h : Twin p q) (mem : Memory) :
    Twin { p with mem := mem } { q with mem := mem } :=
  { h with mem := rfl }

/-- A store succeeds in both or fails in both. -/
theorem afterWrite (h : Twin p q) (mem : Option Memory) :
    TwinResult (p.afterWrite mem) (q.afterWrite mem) := by
  cases mem with
  | none => exact ⟨rfl, h⟩
  | some mem => exact ⟨rfl, h.writeMemory mem⟩

/-! ## Data processing -/

/-- The flags are computed from the same numbers. -/
theorem nzc (h : Twin p q) (result c : Word) :
    Twin (nzcShifftercarryUpdate p result c) (nzcShifftercarryUpdate q result c) := by
  rw [nzcShifftercarryUpdate, nzcShifftercarryUpdate, ← h.readCpsr]
  exact h.writeFlags (nzcCpsr_sameBelow _ _ _)

/-- The same with an overflow flag. -/
theorem arithmetic (h : Twin p q) (result cFlag vFlag : Word) :
    Twin (arithmeticFlags p result cFlag vFlag) (arithmeticFlags q result cFlag vFlag) := by
  have hnzc := h.nzc result cFlag
  rw [arithmeticFlags, arithmeticFlags, ← hnzc.readCpsr]
  exact hnzc.writeFlags (vCpsr_sameBelow _ _)

/-- The shifter reads registers and the carry flag only. -/
theorem carry (h : Twin p q) (ins : Word) : carry ins p = carry ins q := by
  simp only [ArmSimulator.carry, carryCascade, immedate, logicalShiftLeftByImmediate,
    logicalShiftLeftByRegister, logicalShiftRightByRegister, arithmeticShiftRightByRegister,
    rotateRightByImmediate, rotateRightWithExtend, h.read, h.readCpsr]

/-- The body of the opcodes keeps twins.  The test on the values of `Rd` and `R15` has the same
outcome in both, and neither has an SPSR to restore. -/
theorem writeResult (h : Twin p q) (result : Word) (rd : Byte) (setCond : Word)
    {updateFlags : ArmCore → ArmCore}
    (hflags : ∀ {a b}, Twin a b → Twin (updateFlags a) (updateFlags b)) :
    TwinResult (writeResult p result rd setCond updateFlags)
      (writeResult q result rd setCond updateFlags) := by
  have hwrite := h.write rd result
  unfold ArmSimulator.writeResult
  dsimp only
  rw [hwrite.read rd, hwrite.read 15, hwrite.noSpsr.1, hwrite.noSpsr.2]
  -- no exception return: twins have no SPSR
  split_ifs
  · contradiction
  · exact ⟨rfl, hwrite⟩
  · exact ⟨rfl, hflags hwrite⟩
  · exact ⟨rfl, hwrite⟩

/-- An addition; the other opcodes that write a result are alike. -/
theorem add (h : Twin p q) (op1 op2 : Word) (rd : Byte) (setCond : Word) :
    TwinResult (DataProcessing.add p op1 op2 rd setCond)
      (DataProcessing.add q op1 op2 rd setCond) :=
  h.writeResult _ rd setCond fun h => h.arithmetic _ _ _

/-- ADC is two additions; the second is given what the first has left, which is the same in both. -/
theorem adc (h : Twin p q) (op1 op2 : Word) (rd : Byte) (setCond carryIn : Word) :
    TwinResult (DataProcessing.adc p op1 op2 rd setCond carryIn)
      (DataProcessing.adc q op1 op2 rd setCond carryIn) := by
  obtain ⟨hresult, hpartiel⟩ := h.add op1 op2 rd setCond
  unfold DataProcessing.adc
  dsimp only
  rw [hresult, hpartiel.read rd]
  split_ifs
  · exact hpartiel.add _ _ _ _
  · exact ⟨hresult, hpartiel⟩

/-- TEQ takes the flags from the result of `eor`, a number that is the same for twins. -/
theorem teq (h : Twin p q) (op1 op2 : Word) (rd : Byte) (c : Word) :
    TwinResult (DataProcessing.teq p op1 op2 rd c) (DataProcessing.teq q op1 op2 rd c) := by
  obtain ⟨hresult, heor⟩ :=
    h.writeResult (op1 ^^^ op2) rd 1 fun h => h.nzc (op1 ^^^ op2) c
  refine ⟨rfl, ?_⟩
  unfold DataProcessing.teq DataProcessing.eor
  dsimp only
  rw [hresult]
  exact heor.nzc _ _

/-- Data processing: the operand and the carry of the shifter are the same, and so is the opcode. -/
theorem dataProcessing (h : Twin p q) (ins : Word) :
    TwinResult (armDataProcessingShift p ins) (armDataProcessingShift q ins) := by
  unfold armDataProcessingShift
  dsimp only
  rw [h.carry ins, h.read]
  generalize (getBits ins 24 21).toNat = opcode
  match opcode with
  | 0 | 1 | 12 | 13 | 14 | 15 => exact h.writeResult _ _ _ fun h => h.nzc _ _
  | 2 | 3 | 6 | 7 => exact h.writeResult _ _ _ fun h => h.arithmetic _ _ _
  | 4 => exact h.add _ _ _ _
  | 5 => exact h.adc _ _ _ _ _
  | 8 => exact ⟨rfl, h.nzc _ _⟩
  | 9 => exact h.teq _ _ _ _
  | 10 | 11 => exact ⟨rfl, h.arithmetic _ _ _⟩
  | n + 16 => exact ⟨rfl, h⟩

/-- MSR.  The masks depend on the word alone, so the new CPSR is the same in both.  It may be in no
mode, which has no SPSR either. -/
theorem msr (h : Twin p q) (ins : Word) :
    TwinResult (armDataProcessingImmediateMsr p ins) (armDataProcessingImmediateMsr q ins) := by
  have hoperand : msrOperand p ins = msrOperand q ins := by
    simp only [msrOperand, h.read]
  have hprivileged : armInAPrivilegedMode p = armInAPrivilegedMode q := by
    simp only [armInAPrivilegedMode, registersInAPrivilegedMode, h.mode]
  unfold armDataProcessingImmediateMsr
  rw [hoperand, hprivileged, h.noSpsr.1, h.noSpsr.2, h.readCpsr]
  cases msrOperand q ins with
  | none => exact ⟨rfl, h⟩
  | some operand =>
      dsimp only
      split_ifs
      · exact ⟨rfl, h⟩
      · -- the CPSR is left in no mode, and that mode has no SPSR
        refine ⟨rfl, h.writeCpsr ?_⟩
        rw [modeUpdate_msrMerge]
        rfl
      · contradiction
      · exact ⟨rfl, h⟩

/-! ## Loads and stores -/

/-- A load gives the same value, as the memories are equal; a store makes the same change to both.
-/
theorem memoryAccess (h : Twin p q) (address loadStore b rd : Word) :
    TwinResult (processMemoryAccess p address loadStore b rd)
      (processMemoryAccess q address loadStore b rd) := by
  unfold processMemoryAccess armReadWord armReadByte armWriteWord armWriteByte
  rw [h.read, h.mem]
  split_ifs
  · exact h.afterWrite _
  · exact h.afterWrite _
  · cases memoryReadWord q.mem address ENDIANESS with
    | none => exact ⟨rfl, h⟩
    | some value => exact ⟨rfl, h.write _ _⟩
  · cases memoryReadByte q.mem address with
    | none => exact ⟨rfl, h⟩
    | some value => exact ⟨rfl, h.write _ _⟩

/-- One access to a half word. -/
theorem memoryAccessHalf (h : Twin p q) (address loadStore rd : Word) :
    TwinResult (processMemoryAccessHalf p address loadStore rd)
      (processMemoryAccessHalf q address loadStore rd) := by
  unfold processMemoryAccessHalf armReadHalf armWriteHalf
  rw [h.read, h.mem]
  split_ifs
  · exact h.afterWrite _
  · cases memoryReadHalf q.mem address ENDIANESS with
    | none => exact ⟨rfl, h⟩
    | some value => exact ⟨rfl, h.write _ _⟩

/-- The new base is the same. -/
theorem writeBack (h : Twin p q) (enabled : Bool) (rn address : Word) :
    Twin (writeBack p enabled rn address) (writeBack q enabled rn address) := by
  cases enabled
  · exact h
  · exact h.write _ _

/-- So is the address, which is made of registers that both share. -/
theorem calculateAddress (h : Twin p q) (rn offset u : Word) :
    calculateAddress p rn offset u = calculateAddress q rn offset u := by
  simp only [ArmSimulator.calculateAddress, h.read]

/-- LDR and STR.  The address is computed from registers that twins agree on. -/
theorem memoryOperation (h : Twin p q) (ins : Word) (write : Bool) :
    TwinResult (handleMemoryOperation p ins write) (handleMemoryOperation q ins write) := by
  have hoffset : memoryOperationOffset p ins = memoryOperationOffset q ins := by
    simp only [memoryOperationOffset, h.read, h.readCpsr]
  unfold handleMemoryOperation
  dsimp only
  rw [hoffset]
  cases memoryOperationOffset q ins with
  | none => exact ⟨rfl, h⟩
  | some offset =>
      dsimp only
      rw [h.calculateAddress]
      exact (h.writeBack _ _ _).memoryAccess _ _ _ _

/-- The part that the two forms of the half word transfers share. -/
theorem commonLdrhStrh (h : Twin p q) (ins offset : Word) (write : Bool) :
    TwinResult (handleCommonLdrhStrh p ins offset write)
      (handleCommonLdrhStrh q ins offset write) := by
  unfold handleCommonLdrhStrh
  dsimp only
  rw [h.calculateAddress]
  exact (h.writeBack _ _ _).memoryAccessHalf _ _ _

/-- The single transfers, after their addressing mode, which depends on the word alone. -/
theorem loadStore (h : Twin p q) (ins : Word) :
    TwinResult (armLoadStore p ins) (armLoadStore q ins) := by
  unfold armLoadStore handleLdrStr handleLdrhStrh handleImmediateCommonLdrhStrh
    handleRegisterCommonLdrhStrh
  dsimp only
  rw [h.read]
  split_ifs
  · cases determineAddressingModeLdrStr ins
    all_goals first
      | exact h.memoryOperation _ _
      | exact ⟨rfl, h⟩
  · cases determineAddressingModeLdrStr ins
    all_goals first
      | exact h.commonLdrhStrh _ _ _
      | exact ⟨rfl, h⟩
  · exact ⟨rfl, h⟩

/-! ## Multiple transfers

The loops, by induction on the list of registers; the two loops start from the same address. -/

/-- `start_end_adresse` computes the same addresses for twins, and keeps them twins. -/
theorem startEnd (h : Twin p q) (pBit uBit rn regList w : Word) :
    (startEndAdresse p pBit uBit rn regList w).startAdr =
        (startEndAdresse q pBit uBit rn regList w).startAdr ∧
      (startEndAdresse p pBit uBit rn regList w).endAdr =
        (startEndAdresse q pBit uBit rn regList w).endAdr ∧
      Twin (startEndAdresse p pBit uBit rn regList w).core
        (startEndAdresse q pBit uBit rn regList w).core := by
  unfold startEndAdresse
  dsimp only
  rw [h.read]
  split_ifs <;> exact ⟨rfl, rfl, h.write _ _⟩

/-- The loop of STM.  The registers that it stores are read in the current mode. -/
theorem stm (regList : Word) : ∀ (is : List ℕ) {p q : ArmCore} (address : Word), Twin p q →
    Twin (stmLoop regList is p address) (stmLoop regList is q address) := by
  intro is
  induction is with
  | nil => exact fun _ h => h
  | cons i is ih =>
      intro p q address h
      rw [stmLoop, stmLoop]
      split_ifs
      · dsimp only
        rw [h.read, armWriteWord, armWriteWord, h.mem]
        exact ih _ (h.afterWrite _).2
      · exact ih address h

/-- One transfer whose read succeeds forgets the local. -/
theorem transfer {s t : LdmState} (h : Twin s.core t.core) (haddress : s.address = t.address)
    (hread : (armReadWord s.core s.address).isSome = true) (mask : Word) (reg : Byte) :
    Twin (s.transfer mask reg).core (t.transfer mask reg).core := by
  obtain ⟨value, hvalue⟩ := Option.isSome_iff_exists.mp hread
  have hvalue' : armReadWord t.core t.address = some value := by
    rw [← haddress, ← h.readWord, hvalue]
  unfold LdmState.transfer
  dsimp only
  rw [hvalue, hvalue']
  exact h.write _ _

/-- The loop of LDM, when every word that it reads is in memory.  The locals of the two runs may
differ before the first read. -/
theorem ldm (regList : Word) : ∀ (is : List ℕ) {s t : LdmState}, Twin s.core t.core →
    s.address = t.address →
    (∀ k < countListed regList is,
      (armReadWord s.core (s.address + BitVec.ofNat 32 (4 * k))).isSome = true) →
    Twin (ldmLoop regList is s).core (ldmLoop regList is t).core := by
  intro is
  induction is with
  | nil => exact fun h _ _ => h
  | cons i is ih =>
      intro s t h haddress hread
      rw [countListed_cons] at hread
      rw [ldmLoop, ldmLoop]
      split_ifs with hbit
      · rw [if_pos hbit] at hread
        have hfirst : (armReadWord s.core s.address).isSome = true := by
          simpa using hread 0 (Nat.succ_pos _)
        refine ih (h.transfer haddress hfirst _ _) (congrArg (· + 4) haddress) fun k hk => ?_
        have hnext := hread (k + 1) (Nat.succ_lt_succ hk)
        rw [Nat.mul_add, Nat.add_comm, BitVec.ofNat_add, ← BitVec.add_assoc] at hnext
        exact hnext
      · rw [if_neg hbit] at hread
        exact ih h haddress hread

end Twin

/-- Every word an LDM of the step reads is in memory: the listed registers take consecutive words
from `blockStart`. -/
def LdmReadsInside (p : ArmCore) : Prop :=
  ∀ ins, (armFetch p).1 = some ins → conditionPassed p.fetched ins ≠ 0 →
    (getBits ins 27 25).toNat = 4 → getBit ins 20 = 1 →
    ∀ k < countListed (getBits ins 15 0) (List.range 16),
      (armReadWord p.fetched (blockStart p.fetched ins + BitVec.ofNat 32 (4 * k))).isSome = true

namespace Twin

variable {p q : ArmCore}

/-- A multiple transfer.  The assertion compares addresses, and so both end the process or neither
does. -/
theorem loadStoreMultiple (h : Twin p q) (ins junk junk' : Word)
    (hread : getBit ins 20 = 1 → ∀ k < countListed (getBits ins 15 0) (List.range 16),
      (armReadWord p (blockStart p ins + BitVec.ofNat 32 (4 * k))).isSome = true) :
    Option.Rel TwinResult (armLoadStoreMultiple p ins junk)
      (armLoadStoreMultiple q ins junk') := by
  obtain ⟨hstart, hend, hcore⟩ := h.startEnd (getBit ins 24) (getBit ins 23)
    (getBits ins 19 16) (getBits ins 15 0) (getBit ins 21)
  have hmem : (startEndAdresse p (getBit ins 24) (getBit ins 23) (getBits ins 19 16)
      (getBits ins 15 0) (getBit ins 21)).core.mem = p.mem := by
    unfold startEndAdresse
    dsimp only
    split_ifs <;> rfl
  unfold armLoadStoreMultiple
  dsimp only
  rw [blockStart] at hread
  generalize startEndAdresse p (getBit ins 24) (getBit ins 23) (getBits ins 19 16)
    (getBits ins 15 0) (getBit ins 21) = a at *
  generalize startEndAdresse q (getBit ins 24) (getBit ins 23) (getBits ins 19 16)
    (getBits ins 15 0) (getBit ins 21) = b at *
  generalize getBits ins 15 0 = regList at *
  have hcount : countListed regList (List.range 16) = _ := countListed_range_succ regList 15
  by_cases hstore : getBit ins 20 = 0
  · rw [if_pos hstore, if_pos hstore, hstart]
    exact Option.Rel.some ⟨rfl, stm regList _ _ hcore⟩
  -- an LDM: the loop over R0 … R14, then R15 with its assertion
  have hread' : ∀ k < countListed regList (List.range 16),
      (armReadWord a.core (a.startAdr + BitVec.ofNat 32 (4 * k))).isSome = true := by
    intro k hk
    rw [armReadWord, hmem]
    exact hread (getBit_ne_zero.mp hstore) k hk
  have hloop : Twin (ldmLoop regList (List.range 15) ⟨a.core, a.startAdr, junk⟩).core
      (ldmLoop regList (List.range 15) ⟨b.core, b.startAdr, junk'⟩).core :=
    ldm regList _ hcore hstart fun k hk => hread' k (by omega)
  have haddress := ldmLoop_address regList (List.range 15) ⟨a.core, a.startAdr, junk⟩
  have haddress' := ldmLoop_address regList (List.range 15) ⟨b.core, b.startAdr, junk'⟩
  have hloopMem := ldmLoop_mem regList (List.range 15) ⟨a.core, a.startAdr, junk⟩
  rw [if_neg hstore, if_neg hstore]
  generalize ldmLoop regList (List.range 15) ⟨a.core, a.startAdr, junk⟩ = s at *
  generalize ldmLoop regList (List.range 15) ⟨b.core, b.startAdr, junk'⟩ = t at *
  have hst : s.address = t.address := by
    rw [haddress, haddress', ← hstart]
  by_cases hpc : getBit regList 15 = 1
  · have hlast : (armReadWord s.core s.address).isSome = true := by
      rw [armReadWord, hloopMem, haddress]
      refine hread' (countListed regList (List.range 15)) ?_
      rw [hcount, if_pos hpc]
      exact Nat.lt_succ_self _
    have htransfer := hloop.transfer hst hlast 0xFFFFFFFE 15
    have hnext : (s.transfer 0xFFFFFFFE 15).address = (t.transfer 0xFFFFFFFE 15).address :=
      congrArg (· + 4) hst
    rw [if_pos hpc, if_pos hpc, hnext, hend]
    split_ifs
    · exact Option.Rel.some ⟨rfl, htransfer⟩
    · exact Option.Rel.none
  · rw [if_neg hpc, if_neg hpc]
    exact Option.Rel.some ⟨rfl, hloop⟩

/-! ## The other instructions -/

/-- A branch with link saves the same address. -/
theorem link (h : Twin p q) : Twin (writeLink p) (writeLink q) := by
  rw [writeLink, writeLink, h.read]
  exact h.write _ _

/-- Branches, with or without a link. -/
theorem branch (h : Twin p q) (ins : Word) : TwinResult (armBranch p ins) (armBranch q ins) := by
  unfold armBranch
  dsimp only
  rw [h.read]
  split_ifs
  · refine ⟨rfl, ?_⟩
    dsimp only
    rw [h.link.read]
    exact h.link.write _ _
  · refine ⟨rfl, ?_⟩
    dsimp only
    rw [h.read]
    exact h.write _ _
  · exact ⟨rfl, h.write _ _⟩
  · exact ⟨rfl, h.link.write _ _⟩
  · exact ⟨rfl, h⟩
  · exact ⟨rfl, h⟩

/-- Coprocessor instructions and software interrupts. -/
theorem othersSwi (h : Twin p q) (ins : Word) :
    TwinResult (armCoprocessorOthersSwi p ins) (armCoprocessorOthersSwi q ins) := by
  unfold armCoprocessorOthersSwi
  split_ifs
  · exact ⟨rfl, h⟩
  · exact ⟨rfl, h⟩

/-- MRS gives the CPSR to both, and the SPSR to none. -/
theorem miscellaneous (h : Twin p q) (ins : Word) :
    TwinResult (armMiscellaneous p ins) (armMiscellaneous q ins) := by
  unfold armMiscellaneous
  dsimp only
  rw [h.readCpsr, h.noSpsr.1, h.noSpsr.2]
  split_ifs
  · exact ⟨rfl, h.write _ _⟩
  · contradiction
  · exact ⟨rfl, h⟩

/-- **One instruction keeps twins.**  It is put together from the handlers, each of which keeps
them. -/
theorem dispatch (h : Twin p q) (ins junk junk' : Word)
    (hread : (getBits ins 27 25).toNat = 4 → getBit ins 20 = 1 →
      ∀ k < countListed (getBits ins 15 0) (List.range 16),
        (armReadWord p (blockStart p ins + BitVec.ofNat 32 (4 * k))).isSome = true) :
    Option.Rel TwinResult (dispatch p ins junk) (dispatch q ins junk') := by
  rcases category_cases ins with hcategory | hcategory | hcategory | hcategory | hcategory |
    hcategory | hcategory | hcategory
  · rw [dispatch_zero hcategory, dispatch_zero hcategory]
    split_ifs
    · exact Option.Rel.some (h.branch ins)
    · exact Option.Rel.some (h.loadStore ins)
    · exact Option.Rel.some (h.miscellaneous ins)
    · exact Option.Rel.some ⟨rfl, h⟩
    · exact Option.Rel.some (h.dataProcessing ins)
  · rw [dispatch_one hcategory, dispatch_one hcategory]
    split_ifs
    · exact Option.Rel.some ⟨rfl, h⟩
    · exact Option.Rel.some (h.msr ins)
    · exact Option.Rel.some (h.dataProcessing ins)
  · rw [dispatch_two hcategory, dispatch_two hcategory]
    exact Option.Rel.some (h.loadStore ins)
  · rw [dispatch_three hcategory, dispatch_three hcategory]
    split_ifs
    · exact Option.Rel.some (h.loadStore ins)
    · exact Option.Rel.some ⟨rfl, h⟩
    · exact Option.Rel.some (h.othersSwi ins)
  · rw [dispatch_four hcategory, dispatch_four hcategory]
    exact h.loadStoreMultiple ins junk junk' (hread hcategory)
  · rw [dispatch_five hcategory, dispatch_five hcategory]
    exact Option.Rel.some (h.branch ins)
  · rw [dispatch_six hcategory, dispatch_six hcategory]
    exact Option.Rel.some ⟨rfl, h⟩
  · rw [dispatch_seven hcategory, dispatch_seven hcategory]
    split_ifs
    · exact Option.Rel.some (h.othersSwi ins)
    · exact Option.Rel.some ⟨rfl, h⟩

/-! ## Exceptions

An entry leaves the mode without SPSRs, so here twins end and agreement begins. -/

/-- An entry writes the same `R14` and the same CPSR in both. -/
theorem entry (h : Twin p q) (link : Word) (mode bit6 : Byte) (vector : Word) :
    UserAgree (exceptionEntry p link mode bit6 vector)
      (exceptionEntry q link mode bit6 vector) where
  registers s hs := by
    rw [exceptionEntry_get, exceptionEntry_get, h.mode, h.registers s hs]
  cpsr := by rw [exceptionEntry_cpsr, exceptionEntry_cpsr, h.cpsr]
  mem := by rw [exceptionEntry_mem, exceptionEntry_mem, h.mem]
  cycleCount := by rw [exceptionEntry_cycleCount, exceptionEntry_cycleCount, h.cycleCount]

/-- An exception, up to what it does besides the entry. -/
theorem takeException (h : Twin p q) (exception : Byte) :
    UserAgree (takeException p exception) (takeException q exception) := by
  rw [takeException_eq, takeException_eq]
  unfold dataAbort fastInterruptRequest unterrupt fetchAbort undefinedUnstruction
  dsimp only
  rw [h.read]
  split
  · -- RESET writes R15, the same slot in every mode
    refine ⟨fun s hs => ?_, by simp, h.mem, h.cycleCount⟩
    rw [get_armWriteRegister, get_armWriteRegister, slot_pc, slot_pc, get_armWriteCpsr,
      get_armWriteCpsr, h.registers s hs]
  · exact h.entry _ _ _ _
  · exact h.entry _ _ _ _
  · exact h.entry _ _ _ _
  · exact h.entry _ _ _ _
  · exact h.entry _ _ _ _
  · exact h.toUserAgree

/-- An exception gives the same result in both and leaves agreement.  A software interrupt reads its
word again, which has to be in memory; it is, since it has been fetched. -/
theorem exception (h : Twin p q) (exception : Byte) (junk junk' : Word)
    (hread : exception = 8 → (armReadWord p (armReadRegister p 15 - 8)).isSome = true) :
    (armException p exception junk).1 = (armException q exception junk').1 ∧
      UserAgree (armException p exception junk).2 (armException q exception junk').2 := by
  have hother := h.takeException exception
  unfold armException
  dsimp only
  by_cases hswi : (exception.toNat : Int) = SOFTWARE_INTERRUPT
  · have height : exception = 8 := by
      rw [SOFTWARE_INTERRUPT] at hswi
      exact BitVec.eq_of_toNat_eq (by exact_mod_cast hswi)
    obtain ⟨word, hword⟩ := Option.isSome_iff_exists.mp (hread height)
    have hword' : armReadWord q (armReadRegister q 15 - 8) = some word := by
      rw [← h.readWord, ← h.read, hword]
    rw [if_pos hswi, if_pos hswi, hword, hword', h.read 0, Option.getD_some, Option.getD_some]
    split_ifs
    · exact ⟨rfl, h.toUserAgree⟩
    · exact ⟨rfl, h.registers, h.cpsr, h.mem, h.cycleCount⟩
    · exact ⟨rfl, hother⟩
  · rw [if_neg hswi, if_neg hswi]
    exact ⟨rfl, hother⟩

/-! ## One step -/

/-- Two processors in mode USR that agree are twins. -/
theorem of_userMode (hp : UserMode p) (hq : UserMode q) (h : UserAgree p q) : Twin p q where
  toUserAgree := h
  mode := hp.1.trans hq.1.symm
  decoded := (modeUpdate_of_user hp.2).trans hp.1.symm
  unbanked := by
    rw [hp.1]
    rfl

/-- Twins fetch the same word and remain twins. -/
theorem fetched (h : Twin p q) :
    (armFetch p).1 = (armFetch q).1 ∧ Twin p.fetched q.fetched := by
  have hpc : p.reg.pc = q.reg.pc := h.registers .pc trivial
  refine ⟨?_, ⟨fun s hs => ?_, by simpa using h.cpsr, h.mem, ?_⟩, by simpa using h.mode,
    by simpa using h.decoded, by simpa using h.unbanked⟩
  · exact congrArg₂ (fun mem address => memoryReadWord mem address ENDIANESS) h.mem hpc
  · rw [get_fetched, get_fetched, hpc, h.registers s hs]
  · rw [fetched_cycleCount, fetched_cycleCount, h.cycleCount]

/-- The same outcome, before `arm_exception`. -/
theorem execute (h : Twin p q) (hldm : LdmReadsInside p) (junk junk' : Word) :
    Option.Rel TwinResult (armExecuteInstruction p junk) (armExecuteInstruction q junk') := by
  obtain ⟨hword, hfetched⟩ := h.fetched
  cases hins : (armFetch p).1 with
  | none =>
      rw [armExecuteInstruction_of_abort hins,
        armExecuteInstruction_of_abort (hword.symm.trans hins)]
      exact Option.Rel.some ⟨rfl, hfetched⟩
  | some ins =>
      have hcondition : conditionPassed p.fetched ins = conditionPassed q.fetched ins := by
        simp only [conditionPassed, hfetched.readCpsr]
      rw [armExecuteInstruction_of_fetch hins,
        armExecuteInstruction_of_fetch (hword.symm.trans hins), ← hcondition]
      split_ifs with hpassed
      · exact hfetched.dispatch ins junk junk' (hldm ins hins hpassed)
      · exact Option.Rel.some ⟨rfl, hfetched⟩

end Twin

/-- When an instruction ends in a software interrupt, its word can be read again. -/
theorem swi_read_isSome {p : ArmCore} {junk : Word} {r : Int × ArmCore}
    (h : armExecuteInstruction p junk = some r) (hswi : BitVec.ofInt 8 r.1 = 8) :
    (armReadWord r.2 (armReadRegister r.2 15 - 8)).isSome = true := by
  rcases armExecuteInstruction_cases h with ⟨-, rfl⟩ | ⟨ins, hins, ⟨-, rfl⟩ | ⟨-, hdispatch⟩⟩
  · exact absurd (show BitVec.ofInt 8 PREFETCH_ABORT = 8 from hswi) (by decide)
  · exact absurd (show BitVec.ofInt 8 INTERRUPT = 8 from hswi) (by decide)
  · rw [dispatch_swi hdispatch hswi]
    exact swi_word_isSome hins

/-- **User-mode confidentiality.**  One `arm_step` on two states in mode USR that
agree on what USR can see returns the same value and leaves states that agree again,
or ends the process in both, provided no LDM of the step reads outside memory. -/
theorem userMode_confidentiality {p q : ArmCore} (hp : UserMode p) (hq : UserMode q)
    (hagree : UserAgree p q) (hldm : LdmReadsInside p) (junk junk' : Word) :
    Option.Rel (fun r s => r.1 = s.1 ∧ UserAgree r.2 s.2)
      (armStep p junk) (armStep q junk') := by
  have hexec := (Twin.of_userMode hp hq hagree).execute hldm junk junk'
  unfold armStep
  generalize hleft : armExecuteInstruction p junk = left at hexec
  generalize armExecuteInstruction q junk' = right at hexec
  cases hexec with
  | none => exact Option.Rel.none
  | some htwin =>
      obtain ⟨hresult, hstates⟩ := htwin
      refine Option.Rel.some ?_
      dsimp only
      rw [← hresult]
      split_ifs
      · exact hstates.exception _ junk junk' (swi_read_isSome hleft)
      · exact ⟨hresult, hstates.toUserAgree⟩

/-- `LDMIA r1, {r2, r3}` in mode USR, with the SPSRs as given. -/
def ldmSample (spsr : Fin 5 → Word) : ArmCore :=
  let p := ArmCore.load 0x10 [0xE891000C]
  { p with reg := { p.reg with spsr := spsr } }

/-- Two runs of the sample, with different SPSRs and different contents of the
local. -/
theorem userMode_confidentiality_ldm :
    Option.Rel (fun r s => r.1 = s.1 ∧ UserAgree r.2 s.2)
      (armStep (ldmSample fun _ => 0) 0) (armStep (ldmSample fun _ => 0xFF) 1) := by
  have hagree : UserAgree (ldmSample fun _ => 0) (ldmSample fun _ => 0xFF) := by
    refine ⟨fun s _ => ?_, rfl, rfl, rfl⟩
    cases s <;> rfl
  have hldm : LdmReadsInside (ldmSample fun _ => 0) := by
    intro ins hins _ _ _
    have hword : (armFetch (ldmSample fun _ => 0)).1 = some 0xE891000C := by decide
    rw [hword] at hins
    cases hins
    decide
  exact userMode_confidentiality ⟨rfl, rfl⟩ ⟨rfl, rfl⟩ hagree hldm 0 1

end ArmSimulator
