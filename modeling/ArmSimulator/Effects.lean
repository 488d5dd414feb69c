import ArmSimulator.Instruction
import Mathlib.Logic.Relation

/-!
# What an instruction can do to the state

Every handler but one changes the state only by a sequence of four kinds of change (`Effect`): a
register write in the current mode, a CPSR write that keeps bits 27 … 0, a change of memory, and the
restoration of the CPSR from the SPSR of a mode that has one.  The exception is MSR.

`dispatch_effects` is the inversion lemma for a whole instruction; an invariant of the processor is
proved once for each kind of effect, and MSR is looked at separately.  The rule for that is
`Effects.rel`: a relation between the state before and the state after that is reflexive, and that
one effect extends as long as an invariant holds, holds of the whole instruction.

The lemmas go up the call graph: the flag updates, the body shared by the opcodes, the opcodes, the
accesses, the loops, the handlers.  Each cites the lemma of the function it calls and unfolds no
other.  Integrity of user mode, the mode invariant, and the frames of memory and of the SPSRs are
all derived from here, so a new handler in the source needs one lemma in this file and none in
those.
-/

namespace ArmSimulator

/-- One change of the state by an instruction other than MSR. -/
inductive Effect (p : ArmCore) : ArmCore → Prop
  /-- A register write in the current mode. -/
  | register (reg : Byte) (value : Word) : Effect p (armWriteRegister p reg value)
  /-- A CPSR write that changes nothing but bits 31 … 28. -/
  | flags (cpsr : Word) (h : BitField.SameBelow 28 cpsr p.reg.cpsr) :
      Effect p (armWriteCpsr p cpsr)
  /-- Stores. -/
  | memory (mem : Memory) : Effect p { p with mem := mem }
  /-- An exception return. -/
  | restore (h : armCurrentModeHasSpsr p = true) :
      Effect p (armWriteCpsr p (armReadSpsr p))

/-- Any number of changes, one after the other. -/
def Effects : ArmCore → ArmCore → Prop := Relation.ReflTransGen Effect

namespace Effects

variable {p q r : ArmCore}

/-- An instruction may do nothing. -/
@[refl] theorem refl (p : ArmCore) : Effects p p := Relation.ReflTransGen.refl

/-- The effects of two steps are those of the first and then those of the second. -/
theorem trans (h₁ : Effects p q) (h₂ : Effects q r) : Effects p r :=
  Relation.ReflTransGen.trans h₁ h₂

theorem single (h : Effect p q) : Effects p q := Relation.ReflTransGen.single h

/-- A register write is one effect. -/
theorem register (p : ArmCore) (reg : Byte) (value : Word) :
    Effects p (armWriteRegister p reg value) := single (.register reg value)

/-- The rule for a relation between the two ends: reflexive, and extended by one effect at a time
under an invariant.  The invariant is carried along because the effects of an instruction depend on
the mode they find. -/
theorem rel {P : ArmCore → Prop} (hstep : ∀ a b, P a → Effect a b → P b)
    (h : Effects p q) (hp : P p) : P q := by
  induction h with
  | refl => exact hp
  | tail _ hab ih => exact hstep _ _ ih hab

end Effects

/-! ## Flags

The flag updates write bits 31 … 28 of the CPSR, each with a word that agrees below them. -/

/-- Setting flags leaves the bits below them: the mode and the interrupt masks. -/
theorem nzcCpsr_sameBelow (cpsr result c : Word) :
    BitField.SameBelow 28 (nzcCpsr cpsr result c) cpsr := by
  apply BitField.SameBelow.and_or
  · decide
  · intro i hi
    simp [hi]

/-- The same for the overflow flag. -/
theorem vCpsr_sameBelow (cpsr vFlag : Word) :
    BitField.SameBelow 28 (vCpsr cpsr vFlag) cpsr := by
  apply BitField.SameBelow.and_or
  · decide
  · intro i hi
    simp [hi]

/-- The update of N, Z and C is one effect: the mask of the code keeps the 28 low bits. -/
theorem nzcShifftercarryUpdate_effects (p : ArmCore) (result c : Word) :
    Effects p (nzcShifftercarryUpdate p result c) :=
  Effects.single (.flags _ (nzcCpsr_sameBelow _ _ _))

/-- The flag update of the arithmetic opcodes is two effects. -/
theorem arithmeticFlags_effects (p : ArmCore) (result cFlag vFlag : Word) :
    Effects p (arithmeticFlags p result cFlag vFlag) :=
  (nzcShifftercarryUpdate_effects p result cFlag).trans
    (Effects.single (.flags _ (vCpsr_sameBelow _ _)))

/-! ## Data processing -/

/-- The body of the opcodes: a register write, and then an exception return, a flag update or
nothing. The restoration is an effect since the code has tested for an SPSR. -/
theorem writeResult_effects (p : ArmCore) (result : Word) (rd : Byte) (setCond : Word)
    {updateFlags : ArmCore → ArmCore} (hflags : ∀ q, Effects q (updateFlags q)) :
    Effects p (writeResult p result rd setCond updateFlags).2 := by
  have hwrite := Effects.register p rd result
  unfold writeResult
  dsimp only
  split_ifs with hdest hspsr hset
  · exact hwrite.trans (Effects.single (.restore hspsr))
  · exact hwrite
  · exact hwrite.trans (hflags _)
  · exact hwrite

open DataProcessing in
/-- An addition writes its result and sets the flags, or returns from an exception. -/
theorem add_effects (p : ArmCore) (op1 op2 : Word) (rd : Byte) (setCond : Word) :
    Effects p (add p op1 op2 rd setCond).2 :=
  writeResult_effects p _ rd setCond fun _ => arithmeticFlags_effects _ _ _ _

open DataProcessing in
/-- ADC adds twice, so it has the effects of two additions. -/
theorem adc_effects (p : ArmCore) (op1 op2 : Word) (rd : Byte) (setCond carryIn : Word) :
    Effects p (adc p op1 op2 rd setCond carryIn).2 := by
  unfold adc
  dsimp only
  split_ifs
  · exact (add_effects p op1 op2 rd setCond).trans (add_effects _ _ _ _ _)
  · exact add_effects p op1 op2 rd setCond

open DataProcessing in
/-- TEQ goes through the code of EOR and has its effects, a write of the register included. -/
theorem teq_effects (p : ArmCore) (op1 op2 : Word) (rd : Byte) (c : Word) :
    Effects p (teq p op1 op2 rd c).2 :=
  (writeResult_effects p (op1 ^^^ op2) rd 1 fun _ =>
    nzcShifftercarryUpdate_effects _ _ _).trans (nzcShifftercarryUpdate_effects _ _ _)

/-- Data processing, by its opcode. -/
theorem armDataProcessingShift_effects (p : ArmCore) (ins : Word) :
    Effects p (armDataProcessingShift p ins).2 := by
  have hlogic : ∀ (result c : Word) (q : ArmCore),
      Effects q (nzcShifftercarryUpdate q result c) :=
    fun result c q => nzcShifftercarryUpdate_effects q result c
  have harith : ∀ (result c v : Word) (q : ArmCore),
      Effects q (arithmeticFlags q result c v) :=
    fun result c v q => arithmeticFlags_effects q result c v
  unfold armDataProcessingShift
  dsimp only
  split
  · exact writeResult_effects _ _ _ _ (hlogic _ _)
  · exact writeResult_effects _ _ _ _ (hlogic _ _)
  · exact writeResult_effects _ _ _ _ (harith _ _ _)
  · exact writeResult_effects _ _ _ _ (harith _ _ _)
  · exact add_effects _ _ _ _ _
  · exact adc_effects _ _ _ _ _ _
  · exact writeResult_effects _ _ _ _ (harith _ _ _)
  · exact writeResult_effects _ _ _ _ (harith _ _ _)
  · exact nzcShifftercarryUpdate_effects _ _ _
  · exact teq_effects _ _ _ _ _
  · exact arithmeticFlags_effects _ _ _ _
  · exact arithmeticFlags_effects _ _ _ _
  · exact writeResult_effects _ _ _ _ (hlogic _ _)
  · exact writeResult_effects _ _ _ _ (hlogic _ _)
  · exact writeResult_effects _ _ _ _ (hlogic _ _)
  · exact writeResult_effects _ _ _ _ (hlogic _ _)
  · exact Effects.refl p

/-! ## Loads and stores -/

/-- A store that is refused is no effect, one that is carried out is one. -/
theorem afterWrite_effects (p : ArmCore) (mem : Option Memory) :
    Effects p (p.afterWrite mem).2 := by
  cases mem with
  | none => exact Effects.refl p
  | some mem => exact Effects.single (.memory mem)

/-- A load is a register write, and a store a change of memory; what is refused is neither. -/
theorem processMemoryAccess_effects (p : ArmCore) (address loadStore b rd : Word) :
    Effects p (processMemoryAccess p address loadStore b rd).2 := by
  unfold processMemoryAccess
  split_ifs
  · exact afterWrite_effects p _
  · exact afterWrite_effects p _
  · cases armReadWord p address with
    | none => exact Effects.refl p
    | some value => exact Effects.register p _ _
  · cases armReadByte p address with
    | none => exact Effects.refl p
    | some value => exact Effects.register p _ _

/-- An access to a half word: one register or the memory. -/
theorem processMemoryAccessHalf_effects (p : ArmCore) (address loadStore rd : Word) :
    Effects p (processMemoryAccessHalf p address loadStore rd).2 := by
  unfold processMemoryAccessHalf
  split_ifs
  · exact afterWrite_effects p _
  · cases armReadHalf p address with
    | none => exact Effects.refl p
    | some value => exact Effects.register p _ _

/-- A write back is the write of a general register. -/
theorem writeBack_effects (p : ArmCore) (enabled : Bool) (rn address : Word) :
    Effects p (writeBack p enabled rn address) := by
  cases enabled
  · exact Effects.refl p
  · exact Effects.register p _ _

/-- LDR and STR: the write-back, then the access. -/
theorem handleMemoryOperation_effects (p : ArmCore) (ins : Word) (write : Bool) :
    Effects p (handleMemoryOperation p ins write).2 := by
  unfold handleMemoryOperation
  dsimp only
  cases memoryOperationOffset p ins with
  | none => exact Effects.refl p
  | some offset =>
      exact (writeBack_effects p write _ _).trans (processMemoryAccess_effects _ _ _ _ _)

/-- Address, write back and access of a half word transfer. -/
theorem handleCommonLdrhStrh_effects (p : ArmCore) (ins offset : Word) (write : Bool) :
    Effects p (handleCommonLdrhStrh p ins offset write).2 :=
  (writeBack_effects p write _ _).trans (processMemoryAccessHalf_effects _ _ _ _)

/-- The single transfers. -/
theorem armLoadStore_effects (p : ArmCore) (ins : Word) :
    Effects p (armLoadStore p ins).2 := by
  unfold armLoadStore
  dsimp only
  split_ifs
  · rw [handleLdrStr_eq]
    split_ifs
    · exact Effects.refl p
    · exact handleMemoryOperation_effects p ins _
  · unfold handleLdrhStrh
    split
    all_goals first
      | exact handleCommonLdrhStrh_effects p ins _ _
      | exact Effects.refl p
  · exact Effects.refl p

/-- `start_end_adresse` writes one register. -/
theorem startEndAdresse_effects (p : ArmCore) (pBit uBit rn regList w : Word) :
    Effects p (startEndAdresse p pBit uBit rn regList w).core := by
  unfold startEndAdresse
  dsimp only
  split_ifs <;> exact Effects.register p _ _

/-- The loop of STM, one store after the other. -/
theorem stmLoop_effects (regList : Word) :
    ∀ (is : List ℕ) (p : ArmCore) (address : Word),
      Effects p (stmLoop regList is p address) :=
  stmLoop_rel Effects.refl (fun _ _ _ => Effects.trans) (fun p _ _ => afterWrite_effects p _)
    regList

/-- One transfer of an LDM writes one register, whether the read has succeeded or not. -/
theorem transfer_effects (s : LdmState) (mask : Word) (reg : Byte) :
    Effects s.core (s.transfer mask reg).core :=
  Effects.register s.core reg _

/-- The loop of LDM, one register write after the other. -/
theorem ldmLoop_effects (regList : Word) :
    ∀ (is : List ℕ) (s : LdmState), Effects s.core (ldmLoop regList is s).core :=
  ldmLoop_rel Effects.refl (fun _ _ _ => Effects.trans) transfer_effects regList

/-- A multiple transfer that does not fail its assertion returns 0. -/
theorem armLoadStoreMultiple_effects {p : ArmCore} {ins junk : Word} {r : Int × ArmCore}
    (h : armLoadStoreMultiple p ins junk = some r) : r.1 = 0 ∧ Effects p r.2 := by
  unfold armLoadStoreMultiple at h
  dsimp only at h
  have hstart := startEndAdresse_effects p (getBit ins 24) (getBit ins 23)
    (getBits ins 19 16) (getBits ins 15 0) (getBit ins 21)
  generalize startEndAdresse p (getBit ins 24) (getBit ins 23) (getBits ins 19 16)
    (getBits ins 15 0) (getBit ins 21) = adr at h hstart
  have hloop := hstart.trans
    (ldmLoop_effects (getBits ins 15 0) (List.range 15) ⟨adr.core, adr.startAdr, junk⟩)
  split_ifs at h with hstm hpc hassert <;> cases h
  · exact ⟨rfl, hstart.trans (stmLoop_effects _ _ _ _)⟩
  · exact ⟨rfl, hloop.trans (transfer_effects _ _ _)⟩
  · exact ⟨rfl, hloop⟩

/-! ## Branches and MRS -/

/-- A branch writes `R15`, and `R14` before it if there is a link. -/
theorem armBranch_effects (p : ArmCore) (ins : Word) : Effects p (armBranch p ins).2 := by
  unfold armBranch
  dsimp only
  split_ifs
  · exact (Effects.register p _ _).trans (Effects.register _ _ _)
  · exact Effects.register p _ _
  · exact Effects.register p _ _
  · exact (Effects.register p _ _).trans (Effects.register _ _ _)
  · exact Effects.refl p
  · exact Effects.refl p

/-- MRS writes one register. -/
theorem armMiscellaneous_effects (p : ArmCore) (ins : Word) :
    Effects p (armMiscellaneous p ins).2 := by
  unfold armMiscellaneous
  dsimp only
  split_ifs
  · exact Effects.register p _ _
  · exact Effects.register p _ _
  · exact Effects.refl p

/-- `arm_coprocessor_others_swi` changes nothing. -/
@[simp] theorem armCoprocessorOthersSwi_snd (p : ArmCore) (ins : Word) :
    (armCoprocessorOthersSwi p ins).2 = p := by
  unfold armCoprocessorOthersSwi
  split_ifs <;> rfl

/-! ## A whole instruction -/

/-- **What one instruction can do**: MSR, or a sequence of effects.  Invariants are proved for one
effect, and reach every instruction by this. -/
theorem dispatch_effects {p : ArmCore} {ins junk : Word} {r : Int × ArmCore}
    (h : dispatch p ins junk = some r) :
    (IsMsr ins ∧ r = armDataProcessingImmediateMsr p ins) ∨ Effects p r.2 := by
  cases handled_of_dispatch h with
  | undefined => exact Or.inr (Effects.refl p)
  | interrupt => exact Or.inr (Effects.refl p)
  | branch => exact Or.inr (armBranch_effects p ins)
  | miscellaneous => exact Or.inr (armMiscellaneous_effects p ins)
  | dataProcessing => exact Or.inr (armDataProcessingShift_effects p ins)
  | msr hmsr => exact Or.inl ⟨hmsr, rfl⟩
  | halfWord => exact Or.inr (armLoadStore_effects p ins)
  | single => exact Or.inr (armLoadStore_effects p ins)
  | multiple _ hmultiple => exact Or.inr (armLoadStoreMultiple_effects hmultiple).2
  | others =>
      rw [armCoprocessorOthersSwi_snd]
      exact Or.inr (Effects.refl p)

end ArmSimulator
