import ArmSimulator.Instruction

/-!
# Data processing without the S bit

The comparisons are not reached without the S bit: both categories give their numbers to other
handlers first (`opcode_of_dataProcessing`).  What is reached writes `Rd` and does nothing else
(`armDataProcessingShift_writes`), ADC included, which writes it twice; the frame of an instruction
follows from that one equation.

`WritesOnlyRd` has the frame and the value: the call returns 0, no status register, no other
register and no byte of memory changes, and what `Rd` gets is the operation of the opcode on `Rn`
and the shifter operand.  The three opcodes with a carry have the frame and no value here; theirs is
in `CarryArithmetic`.  A destination that the mode does not have is not written, and then nothing
changes at all.
-/

namespace ArmSimulator

/-! ## The words concerned -/

/-- The words that `arm_execute_instruction` gives to `arm_data_processing_shift`. -/
def IsDataProcessing (ins : Word) : Prop :=
  ((getBits ins 27 25).toNat = 0 ∧ getBits ins 27 20 ≠ 18 ∧ getBits ins 7 4 ≠ 0b1011 ∧
      ¬ (getBits ins 24 23 = 2 ∧ getBit ins 20 = 0) ∧ ¬ (getBit ins 4 = 1 ∧ getBit ins 7 = 1)) ∨
    ((getBits ins 27 25).toNat = 1 ∧ ¬ (getBits ins 24 23 = 2 ∧ getBits ins 21 20 = 0) ∧
      ¬ (getBits ins 21 20 = 2 ∧ getBits ins 24 23 = 2))

instance decidableIsDataProcessing (ins : Word) : Decidable (IsDataProcessing ins) :=
  inferInstanceAs (Decidable (_ ∨ _))

/-- The operation of an opcode on `Rn` and the shifter operand; none for the three with carry and
the comparisons.  MOV and MVN leave `Rn` out. -/
def operation : ℕ → Option (Word → Word → Word)
  | 0 => some fun rn operand => rn &&& operand
  | 1 => some fun rn operand => rn ^^^ operand
  | 2 => some fun rn operand => rn - operand
  | 3 => some fun rn operand => operand - rn
  | 4 => some fun rn operand => rn + operand
  | 12 => some fun rn operand => rn ||| operand
  | 13 => some fun _ operand => operand
  | 14 => some fun rn operand => rn &&& ~~~operand
  | 15 => some fun _ operand => ~~~operand
  | _ => none

/-- The outcome `r` of a data processing instruction in the state `p` is a write of `Rd` and
nothing else. -/
structure WritesOnlyRd (p : ArmCore) (ins : Word) (r : Int × ArmCore) : Prop where
  result : r.1 = 0
  cpsr : r.2.reg.cpsr = p.reg.cpsr
  spsr : r.2.reg.spsr = p.reg.spsr
  mode : r.2.reg.currentMode = p.reg.currentMode
  mem : r.2.mem = p.mem
  others : ∀ s, slot (u8 (getBits ins 15 12)) p.reg.currentMode ≠ some s →
    r.2.reg.get s = p.reg.get s
  value : ∀ f s, operation (getBits ins 24 21).toNat = some f →
    slot (u8 (getBits ins 15 12)) p.reg.currentMode = some s →
      r.2.reg.get s = f (armReadRegister p (u8 (getBits ins 19 16))) (carry ins p).2

section Words

variable {p : ArmCore} {ins junk : Word}

theorem dispatch_dataProcessing (h : IsDataProcessing ins) :
    dispatch p ins junk = some (armDataProcessingShift p ins) := by
  rcases h with ⟨hcategory, hbranch, hhalf, hmisc, hundefined⟩ | ⟨hcategory, hundefined, hmsr⟩
  · rw [dispatch_zero hcategory, if_neg hbranch, if_neg hhalf, if_neg hmisc, if_neg hundefined]
  · rw [dispatch_one hcategory, if_neg hundefined, if_neg hmsr]

/-- Without the S bit the comparisons have gone to other handlers. -/
theorem opcode_of_dataProcessing (h : IsDataProcessing ins) (hs : getBit ins 20 = 0) :
    (getBits ins 24 21).toNat / 4 ≠ 2 := by
  have hbit : (getBit ins 20).toNat = 0 := congrArg BitVec.toNat hs
  have hcases : getBits ins 21 20 = 0 ∨ getBits ins 21 20 = 2 := by
    rw [← BitVec.toNat_inj, ← BitVec.toNat_inj]
    simp only [toNat_getBits, toNat_getBit, BitVec.ofNat_eq_ofNat, BitVec.toNat_ofNat] at hbit ⊢
    omega
  intro hopcode
  have hfield : getBits ins 24 23 = 2 := by
    rw [← BitVec.toNat_inj]
    simp only [toNat_getBits, BitVec.ofNat_eq_ofNat, BitVec.toNat_ofNat] at hopcode ⊢
    omega
  rcases h with ⟨-, -, -, hmisc, -⟩ | ⟨-, hundefined, hmsr⟩
  · exact hmisc ⟨hfield, hs⟩
  · exact hcases.elim (fun h => hundefined ⟨hfield, h⟩) fun h => hmsr ⟨h, hfield⟩

end Words

/-! ## The write

One register write, also where the code writes twice. -/

/-- Of two writes of a register the second counts. -/
theorem armWriteRegister_twice (p : ArmCore) (reg : Byte) (value value' : Word) :
    armWriteRegister (armWriteRegister p reg value) reg value' = armWriteRegister p reg value' := by
  have hreg : (armWriteRegister (armWriteRegister p reg value) reg value').reg =
      (armWriteRegister p reg value').reg := by
    refine Registers.ext_slots (fun s => ?_) ?_ ?_ ?_
    · rw [get_armWriteRegister, get_armWriteRegister, get_armWriteRegister,
        armWriteRegister_currentMode]
      split_ifs <;> rfl
    · rw [armWriteRegister_cpsr, armWriteRegister_cpsr, armWriteRegister_cpsr]
    · rw [armWriteRegister_spsr, armWriteRegister_spsr, armWriteRegister_spsr]
    · rw [armWriteRegister_currentMode, armWriteRegister_currentMode,
        armWriteRegister_currentMode]
  exact congrArg (fun reg => { p with reg := reg }) hreg

theorem opcodeResult_of_operation {opcode : ℕ} {f : Word → Word → Word}
    (h : operation opcode = some f) (rn operand c : Word) :
    opcodeResult opcode rn operand c = f rn operand := by
  unfold operation at h
  split at h <;> cases h <;> rfl

open DataProcessing in
/-- ADC without the S bit: the second addition writes over the first. -/
theorem adc_writes (p : ArmCore) (op1 op2 : Word) (rd : Byte) {setCond : Word} (carryIn : Word)
    (h : setCond ≠ 1) :
    ∃ value, adc p op1 op2 rd setCond carryIn = (0, armWriteRegister p rd value) := by
  have hadd : ∀ (q : ArmCore) (a b : Word), add q a b rd setCond =
      (0, armWriteRegister q rd (a + b)) := by
    intro q a b
    rw [add, writeResult_of_ne_one q _ rd _ h]
  rw [adc, hadd, if_pos rfl, hadd]
  exact ⟨_, congrArg (Prod.mk 0) (armWriteRegister_twice p rd _ _)⟩

/-- **Without the S bit `Rd` is written**, with the result of the operation if the opcode has
one. -/
theorem armDataProcessingShift_writes (p : ArmCore) {ins : Word} (hs : getBit ins 20 = 0)
    (hopcode : (getBits ins 24 21).toNat / 4 ≠ 2) :
    ∃ value, armDataProcessingShift p ins =
        (0, armWriteRegister p (u8 (getBits ins 15 12)) value) ∧
      ∀ f, operation (getBits ins 24 21).toNat = some f →
        value = f (armReadRegister p (u8 (getBits ins 19 16))) (carry ins p).2 := by
  have hclear : getBit ins 20 ≠ 1 := by
    rw [hs]
    decide
  by_cases hadc : (getBits ins 24 21).toNat = 5
  · obtain ⟨value, hvalue⟩ := adc_writes p (armReadRegister p (u8 (getBits ins 19 16)))
      (carry ins p).2 (u8 (getBits ins 15 12)) (carry ins p).1 hclear
    refine ⟨value, ?_, fun f hf => ?_⟩
    · rw [← hvalue, armDataProcessingShift, hadc]
      rfl
    · rw [hadc] at hf
      cases hf
  · have hlt : (getBits ins 24 21).toNat < 16 := by
      rw [toNat_getBits]
      exact Nat.mod_lt _ (by decide)
    have hcommon : IsCommonOpcode (getBits ins 24 21).toNat := by
      refine ⟨?_, hlt⟩
      simp only [List.mem_cons, List.not_mem_nil, or_false]
      omega
    rw [armDataProcessingShift_common p hcommon, writeResult_of_ne_one p _ _ _ hclear]
    exact ⟨_, rfl, fun f hf => opcodeResult_of_operation hf _ _ _⟩

/-- **Data processing without the S bit is pure**: for every state and every word whose condition
holds and which `arm_execute_instruction` gives to `arm_data_processing_shift`, the call returns 0
and `Rd` is all that it writes. -/
theorem dataProcessing_pure {p : ArmCore} {ins junk : Word} (hins : Executes p ins)
    (hdata : IsDataProcessing ins) (hs : getBit ins 20 = 0) :
    armExecuteInstruction p junk = some (armDataProcessingShift p.fetched ins) ∧
      WritesOnlyRd p.fetched ins (armDataProcessingShift p.fetched ins) := by
  obtain ⟨value, hwrites, hvalue⟩ :=
    armDataProcessingShift_writes p.fetched hs (opcode_of_dataProcessing hdata hs)
  refine ⟨hins.dispatched.trans (dispatch_dataProcessing hdata), ?_⟩
  rw [hwrites]
  exact {
    result := rfl
    cpsr := armWriteRegister_cpsr ..
    spsr := armWriteRegister_spsr ..
    mode := armWriteRegister_currentMode ..
    mem := rfl
    others := fun s hs => (get_armWriteRegister ..).trans (if_neg hs)
    value := fun f s hf hslot =>
      ((get_armWriteRegister ..).trans (if_pos hslot)).trans (hvalue f hf) }

/-- `SUB r0, r1, r2` at address 0. -/
theorem dataProcessing_pure_sub :
    armExecuteInstruction (ArmCore.load 0x1d3 [0xE0410002]) 0 =
        some (armDataProcessingShift (ArmCore.load 0x1d3 [0xE0410002]).fetched 0xE0410002) ∧
      WritesOnlyRd (ArmCore.load 0x1d3 [0xE0410002]).fetched 0xE0410002
        (armDataProcessingShift (ArmCore.load 0x1d3 [0xE0410002]).fetched 0xE0410002) :=
  dataProcessing_pure ⟨by decide, by decide⟩ (by decide) (by decide)

end ArmSimulator
