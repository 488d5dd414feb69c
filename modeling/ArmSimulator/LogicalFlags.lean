import ArmSimulator.ArithmeticFlags
import ArmSimulator.Comparisons

/-!
# The flags of the logical opcodes

The logical opcodes set N and Z from the result and C from the shifter, and keep V; one function
writes the three (`logicalFlags_nzcCpsr`).  Three things go wrong.

* `bic` takes bit 28 of its result for the carry.
* `teq` takes the value that `eor` *returns*, 0 or an exception number, for the result.
* With a destination, a result that `Rd` then reads as `R15` reads is taken for a jump, and the
  status word is the one that is restored.

`LogicalFlags` is the specification of a status word: three flags, and all bits below them as they
were, V included.  TST goes straight through the function that writes them and is always right.  The
six opcodes with a destination are the common body with a carry (`bodyExact_iff`), which for BIC is
the wrong bit.  For TEQ everything depends on the number that comes back from `eor`: it is 0 unless
a jump was not allowed, so the flags are mostly those of 0 (`teqExact_iff`).
-/

namespace ArmSimulator

/-! ## The opcodes -/

/-- The logical opcodes. -/
inductive LogicalOpcode
  | and | eor | tst | teq | orr | mov | bic | mvn
  deriving DecidableEq, Repr

namespace LogicalOpcode

/-- The number of an opcode, bits 24 … 21. -/
def code : LogicalOpcode → ℕ
  | and => 0
  | eor => 1
  | tst => 8
  | teq => 9
  | orr => 12
  | mov => 13
  | bic => 14
  | mvn => 15

/-- The result. -/
def result (a b : Word) : LogicalOpcode → Word
  | and | tst => a &&& b
  | eor | teq => a ^^^ b
  | orr => a ||| b
  | mov => b
  | bic => a &&& ~~~b
  | mvn => ~~~b

end LogicalOpcode

/-- The status word `after` has the flags of the logical result `result` and the carry `c`, and is
otherwise `cpsr`.  V is among the bits that are kept. -/
structure LogicalFlags (cpsr result : Word) (c : Bool) (after : Word) : Prop where
  n : after.getLsbD N = result.getLsbD 31
  z : after.getLsbD Z = decide (result = 0)
  c : after.getLsbD C = c
  rest : BitField.SameBelow 29 after cpsr

/-! ## The flag update -/

section Update

variable (cpsr result : Word) (c : Bool)

/-- `nzc_shifftercarry_update` computes the flags of a logical opcode. -/
theorem logicalFlags_nzcCpsr : LogicalFlags cpsr result c (nzcCpsr cpsr result (truth c)) where
  n := getLsbD_nzcCpsr cpsr result c N
  z := getLsbD_nzcCpsr cpsr result c Z
  c := getLsbD_nzcCpsr cpsr result c C
  rest := fun i hi => by
    rw [getLsbD_nzcCpsr, N, Z, C, if_neg (by omega), if_neg (by omega), if_neg (by omega)]

end Update

/-! ## The calls

What each opcode hands to the flag update. -/

/-- The carry that the code gives to the flag update of an opcode with a destination. -/
def LogicalOpcode.codeCarry (a b : Word) (c : Bool) : LogicalOpcode → Bool
  | bic => (LogicalOpcode.bic.result a b).getLsbD 28
  | _ => c

section Calls

variable (p : ArmCore) {ins : Word}

/-- With the S bit, six opcodes are the common body. -/
theorem armDataProcessingShift_logical {opcode : LogicalOpcode}
    (hcode : (getBits ins 24 21).toNat = opcode.code) (hs : getBit ins 20 = 1)
    (hne : opcode ≠ .tst ∧ opcode ≠ .teq) :
    armDataProcessingShift p ins =
      writeResult p (opcode.result (armReadRegister p (u8 (getBits ins 19 16))) (carry ins p).2)
        (u8 (getBits ins 15 12)) 1 fun q =>
          nzcShifftercarryUpdate q
            (opcode.result (armReadRegister p (u8 (getBits ins 19 16))) (carry ins p).2)
            (truth (opcode.codeCarry (armReadRegister p (u8 (getBits ins 19 16))) (carry ins p).2
              (shifterCarry ins p))) := by
  rw [armDataProcessingShift, hcode, hs, carry_fst]
  cases opcode with
  | and | eor | orr | mov | mvn => rfl
  | bic =>
      dsimp only [LogicalOpcode.code]
      rw [DataProcessing.bic, getBit_eq_truth]
      rfl
  | tst => exact absurd rfl hne.1
  | teq => exact absurd rfl hne.2

/-- The status word after the common body. -/
theorem cpsr_writeResult (result c : Word) (rd : Byte) :
    (writeResult p result rd 1 fun q => nzcShifftercarryUpdate q result c).2.reg.cpsr =
      if ReadsAsPc p rd result then statusAfterJump p else nzcCpsr p.reg.cpsr result c := by
  have hkept := armWriteRegister_cpsr p rd result
  rw [writeResult_one, statusAfterJump]
  split_ifs
  · rfl
  · exact hkept
  · exact congrArg (nzcCpsr · result c) hkept

/-- What `eor` returns to `teq`: an exception number if a jump is not allowed. -/
def teqCode (p : ArmCore) (rd : Byte) (result : Word) : Int :=
  if ReadsAsPc p rd result ∧ ¬ armCurrentModeHasSpsr p then UNDEFINED_INSTRUCTION else 0

/-- The status word after TEQ: the flags are those of a number. -/
theorem cpsr_teq (a b c : Word) (rd : Byte) :
    (DataProcessing.teq p a b rd c).2.reg.cpsr =
      nzcCpsr
        (if ReadsAsPc p rd (a ^^^ b) then statusAfterJump p else nzcCpsr p.reg.cpsr (a ^^^ b) c)
        (BitVec.ofInt 32 (teqCode p rd (a ^^^ b))) c := by
  have hcode : (DataProcessing.eor p a b rd 1 c).1 = teqCode p rd (a ^^^ b) := by
    rw [DataProcessing.eor, writeResult_one, teqCode]
    split_ifs <;> simp_all
  have hcpsr := cpsr_writeResult p (a ^^^ b) c rd
  rw [← hcpsr, ← hcode]
  rfl

end Calls

/-! ## When the flags are exact

The condition of each opcode, on the operands, the carry of the shifter and the mode. -/

/-- The flags that TEQ computes, from the code that `eor` returned, are those of the result. -/
def TeqExact (p : ArmCore) (rd : Byte) (result : Word) : Prop :=
  if ReadsAsPc p rd result then
    if armCurrentModeHasSpsr p then
      result = 0 ∧ BitField.SameBelow 29 (armReadSpsr p) p.reg.cpsr
    else result ≠ 0 ∧ result.getLsbD 31 = false
  else result = 0

/-- Where the flags of a logical opcode are exact. -/
def LogicalOpcode.Exact (p : ArmCore) (a b : Word) (rd : Byte) (c : Bool)
    (opcode : LogicalOpcode) : Prop :=
  match opcode with
  | tst => True
  | teq => TeqExact p rd (a ^^^ b)
  | opcode =>
      if ReadsAsPc p rd (opcode.result a b) then
        LogicalFlags p.reg.cpsr (opcode.result a b) c (statusAfterJump p)
      else opcode.codeCarry a b c = c

section Exact

variable (p : ArmCore) (a b : Word) (rd : Byte) (c : Bool)

/-- Flags of another number with the same carry. -/
theorem logicalFlags_nzcCpsr_iff (cpsr after result number : Word) :
    LogicalFlags cpsr result c (nzcCpsr after number (truth c)) ↔
      number.getLsbD 31 = result.getLsbD 31 ∧ (number = 0 ↔ result = 0) ∧
        BitField.SameBelow 29 after cpsr := by
  have hbits := logicalFlags_nzcCpsr after number c
  constructor
  · rintro ⟨hn, hz, -, hrest⟩
    exact ⟨hbits.n.symm.trans hn, decide_eq_decide.mp (hbits.z.symm.trans hz),
      hbits.rest.symm.trans hrest⟩
  · rintro ⟨hn, hz, hrest⟩
    exact ⟨hbits.n.trans hn, hbits.z.trans (decide_eq_decide.mpr hz), hbits.c,
      hbits.rest.trans hrest⟩

theorem teqExact_iff :
    LogicalFlags p.reg.cpsr (a ^^^ b) c (DataProcessing.teq p a b rd (truth c)).2.reg.cpsr ↔
      TeqExact p rd (a ^^^ b) := by
  have hseven : (BitVec.ofInt 32 UNDEFINED_INSTRUCTION).getLsbD 31 = false ∧
      BitVec.ofInt 32 UNDEFINED_INSTRUCTION ≠ 0 := by decide
  have hzero : (BitVec.ofInt 32 0).getLsbD 31 = false ∧ BitVec.ofInt 32 0 = 0 := by decide
  rw [cpsr_teq, logicalFlags_nzcCpsr_iff, teqCode, TeqExact, statusAfterJump]
  generalize a ^^^ b = result
  have hsign : result = 0 → result.getLsbD 31 = false := by
    rintro rfl
    rfl
  by_cases hpc : ReadsAsPc p rd result
  · by_cases hspsr : armCurrentModeHasSpsr p
    · rw [if_pos hpc, if_pos hspsr, if_neg fun h => h.2 hspsr, if_pos hpc, if_pos hspsr]
      constructor
      · rintro ⟨-, hz, hrest⟩
        exact ⟨hz.mp hzero.2, hrest⟩
      · rintro ⟨hresult, hrest⟩
        exact ⟨hzero.1.trans (hsign hresult).symm, iff_of_true hzero.2 hresult, hrest⟩
    · rw [if_pos hpc, if_neg hspsr, if_pos ⟨hpc, hspsr⟩, if_pos hpc, if_neg hspsr]
      constructor
      · rintro ⟨hn, hz, -⟩
        exact ⟨fun hresult => hseven.2 (hz.mpr hresult), hn.symm.trans hseven.1⟩
      · rintro ⟨hresult, hn⟩
        exact ⟨hseven.1.trans hn.symm, iff_of_false hseven.2 hresult, .refl _ _⟩
  · rw [if_neg hpc, if_neg fun h => hpc h.1, if_neg hpc]
    constructor
    · rintro ⟨-, hz, -⟩
      exact hz.mp hzero.2
    · intro hresult
      exact ⟨hzero.1.trans (hsign hresult).symm, iff_of_true hzero.2 hresult,
        (logicalFlags_nzcCpsr p.reg.cpsr result c).rest⟩

/-- The common body, with the carry `carried`. -/
theorem bodyExact_iff (result : Word) (carried : Bool) :
    LogicalFlags p.reg.cpsr result c
        (writeResult p result rd 1 fun q =>
          nzcShifftercarryUpdate q result (truth carried)).2.reg.cpsr ↔
      if ReadsAsPc p rd result then LogicalFlags p.reg.cpsr result c (statusAfterJump p)
      else carried = c := by
  rw [cpsr_writeResult]
  split_ifs
  · rfl
  · constructor
    · rintro ⟨-, -, hc, -⟩
      exact (logicalFlags_nzcCpsr p.reg.cpsr result carried).c.symm.trans hc
    · rintro rfl
      exact logicalFlags_nzcCpsr p.reg.cpsr result carried

end Exact

/-- **Where the logical flags are exact.**  For every state and every ANDS, EORS, ORRS, MOVS, BICS,
MVNS, TST or TEQ: TST always; TEQ when the number that `eor` returns has the flags of the result;
the others, when the carry is that of the shifter, or, after a jump, when the restored status word
happens to have the flags. -/
theorem logicalFlags_exact_iff (p : ArmCore) {ins : Word} {opcode : LogicalOpcode}
    (hcode : (getBits ins 24 21).toNat = opcode.code) (hs : getBit ins 20 = 1)
    {a b : Word} (ha : a = armReadRegister p (u8 (getBits ins 19 16)))
    (hb : b = (carry ins p).2) :
    LogicalFlags p.reg.cpsr (opcode.result a b) (shifterCarry ins p)
        (armDataProcessingShift p ins).2.reg.cpsr ↔
      opcode.Exact p a b (u8 (getBits ins 15 12)) (shifterCarry ins p) := by
  have hbody : opcode ≠ .tst ∧ opcode ≠ .teq →
      (LogicalFlags p.reg.cpsr (opcode.result a b) (shifterCarry ins p)
          (armDataProcessingShift p ins).2.reg.cpsr ↔
        if ReadsAsPc p (u8 (getBits ins 15 12)) (opcode.result a b) then
          LogicalFlags p.reg.cpsr (opcode.result a b) (shifterCarry ins p) (statusAfterJump p)
        else opcode.codeCarry a b (shifterCarry ins p) = shifterCarry ins p) := by
    intro hne
    rw [armDataProcessingShift_logical p hcode hs hne, ← ha, ← hb]
    exact bodyExact_iff p _ _ _ _
  cases opcode with
  | and => exact hbody (by decide)
  | eor => exact hbody (by decide)
  | orr => exact hbody (by decide)
  | mov => exact hbody (by decide)
  | bic => exact hbody (by decide)
  | mvn => exact hbody (by decide)
  | tst =>
      have hexec : armDataProcessingShift p ins =
          DataProcessing.tst p a b (u8 (getBits ins 15 12)) (truth (shifterCarry ins p)) := by
        rw [armDataProcessingShift, hcode, ← carry_fst, ha, hb]
        rfl
      refine iff_of_true ?_ trivial
      rw [hexec]
      exact logicalFlags_nzcCpsr p.reg.cpsr (a &&& b) (shifterCarry ins p)
  | teq =>
      rw [exec_teq p hcode, carry_fst, ← ha, ← hb]
      exact teqExact_iff p a b _ _

/-- `ANDS r0, r1, r2` on zeros. -/
theorem logicalFlags_exact_iff_ands :
    LogicalFlags 0x1d3 (LogicalOpcode.and.result (0 : Word) 0) false
        (armDataProcessingShift (ArmCore.load 0x1d3 []) 0xE0110002).2.reg.cpsr ↔
      LogicalOpcode.and.Exact (ArmCore.load 0x1d3 []) 0 0 0 false :=
  @logicalFlags_exact_iff (ArmCore.load 0x1d3 []) 0xE0110002 .and (by decide) (by decide) 0 0
    (by decide) (by decide)

/-- `TEQ r1, #1` with 0 in `r1`: the result is 1, and Z is set. -/
theorem logicalFlags_exact_counterexample :
    ¬ ∀ (p : ArmCore) (ins : Word) (opcode : LogicalOpcode),
      (getBits ins 24 21).toNat = opcode.code → getBit ins 20 = 1 →
        u8 (getBits ins 15 12) ≠ 15 →
          LogicalFlags p.reg.cpsr
            (opcode.result (armReadRegister p (u8 (getBits ins 19 16))) (carry ins p).2)
            (shifterCarry ins p) (armDataProcessingShift p ins).2.reg.cpsr := by
  intro h
  have hz := (h (ArmCore.load 0x1d3 []) 0xE3310001 .teq (by decide) (by decide) (by decide)).z
  exact absurd hz (by decide)

end ArmSimulator
