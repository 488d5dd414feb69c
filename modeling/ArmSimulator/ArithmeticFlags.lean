import ArmSimulator.DataProcessing
import ArmSimulator.Library.Flags

/-!
# The flags of additions and subtractions

N and Z come from the result and are always right.  The other two come from a formula of each
function.

* `add` and `cmn` have the carry right, and take a result that turns negative for an overflow; a
  negative second operand spoils that.
* `sub` stores the borrow as the carry, which is the opposite of the carry.
* `rsb` has one formula for both: the first term is negative and the result is not.

`Exact` lists the operands for which all four flags come out right.  The forms with a destination
have a second way to go wrong: a result that `Rd` then reads as `R15` reads is taken for a jump, and
the flags are those of the status word that is restored.

The flags as they should be come from the library module on flags, which defines N, Z, C and V of a
sum and a difference of any width.  Each formula of the code is compared with them on words alone,
without a state (`sumFlags_iff`, `differenceFlags_ne`, `reverseFlags_iff`); what a call leaves in
the CPSR is then a matter of the common body (`flagsOf_exec`), and `arithmeticFlags_exact_iff` puts
the two together for every state and every word of the four opcodes.
-/

namespace ArmSimulator

open WordArithmetic

/-! ## The opcodes -/

/-- The opcodes whose flags are arithmetic: SUB, RSB, ADD with the S bit, and CMN. -/
inductive ArithmeticOpcode
  | sub | rsb | add | cmn
  deriving DecidableEq, Repr

namespace ArithmeticOpcode

/-- The number of an opcode, bits 24 … 21. -/
def code : ArithmeticOpcode → ℕ
  | sub => 2
  | rsb => 3
  | add => 4
  | cmn => 11

/-- The call that `arm_data_processing_shift` makes, the S bit set. -/
def exec (p : ArmCore) (a b : Word) (rd : Byte) : ArithmeticOpcode → Int × ArmCore
  | sub => DataProcessing.sub p a b rd 1
  | rsb => DataProcessing.rsb p a b rd 1
  | add => DataProcessing.add p a b rd 1
  | cmn => DataProcessing.cmn p a b rd

/-- The result. -/
def result (a b : Word) : ArithmeticOpcode → Word
  | sub => a - b
  | rsb => b - a
  | add | cmn => a + b

/-- The flags as they should be. -/
def flags (a b : Word) : ArithmeticOpcode → Flags
  | sub => .ofDifference a b
  | rsb => .ofDifference b a
  | add | cmn => .ofSum a b

/-- The flags as the code computes them. -/
def codeFlags (a b : Word) : ArithmeticOpcode → Flags
  | sub => ⟨(a - b).msb, a - b = 0#32, a < a - b, a.msb && !(a - b).msb⟩
  | rsb => ⟨(b - a).msb, b - a = 0#32, !(b.msb && !(b - a).msb), b.msb && !(b - a).msb⟩
  | add | cmn => ⟨(a + b).msb, a + b = 0#32, a + b < a, !a.msb && (a + b).msb⟩

/-- The operands for which the formulas of the code are right.  For SUB there are none. -/
def Exact (a b : Word) : ArithmeticOpcode → Prop
  | sub => False
  | rsb => 0 ≤ a.toInt ∧ ((0 ≤ b.toInt ∧ 0 ≤ b.toInt - a.toInt) ∨
      (b.toInt < 0 ∧ -2 ^ 31 ≤ b.toInt - a.toInt))
  | add | cmn => 0 ≤ b.toInt ∨ (0 ≤ a.toInt ∧ 0 ≤ a.toInt + b.toInt) ∨
      (a.toInt < 0 ∧ -2 ^ 31 ≤ a.toInt + b.toInt)

/-- The result goes to `Rd`, which then reads as `R15` reads. -/
def Jumps (p : ArmCore) (a b : Word) (rd : Byte) (opcode : ArithmeticOpcode) : Prop :=
  opcode ≠ cmn ∧ ReadsAsPc p rd (opcode.result a b)

instance decidableJumps (p : ArmCore) (a b : Word) (rd : Byte) (opcode : ArithmeticOpcode) :
    Decidable (opcode.Jumps p a b rd) :=
  inferInstanceAs (Decidable (_ ∧ _))

end ArithmeticOpcode

/-- The flags of a status word. -/
def flagsOf (status : Word) : Flags where
  n := status.getLsbD N
  z := status.getLsbD Z
  c := status.getLsbD C
  v := status.getLsbD V

/-- The status word that a jump leaves: the SPSR of the mode, or the CPSR as it was if the mode
has none. -/
def statusAfterJump (p : ArmCore) : Word :=
  if armCurrentModeHasSpsr p then armReadSpsr p else armReadCpsr p

/-! ## The formulas

Signs of words and of their sums and differences; the lemmas of the library turn them into
inequalities. -/

section Formulas

theorem flagsOf_arithmeticFlags (p : ArmCore) (result : Word) (c v : Bool) :
    flagsOf (arithmeticFlags p result (truth c) (truth v)).reg.cpsr =
      ⟨result.msb, decide (result = 0#32), c, v⟩ := by
  rw [flagsOf, getLsbD_arithmeticFlags, getLsbD_arithmeticFlags, getLsbD_arithmeticFlags,
    getLsbD_arithmeticFlags, BitVec.msb_eq_getLsbD_last]
  rfl

variable (a b : Word)

/-- The formulas of `add`: the carry is right, and the overflow if the sum keeps the sign of the
first operand. -/
theorem sumFlags_iff :
    ArithmeticOpcode.add.codeFlags a b = .ofSum a b ↔ ArithmeticOpcode.add.Exact a b := by
  have hsign := msb_iff_toInt b
  rw [ArithmeticOpcode.codeFlags, ← uaddOverflow_eq_lt, Flags.ofSum, BitVec.saddOverflow_eq,
    ArithmeticOpcode.Exact]
  simp only [Flags.mk.injEq, true_and]
  cases hb : b.msb with
  | false =>
      have hpos : 0 ≤ b.toInt := Int.not_lt.mp fun h => by rw [hsign.mpr h] at hb; cases hb
      refine iff_of_true ?_ (Or.inl hpos)
      cases a.msb <;> cases (a + b).msb <;> rfl
  | true =>
      have hneg : ¬ 0 ≤ b.toInt := Int.not_le.mpr (hsign.mp hb)
      have hkeep := msb_add_eq_iff (x := a) hb
      rw [or_iff_right hneg]
      refine Iff.trans ?_ hkeep
      cases a.msb <;> cases (a + b).msb <;> decide

/-- The carry of `sub` is always the wrong way round. -/
theorem differenceFlags_ne : ArithmeticOpcode.sub.codeFlags a b ≠ .ofDifference a b := by
  intro h
  have hcarry : decide (a < a - b) = !a.usubOverflow b := congrArg Flags.c h
  rw [← usubOverflow_eq_lt] at hcarry
  cases hborrow : a.usubOverflow b <;> rw [hborrow] at hcarry <;> cases hcarry

/-- The formulas of `rsb`: the subtrahend must not be negative, and the difference must keep the
sign of the first term. -/
theorem reverseFlags_iff :
    ArithmeticOpcode.rsb.codeFlags a b = .ofDifference b a ↔
      ArithmeticOpcode.rsb.Exact a b := by
  have hsign := msb_iff_toInt a
  rw [ArithmeticOpcode.codeFlags, Flags.ofDifference, usubOverflow_eq_signs,
    BitVec.ssubOverflow_eq, ArithmeticOpcode.Exact]
  simp only [Flags.mk.injEq, true_and]
  cases ha : a.msb with
  | false =>
      have hpos : 0 ≤ a.toInt := Int.not_lt.mp fun h => by rw [hsign.mpr h] at ha; cases ha
      have hkeep := msb_sub_eq_iff (x := b) ha
      rw [and_iff_right hpos]
      refine Iff.trans ?_ hkeep
      cases b.msb <;> cases (b - a).msb <;> decide
  | true =>
      have hneg : ¬ 0 ≤ a.toInt := Int.not_le.mpr (hsign.mp ha)
      refine iff_of_false ?_ fun h => hneg h.1
      cases b.msb <;> cases (b - a).msb <;> decide

theorem codeFlags_eq_iff (opcode : ArithmeticOpcode) :
    opcode.codeFlags a b = opcode.flags a b ↔ opcode.Exact a b := by
  cases opcode with
  | sub => exact iff_of_false (differenceFlags_ne a b) id
  | rsb => exact reverseFlags_iff a b
  | add => exact sumFlags_iff a b
  | cmn => exact sumFlags_iff a b

end Formulas

/-! ## The calls

From the flags as the code computes them to the flags in the CPSR. -/

section Calls

variable (p : ArmCore) (a b : Word) (rd : Byte)

/-- The flags that the common body leaves. -/
theorem flagsOf_writeResult {result : Word} {updateFlags : ArmCore → ArmCore} {flags : Flags}
    (hflags : ∀ q, flagsOf (updateFlags q).reg.cpsr = flags) :
    flagsOf (armReadCpsr (writeResult p result rd 1 updateFlags).2) =
      if ReadsAsPc p rd result then flagsOf (statusAfterJump p) else flags := by
  rw [writeResult_one, statusAfterJump]
  split_ifs
  · rfl
  · exact congrArg flagsOf (armWriteRegister_cpsr p rd result)
  · exact hflags _

/-- The carry formula of `rsb`. -/
theorem not_signDropped_eq (op result : Word) :
    truth (¬ (getBit op 31 ≠ 0 ∧ ¬ getBit result 31 ≠ 0)) =
      truth (!(op.getLsbD 31 && !result.getLsbD 31)) := by
  rw [getBit_eq_truth, getBit_eq_truth]
  cases op.getLsbD 31 <;> cases result.getLsbD 31 <;> rfl

/-- **The flags after a call**: those of the code's formulas, unless it jumps. -/
theorem flagsOf_exec (opcode : ArithmeticOpcode) :
    flagsOf (armReadCpsr (opcode.exec p a b rd).2) =
      if opcode.Jumps p a b rd then flagsOf (statusAfterJump p) else opcode.codeFlags a b := by
  have hjumps : opcode ≠ .cmn → (opcode.Jumps p a b rd ↔ ReadsAsPc p rd (opcode.result a b)) :=
    fun h => and_iff_right h
  cases opcode with
  | sub =>
      rw [if_congr (hjumps (by decide)) rfl rfl]
      refine flagsOf_writeResult p rd fun q => ?_
      rw [signDropped_eq, flagsOf_arithmeticFlags, ← BitVec.msb_eq_getLsbD_last]
      rfl
  | rsb =>
      rw [if_congr (hjumps (by decide)) rfl rfl]
      refine flagsOf_writeResult p rd fun q => ?_
      rw [signDropped_eq, not_signDropped_eq, flagsOf_arithmeticFlags]
      rfl
  | add =>
      rw [if_congr (hjumps (by decide)) rfl rfl]
      refine flagsOf_writeResult p rd fun q => ?_
      rw [signRaised_eq, flagsOf_arithmeticFlags]
      rfl
  | cmn =>
      rw [if_neg fun h => h.1 rfl]
      have hformula := flagsOf_arithmeticFlags p (a + b) (a + b < a)
        (!a.getLsbD 31 && (a + b).getLsbD 31)
      rw [← signRaised_eq] at hformula
      exact hformula

end Calls

/-! ## The instructions -/

/-- The four functions are called by the instructions of their number, the S bit set. -/
theorem armDataProcessingShift_arithmetic (p : ArmCore) {ins : Word} {opcode : ArithmeticOpcode}
    (hcode : (getBits ins 24 21).toNat = opcode.code) (hs : getBit ins 20 = 1) :
    armDataProcessingShift p ins =
      opcode.exec p (armReadRegister p (u8 (getBits ins 19 16))) (carry ins p).2
        (u8 (getBits ins 15 12)) := by
  unfold armDataProcessingShift
  dsimp only
  rw [hcode, hs]
  cases opcode <;> rfl

/-- **Where the arithmetic flags are exact.**  For every state and every SUBS, RSBS, ADDS or CMN: if
the result is taken for a jump, the flags are exact when the restored status word happens to have
them; otherwise, when the operands are among those listed in `Exact`. -/
theorem arithmeticFlags_exact_iff (p : ArmCore) {ins : Word} {opcode : ArithmeticOpcode}
    (hcode : (getBits ins 24 21).toNat = opcode.code) (hs : getBit ins 20 = 1)
    {a b : Word} (ha : a = armReadRegister p (u8 (getBits ins 19 16)))
    (hb : b = (carry ins p).2) :
    flagsOf (armReadCpsr (armDataProcessingShift p ins).2) = opcode.flags a b ↔
      (opcode.Jumps p a b (u8 (getBits ins 15 12)) ∧
          flagsOf (statusAfterJump p) = opcode.flags a b) ∨
        (¬ opcode.Jumps p a b (u8 (getBits ins 15 12)) ∧ opcode.Exact a b) := by
  rw [armDataProcessingShift_arithmetic p hcode hs, ← ha, ← hb, flagsOf_exec]
  split_ifs with hjump
  · simp only [hjump, true_and, not_true_eq_false, false_and, or_false]
  · simp only [hjump, false_and, not_false_eq_true, true_and, false_or, codeFlags_eq_iff]

/-- `ADDS r0, r1, r2` on zeros. -/
theorem arithmeticFlags_exact_iff_adds :
    flagsOf (armReadCpsr (armDataProcessingShift (ArmCore.load 0x1d3 []) 0xE0910002).2) =
        ArithmeticOpcode.add.flags (0 : Word) 0 ↔
      (ArithmeticOpcode.add.Jumps (ArmCore.load 0x1d3 []) 0 0 0 ∧
          flagsOf (statusAfterJump (ArmCore.load 0x1d3 [])) =
            ArithmeticOpcode.add.flags (0 : Word) 0) ∨
        (¬ ArithmeticOpcode.add.Jumps (ArmCore.load 0x1d3 []) 0 0 0 ∧
          ArithmeticOpcode.add.Exact (0 : Word) 0) :=
  @arithmeticFlags_exact_iff (ArmCore.load 0x1d3 []) 0xE0910002 .add (by decide) (by decide) 0 0
    (by decide) (by decide)

/-- `SUBS r0, r1, r2` on zeros: there is no borrow, and the carry is clear. -/
theorem arithmeticFlags_exact_counterexample :
    ¬ ∀ (p : ArmCore) (ins : Word) (opcode : ArithmeticOpcode),
      (getBits ins 24 21).toNat = opcode.code → getBit ins 20 = 1 →
        u8 (getBits ins 15 12) ≠ 15 →
          flagsOf (armReadCpsr (armDataProcessingShift p ins).2) =
            opcode.flags (armReadRegister p (u8 (getBits ins 19 16))) (carry ins p).2 := by
  intro h
  have hsubs := h (ArmCore.load 0x1d3 []) 0xE0510002 .sub (by decide) (by decide) (by decide)
  exact absurd hsubs (by decide)

end ArmSimulator
