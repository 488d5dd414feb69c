import ArmSimulator.Instruction

/-!
# Conditional execution

Two questions about the condition field of an instruction.

* What happens when the condition fails.  `arm_execute_instruction` returns the number of an
  exception, `INTERRUPT`, so `arm_step` enters mode IRQ: `armStep_of_conditionFailed` is the whole
  outcome, and the instruction is never skipped (`failedCondition_not_skipped`).  The loop of
  `Examples/example1.s` is left by such a branch.

* Whether `cmp` followed by a condition decides the comparison of its operands.  `cmp` stores the
  *borrow* in C, where the unsigned conditions expect its negation, and sets V for a negative
  minuend and a non-negative result only.  `conditionPassed_cmp` says what each of the ten
  conditions tests after `cmp`, and `cmp_decides_iff` on which operands that is the comparison.

Both are statements for every state and every word.  The second is proved in two steps, which is why
it needs no case analysis on values: what the flags are after `cmp` as statements about numbers
(`getBit_cmp`), and when a test of these numbers is the comparison (`ge_tested_iff` for the signed
ones, from which the other three follow).
-/

namespace ArmSimulator

/-! ## A condition that fails -/

/-- The outcome of a step that does nothing: it returns 0, and only the program counter (advanced by
4) and the cycle count differ.  This is what the architecture asks for when the condition fails. -/
structure Skipped (p : ArmCore) (r : Int × ArmCore) : Prop where
  result : r.1 = 0
  pc : r.2.reg.pc = p.reg.pc + 4
  registers : ∀ s : Slot, s ≠ .pc → r.2.reg.get s = p.reg.get s
  cpsr : r.2.reg.cpsr = p.reg.cpsr
  spsr : r.2.reg.spsr = p.reg.spsr
  mode : r.2.reg.currentMode = p.reg.currentMode
  mem : r.2.mem = p.mem

/-- **An instruction whose condition fails is an interrupt.**  The step is the entry of mode IRQ
from the state after the fetch, whatever the instruction is. -/
theorem armStep_of_conditionFailed {p : ArmCore} {ins junk : Word}
    (hfetch : (armFetch p).1 = some ins) (hfailed : conditionPassed p.fetched ins = 0) :
    armStep p junk = some (INTERRUPT, unterrupt p.fetched) := by
  have hexec : armExecuteInstruction p junk = some (INTERRUPT, p.fetched) := by
    rw [armExecuteInstruction_of_fetch hfetch, if_neg (not_not.mpr hfailed)]
  rw [armStep_of_execute hexec]
  rfl

/-- **No instruction whose condition fails is skipped.**  The entry sets the program counter to the
vector `0x18` and returns a number that is not 0, in every state. -/
theorem failedCondition_not_skipped {p : ArmCore} {ins junk : Word}
    (hfetch : (armFetch p).1 = some ins) (hfailed : conditionPassed p.fetched ins = 0) :
    ¬ ∃ r, armStep p junk = some r ∧ Skipped p r := by
  rintro ⟨r, hstep, hskipped⟩
  rw [armStep_of_conditionFailed hfetch hfailed] at hstep
  obtain rfl := Option.some.inj hstep
  exact absurd (show INTERRUPT = 0 from hskipped.result) (by decide)

/-- `BEQ` with Z clear, in the state after a reset. -/
theorem failedCondition_not_skipped_beq :
    ¬ ∃ r, armStep (ArmCore.load 0x1d3 [0x0A000000]) 0 = some r ∧
      Skipped (ArmCore.load 0x1d3 [0x0A000000]) r :=
  failedCondition_not_skipped (show _ = some (0x0A000000 : Word) by decide) (by decide)

/-- The same step with `BNE` after a comparison of equal values: Z is set, and the
step returns `INTERRUPT` with the program counter at `0x18`. -/
theorem failedCondition_skipped_counterexample :
    ¬ ∀ (p : ArmCore) (ins junk : Word), (armFetch p).1 = some ins →
      conditionPassed p.fetched ins = 0 → ∃ r, armStep p junk = some r ∧ Skipped p r := by
  intro h
  obtain ⟨r, hstep, hskipped⟩ :=
    h (ArmCore.load 0x400001d3 [0x1AFFFFFE]) 0x1AFFFFFE 0 (by decide) (by decide)
  have hresult : (armStep (ArmCore.load 0x400001d3 [0x1AFFFFFE]) 0).map Prod.fst = some 4 := by
    decide
  rw [hstep, Option.map_some, hskipped.result] at hresult
  exact absurd hresult (by decide)

/-! ## Comparisons

A comparison has a condition code, a test on the flags and a meaning on words.  The flags are
booleans here, so that the tests compute. -/

/-- The comparisons that a condition after `cmp` decides. -/
inductive Comparison
  | eq | ne | cs | cc | hi | ls | ge | lt | gt | le
  deriving DecidableEq, Repr

namespace Comparison

/-- The condition code of a comparison. -/
def code : Comparison → ℕ
  | eq => EQ
  | ne => NE
  | cs => CS
  | cc => CC
  | hi => HI
  | ls => LS
  | ge => GE
  | lt => LT
  | gt => GT
  | le => LE

/-- The test of a comparison on the flags Z, C, N and V. -/
def passes (z c n v : Bool) : Comparison → Bool
  | eq => z
  | ne => !z
  | cs => c
  | cc => !c
  | hi => c && !z
  | ls => !c && z
  | ge => n == v
  | lt => n != v
  | gt => !z && n == v
  | le => z || n != v

theorem conditionHolds_code (comparison : Comparison) :
    ∀ z c n v : Bool, conditionHolds comparison.code (truth z) (truth c) (truth n) (truth v) =
      comparison.passes z c n v := by
  cases comparison <;> decide

/-- The comparison, of unsigned numbers for CS, CC, HI and LS and of signed numbers
for GE, LT, GT and LE. -/
def Holds (a b : Word) : Comparison → Prop
  | eq => a = b
  | ne => a ≠ b
  | cs => b.toNat ≤ a.toNat
  | cc => a.toNat < b.toNat
  | hi => b.toNat < a.toNat
  | ls => a.toNat ≤ b.toNat
  | ge => b.toInt ≤ a.toInt
  | lt => a.toInt < b.toInt
  | gt => b.toInt < a.toInt
  | le => a.toInt ≤ b.toInt

/-- What the code tests after `cmp`. -/
def Tested (a b : Word) : Comparison → Prop
  | eq => a = b
  | ne => a ≠ b
  | cs => a.toNat < b.toNat
  | cc => b.toNat ≤ a.toNat
  | hi => a.toNat < b.toNat
  | ls => a = b
  | ge => 0 ≤ a.toInt ∧ 0 ≤ (a - b).toInt
  | lt => ¬ (0 ≤ a.toInt ∧ 0 ≤ (a - b).toInt)
  | gt => a ≠ b ∧ 0 ≤ a.toInt ∧ 0 ≤ (a - b).toInt
  | le => a = b ∨ ¬ (0 ≤ a.toInt ∧ 0 ≤ (a - b).toInt)

/-- Operands for which the sign tests come out right: the second is not negative, or
the first is not and the difference does not overflow, or both are negative and the
first is the smaller. -/
def SignsRight (a b : Word) : Prop :=
  0 ≤ b.toInt ∨ (0 ≤ a.toInt ∧ a.toInt - b.toInt < 2 ^ 31) ∨
    (a.toInt < 0 ∧ a.toInt < b.toInt)

/-- The operands on which each condition after `cmp` decides its comparison.  EQ and NE always do;
the unsigned ones, which test the borrow the wrong way round, on few operands or none; the signed
ones where the signs come out right. -/
def Decided (a b : Word) : Comparison → Prop
  | eq | ne => True
  | cs | cc => False
  | hi => a = b
  | ls => b.toNat ≤ a.toNat
  | ge | lt => SignsRight a b
  | gt | le => a = b ∨ SignsRight a b

end Comparison

/-! ## The flags of `cmp`

The subtraction of `cmp` wraps; the flags are read off as statements about the numbers before it. -/

section Flags

variable (a b : Word)

theorem sub_eq_zero_iff_eq : a - b = 0 ↔ a = b := by
  constructor
  · intro h
    bv_omega
  · rintro rfl
    exact BitVec.sub_self a

/-- The C flag of `cmp` is the borrow. -/
theorem lt_sub_iff : a < a - b ↔ a.toNat < b.toNat := by
  rw [BitVec.lt_def, BitVec.toNat_sub]
  have ha := a.isLt
  have hb := b.isLt
  omega

/-- The four flags after `cmp`. -/
theorem getBit_cmp (p : ArmCore) (rd : Byte) (i : ℕ) :
    getBit (DataProcessing.cmp p a b rd).2.reg.cpsr i =
      truth (if i = N then decide ((a - b).toInt < 0)
        else if i = Z then decide (a = b)
        else if i = C then decide (a.toNat < b.toNat)
        else if i = V then decide (a.toInt < 0) && !decide ((a - b).toInt < 0)
        else p.reg.cpsr.getLsbD i) := by
  rw [getBit_eq_truth, DataProcessing.cmp]
  dsimp only
  rw [signDropped_eq, getLsbD_arithmeticFlags, getLsbD_31, getLsbD_31]
  simp only [sub_eq_zero_iff_eq, lt_sub_iff]

end Flags

/-- **What the conditions test after `cmp`**, as comparisons of the two operands. -/
theorem conditionPassed_cmp (p : ArmCore) (a b : Word) (rd : Byte) {ins : Word}
    (comparison : Comparison) (hcode : (getBits ins 31 28).toNat = comparison.code) :
    conditionPassed (DataProcessing.cmp p a b rd).2 ins ≠ 0 ↔ comparison.Tested a b := by
  have hpasses : conditionPassed (DataProcessing.cmp p a b rd).2 ins ≠ 0 ↔
      comparison.passes (decide (a = b)) (decide (a.toNat < b.toNat))
        (decide ((a - b).toInt < 0))
        (decide (a.toInt < 0) && !decide ((a - b).toInt < 0)) = true := by
    rw [← Comparison.conditionHolds_code, conditionPassed, hcode, armReadCpsr,
      registersReadCpsr, getBit_cmp, getBit_cmp, getBit_cmp, getBit_cmp]
    simp only [N, Z, C, V]
    simp
  rw [hpasses]
  -- HI and LS test Z as well, which a borrow decides
  have hne : a.toNat < b.toNat → a ≠ b := by
    rintro hlt rfl
    exact Nat.lt_irrefl _ hlt
  have hle : a = b → b.toNat ≤ a.toNat := fun heq => heq ▸ Nat.le_refl _
  unfold Comparison.Tested
  generalize (a - b).toInt = difference
  cases comparison with
  | hi => simpa [Comparison.passes] using hne
  | ls => simpa [Comparison.passes] using hle
  | _ => simp [Comparison.passes]

/-! ## Where the tests are the comparisons -/

/-- The signed test: both signs agree with the comparison exactly when the signs come
out right. -/
theorem ge_tested_iff (a b : Word) :
    ((0 ≤ a.toInt ∧ 0 ≤ (a - b).toInt) ↔ b.toInt ≤ a.toInt) ↔ Comparison.SignsRight a b := by
  have ha := BitVec.toInt_lt (x := a)
  have ha' := BitVec.le_toInt a
  have hb := BitVec.toInt_lt (x := b)
  have hb' := BitVec.le_toInt b
  -- the difference wraps at most once
  rw [BitVec.toInt_sub, Comparison.SignsRight]
  rw [Int.bmod_def]
  split_ifs <;> omega

/-- **Which comparisons `cmp` and a condition decide.**  After `cmp(p, a, b, rd)` the
condition passes exactly when its comparison holds of `a` and `b`, if and only if
the operands are among those listed in `Comparison.Decided`. -/
theorem cmp_decides_iff (p : ArmCore) (a b : Word) (rd : Byte) {ins : Word}
    (comparison : Comparison) (hcode : (getBits ins 31 28).toNat = comparison.code) :
    (conditionPassed (DataProcessing.cmp p a b rd).2 ins ≠ 0 ↔ comparison.Holds a b) ↔
      comparison.Decided a b := by
  rw [conditionPassed_cmp p a b rd comparison hcode]
  have hge := ge_tested_iff a b
  have heq : a = b ↔ a.toNat = b.toNat := ⟨congrArg _, BitVec.eq_of_toNat_eq⟩
  have heq' : a = b ↔ a.toInt = b.toInt := ⟨congrArg _, BitVec.eq_of_toInt_eq⟩
  cases comparison with
  | eq => exact iff_of_true Iff.rfl trivial
  | ne => exact iff_of_true Iff.rfl trivial
  | cs =>
      simp only [Comparison.Tested, Comparison.Holds, Comparison.Decided, iff_false]
      omega
  | cc =>
      simp only [Comparison.Tested, Comparison.Holds, Comparison.Decided, iff_false]
      omega
  | hi =>
      simp only [Comparison.Tested, Comparison.Holds, Comparison.Decided, heq]
      omega
  | ls =>
      simp only [Comparison.Tested, Comparison.Holds, Comparison.Decided, heq]
      omega
  | ge => exact hge
  | lt =>
      simp only [Comparison.Tested, Comparison.Holds, Comparison.Decided, ← hge]
      omega
  | gt =>
      simp only [Comparison.Tested, Comparison.Holds, Comparison.Decided, ← hge, ne_eq, heq']
      grind
  | le =>
      simp only [Comparison.Tested, Comparison.Holds, Comparison.Decided, ← hge, heq']
      omega

/-- `1` and `2` compared by GE: neither sign changes. -/
theorem cmp_decides_iff_ge :
    conditionPassed (DataProcessing.cmp (ArmCore.load 0x1d3 []) 1 2 0).2 0xA0000000 ≠ 0 ↔
      Comparison.ge.Holds 1 2 :=
  (cmp_decides_iff (ArmCore.load 0x1d3 []) 1 2 0 .ge (by decide)).mpr (Or.inl (by decide))

/-- `1` compared with `0` by CS: `1 ≥ 0`, and the condition fails. -/
theorem cmp_decides_counterexample :
    ¬ ∀ (p : ArmCore) (a b : Word) (rd : Byte) (ins : Word) (comparison : Comparison),
      (getBits ins 31 28).toNat = comparison.code →
        (conditionPassed (DataProcessing.cmp p a b rd).2 ins ≠ 0 ↔ comparison.Holds a b) := by
  intro h
  have hcs := h (ArmCore.load 0x1d3 []) 1 0 0 0x20000000 .cs (by decide)
  have hfails : conditionPassed (DataProcessing.cmp (ArmCore.load 0x1d3 []) 1 0 0).2
      0x20000000 = 0 := by decide
  exact hcs.mpr (Nat.zero_le _) hfails

end ArmSimulator
