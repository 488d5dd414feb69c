import ArmSimulator.ArithmeticFlags
import ArmSimulator.Comparisons
import ArmSimulator.ShiftOperands

/-!
# Additions and subtractions with carry

ADC, SBC and RSC take the carry *out of the shifter* for the carry in, and not the flag; the two
agree when the operand is neither shifted nor rotated.

* `adc` is two additions.  The flag it leaves is the carry of the second one.
* `sbc` stores the borrow as the carry, as `sub` does.
* `rsc` stores the comparison of the difference with `Rn`, which is not its first term.

`Exact` lists the cases in which the three are right nevertheless.  With the S bit the result may
again be taken for a jump; in `adc` after each of the two additions, the second in the mode that the
first has restored.

The specification is that of multi-word arithmetic (`MultiWord`): the value of `Rd` is the result on
the carry *flag*, and with the S bit the flag becomes the carry of the three terms.  `multiWord_iff`
is the exact condition for it, and says besides what it is for: where an ADCS is right, it completes
the sum of two double words (`MultiWord.double`, `adds_adcs`).

SBC and RSC are instances of the common body and are settled together (`multiWord_difference_iff`).
ADC takes the larger part of the module, since its two additions may be made in two modes with two
different registers `Rd`; `adc_right_iff` goes through what the second addition can find: the
partial sum, in the same mode or in another one with the same register, or another register.
-/

namespace ArmSimulator

open WordArithmetic

/-! ## The opcodes -/

/-- The opcodes with a carry in. -/
inductive CarryOpcode
  | adc | sbc | rsc
  deriving DecidableEq, Repr

namespace CarryOpcode

/-- The number of an opcode, bits 24 … 21. -/
def code : CarryOpcode → ℕ
  | adc => 5
  | sbc => 6
  | rsc => 7

/-- The result on `Rn`, the operand and the carry flag. -/
def value (a b : Word) (c : Bool) : CarryOpcode → Word
  | adc => a + b + truth c
  | sbc => a - b - truth (!c)
  | rsc => b - a - truth (!c)

/-- The carry of the sum, or the negation of the borrow of the difference, of the three terms. -/
def carryOut (a b : Word) (c : Bool) : CarryOpcode → Bool
  | adc => BitVec.carry 32 a b c
  | sbc => decide (b.toNat + (!c).toNat ≤ a.toNat)
  | rsc => decide (a.toNat + (!c).toNat ≤ b.toNat)

end CarryOpcode

/-- The operands for which the carry that the code leaves is right, when its carry in is. -/
def CarryOpcode.CarryExact (a b : Word) (c : Bool) : CarryOpcode → Prop
  | adc => a.toNat + b.toNat < 2 ^ 32
  | sbc => c = false ∧ b = 0xFFFFFFFF
  | rsc => 2 * a.toNat + (!c).toNat < b.toNat ∨ b.toNat + 2 ^ 32 ≤ 2 * a.toNat + (!c).toNat

/-- The value of `Rn` that an instruction finds. -/
def rnValue (p : ArmCore) (ins : Word) : Word := armReadRegister p (u8 (getBits ins 19 16))

/-- The instruction `ins` writes the result of `opcode` on the carry flag to `Rd`, and, with the S
bit, sets the carry flag to its carry.  `Rd` has to be a register of the mode. -/
structure MultiWord (opcode : CarryOpcode) (p : ArmCore) (ins : Word) : Prop where
  value : ∃ s, slot (u8 (getBits ins 15 12)) p.reg.currentMode = some s ∧
    (armDataProcessingShift p ins).2.reg.get s =
      opcode.value (rnValue p ins) (carry ins p).2 (cFlag p)
  flag : getBit ins 20 = 1 →
    cFlag (armDataProcessingShift p ins).2 =
      opcode.carryOut (rnValue p ins) (carry ins p).2 (cFlag p)

/-! ## The formulas

The three formulas of the code for the carry, on words and a carry in, each against the carry that
is meant. -/

section Formulas

variable (a b : Word) (c : Bool)

theorem toNat_truth (c : Bool) : (truth c).toNat = c.toNat := by
  cases c <;> rfl

/-- `sbc` has the carry right if there is a borrow that the comparison does not see. -/
theorem sbcCarry_iff :
    decide (a < a - b - truth (!c)) = CarryOpcode.sbc.carryOut a b c ↔
      CarryOpcode.sbc.CarryExact a b c := by
  have ha := a.isLt
  have hb := b.isLt
  rw [CarryOpcode.carryOut, CarryOpcode.CarryExact, decide_eq_decide, BitVec.lt_def,
    BitVec.toNat_sub, BitVec.toNat_sub, toNat_truth, ← BitVec.toNat_inj]
  cases c with
  | false =>
      simp
      omega
  | true =>
      simp
      omega

/-- `rsc` compares the difference with `Rn`. -/
theorem rscCarry_iff :
    decide (a < b - a - truth (!c)) = CarryOpcode.rsc.carryOut a b c ↔
      CarryOpcode.rsc.CarryExact a b c := by
  have ha := a.isLt
  have hb := b.isLt
  rw [CarryOpcode.carryOut, CarryOpcode.CarryExact, decide_eq_decide, BitVec.lt_def,
    BitVec.toNat_sub, BitVec.toNat_sub, toNat_truth]
  cases c with
  | false =>
      simp
      omega
  | true =>
      simp
      omega

/-- `adc` leaves the carry of its second addition. -/
theorem adcCarry_iff :
    decide (a + b + truth c < a + b) = CarryOpcode.adc.carryOut a b c ↔
      CarryOpcode.adc.CarryExact a b c := by
  have ha := a.isLt
  have hb := b.isLt
  rw [CarryOpcode.carryOut, CarryOpcode.CarryExact, BitVec.carry_width, decide_eq_decide,
    BitVec.lt_def, BitVec.toNat_add, BitVec.toNat_add, toNat_truth]
  cases c with
  | false => simp
  | true =>
      simp
      omega

/-- The carry in shows in the result. -/
theorem CarryOpcode.value_inj (opcode : CarryOpcode) {c c' : Bool} :
    opcode.value a b c = opcode.value a b c' ↔ c = c' := by
  have htruth : ∀ c c' : Bool, truth c = truth c' ↔ c = c' := by decide
  have hnot : ∀ c c' : Bool, (!c) = (!c') ↔ c = c' := by decide
  cases opcode with
  | adc => exact (BitVec.add_right_inj _).trans (htruth c c')
  | sbc => exact (BitVec.sub_right_inj _).trans ((htruth _ _).trans (hnot c c'))
  | rsc => exact (BitVec.sub_right_inj _).trans ((htruth _ _).trans (hnot c c'))

end Formulas

/-! ## The common body

What the body leaves in the registers and in the carry flag, whatever its flag update does beside
them. -/

section Body

variable (p : ArmCore) (rd : Byte) {result : Word} {updateFlags : ArmCore → ArmCore}

/-- The body writes `Rd` and no other register. -/
theorem get_writeResult (setCond : Word) (hflags : ∀ q, FlagsOnly q (updateFlags q)) (s : Slot) :
    (writeResult p result rd setCond updateFlags).2.reg.get s =
      if slot rd p.reg.currentMode = some s then result else p.reg.get s := by
  by_cases hset : setCond = 1
  · rw [hset, (writeResult_one_flagsOnly p rd result hflags).registers, get_restored]
  · rw [writeResult_of_ne_one p result rd updateFlags hset, get_armWriteRegister]

/-- The carry that the body leaves. -/
theorem cFlag_writeResult {flag : Bool} (hflag : ∀ q, cFlag (updateFlags q) = flag) :
    cFlag (writeResult p result rd 1 updateFlags).2 =
      if ReadsAsPc p rd result then (statusAfterJump p).getLsbD C else flag := by
  rw [writeResult_one, statusAfterJump]
  split_ifs
  · rfl
  · exact congrArg (fun cpsr : Word => cpsr.getLsbD C) (armWriteRegister_cpsr p rd result)
  · exact hflag _

theorem cFlag_arithmeticFlags (result : Word) (c v : Bool) :
    cFlag (arithmeticFlags p result (truth c) (truth v)) = c :=
  congrArg Flags.c (flagsOf_arithmeticFlags p result c v)

end Body

/-! ## SBC and RSC -/

section Differences

variable (p : ArmCore) {ins : Word} {opcode : CarryOpcode}

/-- The two subtractions are the common body, on the carry out of the shifter. -/
theorem exec_difference (hcode : (getBits ins 24 21).toNat = opcode.code) (hne : opcode ≠ .adc) :
    armDataProcessingShift p ins =
      writeResult p (opcode.value (rnValue p ins) (carry ins p).2 (shifterCarry ins p))
        (u8 (getBits ins 15 12)) (getBit ins 20) fun q =>
          arithmeticFlags q (opcode.value (rnValue p ins) (carry ins p).2 (shifterCarry ins p))
            (truth (rnValue p ins <
              opcode.value (rnValue p ins) (carry ins p).2 (shifterCarry ins p)))
            (signDropped (rnValue p ins)
              (opcode.value (rnValue p ins) (carry ins p).2 (shifterCarry ins p))) := by
  have hnot : ∀ s : Bool, truth (decide (truth s = 0)) = truth (!s) := by decide
  rw [armDataProcessingShift, hcode]
  cases opcode with
  | adc => exact absurd rfl hne
  | sbc =>
      dsimp only [CarryOpcode.code]
      rw [DataProcessing.sbc, carry_fst, hnot]
      rfl
  | rsc =>
      dsimp only [CarryOpcode.code]
      rw [DataProcessing.rsc, carry_fst, hnot]
      rfl

/-- What the two write. -/
theorem get_difference (hcode : (getBits ins 24 21).toNat = opcode.code) (hne : opcode ≠ .adc)
    (s : Slot) :
    (armDataProcessingShift p ins).2.reg.get s =
      if slot (u8 (getBits ins 15 12)) p.reg.currentMode = some s then
        opcode.value (rnValue p ins) (carry ins p).2 (shifterCarry ins p)
      else p.reg.get s := by
  rw [exec_difference p hcode hne]
  exact get_writeResult p _ _ (fun q => arithmeticFlags_flagsOnly ..) s

/-- The carry that the two leave. -/
theorem cFlag_difference (hcode : (getBits ins 24 21).toNat = opcode.code) (hne : opcode ≠ .adc)
    (hset : getBit ins 20 = 1) :
    cFlag (armDataProcessingShift p ins).2 =
      if ReadsAsPc p (u8 (getBits ins 15 12))
          (opcode.value (rnValue p ins) (carry ins p).2 (shifterCarry ins p)) then
        (statusAfterJump p).getLsbD C
      else decide (rnValue p ins <
        opcode.value (rnValue p ins) (carry ins p).2 (shifterCarry ins p)) := by
  rw [exec_difference p hcode hne, hset]
  refine cFlag_writeResult p _ fun q => ?_
  rw [signDropped_eq]
  exact cFlag_arithmeticFlags q _ _ _

/-- The destination of `ins` is a register of the current mode. -/
def HasDestination (p : ArmCore) (ins : Word) : Prop :=
  (slot (u8 (getBits ins 15 12)) p.reg.currentMode).isSome

/-- Where SBC and RSC are right: the carry out of the shifter is the flag, and with the S bit the
formula of the carry is right, or the status word restored by a jump has it. -/
def DifferenceExact (opcode : CarryOpcode) (p : ArmCore) (ins : Word) : Prop :=
  let a := rnValue p ins
  let b := (carry ins p).2
  shifterCarry ins p = cFlag p ∧ (getBit ins 20 = 1 →
    if ReadsAsPc p (u8 (getBits ins 15 12)) (opcode.value a b (cFlag p)) then
      (statusAfterJump p).getLsbD C = opcode.carryOut a b (cFlag p)
    else opcode.CarryExact a b (cFlag p))

/-- For the two subtractions the chain works exactly where the difference is exact. -/
theorem multiWord_difference_iff (hcode : (getBits ins 24 21).toNat = opcode.code)
    (hne : opcode ≠ .adc) :
    MultiWord opcode p ins ↔ HasDestination p ins ∧ DifferenceExact opcode p ins := by
  have hget := get_difference p hcode hne
  have hformula : decide (rnValue p ins < opcode.value (rnValue p ins) (carry ins p).2 (cFlag p)) =
      opcode.carryOut (rnValue p ins) (carry ins p).2 (cFlag p) ↔
        opcode.CarryExact (rnValue p ins) (carry ins p).2 (cFlag p) := by
    cases opcode with
    | adc => exact absurd rfl hne
    | sbc => exact sbcCarry_iff ..
    | rsc => exact rscCarry_iff ..
  have hcarry : shifterCarry ins p = cFlag p → getBit ins 20 = 1 →
      (cFlag (armDataProcessingShift p ins).2 =
          opcode.carryOut (rnValue p ins) (carry ins p).2 (cFlag p) ↔
        if ReadsAsPc p (u8 (getBits ins 15 12))
            (opcode.value (rnValue p ins) (carry ins p).2 (cFlag p)) then
          (statusAfterJump p).getLsbD C =
            opcode.carryOut (rnValue p ins) (carry ins p).2 (cFlag p)
        else opcode.CarryExact (rnValue p ins) (carry ins p).2 (cFlag p)) := by
    intro hin hset
    rw [cFlag_difference p hcode hne hset, hin]
    split_ifs
    · rfl
    · exact hformula
  constructor
  · rintro ⟨⟨s, hslot, hvalue⟩, hflag⟩
    rw [hget, if_pos hslot, CarryOpcode.value_inj] at hvalue
    exact ⟨Option.isSome_of_eq_some hslot, hvalue,
      fun hset => (hcarry hvalue hset).mp (hflag hset)⟩
  · rintro ⟨hdestination, hin, hexact⟩
    obtain ⟨s, hslot⟩ := Option.isSome_iff_exists.mp hdestination
    refine ⟨⟨s, hslot, ?_⟩, fun hset => (hcarry hin hset).mpr (hexact hset)⟩
    rw [hget, if_pos hslot, hin]

end Differences

/-! ## ADC

The section variables are the two operands and the destination; the carry in is an argument of the
lemmas, since one of them compares two. -/

/-- The state after the first addition of an ADC with the S bit, up to the flags: `Rd` holds the
partial sum, and the mode is that of the status word. -/
def afterPartial (p : ArmCore) (rd : Byte) (sum : Word) : ArmCore :=
  armWriteCpsr (armWriteRegister p rd sum)
    (if ReadsAsPc p rd sum then armReadSpsr p else armReadCpsr p)

/-- Where ADC with the S bit is right, on the operands `a` and `b` and the carry `carried` out of
the shifter.

If the partial sum is taken for a jump that the mode does not allow, it must be the result.
Otherwise the second addition is made in the mode that the first has left.  If that mode has
another `Rd`, the partial sum stays where it is; if not, the carry in must be the flag.  And unless
the last sum is taken for a jump, the partial sum must not have carried. -/
def AdcExact (p : ArmCore) (a b : Word) (rd : Byte) (carried : Bool) : Prop :=
  let c := cFlag p
  let q := afterPartial p rd (a + b)
  let partiel := armReadRegister q rd
  let jumpCarry :=
    if armCurrentModeHasSpsr q then (armReadSpsr q).getLsbD C
    else if ReadsAsPc p rd (a + b) then (armReadSpsr p).getLsbD C
    else BitVec.carry 32 a b false
  if ReadsAsPc p rd (a + b) ∧ ¬ armCurrentModeHasSpsr p then
    c = false ∧ a.toNat + b.toNat < 2 ^ 32
  else if slot rd q.reg.currentMode = slot rd p.reg.currentMode then
    carried = c ∧
      if ReadsAsPc q rd (partiel + truth carried) then jumpCarry = BitVec.carry 32 a b c
      else a.toNat + b.toNat < 2 ^ 32
  else
    c = false ∧
      if ReadsAsPc q rd (partiel + truth carried) then jumpCarry = BitVec.carry 32 a b c
      else BitVec.carry 32 partiel (truth carried) false = BitVec.carry 32 a b c

section Sums

open DataProcessing

variable (p : ArmCore) (a b : Word) (rd : Byte)

/-- The flag formula of `add` is the carry. -/
theorem carry_eq_lt (x y : Word) : decide (x + y < x) = BitVec.carry 32 x y false := by
  rw [← uaddOverflow_eq_lt, BitVec.uaddOverflow, BitVec.carry_width]
  simp

/-- An addition changes its destination and no other register. -/
theorem get_add (setCond : Word) (s : Slot) :
    (add p a b rd setCond).2.reg.get s =
      if slot rd p.reg.currentMode = some s then a + b else p.reg.get s :=
  get_writeResult p rd setCond (fun q => arithmeticFlags_flagsOnly q _ _ _) s

/-- Its carry is that of the sum, unless the status came back from the SPSR. -/
theorem cFlag_add :
    cFlag (add p a b rd 1).2 =
      if ReadsAsPc p rd (a + b) then (statusAfterJump p).getLsbD C
      else BitVec.carry 32 a b false := by
  refine cFlag_writeResult p rd fun q => ?_
  rw [signRaised_eq, cFlag_arithmeticFlags, carry_eq_lt]

/-- Where the addition does not fail and the result reads as the program counter, there is an SPSR.
-/
theorem hasSpsr_of_jump {result : Word}
    (hjump : ¬ (ReadsAsPc p rd result ∧ ¬ armCurrentModeHasSpsr p)) (hpc : ReadsAsPc p rd result) :
    armCurrentModeHasSpsr p :=
  not_not.mp fun hnone => hjump ⟨hpc, hnone⟩

/-- **The first addition**, unless it is taken for a jump that the mode does not allow. -/
theorem add_afterPartial (hjump : ¬ (ReadsAsPc p rd (a + b) ∧ ¬ armCurrentModeHasSpsr p)) :
    (add p a b rd 1).1 = 0 ∧
      FlagsOnly (afterPartial p rd (a + b)) (add p a b rd 1).2 ∧
      (add p a b rd 1).2.reg.currentMode = (afterPartial p rd (a + b)).reg.currentMode := by
  rw [add, writeResult_one]
  by_cases hpc : ReadsAsPc p rd (a + b)
  · rw [if_pos hpc, if_pos (hasSpsr_of_jump p rd hjump hpc), afterPartial, if_pos hpc]
    exact ⟨rfl, .refl _, rfl⟩
  · rw [if_neg hpc, afterPartial, if_neg hpc]
    have hkept : FlagsOnly (armWriteRegister p rd (a + b))
        (armWriteCpsr (armWriteRegister p rd (a + b)) (armReadCpsr p)) :=
      .armWriteCpsr (by rw [armWriteRegister_cpsr]; rfl)
    have hflags := arithmeticFlags_flagsOnly (armWriteRegister p rd (a + b)) (a + b)
      (truth (a + b < a)) (signRaised a (a + b))
    refine ⟨rfl, hkept.symm.trans hflags, ?_⟩
    exact modeUpdate_congr ((hkept.symm.trans hflags).status.mono (by decide))

/-- A jump that the mode does not allow ends the ADC after the first addition. -/
theorem adc_of_jump (carryIn : Word) (hjump : ReadsAsPc p rd (a + b) ∧ ¬ armCurrentModeHasSpsr p) :
    adc p a b rd 1 carryIn = (UNDEFINED_INSTRUCTION, armWriteRegister p rd (a + b)) := by
  have hadd : add p a b rd 1 = (UNDEFINED_INSTRUCTION, armWriteRegister p rd (a + b)) := by
    rw [add, writeResult_one, if_pos hjump.1, if_neg hjump.2]
  rw [adc, hadd]
  rfl

/-- **ADC is two additions**: the second one adds the carry that came in to what the first has
written. -/
theorem adc_eq_add (carried : Bool)
    (hjump : ¬ (ReadsAsPc p rd (a + b) ∧ ¬ armCurrentModeHasSpsr p)) :
    adc p a b rd 1 (truth carried) =
      add (add p a b rd 1).2 (armReadRegister (afterPartial p rd (a + b)) rd) (truth carried) rd
        1 := by
  obtain ⟨hresult, hflags, hmode⟩ := add_afterPartial p a b rd hjump
  rw [adc, hresult, hflags.readRegister hmode]
  rfl

/-- What ADC writes: the sum in the mode of the second addition, the partial sum before. -/
theorem get_adc (carried : Bool)
    (hjump : ¬ (ReadsAsPc p rd (a + b) ∧ ¬ armCurrentModeHasSpsr p)) (s : Slot) :
    (adc p a b rd 1 (truth carried)).2.reg.get s =
      if slot rd (afterPartial p rd (a + b)).reg.currentMode = some s then
        armReadRegister (afterPartial p rd (a + b)) rd + truth carried
      else if slot rd p.reg.currentMode = some s then a + b
      else p.reg.get s := by
  obtain ⟨-, -, hmode⟩ := add_afterPartial p a b rd hjump
  rw [adc_eq_add p a b rd carried hjump, get_add, hmode, get_add]

/-- The carry that ADC leaves. -/
theorem cFlag_adc (carried : Bool)
    (hjump : ¬ (ReadsAsPc p rd (a + b) ∧ ¬ armCurrentModeHasSpsr p)) :
    cFlag (adc p a b rd 1 (truth carried)).2 =
      if ReadsAsPc (afterPartial p rd (a + b)) rd
          (armReadRegister (afterPartial p rd (a + b)) rd + truth carried) then
        if armCurrentModeHasSpsr (afterPartial p rd (a + b)) then
          (armReadSpsr (afterPartial p rd (a + b))).getLsbD C
        else if ReadsAsPc p rd (a + b) then (armReadSpsr p).getLsbD C
        else BitVec.carry 32 a b false
      else BitVec.carry 32 (armReadRegister (afterPartial p rd (a + b)) rd) (truth carried)
        false := by
  obtain ⟨-, hflags, hmode⟩ := add_afterPartial p a b rd hjump
  have hfirst : cFlag (add p a b rd 1).2 =
      if ReadsAsPc p rd (a + b) then (armReadSpsr p).getLsbD C
      else BitVec.carry 32 a b false := by
    rw [cFlag_add]
    split_ifs with hpc
    · rw [statusAfterJump, if_pos (hasSpsr_of_jump p rd hjump hpc)]
    · rfl
  rw [adc_eq_add p a b rd carried hjump, cFlag_add,
    if_congr (hflags.readsAsPc hmode ..) rfl rfl, statusAfterJump, hasSpsr_congr hmode,
    hflags.readSpsr hmode, apply_ite (fun status : Word => status.getLsbD C), ← hfirst]
  rfl

/-- Nothing is carried into the partial sum. -/
theorem partial_eq_iff (c : Bool) : a + b = a + b + truth c ↔ c = false := by
  have hzero : CarryOpcode.adc.value a b false = a + b := BitVec.add_zero _
  rw [← CarryOpcode.value_inj a b .adc, hzero, eq_comm]
  rfl

/-- In the same mode the second addition finds the partial sum, and adds the carry in. -/
theorem get_adc_same {s : Slot} (hrd : rd ≠ 15) (hslot : slot rd p.reg.currentMode = some s)
    (carried : Bool) (hjump : ¬ (ReadsAsPc p rd (a + b) ∧ ¬ armCurrentModeHasSpsr p))
    (hsame : slot rd (afterPartial p rd (a + b)).reg.currentMode = slot rd p.reg.currentMode) :
    armReadRegister (afterPartial p rd (a + b)) rd = a + b ∧
      (adc p a b rd 1 (truth carried)).2.reg.get s = a + b + truth carried := by
  have hfirst : armReadRegister (afterPartial p rd (a + b)) rd = a + b := by
    rw [armReadRegister_of_slot hrd (hsame.trans hslot), afterPartial, get_armWriteCpsr,
      get_armWriteRegister, if_pos hslot]
  refine ⟨hfirst, ?_⟩
  rw [get_adc p a b rd carried hjump, if_pos (hsame.trans hslot), hfirst]

/-- In another mode, with another `Rd`, the partial sum stays. -/
theorem get_adc_other {s : Slot} (hslot : slot rd p.reg.currentMode = some s) (carried : Bool)
    (hjump : ¬ (ReadsAsPc p rd (a + b) ∧ ¬ armCurrentModeHasSpsr p))
    (hother : slot rd (afterPartial p rd (a + b)).reg.currentMode ≠
      slot rd p.reg.currentMode) :
    (adc p a b rd 1 (truth carried)).2.reg.get s = a + b := by
  rw [get_adc p a b rd carried hjump, if_neg fun h => hother (h.trans hslot.symm), if_pos hslot]

/-- **ADC with the S bit.**  The two additions of the code are followed one by one; the second is
given the carry of the shifter and the value that `Rd` reads as. -/
theorem adc_right_iff {s : Slot} (hrd : rd ≠ 15) (hslot : slot rd p.reg.currentMode = some s)
    (carried : Bool) :
    ((adc p a b rd 1 (truth carried)).2.reg.get s = a + b + truth (cFlag p) ∧
        cFlag (adc p a b rd 1 (truth carried)).2 = BitVec.carry 32 a b (cFlag p)) ↔
      AdcExact p a b rd carried := by
  rw [AdcExact]
  by_cases hjump : ReadsAsPc p rd (a + b) ∧ ¬ armCurrentModeHasSpsr p
  · -- the partial sum and the old carry are what is left
    have hkept : cFlag (armWriteRegister p rd (a + b)) = cFlag p :=
      congrArg (fun cpsr : Word => cpsr.getLsbD C) (armWriteRegister_cpsr p rd (a + b))
    rw [if_pos hjump, adc_of_jump p a b rd _ hjump, hkept, get_armWriteRegister, if_pos hslot,
      partial_eq_iff]
    refine and_congr_right fun hclear => ?_
    rw [hclear, BitVec.carry_width, eq_comm, decide_eq_false_iff_not]
    simp
  · rw [if_neg hjump, cFlag_adc p a b rd carried hjump]
    by_cases hsame : slot rd (afterPartial p rd (a + b)).reg.currentMode =
        slot rd p.reg.currentMode
    · obtain ⟨hfirst, hvalue⟩ := get_adc_same p a b rd hrd hslot carried hjump hsame
      have hinj := @CarryOpcode.value_inj a b .adc carried (cFlag p)
      rw [if_pos hsame, hvalue, hfirst]
      refine (and_congr_left' hinj).trans (and_congr_right fun hin => ?_)
      rw [hin]
      by_cases hpc : ReadsAsPc (afterPartial p rd (a + b)) rd (a + b + truth (cFlag p))
      · rw [if_pos hpc, if_pos hpc]
      · rw [if_neg hpc, if_neg hpc, ← carry_eq_lt]
        exact adcCarry_iff a b (cFlag p)
    · rw [if_neg hsame, get_adc_other p a b rd hslot carried hjump hsame, partial_eq_iff]
      refine and_congr_right fun _ => ?_
      by_cases hpc : ReadsAsPc (afterPartial p rd (a + b)) rd
          (armReadRegister (afterPartial p rd (a + b)) rd + truth carried)
      · rw [if_pos hpc, if_pos hpc]
      · rw [if_neg hpc, if_neg hpc]

/-- ADC without the S bit: the second addition finds the partial sum. -/
theorem get_adc_plain {s : Slot} {setCond : Word} (hset : setCond ≠ 1) (hrd : rd ≠ 15)
    (hslot : slot rd p.reg.currentMode = some s) (carried : Bool) :
    (adc p a b rd setCond (truth carried)).2.reg.get s = a + b + truth carried := by
  have hadd : ∀ (q : ArmCore) (x y : Word),
      add q x y rd setCond = (0, armWriteRegister q rd (x + y)) := by
    intro q x y
    rw [add, writeResult_of_ne_one q _ rd _ hset]
  have hslot' : slot rd (armWriteRegister p rd (a + b)).reg.currentMode = some s := by
    rw [armWriteRegister_currentMode, hslot]
  rw [adc, hadd, if_pos rfl, hadd, get_armWriteRegister, if_pos hslot',
    armReadRegister_of_slot hrd hslot', get_armWriteRegister, if_pos hslot]

end Sums

/-! ## The instructions -/

/-- Where an opcode with carry is right: a condition on the state and the word, in terms of the
operands, the flag and the carry out of the shifter. -/
def CarryOpcode.Exact (p : ArmCore) (ins : Word) (opcode : CarryOpcode) : Prop :=
  HasDestination p ins ∧
    match opcode with
    | adc =>
        if getBit ins 20 = 1 then
          AdcExact p (rnValue p ins) (carry ins p).2 (u8 (getBits ins 15 12)) (shifterCarry ins p)
        else shifterCarry ins p = cFlag p
    | opcode => DifferenceExact opcode p ins

section Instructions

variable {p : ArmCore} {ins : Word}

/-- The dispatcher reaches ADC with the operands and with the carry of the shifter. -/
theorem exec_adc (p : ArmCore) (hcode : (getBits ins 24 21).toNat = CarryOpcode.adc.code) :
    armDataProcessingShift p ins =
      DataProcessing.adc p (rnValue p ins) (carry ins p).2 (u8 (getBits ins 15 12))
        (getBit ins 20) (truth (shifterCarry ins p)) := by
  rw [armDataProcessingShift, hcode, ← carry_fst]
  rfl

/-- For ADC, when the destination is not the program counter. -/
theorem multiWord_adc_iff (hcode : (getBits ins 24 21).toNat = CarryOpcode.adc.code)
    (hrd : u8 (getBits ins 15 12) ≠ 15) :
    MultiWord .adc p ins ↔ CarryOpcode.adc.Exact p ins := by
  have hexec := exec_adc p hcode
  have hright : ∀ s, slot (u8 (getBits ins 15 12)) p.reg.currentMode = some s →
      ((armDataProcessingShift p ins).2.reg.get s =
          CarryOpcode.adc.value (rnValue p ins) (carry ins p).2 (cFlag p) ∧
        (getBit ins 20 = 1 → cFlag (armDataProcessingShift p ins).2 =
          CarryOpcode.adc.carryOut (rnValue p ins) (carry ins p).2 (cFlag p)) ↔
        if getBit ins 20 = 1 then
          AdcExact p (rnValue p ins) (carry ins p).2 (u8 (getBits ins 15 12)) (shifterCarry ins p)
        else shifterCarry ins p = cFlag p) := by
    intro s hslot
    rw [hexec]
    by_cases hset : getBit ins 20 = 1
    · rw [if_pos hset, forall_prop_of_true hset, hset]
      exact adc_right_iff p _ _ _ hrd hslot (shifterCarry ins p)
    · rw [if_neg hset, get_adc_plain p _ _ _ hset hrd hslot]
      refine ⟨fun h => (CarryOpcode.value_inj _ _ .adc).mp h.1, fun h => ⟨?_, fun h1 => ?_⟩⟩
      · rw [h]
        rfl
      · exact absurd h1 hset
  constructor
  · rintro ⟨⟨s, hslot, hvalue⟩, hflag⟩
    exact ⟨Option.isSome_of_eq_some hslot, (hright s hslot).mp ⟨hvalue, hflag⟩⟩
  · rintro ⟨hdestination, hexact⟩
    obtain ⟨s, hslot⟩ := Option.isSome_iff_exists.mp hdestination
    obtain ⟨hvalue, hflag⟩ := (hright s hslot).mpr hexact
    exact ⟨⟨s, hslot, hvalue⟩, hflag⟩

/-- **The high words of a sum**: an ADCS that is right, after the sum of two low words has set the
carry flag, computes the sum of the double words and its carry. -/
theorem MultiWord.double (h : MultiWord .adc p ins) (hset : getBit ins 20 = 1) {al bl : Word}
    (hlow : cFlag p = BitVec.carry 32 al bl false) :
    ∃ s, slot (u8 (getBits ins 15 12)) p.reg.currentMode = some s ∧
      (armDataProcessingShift p ins).2.reg.get s ++ (al + bl) =
        (rnValue p ins ++ al) + ((carry ins p).2 ++ bl) ∧
      cFlag (armDataProcessingShift p ins).2 =
        BitVec.carry 64 (rnValue p ins ++ al) ((carry ins p).2 ++ bl) false := by
  obtain ⟨⟨s, hslot, hvalue⟩, hflag⟩ := h
  obtain ⟨hsum, hcarry⟩ := add_append_append (rnValue p ins) (carry ins p).2 al bl false
  have htruth : ∀ c : Bool, truth c = BitVec.ofNat 32 c.toNat := by
    intro c
    cases c <;> rfl
  refine ⟨s, hslot, ?_, ?_⟩
  · rw [hvalue, CarryOpcode.value, hlow, htruth]
    simpa using hsum
  · rw [hflag hset, CarryOpcode.carryOut, hlow, hcarry]

/-- **Where multi-word arithmetic works.**  For every state and every ADC, SBC or RSC whose `Rd`
is not `R15`, exactly in the cases of `Exact`; and there an ADCS continues a sum of low words. -/
theorem multiWord_iff (p : ArmCore) {ins : Word} {opcode : CarryOpcode}
    (hcode : (getBits ins 24 21).toNat = opcode.code) (hrd : u8 (getBits ins 15 12) ≠ 15) :
    (MultiWord opcode p ins ↔ opcode.Exact p ins) ∧
      (opcode = .adc → opcode.Exact p ins → getBit ins 20 = 1 → ∀ al bl : Word,
        cFlag p = BitVec.carry 32 al bl false →
          ∃ s, slot (u8 (getBits ins 15 12)) p.reg.currentMode = some s ∧
            (armDataProcessingShift p ins).2.reg.get s ++ (al + bl) =
              (rnValue p ins ++ al) + ((carry ins p).2 ++ bl) ∧
            cFlag (armDataProcessingShift p ins).2 =
              BitVec.carry 64 (rnValue p ins ++ al) ((carry ins p).2 ++ bl) false) := by
  have hiff : MultiWord opcode p ins ↔ opcode.Exact p ins := by
    cases opcode with
    | adc => exact multiWord_adc_iff hcode hrd
    | sbc => exact multiWord_difference_iff p hcode (by decide)
    | rsc => exact multiWord_difference_iff p hcode (by decide)
  refine ⟨hiff, ?_⟩
  rintro rfl hexact hset al bl hlow
  exact (hiff.mpr hexact).double hset hlow

end Instructions

/-- `ADC r0, r1, r2` on zeros. -/
theorem multiWord_iff_adc :
    MultiWord .adc (ArmCore.load 0x1d3 []) 0xE0A10002 ↔
      CarryOpcode.adc.Exact (ArmCore.load 0x1d3 []) 0xE0A10002 :=
  (@multiWord_iff (ArmCore.load 0x1d3 []) 0xE0A10002 .adc (by decide) (by decide)).1

/-- `SBCS r0, r1, r2` on zeros with the carry set: there is no borrow, and the carry is
cleared. -/
theorem multiWord_counterexample :
    ¬ ∀ (p : ArmCore) (ins : Word) (opcode : CarryOpcode),
      (getBits ins 24 21).toNat = opcode.code → u8 (getBits ins 15 12) ≠ 15 →
        MultiWord opcode p ins := by
  intro h
  have hflag := (h (ArmCore.load 0x200001d3 []) 0xE0D10002 .sbc (by decide) (by decide)).flag
    (by decide)
  exact absurd hflag (by decide)

/-- **ADDS and ADCS**: unless its result is taken for a jump, an ADDS leaves the carry of the low
words, and an ADCS that is right completes the sum of the double words. -/
theorem adds_adcs {p q : ArmCore} {low high : Word} (hlow : (getBits low 24 21).toNat = 4)
    (hsetLow : getBit low 20 = 1)
    (hjump : ¬ ReadsAsPc p (u8 (getBits low 15 12)) (rnValue p low + (carry low p).2))
    (hq : q.reg.cpsr = (armDataProcessingShift p low).2.reg.cpsr)
    (hhigh : MultiWord .adc q high) (hset : getBit high 20 = 1) :
    ∃ s, slot (u8 (getBits high 15 12)) q.reg.currentMode = some s ∧
      (armDataProcessingShift q high).2.reg.get s ++ (rnValue p low + (carry low p).2) =
        (rnValue q high ++ rnValue p low) + ((carry high q).2 ++ (carry low p).2) ∧
      cFlag (armDataProcessingShift q high).2 =
        BitVec.carry 64 (rnValue q high ++ rnValue p low) ((carry high q).2 ++ (carry low p).2)
          false := by
  refine hhigh.double hset ?_
  have hexec : armDataProcessingShift p low =
      DataProcessing.add p (rnValue p low) (carry low p).2 (u8 (getBits low 15 12)) 1 := by
    rw [armDataProcessingShift, hlow, hsetLow]
    rfl
  have hflag : cFlag q = cFlag (armDataProcessingShift p low).2 :=
    congrArg (fun cpsr : Word => cpsr.getLsbD C) hq
  rw [hflag, hexec, cFlag_add, if_neg hjump]

end ArmSimulator
