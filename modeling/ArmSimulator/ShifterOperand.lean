import ArmSimulator.Core

/-!
# The shifter operand (`arm_data_processing_functions.c`)

Each helper of the C file stores a shifter operand through a pointer and returns the carry out; here
it returns the pair (carry out, shifter operand).

`carry` is a cascade of eight tests that overlap: several may hold for one instruction, and the last
one that holds decides.  The result is uninitialised before the first test; it is an `Option` until
the end of the cascade, and `carryCascade_isSome` shows that some test always holds.

One of the tests lacks its comparison: any of bits 7 … 4 selects the left shift by register.  The
tests behind it take the other kinds of shifts back, but for a left shift by an odd immediate, on
which the two helpers agree, and for the rotation by a register, which has no test and stays a left
shift.

Which operand and which carry a word gets is computed in `ShiftOperands`, against the shifts of the
library; here are only the code and two facts that every caller needs, that both results are
assigned and that the carry out is a bit.
-/

namespace ArmSimulator

/-- A carry out and a shifter operand, the two results of every helper. -/
abbrev Shifted := Word × Word

/-- `Arithmetic_shift_right_by_immediate`. -/
def arithmeticShiftRightByImmediate (shiftImm : Byte) (rm : Word) : Shifted :=
  if shiftImm = 0 then
    if getBit rm 31 = 0 then (getBit rm 31, 0) else (getBit rm 31, 0xFFFFFFFF)
  else (getBit rm (shiftImm.toNat - 1), asr rm shiftImm)

/-- `Arithmetic_shift_right_by_register`. -/
def arithmeticShiftRightByRegister (rm rs : Word) (p : ArmCore) : Shifted :=
  let amount := getBits rs 7 0
  if amount = 0 then (getBit (armReadCpsr p) 29, rm)
  else if amount.toNat < 32 then (getBit rm (amount.toNat - 1), asr rm (u8 amount))
  else if getBit rm 31 = 0 then (getBit rm 31, 0)
  else (getBit rm 31, 0xFFFFFFFF)

/-- `rotate_right_with_extend`. -/
def rotateRightWithExtend (p : ArmCore) (rm : Word) : Shifted :=
  let cFlag := getBit (armReadCpsr p) 29
  (getBit rm 0, logicalShiftLeft cFlag 31 ||| logicalShiftRight rm 1)

/-- `Rotate_right_by_immediate`. -/
def rotateRightByImmediate (p : ArmCore) (shiftImm : Byte) (rm : Word) : Shifted :=
  if shiftImm = 0 then rotateRightWithExtend p rm
  else (getBit rm (shiftImm.toNat - 1), ror rm shiftImm)

/-- `immedate`. -/
def immedate (p : ArmCore) (immed8 rotateImm : Byte) : Shifted :=
  let operand := ror (u32 immed8) (rotateImm * 2)
  if rotateImm = 0 then (getBit (armReadCpsr p) 29, operand)
  else (getBit operand 31, operand)

/-- `logical_shift_left_by_immediate`. -/
def logicalShiftLeftByImmediate (p : ArmCore) (shiftImm rm : Word) : Shifted :=
  if shiftImm = 0 then (getBit (armReadCpsr p) 29, rm)
  else (getBit rm (32 - shiftImm.toNat), logicalShiftLeft rm (u8 shiftImm))

/-- `logical_shift_left_by_register`. -/
def logicalShiftLeftByRegister (p : ArmCore) (rm rs : Word) : Shifted :=
  let amount := getBits rs 7 0
  if amount = 0 then (getBit (armReadCpsr p) 29, rm)
  else if amount.toNat < 32 then
    (getBit rm (32 - amount.toNat), logicalShiftLeft rm (u8 amount))
  else if amount = 32 then (getBit rm 0, 0)
  else (0, 0)

/-- `logical_shift_right_by_immediate`. -/
def logicalShiftRightByImmediate (shiftImm rm : Word) : Shifted :=
  if shiftImm = 0 then (getBit rm 31, 0)
  else (getBit rm (shiftImm.toNat - 1), logicalShiftRight rm (u8 shiftImm))

/-- `logical_shift_right_by_register`. -/
def logicalShiftRightByRegister (p : ArmCore) (rs rm : Word) : Shifted :=
  let amount := getBits rs 7 0
  if amount = 0 then (getBit (armReadCpsr p) 29, rm)
  else if amount.toNat < 32 then
    (getBit rm (amount.toNat - 1), logicalShiftRight rm (u8 amount))
  else if amount = 32 then (getBit rm 31, 0)
  else (0, 0)

/-- The tests of `carry` on an instruction whose bit 25 is clear, in their order;
a later test overwrites the result of an earlier one. -/
def carryCascade (ins : Word) (p : ArmCore) (shiftAmount valueRm : Word) : Option Shifted :=
  let r : Option Shifted := none
  let r := if getBits ins 6 4 = 0 then
    some (logicalShiftLeftByImmediate p shiftAmount valueRm) else r
  -- no comparison here: any of bits 7 … 4 selects the left shift by register
  let r := if getBits ins 7 4 ≠ 0 then
    some (logicalShiftLeftByRegister p valueRm shiftAmount) else r
  let r := if getBits ins 6 4 = 2 then
    some (logicalShiftRightByImmediate shiftAmount valueRm) else r
  let r := if getBits ins 7 4 = 3 then
    some (logicalShiftRightByRegister p shiftAmount valueRm) else r
  let r := if getBits ins 6 4 = 4 then
    some (arithmeticShiftRightByImmediate (u8 shiftAmount) valueRm) else r
  let r := if getBits ins 7 4 = 5 then
    some (arithmeticShiftRightByRegister valueRm shiftAmount p) else r
  let r := if getBits ins 6 4 = 6 then
    some (rotateRightByImmediate p (u8 shiftAmount) valueRm) else r
  if getBits ins 11 4 = 6 then some (rotateRightWithExtend p valueRm) else r

/-- `carry`.  Bit 25 selects an immediate; otherwise the amount is the low part of a register, with
bit 4 set, or the immediate in bits 11 … 7. -/
def carry (ins : Word) (p : ArmCore) : Shifted :=
  if getBit ins 25 ≠ 0 then
    immedate p (u8 (getBits ins 7 0)) (u8 (getBits ins 11 8))
  else
    let valueRm := armReadRegister p (u8 (getBits ins 3 0))
    let shiftAmount :=
      if getBit ins 4 = 1 then armReadRegister p (u8 (getBits ins 11 8))
      else getBits ins 11 7
    (carryCascade ins p shiftAmount valueRm).getD (0, 0)

/-- **Both results of `carry` are always assigned**: bits 6 … 4 are zero, or one
of bits 7 … 4 is set. -/
theorem carryCascade_isSome (ins : Word) (p : ArmCore) (shiftAmount valueRm : Word) :
    (carryCascade ins p shiftAmount valueRm).isSome = true := by
  have hcover : getBits ins 6 4 = 0 ∨ getBits ins 7 4 ≠ 0 := by
    -- bits 6 … 4 are three of the four bits 7 … 4
    by_contra hnone
    rw [not_or, not_not] at hnone
    have h74 := congrArg BitVec.toNat hnone.2
    apply hnone.1
    apply BitVec.eq_of_toNat_eq
    rw [toNat_getBits] at h74 ⊢
    simp only [BitVec.ofNat_eq_ofNat, BitVec.toNat_ofNat] at h74 ⊢
    omega
  unfold carryCascade
  rcases hcover with h | h <;> simp only [h, ne_eq, not_false_eq_true, if_true] <;>
    split_ifs <;> rfl

/-! ## The carry out

By cases on the helpers, and then through the cascade. -/

/-- The carry out of the shifter, as a bit. -/
def shifterCarry (ins : Word) (p : ArmCore) : Bool := (carry ins p).1.getLsbD 0

/-- The carry out of every helper is a bit.  The flag updates shift it into its place without a
mask, so this is what keeps the other bits of the CPSR. -/
def Shifted.IsBit (r : Shifted) : Prop := ∃ b : Bool, r.1 = truth b

theorem isBit_getBit (x : Word) (i : ℕ) (operand : Word) : Shifted.IsBit (getBit x i, operand) :=
  ⟨_, getBit_eq_truth x i⟩

theorem isBit_zero (operand : Word) : Shifted.IsBit (0, operand) := ⟨false, rfl⟩

/-- A test of the cascade keeps what holds of the results. -/
theorem forall_mem_ite {P : Shifted → Prop} {test : Prop} [Decidable test] {x : Shifted}
    {r : Option Shifted} (hx : P x) (hr : ∀ y ∈ r, P y) :
    ∀ y ∈ (if test then some x else r), P y := by
  split_ifs
  · rintro y ⟨⟩
    exact hx
  · exact hr

theorem carryCascade_isBit (ins : Word) (p : ArmCore) (shiftAmount valueRm : Word) :
    ∀ r ∈ carryCascade ins p shiftAmount valueRm, r.IsBit := by
  have hextend : (rotateRightWithExtend p valueRm).IsBit := isBit_getBit ..
  unfold carryCascade
  refine forall_mem_ite hextend <| forall_mem_ite ?_ <| forall_mem_ite ?_ <|
    forall_mem_ite ?_ <| forall_mem_ite ?_ <| forall_mem_ite ?_ <| forall_mem_ite ?_ <|
    forall_mem_ite ?_ fun y hy => nomatch hy
  · unfold rotateRightByImmediate
    split_ifs
    · exact hextend
    · exact isBit_getBit ..
  · unfold arithmeticShiftRightByRegister
    dsimp only
    split_ifs <;> exact isBit_getBit ..
  · unfold arithmeticShiftRightByImmediate
    split_ifs <;> exact isBit_getBit ..
  · unfold logicalShiftRightByRegister
    dsimp only
    split_ifs
    · exact isBit_getBit ..
    · exact isBit_getBit ..
    · exact isBit_getBit ..
    · exact isBit_zero _
  · unfold logicalShiftRightByImmediate
    split_ifs <;> exact isBit_getBit ..
  · unfold logicalShiftLeftByRegister
    dsimp only
    split_ifs
    · exact isBit_getBit ..
    · exact isBit_getBit ..
    · exact isBit_getBit ..
    · exact isBit_zero _
  · unfold logicalShiftLeftByImmediate
    split_ifs <;> exact isBit_getBit ..

/-- **The carry out of `carry` is a bit.** -/
theorem carry_fst (ins : Word) (p : ArmCore) : (carry ins p).1 = truth (shifterCarry ins p) := by
  have hcascade : ∀ amount value,
      Shifted.IsBit ((carryCascade ins p amount value).getD (0, 0)) := by
    intro amount value
    obtain ⟨r, hr⟩ := Option.isSome_iff_exists.mp (carryCascade_isSome ins p amount value)
    rw [hr]
    exact carryCascade_isBit ins p amount value r hr
  have hbit : (carry ins p).IsBit := by
    unfold carry
    split_ifs
    · unfold immedate
      dsimp only
      split_ifs <;> exact isBit_getBit ..
    · exact hcascade _ _
    · exact hcascade _ _
  obtain ⟨b, hb⟩ := hbit
  rw [shifterCarry, hb]
  cases b <;> rfl

end ArmSimulator
