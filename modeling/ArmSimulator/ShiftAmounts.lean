import ArmSimulator.Library.Logged
import ArmSimulator.DataProcessing
import ArmSimulator.LoadStore

/-!
# The amounts of the shifts

C leaves a shift of a 32-bit value undefined when its amount is not one of 0 … 31.  The functions of
this file compute what the ones of the same name in the model compute, and log the amount of every
shift that `asr`, `ror`, `logical_shift_left`, `logical_shift_right` and `get_bit` evaluate, in the
order of the C code.  The amounts are integers: `32 - shift` is an `int`.

* `value_armDataProcessingShift` and its like: without the log the two computations are one.
* `Defined`, all the amounts are in range; `shifts_defined_iff` says for which instructions.

The helpers of the shifter operand test for the amounts at both ends before they shift.  `immedate`
and the MSR rotate first: `ror` by 0 contains a shift by 32.

The copy is written in a monad that collects a log (`Logged`), so that a function here differs from
the one in the model by its `do` and its arrows only, and a reader can hold the two side by side.
Two families of simp lemmas do the work.  The `value_` lemmas say that the value of a copy is the
function itself; they are proved from the bottom up and make sure that a log belongs to the
computation it is about.  The `defined_` lemmas say that every amount in the log is in range, a
conjunction over the steps of the computation.

An amount that is not in range would be taken modulo 32 by the machine; the values here agree with
the model there too, so the statement about the amounts is the only one in which it shows.
-/

namespace ArmSimulator

/-- A computation with the amounts of its shifts. -/
abbrev ShiftLog := Logged ℤ

/-- All the shifts of a computation are defined: the log holds amounts from 0 to 31 only. -/
abbrev Defined {α : Type} (x : ShiftLog α) : Prop := x.Every fun n => 0 ≤ n ∧ n < 32

namespace ShiftLog

open Logged

/-! ## The functions of `util.c` -/

/-- `value >> amount`; the compiled machine takes the amount modulo 32. -/
def shiftRight (value : Word) (amount : ℤ) : ShiftLog Word :=
  ⟨value >>> (amount % 32).toNat, [amount]⟩

/-- `value << amount`. -/
def shiftLeft (value : Word) (amount : ℤ) : ShiftLog Word :=
  ⟨value <<< (amount % 32).toNat, [amount]⟩

/-- `get_bit(x, i)`. -/
def getBit (x : Word) (i : ℤ) : ShiftLog Word := ⟨ArmSimulator.getBit x i.toNat, [i]⟩

/-- `asr`. -/
def asr (value : Word) (shift : Byte) : ShiftLog Word := do
  let low ← shiftRight value shift.toNat
  let sign ← getBit value 31
  let high ← (if sign ≠ 0 then shiftLeft (BitVec.allOnes 32) (32 - shift.toNat) else pure 0 :
    ShiftLog Word)
  pure (low ||| high)

/-- `ror`. -/
def ror (value : Word) (rotation : Byte) : ShiftLog Word := do
  let low ← shiftRight value rotation.toNat
  let high ← shiftLeft value (32 - rotation.toNat)
  pure (low ||| high)

/-- `logical_shift_right`. -/
def logicalShiftRight (value : Word) (shift : Byte) : ShiftLog Word :=
  shiftRight value shift.toNat

/-- `logical_shift_left`. -/
def logicalShiftLeft (value : Word) (shift : Byte) : ShiftLog Word :=
  shiftLeft value shift.toNat

/-! ## The shifter operand -/

/-- `Arithmetic_shift_right_by_immediate`. -/
def arithmeticShiftRightByImmediate (shiftImm : Byte) (rm : Word) : ShiftLog Shifted :=
  if shiftImm = 0 then do
    let sign ← getBit rm 31
    if sign = 0 then do
      let c ← getBit rm 31
      pure (c, 0)
    else do
      let c ← getBit rm 31
      pure (c, 0xFFFFFFFF)
  else do
    let operand ← asr rm shiftImm
    let c ← getBit rm (shiftImm.toNat - 1)
    pure (c, operand)

/-- `Arithmetic_shift_right_by_register`. -/
def arithmeticShiftRightByRegister (rm rs : Word) (p : ArmCore) : ShiftLog Shifted :=
  let amount := getBits rs 7 0
  if amount = 0 then do
    let c ← getBit (armReadCpsr p) 29
    pure (c, rm)
  else if amount.toNat < 32 then do
    let operand ← asr rm (u8 amount)
    let c ← getBit rm (amount.toNat - 1)
    pure (c, operand)
  else do
    let sign ← getBit rm 31
    if sign = 0 then do
      let c ← getBit rm 31
      pure (c, 0)
    else do
      let c ← getBit rm 31
      pure (c, 0xFFFFFFFF)

/-- `rotate_right_with_extend`. -/
def rotateRightWithExtend (p : ArmCore) (rm : Word) : ShiftLog Shifted := do
  let cFlag ← getBit (armReadCpsr p) 29
  let high ← logicalShiftLeft cFlag 31
  let low ← logicalShiftRight rm 1
  let c ← getBit rm 0
  pure (c, high ||| low)

/-- `Rotate_right_by_immediate`. -/
def rotateRightByImmediate (p : ArmCore) (shiftImm : Byte) (rm : Word) : ShiftLog Shifted :=
  if shiftImm = 0 then rotateRightWithExtend p rm
  else do
    let operand ← ror rm shiftImm
    let c ← getBit rm (shiftImm.toNat - 1)
    pure (c, operand)

/-- `immedate`: it rotates before it tests `rotate_imm`. -/
def immedate (p : ArmCore) (immed8 rotateImm : Byte) : ShiftLog Shifted := do
  let operand ← ror (u32 immed8) (rotateImm * 2)
  let c ← (if rotateImm = 0 then getBit (armReadCpsr p) 29 else getBit operand 31 : ShiftLog Word)
  pure (c, operand)

/-- `logical_shift_left_by_immediate`. -/
def logicalShiftLeftByImmediate (p : ArmCore) (shiftImm rm : Word) : ShiftLog Shifted :=
  if shiftImm = 0 then do
    let c ← getBit (armReadCpsr p) 29
    pure (c, rm)
  else do
    let operand ← logicalShiftLeft rm (u8 shiftImm)
    let c ← getBit rm (32 - shiftImm.toNat)
    pure (c, operand)

/-- `logical_shift_left_by_register`. -/
def logicalShiftLeftByRegister (p : ArmCore) (rm rs : Word) : ShiftLog Shifted :=
  let amount := getBits rs 7 0
  if amount = 0 then do
    let c ← getBit (armReadCpsr p) 29
    pure (c, rm)
  else if amount.toNat < 32 then do
    let operand ← logicalShiftLeft rm (u8 amount)
    let c ← getBit rm (32 - amount.toNat)
    pure (c, operand)
  else if amount = 32 then do
    let c ← getBit rm 0
    pure (c, 0)
  else pure (0, 0)

/-- `logical_shift_right_by_immediate`. -/
def logicalShiftRightByImmediate (shiftImm rm : Word) : ShiftLog Shifted :=
  if shiftImm = 0 then do
    let c ← getBit rm 31
    pure (c, 0)
  else do
    let operand ← logicalShiftRight rm (u8 shiftImm)
    let c ← getBit rm (shiftImm.toNat - 1)
    pure (c, operand)

/-- `logical_shift_right_by_register`. -/
def logicalShiftRightByRegister (p : ArmCore) (rs rm : Word) : ShiftLog Shifted :=
  let amount := getBits rs 7 0
  if amount = 0 then do
    let c ← getBit (armReadCpsr p) 29
    pure (c, rm)
  else if amount.toNat < 32 then do
    let operand ← logicalShiftRight rm (u8 amount)
    let c ← getBit rm (amount.toNat - 1)
    pure (c, operand)
  else if amount = 32 then do
    let c ← getBit rm 31
    pure (c, 0)
  else pure (0, 0)

/-- A test of `carry`: it keeps the result `r`, or overwrites it. -/
def select (test : Prop) [Decidable test] (x : ShiftLog Shifted) (r : Option Shifted) :
    ShiftLog (Option Shifted) :=
  if test then some <$> x else pure r

/-- The tests of `carry` on an instruction whose bit 25 is clear. -/
def carryCascade (ins : Word) (p : ArmCore) (shiftAmount valueRm : Word) :
    ShiftLog (Option Shifted) := do
  let r ← select (getBits ins 6 4 = 0) (logicalShiftLeftByImmediate p shiftAmount valueRm) none
  let r ← select (getBits ins 7 4 ≠ 0) (logicalShiftLeftByRegister p valueRm shiftAmount) r
  let r ← select (getBits ins 6 4 = 2) (logicalShiftRightByImmediate shiftAmount valueRm) r
  let r ← select (getBits ins 7 4 = 3) (logicalShiftRightByRegister p shiftAmount valueRm) r
  let r ← select (getBits ins 6 4 = 4)
    (arithmeticShiftRightByImmediate (u8 shiftAmount) valueRm) r
  let r ← select (getBits ins 7 4 = 5) (arithmeticShiftRightByRegister valueRm shiftAmount p) r
  let r ← select (getBits ins 6 4 = 6) (rotateRightByImmediate p (u8 shiftAmount) valueRm) r
  select (getBits ins 11 4 = 6) (rotateRightWithExtend p valueRm) r

/-- `carry`. -/
def carry (ins : Word) (p : ArmCore) : ShiftLog Shifted := do
  let immediate ← getBit ins 25
  if immediate ≠ 0 then immedate p (u8 (getBits ins 7 0)) (u8 (getBits ins 11 8))
  else do
    let valueRm := armReadRegister p (u8 (getBits ins 3 0))
    let register ← getBit ins 4
    let shiftAmount :=
      if register = 1 then armReadRegister p (u8 (getBits ins 11 8)) else getBits ins 11 7
    let r ← carryCascade ins p shiftAmount valueRm
    pure (r.getD (0, 0))

/-! ## Data processing -/

/-- `nzc_shifftercarry_update`. -/
def nzcShifftercarryUpdate (p : ArmCore) (result c : Word) : ShiftLog ArmCore := do
  let _ ← getBit result 31
  pure (ArmSimulator.nzcShifftercarryUpdate p result c)

/-- `get_bit(op,31) && !get_bit(result,31)`. -/
def signDropped (op result : Word) : ShiftLog Word := do
  let before ← getBit op 31
  if before ≠ 0 then do
    let after ← getBit result 31
    pure (truth (¬ after ≠ 0))
  else pure 0

/-- `!get_bit(op,31) && get_bit(result,31)`. -/
def signRaised (op result : Word) : ShiftLog Word := do
  let before ← getBit op 31
  if before ≠ 0 then pure 0
  else do
    let after ← getBit result 31
    pure (truth (after ≠ 0))

/-- The flag update of the arithmetic opcodes: N, Z and C, then V. -/
def arithmeticFlags (p : ArmCore) (result : Word) (cFlag vFlag : ShiftLog Word) :
    ShiftLog ArmCore := do
  let c ← cFlag
  let p ← nzcShifftercarryUpdate p result c
  let v ← vFlag
  pure (armWriteCpsr p (vCpsr (armReadCpsr p) v))

/-- The body shared by the opcodes with a destination. -/
def writeResult (p : ArmCore) (result : Word) (rd : Byte) (setCond : Word)
    (updateFlags : ArmCore → ShiftLog ArmCore) : ShiftLog (Int × ArmCore) :=
  let p := armWriteRegister p rd result
  if setCond = 1 ∧ armReadRegister p rd = armReadRegister p 15 then
    if armCurrentModeHasSpsr p then pure (0, armWriteCpsr p (armReadSpsr p))
    else pure (UNDEFINED_INSTRUCTION, p)
  else if setCond = 1 then do
    let p ← updateFlags p
    pure (0, p)
  else pure (0, p)

/-- `and`. -/
def and (p : ArmCore) (op1 shiftedOp2 : Word) (rd : Byte) (setCond c : Word) :
    ShiftLog (Int × ArmCore) :=
  let result := op1 &&& shiftedOp2
  writeResult p result rd setCond fun p => nzcShifftercarryUpdate p result c

/-- `eor`. -/
def eor (p : ArmCore) (op1 shiftedOp2 : Word) (rd : Byte) (setCond c : Word) :
    ShiftLog (Int × ArmCore) :=
  let result := op1 ^^^ shiftedOp2
  writeResult p result rd setCond fun p => nzcShifftercarryUpdate p result c

/-- `sub`. -/
def sub (p : ArmCore) (op1 shiftedOp2 : Word) (rd : Byte) (setCond : Word) :
    ShiftLog (Int × ArmCore) :=
  let result := op1 - shiftedOp2
  writeResult p result rd setCond fun p =>
    arithmeticFlags p result (pure (truth (op1 < result))) (signDropped op1 result)

/-- `rsb`. -/
def rsb (p : ArmCore) (op1 shiftedOp2 : Word) (rd : Byte) (setCond : Word) :
    ShiftLog (Int × ArmCore) :=
  let result := shiftedOp2 - op1
  writeResult p result rd setCond fun p =>
    arithmeticFlags p result ((fun v => truth (v = 0)) <$> signDropped shiftedOp2 result)
      (signDropped shiftedOp2 result)

/-- `add`. -/
def add (p : ArmCore) (op1 shiftedOp2 : Word) (rd : Byte) (setCond : Word) :
    ShiftLog (Int × ArmCore) :=
  let result := op1 + shiftedOp2
  writeResult p result rd setCond fun p =>
    arithmeticFlags p result (pure (truth (result < op1))) (signRaised op1 result)

/-- `adc`. -/
def adc (p : ArmCore) (opGauche opDroite : Word) (rd : Byte) (setCond carryIn : Word) :
    ShiftLog (Int × ArmCore) := do
  let partiel ← add p opGauche opDroite rd setCond
  if partiel.1 = 0 then add partiel.2 (armReadRegister partiel.2 rd) carryIn rd setCond
  else pure partiel

/-- `sbc`. -/
def sbc (p : ArmCore) (op1 shiftedOp2 : Word) (rd : Byte) (setCond carryIn : Word) :
    ShiftLog (Int × ArmCore) :=
  let result := op1 - shiftedOp2 - truth (carryIn = 0)
  writeResult p result rd setCond fun p =>
    arithmeticFlags p result (pure (truth (op1 < result))) (signDropped op1 result)

/-- `rsc`. -/
def rsc (p : ArmCore) (op1 shiftedOp2 : Word) (rd : Byte) (setCond carryIn : Word) :
    ShiftLog (Int × ArmCore) :=
  let result := shiftedOp2 - op1 - truth (carryIn = 0)
  writeResult p result rd setCond fun p =>
    arithmeticFlags p result (pure (truth (op1 < result))) (signDropped op1 result)

/-- `tst`. -/
def tst (p : ArmCore) (op1 shiftedOp2 : Word) (_rd : Byte) (c : Word) :
    ShiftLog (Int × ArmCore) := do
  let p ← nzcShifftercarryUpdate p (op1 &&& shiftedOp2) c
  pure (0, p)

/-- `teq`. -/
def teq (p : ArmCore) (op1 shiftedOp2 : Word) (rd : Byte) (c : Word) :
    ShiftLog (Int × ArmCore) := do
  let eored ← eor p op1 shiftedOp2 rd 1 c
  let p ← nzcShifftercarryUpdate eored.2 (BitVec.ofInt 32 eored.1) c
  pure (0, p)

/-- `cmp`. -/
def cmp (p : ArmCore) (op1 shiftedOp2 : Word) (_rd : Byte) : ShiftLog (Int × ArmCore) := do
  let result := op1 - shiftedOp2
  let p ← arithmeticFlags p result (pure (truth (op1 < result))) (signDropped op1 result)
  pure (0, p)

/-- `cmn`. -/
def cmn (p : ArmCore) (op1 shiftedOp2 : Word) (_rd : Byte) : ShiftLog (Int × ArmCore) := do
  let result := op1 + shiftedOp2
  let p ← arithmeticFlags p result (pure (truth (result < op1))) (signRaised op1 result)
  pure (0, p)

/-- `orr`. -/
def orr (p : ArmCore) (op1 shiftedOp2 : Word) (rd : Byte) (setCond c : Word) :
    ShiftLog (Int × ArmCore) :=
  let result := op1 ||| shiftedOp2
  writeResult p result rd setCond fun p => nzcShifftercarryUpdate p result c

/-- `mov`. -/
def mov (p : ArmCore) (shiftedOp2 : Word) (rd : Byte) (setCond c : Word) :
    ShiftLog (Int × ArmCore) :=
  writeResult p shiftedOp2 rd setCond fun p => nzcShifftercarryUpdate p shiftedOp2 c

/-- `bic`. -/
def bic (p : ArmCore) (op1 shiftedOp2 : Word) (rd : Byte) (setCond : Word) :
    ShiftLog (Int × ArmCore) :=
  let result := op1 &&& ~~~shiftedOp2
  writeResult p result rd setCond fun p => do
    let c ← getBit result 28
    nzcShifftercarryUpdate p result c

/-- `mvn`. -/
def mvn (p : ArmCore) (shiftedOp2 : Word) (rd : Byte) (setCond c : Word) :
    ShiftLog (Int × ArmCore) :=
  mov p (~~~shiftedOp2) rd setCond c

/-- The choice of `arm_data_processing_shift`. -/
def opcode (code : ℕ) (p : ArmCore) (opGauche shifterOperand : Word) (rd : Byte)
    (setCond c : Word) : ShiftLog (Int × ArmCore) :=
  match code with
  | 0 => and p opGauche shifterOperand rd setCond c
  | 1 => eor p opGauche shifterOperand rd setCond c
  | 2 => sub p opGauche shifterOperand rd setCond
  | 3 => rsb p opGauche shifterOperand rd setCond
  | 4 => add p opGauche shifterOperand rd setCond
  | 5 => adc p opGauche shifterOperand rd setCond c
  | 6 => sbc p opGauche shifterOperand rd setCond c
  | 7 => rsc p opGauche shifterOperand rd setCond c
  | 8 => tst p opGauche shifterOperand rd c
  | 9 => teq p opGauche shifterOperand rd c
  | 10 => cmp p opGauche shifterOperand rd
  | 11 => cmn p opGauche shifterOperand rd
  | 12 => orr p opGauche shifterOperand rd setCond c
  | 13 => mov p shifterOperand rd setCond c
  | 14 => bic p opGauche shifterOperand rd setCond
  | 15 => mvn p shifterOperand rd setCond c
  | _ => pure (UNDEFINED_INSTRUCTION, p)

/-- `arm_data_processing_shift`. -/
def armDataProcessingShift (p : ArmCore) (ins : Word) : ShiftLog (Int × ArmCore) := do
  let opGauche := armReadRegister p (u8 (getBits ins 19 16))
  let shifted ← carry ins p
  let setCond ← getBit ins 20
  opcode (getBits ins 24 21).toNat p opGauche shifted.2 (u8 (getBits ins 15 12)) setCond shifted.1

/-! ## MSR -/

/-- The operand of an MSR. -/
def msrOperand (p : ArmCore) (ins immediate : Word) : ShiftLog (Option Byte) :=
  let bits07 := u8 (getBits ins 8 0)
  if immediate = 0 then
    if getBits (u32 bits07) 7 4 = 0 then
      pure (some (u8 (armReadRegister p (u8 (getBits (u32 bits07) 3 0)))))
    else pure none
  else (fun x => some (u8 x)) <$> ror (u32 bits07) (u8 (getBits ins 11 8))

/-- The byte mask of an MSR. -/
def msrByteMask (ins : Word) : ShiftLog Word := do
  let fieldMask := getBits ins 19 16
  let b0 ← getBit fieldMask 0
  let b1 ← getBit fieldMask 0
  let b2 ← getBit fieldMask 0
  let b3 ← getBit fieldMask 0
  let byteMask : Word := 0
  let byteMask := if b0 = 1 then byteMask ||| 0x000000FF else byteMask
  let byteMask := if b1 = 1 then byteMask ||| 0x0000FF00 else byteMask
  let byteMask := if b2 = 1 then byteMask ||| 0x00FF0000 else byteMask
  pure (if b3 = 1 then byteMask ||| 0xFF000000 else byteMask)

/-- The last part of an MSR, without a shift. -/
def msrWrite (p : ArmCore) (r byteMask : Word) (operand : Byte) : Int × ArmCore :=
  let userMask : Word := 0xF0000000
  let privMask : Word := 0x0000000F
  let stateMask : Word := 0x00000020
  if r = 0 then
    if armInAPrivilegedMode p ∧ u32 operand &&& stateMask ≠ 0 then (UNDEFINED_INSTRUCTION, p)
    else
      let mask := byteMask &&& userMask
      (DATA_ABORT, armWriteCpsr p (msrMerge (armReadCpsr p) mask operand))
  else if armCurrentModeHasSpsr p then
    let mask := byteMask &&& (userMask ||| privMask ||| stateMask)
    (DATA_ABORT, armWriteSpsr p (msrMerge (armReadSpsr p) mask operand))
  else (UNDEFINED_INSTRUCTION, p)

/-- `arm_data_processing_immediate_msr`. -/
def armDataProcessingImmediateMsr (p : ArmCore) (ins : Word) : ShiftLog (Int × ArmCore) := do
  let r ← getBit ins 22
  let immediate ← getBit ins 25
  let operand ← msrOperand p ins immediate
  match operand with
  | none => pure (UNDEFINED_INSTRUCTION, p)
  | some operand => do
      let byteMask ← msrByteMask ins
      pure (msrWrite p r byteMask operand)

/-! ## Single transfers -/

/-- `calculate_address_scaled_register`. -/
def calculateAddressScaledRegister (rmValue shift shiftImm cFlag : Word) : ShiftLog Word :=
  if shift = 0 then logicalShiftLeft rmValue (u8 shiftImm)
  else if shift = 1 then
    if shiftImm = 0 then pure 0 else logicalShiftRight rmValue (u8 shiftImm)
  else if shift = 2 then
    if shiftImm = 0 then do
      let sign ← getBit rmValue 31
      pure (if sign = 1 then 0xFFFFFFFF else 0)
    else asr rmValue (u8 shiftImm)
  else
    if shiftImm = 0 then do
      let high ← logicalShiftLeft cFlag 31
      let low ← logicalShiftRight rmValue 1
      pure (high ||| low)
    else ror rmValue (u8 shiftImm)

/-- `is_scaled_register_offset`. -/
def isScaledRegisterOffset (ins : Word) : ShiftLog Bool :=
  if getBits ins 27 25 = 3 then do
    let bit4 ← getBit ins 4
    pure (bit4 = 0)
  else pure false

/-- The bits `U`, `load_store` and `B` of `initialize_common_variables`. -/
def initializeCommonVariables (ins : Word) : ShiftLog (Word × Word × Word) := do
  let u ← getBit ins 23
  let loadStore ← getBit ins 20
  let b ← getBit ins 22
  pure (u, loadStore, b)

/-- The offset chosen by `handle_memory_operation`, with the bits. -/
def memoryOperationOffset (p : ArmCore) (ins : Word) :
    ShiftLog (Option (Word × Word × Word × Word)) := do
  let rm := getBits ins 3 0
  if isRegisterOffset ins then do
    let bits ← initializeCommonVariables ins
    pure (some (armReadRegister p (u8 rm), bits))
  else do
    let scaled ← isScaledRegisterOffset ins
    if scaled then do
      let cFlag ← getBit (armReadCpsr p) 29
      let bits ← initializeCommonVariables ins
      let offset ← calculateAddressScaledRegister (armReadRegister p (u8 rm)) (getBits ins 6 5)
        (getBits ins 11 7) cFlag
      pure (some (offset, bits))
    else if isImmediateOffset ins then do
      let bits ← initializeCommonVariables ins
      pure (some (getBits ins 11 0, bits))
    else pure none

/-- `handle_memory_operation`. -/
def handleMemoryOperation (p : ArmCore) (ins : Word) (write : Bool) :
    ShiftLog (Int × ArmCore) := do
  let rd := getBits ins 15 12
  let rn := getBits ins 19 16
  let chosen ← memoryOperationOffset p ins
  match chosen with
  | none => pure (-1, p)
  | some (offset, u, loadStore, b) =>
      let address := calculateAddress p rn offset u
      pure (processMemoryAccess (writeBack p write rn address) address loadStore b rd)

/-! ## The values

Each copy without its log is the function of the model. -/

section Values

/-- The amount `32 - shift` on the compiled machine. -/
theorem toNat_emod_sub (shift : Byte) :
    ((32 - (shift.toNat : ℤ)) % 32).toNat = (32#8 - shift).toNat % 32 := by
  have hlt := shift.isLt
  rw [BitVec.toNat_sub, BitVec.toNat_ofNat]
  omega

theorem toNat_emod (shift : Byte) : ((shift.toNat : ℤ) % 32).toNat = shift.toNat % 32 := by
  omega

@[simp] theorem value_getBit (x : Word) (i : ℤ) :
    (getBit x i).value = ArmSimulator.getBit x i.toNat := (rfl)

@[simp] theorem value_logicalShiftRight (value : Word) (shift : Byte) :
    (logicalShiftRight value shift).value = ArmSimulator.logicalShiftRight value shift :=
  congrArg (value >>> ·) (toNat_emod shift)

@[simp] theorem value_logicalShiftLeft (value : Word) (shift : Byte) :
    (logicalShiftLeft value shift).value = ArmSimulator.logicalShiftLeft value shift :=
  congrArg (value <<< ·) (toNat_emod shift)

@[simp] theorem value_asr (value : Word) (shift : Byte) :
    (asr value shift).value = ArmSimulator.asr value shift := by
  have hlow : (shiftRight value shift.toNat).value = shr value shift :=
    congrArg (value >>> ·) (toNat_emod shift)
  have hhigh : (shiftLeft (BitVec.allOnes 32) (32 - shift.toNat)).value =
      shl (BitVec.allOnes 32) (32#8 - shift) :=
    congrArg (BitVec.allOnes 32 <<< ·) (toNat_emod_sub shift)
  simp only [asr, value_bind, value_pure, value_ite, value_getBit, hlow, hhigh]
  rfl

@[simp] theorem value_ror (value : Word) (rotation : Byte) :
    (ror value rotation).value = ArmSimulator.ror value rotation := by
  have hlow : (shiftRight value rotation.toNat).value = shr value rotation :=
    congrArg (value >>> ·) (toNat_emod rotation)
  have hhigh : (shiftLeft value (32 - rotation.toNat)).value = shl value (32#8 - rotation) :=
    congrArg (value <<< ·) (toNat_emod_sub rotation)
  simp only [ror, value_bind, value_pure, hlow, hhigh]
  rfl

/-- The numbers of the bits. -/
@[simp] theorem toNat_sub_one (n : ℕ) : ((n : ℤ) - 1).toNat = n - 1 := by omega

@[simp] theorem toNat_sub_from (n : ℕ) : ((32 : ℤ) - n).toNat = 32 - n := by omega

@[simp] theorem value_rotateRightWithExtend (p : ArmCore) (rm : Word) :
    (rotateRightWithExtend p rm).value = ArmSimulator.rotateRightWithExtend p rm := by
  simp [rotateRightWithExtend, ArmSimulator.rotateRightWithExtend]

@[simp] theorem value_select (test : Prop) [Decidable test] (x : ShiftLog Shifted)
    (r : Option Shifted) :
    (select test x r).value = if test then some x.value else r := by
  simp [select]

theorem value_carryCascade (ins : Word) (p : ArmCore) (shiftAmount valueRm : Word) :
    (carryCascade ins p shiftAmount valueRm).value =
      ArmSimulator.carryCascade ins p shiftAmount valueRm := by
  have hleft : (logicalShiftLeftByImmediate p shiftAmount valueRm).value =
      ArmSimulator.logicalShiftLeftByImmediate p shiftAmount valueRm := by
    simp [logicalShiftLeftByImmediate, ArmSimulator.logicalShiftLeftByImmediate]
  have hleftRegister : (logicalShiftLeftByRegister p valueRm shiftAmount).value =
      ArmSimulator.logicalShiftLeftByRegister p valueRm shiftAmount := by
    simp [logicalShiftLeftByRegister, ArmSimulator.logicalShiftLeftByRegister]
  have hright : (logicalShiftRightByImmediate shiftAmount valueRm).value =
      ArmSimulator.logicalShiftRightByImmediate shiftAmount valueRm := by
    simp [logicalShiftRightByImmediate, ArmSimulator.logicalShiftRightByImmediate]
  have hrightRegister : (logicalShiftRightByRegister p shiftAmount valueRm).value =
      ArmSimulator.logicalShiftRightByRegister p shiftAmount valueRm := by
    simp [logicalShiftRightByRegister, ArmSimulator.logicalShiftRightByRegister]
  have harithmetic : (arithmeticShiftRightByImmediate (u8 shiftAmount) valueRm).value =
      ArmSimulator.arithmeticShiftRightByImmediate (u8 shiftAmount) valueRm := by
    simp [arithmeticShiftRightByImmediate, ArmSimulator.arithmeticShiftRightByImmediate]
  have harithmeticRegister : (arithmeticShiftRightByRegister valueRm shiftAmount p).value =
      ArmSimulator.arithmeticShiftRightByRegister valueRm shiftAmount p := by
    simp [arithmeticShiftRightByRegister, ArmSimulator.arithmeticShiftRightByRegister]
  have hrotate : (rotateRightByImmediate p (u8 shiftAmount) valueRm).value =
      ArmSimulator.rotateRightByImmediate p (u8 shiftAmount) valueRm := by
    simp [rotateRightByImmediate, ArmSimulator.rotateRightByImmediate]
  simp only [carryCascade, value_bind, value_select, hleft, hleftRegister, hright, hrightRegister,
    harithmetic, harithmeticRegister, hrotate, value_rotateRightWithExtend]
  rfl

theorem value_carry (ins : Word) (p : ArmCore) :
    (carry ins p).value = ArmSimulator.carry ins p := by
  have himmediate : ∀ immed8 rotateImm : Byte, (immedate p immed8 rotateImm).value =
      ArmSimulator.immedate p immed8 rotateImm := by
    intro immed8 rotateImm
    simp only [immedate, ArmSimulator.immedate, value_bind, value_ror, value_ite, value_getBit,
      value_pure]
    split_ifs <;> rfl
  simp only [carry, ArmSimulator.carry, value_bind, value_getBit, value_ite, himmediate,
    value_carryCascade, value_pure]
  rfl

@[simp] theorem value_nzcShifftercarryUpdate (p : ArmCore) (result c : Word) :
    (nzcShifftercarryUpdate p result c).value =
      ArmSimulator.nzcShifftercarryUpdate p result c := rfl

@[simp] theorem value_signDropped (op result : Word) :
    (signDropped op result).value = ArmSimulator.signDropped op result := by
  simp only [signDropped, ArmSimulator.signDropped, value_bind, value_ite, value_getBit,
    value_pure, Int.reduceToNat]
  rcases getBit_cases op 31 with hop | hop <;> rcases getBit_cases result 31 with hresult | hresult
  all_goals
    rw [hop, hresult]
    rfl

@[simp] theorem value_signRaised (op result : Word) :
    (signRaised op result).value = ArmSimulator.signRaised op result := by
  simp only [signRaised, ArmSimulator.signRaised, value_bind, value_ite, value_getBit,
    value_pure, Int.reduceToNat]
  rcases getBit_cases op 31 with hop | hop <;> rcases getBit_cases result 31 with hresult | hresult
  all_goals
    rw [hop, hresult]
    rfl

@[simp] theorem value_arithmeticFlags (p : ArmCore) (result : Word) (c v : ShiftLog Word) :
    (arithmeticFlags p result c v).value =
      ArmSimulator.arithmeticFlags p result c.value v.value := rfl

/-- The common body, when the flag updates have the same value. -/
theorem value_writeResult (p : ArmCore) (result : Word) (rd : Byte) (setCond : Word)
    {updateFlags : ArmCore → ShiftLog ArmCore} {update : ArmCore → ArmCore}
    (hupdate : ∀ q, (updateFlags q).value = update q) :
    (writeResult p result rd setCond updateFlags).value =
      ArmSimulator.writeResult p result rd setCond update := by
  simp only [writeResult, ArmSimulator.writeResult, value_ite, value_bind, value_pure, hupdate]

/-- **Data processing** without the log. -/
theorem value_armDataProcessingShift (p : ArmCore) (ins : Word) :
    (armDataProcessingShift p ins).value = ArmSimulator.armDataProcessingShift p ins := by
  rw [armDataProcessingShift, ArmSimulator.armDataProcessingShift, value_bind, value_bind,
    value_carry, value_getBit]
  dsimp only [Int.reduceToNat]
  generalize armReadRegister p (u8 (getBits ins 19 16)) = opGauche
  generalize ArmSimulator.carry ins p = shifted
  generalize u8 (getBits ins 15 12) = rd
  generalize ArmSimulator.getBit ins 20 = setCond
  have hadd : ∀ (q : ArmCore) (x y : Word), (add q x y rd setCond).value =
      DataProcessing.add q x y rd setCond := by
    intro q x y
    rw [add, DataProcessing.add]
    exact value_writeResult _ _ _ _ fun _ => by simp
  match (getBits ins 24 21).toNat with
  | 0 | 1 | 12 | 13 | 15 => exact value_writeResult _ _ _ _ fun _ => rfl
  | 2 =>
      dsimp only [opcode, sub, DataProcessing.sub]
      exact value_writeResult _ _ _ _ fun _ => by simp
  | 3 =>
      have hcarry : ∀ op result : Word, truth (decide (ArmSimulator.signDropped op result = 0)) =
          truth (decide (¬ (ArmSimulator.getBit op 31 ≠ 0 ∧
            ¬ ArmSimulator.getBit result 31 ≠ 0))) := by
        intro op result
        simp only [ArmSimulator.signDropped, truth_eq_zero, decide_eq_false_iff_not]
      dsimp only [opcode, rsb, DataProcessing.rsb]
      rw [← hcarry]
      exact value_writeResult _ _ _ _ fun _ => by simp
  | 4 => exact hadd ..
  | 5 => simp only [opcode, adc, DataProcessing.adc, value_bind, value_ite, value_pure, hadd]
  | 6 =>
      dsimp only [opcode, sbc, DataProcessing.sbc]
      exact value_writeResult _ _ _ _ fun _ => by simp
  | 7 =>
      dsimp only [opcode, rsc, DataProcessing.rsc]
      exact value_writeResult _ _ _ _ fun _ => by simp
  | 8 => rfl
  | 9 =>
      have heor : (eor p opGauche shifted.2 rd 1 shifted.1).value =
          DataProcessing.eor p opGauche shifted.2 rd 1 shifted.1 :=
        value_writeResult _ _ _ _ fun _ => rfl
      simp only [opcode, teq, DataProcessing.teq, value_bind, value_pure, heor,
        value_nzcShifftercarryUpdate]
  | 10 => simp [opcode, cmp, DataProcessing.cmp]
  | 11 => simp [opcode, cmn, DataProcessing.cmn]
  | 14 =>
      dsimp only [opcode, bic, DataProcessing.bic]
      exact value_writeResult _ _ _ _ fun _ => rfl
  | n + 16 => rfl

/-- **MSR** without the log. -/
theorem value_armDataProcessingImmediateMsr (p : ArmCore) (ins : Word) :
    (armDataProcessingImmediateMsr p ins).value =
      ArmSimulator.armDataProcessingImmediateMsr p ins := by
  have hoperand : (msrOperand p ins (ArmSimulator.getBit ins 25)).value =
      ArmSimulator.msrOperand p ins := by
    simp only [msrOperand, ArmSimulator.msrOperand, value_ite, value_map, value_ror, value_pure]
  have hmask : (msrByteMask ins).value = ArmSimulator.msrByteMask ins := rfl
  simp only [armDataProcessingImmediateMsr, ArmSimulator.armDataProcessingImmediateMsr, value_bind,
    value_getBit, Int.reduceToNat, hoperand]
  cases ArmSimulator.msrOperand p ins with
  | none => rfl
  | some operand =>
      simp only [value_bind, value_pure, hmask]
      rfl

theorem value_calculateAddressScaledRegister (rmValue shift shiftImm cFlag : Word) :
    (calculateAddressScaledRegister rmValue shift shiftImm cFlag).value =
      ArmSimulator.calculateAddressScaledRegister rmValue shift shiftImm cFlag := by
  simp only [calculateAddressScaledRegister, ArmSimulator.calculateAddressScaledRegister,
    value_ite, value_bind, value_pure, value_asr, value_ror, value_logicalShiftLeft,
    value_logicalShiftRight, value_getBit, Int.reduceToNat]

/-- **Single transfers** without the log. -/
theorem value_handleMemoryOperation (p : ArmCore) (ins : Word) (write : Bool) :
    (handleMemoryOperation p ins write).value =
      ArmSimulator.handleMemoryOperation p ins write := by
  have hscaled : (isScaledRegisterOffset ins).value = ArmSimulator.isScaledRegisterOffset ins := by
    simp only [isScaledRegisterOffset, ArmSimulator.isScaledRegisterOffset, value_ite, value_bind,
      value_pure, value_getBit, Int.reduceToNat]
    split_ifs with hcategory
    · rw [decide_eq_true hcategory]
      rfl
    · rw [decide_eq_false hcategory]
      rfl
  have hoffset : (memoryOperationOffset p ins).value =
      (ArmSimulator.memoryOperationOffset p ins).map fun offset =>
        (offset, ArmSimulator.getBit ins 23, ArmSimulator.getBit ins 20,
          ArmSimulator.getBit ins 22) := by
    simp only [memoryOperationOffset, ArmSimulator.memoryOperationOffset,
      initializeCommonVariables, value_ite, value_bind, value_pure, value_getBit, hscaled,
      value_calculateAddressScaledRegister, Int.reduceToNat]
    split_ifs <;> rfl
  simp only [handleMemoryOperation, ArmSimulator.handleMemoryOperation, value_bind, hoffset]
  cases ArmSimulator.memoryOperationOffset p ins with
  | none => rfl
  | some offset => rfl

end Values

/-! ## The amounts

Each helper, then the cascade, then the opcodes and the three entry points. -/

section Amounts

theorem defined_bind {α β : Type} (x : ShiftLog α) (f : α → ShiftLog β) :
    Defined (x >>= f) ↔ Defined x ∧ Defined (f x.value) := every_bind ..

theorem defined_pure {α : Type} (a : α) : Defined (pure a) := every_pure a

theorem defined_map {α β : Type} (f : α → β) (x : ShiftLog α) :
    Defined (f <$> x) ↔ Defined x := every_map ..

@[simp] theorem defined_getBit (x : Word) (i : ℤ) : Defined (getBit x i) ↔ 0 ≤ i ∧ i < 32 :=
  every_singleton ..

@[simp] theorem defined_shiftRight (value : Word) (amount : ℤ) :
    Defined (shiftRight value amount) ↔ 0 ≤ amount ∧ amount < 32 := every_singleton ..

@[simp] theorem defined_shiftLeft (value : Word) (amount : ℤ) :
    Defined (shiftLeft value amount) ↔ 0 ≤ amount ∧ amount < 32 := every_singleton ..

/-- `ror` evaluates two shifts, and their amounts are 32 together. -/
theorem defined_ror_iff (value : Word) (rotation : Byte) :
    Defined (ror value rotation) ↔ 0 < rotation.toNat ∧ rotation.toNat < 32 := by
  simp only [ror, every_bind, every_pure, defined_shiftRight, defined_shiftLeft, and_true]
  omega

theorem defined_asr (value : Word) {shift : Byte} (hpos : 0 < shift.toNat)
    (hlt : shift.toNat < 32) : Defined (asr value shift) := by
  simp only [asr, every_bind, every_pure, every_ite, defined_shiftRight, defined_shiftLeft,
    defined_getBit, and_true]
  refine ⟨by omega, by omega, ?_⟩
  split_ifs
  omega

theorem defined_logicalShiftLeft (value : Word) {shift : Byte} (hlt : shift.toNat < 32) :
    Defined (logicalShiftLeft value shift) := by
  rw [logicalShiftLeft, defined_shiftLeft]
  omega

theorem defined_logicalShiftRight (value : Word) {shift : Byte} (hlt : shift.toNat < 32) :
    Defined (logicalShiftRight value shift) := by
  rw [logicalShiftRight, defined_shiftRight]
  omega

/-- The helpers shift, and read the carry from the word. -/
theorem defined_shifted {x : ShiftLog Word} (hx : Defined x) (rm : Word) {i : ℤ}
    (hi : 0 ≤ i ∧ i < 32) :
    Defined (do let operand ← x; let c ← getBit rm i; pure (c, operand)) := by
  rw [defined_bind, defined_bind, defined_getBit]
  exact ⟨hx, hi, defined_pure _⟩

theorem defined_rotateRightWithExtend (p : ArmCore) (rm : Word) :
    Defined (rotateRightWithExtend p rm) := by
  simp [rotateRightWithExtend, logicalShiftLeft, logicalShiftRight]

section Helpers

variable (p : ArmCore) (rm rs : Word)

section Immediate

variable {shiftImm : Word} {shift : Byte}

/-- The helpers of immediate shifts test for 0. -/
theorem defined_logicalShiftLeftByImmediate (hlt : shiftImm.toNat < 32) :
    Defined (logicalShiftLeftByImmediate p shiftImm rm) := by
  have hnat : (u8 shiftImm).toNat = shiftImm.toNat := toNat_u8 (by omega)
  rw [logicalShiftLeftByImmediate]
  split_ifs with hzero
  · simp
  · have hpos := BitVec.toNat_pos_of_ne_zero hzero
    exact defined_shifted (defined_logicalShiftLeft rm (by omega)) rm (by omega)

theorem defined_logicalShiftRightByImmediate (hlt : shiftImm.toNat < 32) :
    Defined (logicalShiftRightByImmediate shiftImm rm) := by
  have hnat : (u8 shiftImm).toNat = shiftImm.toNat := toNat_u8 (by omega)
  rw [logicalShiftRightByImmediate]
  split_ifs with hzero
  · simp
  · have hpos := BitVec.toNat_pos_of_ne_zero hzero
    exact defined_shifted (defined_logicalShiftRight rm (by omega)) rm (by omega)

theorem defined_arithmeticShiftRightByImmediate (hlt : shift.toNat < 32) :
    Defined (arithmeticShiftRightByImmediate shift rm) := by
  rw [arithmeticShiftRightByImmediate]
  split_ifs with hzero
  · simp only [every_bind, every_pure, every_ite, defined_getBit]
    split_ifs <;> simp
  · have hpos := BitVec.toNat_pos_of_ne_zero hzero
    exact defined_shifted (defined_asr rm hpos hlt) rm (by omega)

theorem defined_rotateRightByImmediate (hlt : shift.toNat < 32) :
    Defined (rotateRightByImmediate p shift rm) := by
  rw [rotateRightByImmediate]
  split_ifs with hzero
  · exact defined_rotateRightWithExtend p rm
  · have hpos := BitVec.toNat_pos_of_ne_zero hzero
    exact defined_shifted ((defined_ror_iff rm shift).mpr ⟨hpos, hlt⟩) rm (by omega)

end Immediate

/-- The amount of a shift by a register is a byte. -/
theorem toNat_u8_amount : (u8 (getBits rs 7 0)).toNat = (getBits rs 7 0).toNat := by
  refine toNat_u8 ?_
  rw [toNat_getBits]
  exact Nat.mod_lt _ (by decide)

/-- The helpers of shifts by a register test for 0 and for 32. -/
theorem defined_logicalShiftLeftByRegister : Defined (logicalShiftLeftByRegister p rm rs) := by
  have hnat := toNat_u8_amount rs
  rw [logicalShiftLeftByRegister]
  split_ifs with hzero hlt h32
  · simp
  · have hpos := BitVec.toNat_pos_of_ne_zero hzero
    exact defined_shifted (defined_logicalShiftLeft rm (by omega)) rm (by omega)
  · simp
  · exact defined_pure _

theorem defined_logicalShiftRightByRegister : Defined (logicalShiftRightByRegister p rs rm) := by
  have hnat := toNat_u8_amount rs
  rw [logicalShiftRightByRegister]
  split_ifs with hzero hlt h32
  · simp
  · have hpos := BitVec.toNat_pos_of_ne_zero hzero
    exact defined_shifted (defined_logicalShiftRight rm (by omega)) rm (by omega)
  · simp
  · exact defined_pure _

theorem defined_arithmeticShiftRightByRegister :
    Defined (arithmeticShiftRightByRegister rm rs p) := by
  have hnat := toNat_u8_amount rs
  rw [arithmeticShiftRightByRegister]
  split_ifs with hzero hlt
  · simp
  · have hpos := BitVec.toNat_pos_of_ne_zero hzero
    exact defined_shifted (defined_asr rm (by omega) (by omega)) rm (by omega)
  · simp only [every_bind, every_pure, every_ite, defined_getBit]
    split_ifs <;> simp

/-- `immedate` rotates by twice the field. -/
theorem defined_immedate_iff (immed8 : Byte) {rotateImm : Byte} (hlt : rotateImm.toNat < 16) :
    Defined (immedate p immed8 rotateImm) ↔ rotateImm ≠ 0 := by
  have hnat : (rotateImm * 2).toNat = 2 * rotateImm.toNat := by
    rw [BitVec.toNat_mul]
    simp only [BitVec.ofNat_eq_ofNat, BitVec.toNat_ofNat]
    omega
  have hcarry : Defined (if rotateImm = 0 then getBit (armReadCpsr p) 29
      else getBit (ror (u32 immed8) (rotateImm * 2)).value 31 : ShiftLog Word) := by
    split_ifs <;> simp
  have hzero : rotateImm = 0 ↔ rotateImm.toNat = 0 := BitVec.toNat_inj.symm
  rw [immedate, defined_bind, defined_bind, and_iff_left ⟨hcarry, defined_pure _⟩, defined_ror_iff,
    hnat, Ne, hzero]
  omega

end Helpers

/-- A test of `carry` evaluates its helper if it holds. -/
theorem defined_select {test : Prop} [Decidable test] {x : ShiftLog Shifted}
    (h : test → Defined x) (r : Option Shifted) : Defined (select test x r) := by
  rw [select]
  split_ifs with htest
  · exact (every_map ..).mpr (h htest)
  · exact every_pure r

/-- The tests of immediate shifts hold of words with bit 4 clear. -/
theorem bit4_of_even {ins n : Word} (h : getBits ins 6 4 = n) (heven : n.toNat % 2 = 0) :
    ArmSimulator.getBit ins 4 ≠ 1 := by
  rw [Ne, getBit_eq_iff]
  rw [getBits_eq_iff] at h
  simp only [BitVec.ofNat_eq_ofNat, BitVec.toNat_ofNat]
  omega

theorem defined_carryCascade (ins : Word) (p : ArmCore) {shiftAmount : Word} (valueRm : Word)
    (hamount : ArmSimulator.getBit ins 4 ≠ 1 → shiftAmount.toNat < 32) :
    Defined (carryCascade ins p shiftAmount valueRm) := by
  have hlt : ∀ n : Word, n.toNat % 2 = 0 → getBits ins 6 4 = n → shiftAmount.toNat < 32 :=
    fun n heven h => hamount (bit4_of_even h heven)
  have hnat : ∀ n : Word, n.toNat % 2 = 0 → getBits ins 6 4 = n →
      (u8 shiftAmount).toNat < 32 := by
    intro n heven h
    have hsmall := hlt n heven h
    rw [toNat_u8 (by omega)]
    exact hsmall
  simp only [carryCascade, every_bind]
  exact ⟨defined_select
      (fun h => defined_logicalShiftLeftByImmediate p valueRm (hlt 0 (by decide) h)) _,
    defined_select (fun _ => defined_logicalShiftLeftByRegister p valueRm shiftAmount) _,
    defined_select (fun h => defined_logicalShiftRightByImmediate valueRm (hlt 2 (by decide) h)) _,
    defined_select (fun _ => defined_logicalShiftRightByRegister p valueRm shiftAmount) _,
    defined_select
      (fun h => defined_arithmeticShiftRightByImmediate valueRm (hnat 4 (by decide) h)) _,
    defined_select (fun _ => defined_arithmeticShiftRightByRegister p valueRm shiftAmount) _,
    defined_select (fun h => defined_rotateRightByImmediate p valueRm (hnat 6 (by decide) h)) _,
    defined_select (fun _ => defined_rotateRightWithExtend p valueRm) _⟩

/-- The words whose operand is an immediate that is not rotated. -/
def UnrotatedImmediate (ins : Word) : Prop :=
  ArmSimulator.getBit ins 25 = 1 ∧ getBits ins 11 8 = 0

/-- The field of a rotation, as a byte. -/
theorem toNat_u8_rotateField (ins : Word) :
    (u8 (getBits ins 11 8)).toNat = (getBits ins 11 8).toNat := by
  have hfield : (getBits ins 11 8).toNat < 16 := toNat_registerField ins 8
  exact toNat_u8 (by omega)

theorem defined_carry_iff (ins : Word) (p : ArmCore) :
    Defined (carry ins p) ↔ ¬ UnrotatedImmediate ins := by
  have hfield : (getBits ins 11 8).toNat < 16 := toNat_registerField ins 8
  have hnat := toNat_u8_rotateField ins
  have hzero : u8 (getBits ins 11 8) ≠ 0 ↔ getBits ins 11 8 ≠ 0 := by
    rw [Ne, Ne, ← BitVec.toNat_inj, ← BitVec.toNat_inj, hnat]
    rfl
  rw [carry, defined_bind, defined_getBit, and_iff_right (by decide), value_getBit,
    UnrotatedImmediate]
  rcases getBit_cases ins 25 with hregister | himmediate
  · have h25 : ¬ ArmSimulator.getBit ins (Int.toNat 25) ≠ 0 := not_not.mpr hregister
    have hne : ¬ ArmSimulator.getBit ins 25 = 1 := by
      rw [hregister]
      decide
    rw [if_neg h25]
    refine iff_of_true ?_ fun h => hne h.1
    simp only [every_bind, every_pure, defined_getBit, value_getBit, Int.reduceToNat, and_true]
    refine ⟨by decide, defined_carryCascade ins p _ fun h4 => ?_⟩
    rw [if_neg h4]
    exact toNat_shiftField ins
  · have h25 : ArmSimulator.getBit ins (Int.toNat 25) ≠ 0 := getBit_ne_zero.mpr himmediate
    rw [if_pos h25, defined_immedate_iff p _ (by rw [hnat]; exact hfield), hzero, not_and,
      forall_prop_of_true himmediate]

/-! The opcodes read the bits 31 and 28 only. -/

@[simp] theorem defined_nzcShifftercarryUpdate (p : ArmCore) (result c : Word) :
    Defined (nzcShifftercarryUpdate p result c) := by
  simp [nzcShifftercarryUpdate]

@[simp] theorem defined_signDropped (op result : Word) : Defined (signDropped op result) := by
  simp only [signDropped, every_bind, every_ite, every_pure, defined_getBit]
  split_ifs <;> simp

@[simp] theorem defined_signRaised (op result : Word) : Defined (signRaised op result) := by
  simp only [signRaised, every_bind, every_ite, every_pure, defined_getBit]
  split_ifs <;> simp

@[simp] theorem defined_arithmeticFlags (p : ArmCore) (result : Word) (c v : ShiftLog Word) :
    Defined (arithmeticFlags p result c v) ↔ Defined c ∧ Defined v := by
  simp [arithmeticFlags]

theorem defined_writeResult (p : ArmCore) (result : Word) (rd : Byte) (setCond : Word)
    {updateFlags : ArmCore → ShiftLog ArmCore} (hupdate : ∀ q, Defined (updateFlags q)) :
    Defined (writeResult p result rd setCond updateFlags) := by
  rw [writeResult]
  split_ifs
  · exact defined_pure _
  · exact defined_pure _
  · exact (defined_bind ..).mpr ⟨hupdate _, defined_pure _⟩
  · exact defined_pure _

theorem defined_opcode (code : ℕ) (p : ArmCore) (opGauche shifterOperand : Word) (rd : Byte)
    (setCond c : Word) : Defined (opcode code p opGauche shifterOperand rd setCond c) := by
  have hadd : ∀ (q : ArmCore) (x y : Word), Defined (add q x y rd setCond) :=
    fun q x y => defined_writeResult _ _ _ _ fun _ => by simp
  match code with
  | 0 | 1 | 12 | 13 | 15 => exact defined_writeResult _ _ _ _ fun _ => by simp
  | 2 | 3 | 6 | 7 => exact defined_writeResult _ _ _ _ fun _ => by simp
  | 4 => exact hadd _ _ _
  | 5 =>
      rw [opcode, adc, defined_bind]
      refine ⟨hadd _ _ _, ?_⟩
      split_ifs
      · exact hadd _ _ _
      · exact defined_pure _
  | 8 => simp [opcode, tst]
  | 9 =>
      rw [opcode, teq, defined_bind, defined_bind]
      exact ⟨defined_writeResult _ _ _ _ fun _ => by simp, by simp, defined_pure _⟩
  | 10 => simp [opcode, cmp]
  | 11 => simp [opcode, cmn]
  | 14 => exact defined_writeResult _ _ _ _ fun _ => by simp
  | n + 16 => exact defined_pure _

theorem defined_armDataProcessingShift_iff (p : ArmCore) (ins : Word) :
    Defined (armDataProcessingShift p ins) ↔ ¬ UnrotatedImmediate ins := by
  rw [armDataProcessingShift, defined_bind, defined_carry_iff, and_iff_left]
  rw [defined_bind, defined_getBit]
  exact ⟨by decide, defined_opcode _ _ _ _ _ _ _⟩

theorem defined_msrByteMask (ins : Word) : Defined (msrByteMask ins) := by
  simp [msrByteMask]

/-- An MSR rotates by the field itself. -/
theorem defined_msrOperand_iff (p : ArmCore) (ins : Word) :
    Defined (msrOperand p ins (ArmSimulator.getBit ins 25)) ↔ ¬ UnrotatedImmediate ins := by
  have hfield : (getBits ins 11 8).toNat < 16 := toNat_registerField ins 8
  have hnat := toNat_u8_rotateField ins
  have hzero : getBits ins 11 8 = 0 ↔ (getBits ins 11 8).toNat = 0 := BitVec.toNat_inj.symm
  rw [msrOperand, UnrotatedImmediate]
  split_ifs with himmediate hregister
  · refine iff_of_true (defined_pure _) fun h => ?_
    rw [himmediate] at h
    exact absurd h.1 (by decide)
  · refine iff_of_true (defined_pure _) fun h => ?_
    rw [himmediate] at h
    exact absurd h.1 (by decide)
  · rw [defined_map, defined_ror_iff, hnat, and_iff_right (getBit_ne_zero.mp himmediate), hzero]
    omega

theorem defined_armDataProcessingImmediateMsr_iff (p : ArmCore) (ins : Word) :
    Defined (armDataProcessingImmediateMsr p ins) ↔ ¬ UnrotatedImmediate ins := by
  rw [armDataProcessingImmediateMsr, defined_bind, defined_bind, defined_bind, defined_getBit,
    defined_getBit, value_getBit, ← defined_msrOperand_iff p ins]
  rw [and_iff_right (by decide), and_iff_right (by decide), and_iff_left]
  · rfl
  · split
    · exact defined_pure _
    · exact (defined_bind ..).mpr ⟨defined_msrByteMask ins, defined_pure _⟩

theorem defined_calculateAddressScaledRegister (rmValue shift cFlag : Word) {shiftImm : Word}
    (hlt : shiftImm.toNat < 32) :
    Defined (calculateAddressScaledRegister rmValue shift shiftImm cFlag) := by
  have hnat : (u8 shiftImm).toNat = shiftImm.toNat := toNat_u8 (by omega)
  rw [calculateAddressScaledRegister]
  split_ifs with hlsl hlsr hzero hasr hzero hzero
  · exact defined_logicalShiftLeft rmValue (by omega)
  · exact defined_pure _
  · exact defined_logicalShiftRight rmValue (by omega)
  · simp
  · have hpos := BitVec.toNat_pos_of_ne_zero hzero
    exact defined_asr rmValue (by omega) (by omega)
  · simp [logicalShiftLeft, logicalShiftRight]
  · have hpos := BitVec.toNat_pos_of_ne_zero hzero
    rw [defined_ror_iff]
    omega

theorem defined_handleMemoryOperation (p : ArmCore) (ins : Word) (write : Bool) :
    Defined (handleMemoryOperation p ins write) := by
  have hbits : Defined (initializeCommonVariables ins) := by
    simp [initializeCommonVariables]
  have hscaled : Defined (isScaledRegisterOffset ins) := by
    rw [isScaledRegisterOffset]
    split_ifs <;> simp
  have hoffset : Defined (memoryOperationOffset p ins) := by
    rw [memoryOperationOffset]
    split
    · exact (defined_bind ..).mpr ⟨hbits, defined_pure _⟩
    · refine (defined_bind ..).mpr ⟨hscaled, ?_⟩
      split
      · simp only [every_bind, every_pure, and_true]
        exact ⟨by simp, hbits, defined_calculateAddressScaledRegister _ _ _ (toNat_shiftField ins)⟩
      · split
        · exact (defined_bind ..).mpr ⟨hbits, defined_pure _⟩
        · exact defined_pure _
  rw [handleMemoryOperation, defined_bind]
  refine ⟨hoffset, ?_⟩
  split <;> exact defined_pure _

end Amounts

end ShiftLog

/-- **The amounts of the shifts.**  The logged functions compute what the model computes, and their
shifts are defined if and only if the operand is not an immediate with rotation 0; loads and stores
have no such case. -/
theorem shifts_defined_iff (p : ArmCore) (ins : Word) :
    (ShiftLog.armDataProcessingShift p ins).value = armDataProcessingShift p ins ∧
      (Defined (ShiftLog.armDataProcessingShift p ins) ↔
        ¬ (getBit ins 25 = 1 ∧ getBits ins 11 8 = 0)) ∧
      (ShiftLog.armDataProcessingImmediateMsr p ins).value = armDataProcessingImmediateMsr p ins ∧
      (Defined (ShiftLog.armDataProcessingImmediateMsr p ins) ↔
        ¬ (getBit ins 25 = 1 ∧ getBits ins 11 8 = 0)) ∧
      ∀ write : Bool,
        (ShiftLog.handleMemoryOperation p ins write).value = handleMemoryOperation p ins write ∧
        Defined (ShiftLog.handleMemoryOperation p ins write) :=
  ⟨ShiftLog.value_armDataProcessingShift p ins, ShiftLog.defined_armDataProcessingShift_iff p ins,
    ShiftLog.value_armDataProcessingImmediateMsr p ins,
    ShiftLog.defined_armDataProcessingImmediateMsr_iff p ins, fun write =>
      ⟨ShiftLog.value_handleMemoryOperation p ins write,
        ShiftLog.defined_handleMemoryOperation p ins write⟩⟩

/-- `MOV r0, #1` shifts by 32, in every state. -/
theorem shifts_defined_counterexample :
    ¬ ∀ (p : ArmCore) (ins : Word) (write : Bool),
      Defined (ShiftLog.armDataProcessingShift p ins) ∧
        Defined (ShiftLog.armDataProcessingImmediateMsr p ins) ∧
        Defined (ShiftLog.handleMemoryOperation p ins write) := by
  intro h
  have hdefined := (h (ArmCore.load 0x1d3 [0xE3A00001]) 0xE3A00001 false).1
  rw [ShiftLog.defined_armDataProcessingShift_iff] at hdefined
  exact hdefined ⟨by decide, by decide⟩

end ArmSimulator
