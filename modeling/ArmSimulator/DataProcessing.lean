import ArmSimulator.ShifterOperand
import ArmSimulator.Exception

/-!
# Data processing (`arm_data_processing.c`)

Eleven of the sixteen opcode functions share one body: write the result to `Rd`; if the S bit is set
and `Rd` *now reads as the program counter reads*, restore the CPSR from the SPSR, or fail when the
mode has none; otherwise, if the S bit is set, update the flags.  `writeResult` is that body, with
the flag update as a parameter.  Each opcode keeps its own definition, with its own result and
flags.  The exceptions are `adc`, which is two additions, `teq`, which calls `eor` and then takes
the *return value* of `eor` for the result, and the comparisons `tst`, `cmp` and `cmn`.

Three habits of the C code run through all results about this file.

* The test for a destination `R15` compares register *values* (`ReadsAsPc`): a result that happens
  to be what `R15` reads as is taken for a return from an exception.
* `adc`, `sbc` and `rsc` receive the carry *out* of the shifter where the carry flag is meant.
* The flag updates of the arithmetic opcodes write the CPSR in two parts, N, Z and C first and then
  V.

The MSR is in the second half.  Its masks are computed with `!`, the logical negation, where `~` is
meant, and its operand is a `uint8_t`; what comes of that is stated exactly in `StatusWrites`.
-/

namespace ArmSimulator

/-! ## Flags

What the flag updates compute is a CPSR, and so they are functions on words (`nzcCpsr`, `vCpsr`)
under the functions on states. -/

/-- The CPSR written by `nzc_shifftercarry_update`.  The mask keeps bits 28 … 0, and the three flags
are put together in a byte, from which they are shifted up; a carry other than 0 or 1 would spill
into Z. -/
def nzcCpsr (cpsr result c : Word) : Word :=
  let nFlag := u8 (getBit result 31)
  let zFlag := u8 (truth (result = 0))
  let toutFlag : Byte := u8 ((u32 nFlag <<< 3) ||| (u32 zFlag <<< 2) ||| (c <<< 1))
  (cpsr &&& 0x1FFFFFFF#32) ||| (u32 toutFlag <<< 28)

/-- `nzc_shifftercarry_update`: N and Z of the result and a C that is given.  The mode is cached
anew, with the same mode bits. -/
def nzcShifftercarryUpdate (p : ArmCore) (result c : Word) : ArmCore :=
  armWriteCpsr p (nzcCpsr (armReadCpsr p) result c)

/-- The CPSR written by the last statement of every arithmetic flag update. -/
def vCpsr (cpsr vFlag : Word) : Word := (cpsr &&& 0xEFFFFFFF#32) ||| (vFlag <<< 28)

/-- The flag update of the arithmetic opcodes: N, Z and C, then V. -/
def arithmeticFlags (p : ArmCore) (result cFlag vFlag : Word) : ArmCore :=
  let p := nzcShifftercarryUpdate p result cFlag
  armWriteCpsr p (vCpsr (armReadCpsr p) vFlag)

/-- `get_bit(op,31) && !get_bit(result,31)`: the V flag of the subtractions.  The second operand is
not looked at. -/
def signDropped (op result : Word) : Word :=
  truth (getBit op 31 ≠ 0 ∧ ¬ getBit result 31 ≠ 0)

/-- `!get_bit(op,31) && get_bit(result,31)`: the V flag of the additions.  The second operand is not
looked at. -/
def signRaised (op result : Word) : Word :=
  truth (¬ getBit op 31 ≠ 0 ∧ getBit result 31 ≠ 0)

/-! ## The opcodes

The sixteen functions under their own names, with the parameters in the order of the source, and the
`switch` that calls them. -/

/-- The body shared by the opcodes with a destination.  The flag update is given the state after the
write of `Rd`. -/
def writeResult (p : ArmCore) (result : Word) (rd : Byte) (setCond : Word)
    (updateFlags : ArmCore → ArmCore) : Int × ArmCore :=
  let p := armWriteRegister p rd result
  if setCond = 1 ∧ armReadRegister p rd = armReadRegister p 15 then
    if armCurrentModeHasSpsr p then (0, armWriteCpsr p (armReadSpsr p))
    else (UNDEFINED_INSTRUCTION, p)
  else if setCond = 1 then (0, updateFlags p)
  else (0, p)

namespace DataProcessing

/-- `and`. -/
def and (p : ArmCore) (op1 shiftedOp2 : Word) (rd : Byte) (setCond c : Word) : Int × ArmCore :=
  let result := op1 &&& shiftedOp2
  writeResult p result rd setCond fun p => nzcShifftercarryUpdate p result c

/-- `eor`. -/
def eor (p : ArmCore) (op1 shiftedOp2 : Word) (rd : Byte) (setCond c : Word) : Int × ArmCore :=
  let result := op1 ^^^ shiftedOp2
  writeResult p result rd setCond fun p => nzcShifftercarryUpdate p result c

/-- `sub`.  C is set when the first operand is less than the result, which is when there was a
borrow. -/
def sub (p : ArmCore) (op1 shiftedOp2 : Word) (rd : Byte) (setCond : Word) : Int × ArmCore :=
  let result := op1 - shiftedOp2
  writeResult p result rd setCond fun p =>
    arithmeticFlags p result (truth (op1 < result)) (signDropped op1 result)

/-- `rsb`, whose C is computed by its own rule, from the signs of the second operand and the result.
-/
def rsb (p : ArmCore) (op1 shiftedOp2 : Word) (rd : Byte) (setCond : Word) : Int × ArmCore :=
  let result := shiftedOp2 - op1
  writeResult p result rd setCond fun p =>
    arithmeticFlags p result
      (truth (¬ (getBit shiftedOp2 31 ≠ 0 ∧ ¬ getBit result 31 ≠ 0)))
      (signDropped shiftedOp2 result)

/-- `add`.  C is set when the result is less than the first operand, which is when there was a
carry. -/
def add (p : ArmCore) (op1 shiftedOp2 : Word) (rd : Byte) (setCond : Word) : Int × ArmCore :=
  let result := op1 + shiftedOp2
  writeResult p result rd setCond fun p =>
    arithmeticFlags p result (truth (result < op1)) (signRaised op1 result)

/-- `adc`: an addition, and then, if it returned 0, the addition of `carry_in` to
the value `Rd` now reads as. -/
def adc (p : ArmCore) (opGauche opDroite : Word) (rd : Byte) (setCond carryIn : Word) :
    Int × ArmCore :=
  let partiel := add p opGauche opDroite rd setCond
  if partiel.1 = 0 then
    add partiel.2 (armReadRegister partiel.2 rd) carryIn rd setCond
  else partiel

/-- `sbc`.  The carry is given by the caller; the flags compare the result with the first operand,
as those of `sub` do. -/
def sbc (p : ArmCore) (op1 shiftedOp2 : Word) (rd : Byte) (setCond carryIn : Word) :
    Int × ArmCore :=
  let result := op1 - shiftedOp2 - truth (carryIn = 0)
  writeResult p result rd setCond fun p =>
    arithmeticFlags p result (truth (op1 < result)) (signDropped op1 result)

/-- `rsc`.  It subtracts the first operand from the second, but its flags are those of `sbc`,
computed from the first. -/
def rsc (p : ArmCore) (op1 shiftedOp2 : Word) (rd : Byte) (setCond carryIn : Word) :
    Int × ArmCore :=
  let result := shiftedOp2 - op1 - truth (carryIn = 0)
  writeResult p result rd setCond fun p =>
    arithmeticFlags p result (truth (op1 < result)) (signDropped op1 result)

/-- `tst`: the flags of `and`, and no result.  With `Rd` equal to `R15` nothing special is done. -/
def tst (p : ArmCore) (op1 shiftedOp2 : Word) (_rd : Byte) (c : Word) : Int × ArmCore :=
  (0, nzcShifftercarryUpdate p (op1 &&& shiftedOp2) c)

/-- `teq`: the flags are computed from the value `eor` *returns*, an error code. -/
def teq (p : ArmCore) (op1 shiftedOp2 : Word) (rd : Byte) (c : Word) : Int × ArmCore :=
  let eored := eor p op1 shiftedOp2 rd 1 c
  (0, nzcShifftercarryUpdate eored.2 (BitVec.ofInt 32 eored.1) c)

/-- `cmp`: the flags of `sub`, and no result. -/
def cmp (p : ArmCore) (op1 shiftedOp2 : Word) (_rd : Byte) : Int × ArmCore :=
  let result := op1 - shiftedOp2
  (0, arithmeticFlags p result (truth (op1 < result)) (signDropped op1 result))

/-- `cmn`: the flags of `add`, and no result. -/
def cmn (p : ArmCore) (op1 shiftedOp2 : Word) (_rd : Byte) : Int × ArmCore :=
  let result := op1 + shiftedOp2
  (0, arithmeticFlags p result (truth (result < op1)) (signRaised op1 result))

/-- `orr`. -/
def orr (p : ArmCore) (op1 shiftedOp2 : Word) (rd : Byte) (setCond c : Word) : Int × ArmCore :=
  let result := op1 ||| shiftedOp2
  writeResult p result rd setCond fun p => nzcShifftercarryUpdate p result c

/-- `mov`. -/
def mov (p : ArmCore) (shiftedOp2 : Word) (rd : Byte) (setCond c : Word) : Int × ArmCore :=
  writeResult p shiftedOp2 rd setCond fun p => nzcShifftercarryUpdate p shiftedOp2 c

/-- `bic`.  Its carry is bit 28 of the result, and not the carry of the shifter as for the other
logical opcodes. -/
def bic (p : ArmCore) (op1 shiftedOp2 : Word) (rd : Byte) (setCond : Word) : Int × ArmCore :=
  let result := op1 &&& ~~~shiftedOp2
  writeResult p result rd setCond fun p => nzcShifftercarryUpdate p result (getBit result 28)

/-- `mvn`: `mov` of the complement. -/
def mvn (p : ArmCore) (shiftedOp2 : Word) (rd : Byte) (setCond c : Word) : Int × ArmCore :=
  mov p (~~~shiftedOp2) rd setCond c

end DataProcessing

open DataProcessing in
/-- `arm_data_processing_shift`; the carry *out* of the shifter is what `adc`,
`sbc` and `rsc` receive as carry in. -/
def armDataProcessingShift (p : ArmCore) (ins : Word) : Int × ArmCore :=
  let opGauche := armReadRegister p (u8 (getBits ins 19 16))
  let shifterOperand := (carry ins p).2
  let c := (carry ins p).1
  let rd := u8 (getBits ins 15 12)
  let setCond := getBit ins 20
  match (getBits ins 24 21).toNat with
  | 0 => and p opGauche shifterOperand rd setCond c
  | 1 => eor p opGauche shifterOperand rd setCond c
  | 2 => sub p opGauche shifterOperand rd setCond
  | 3 => rsb p opGauche shifterOperand rd setCond
  | 4 => add p opGauche shifterOperand rd setCond
  | 5 => adc p opGauche shifterOperand rd setCond c
  | 6 => sbc p opGauche shifterOperand rd setCond c
  | 7 => rsc p opGauche shifterOperand rd setCond c
  | 8 => tst p opGauche shifterOperand rd c
  | 9 => teq p opGauche shifterOperand rd c
  | 10 => cmp p opGauche shifterOperand rd
  | 11 => cmn p opGauche shifterOperand rd
  | 12 => orr p opGauche shifterOperand rd setCond c
  | 13 => mov p shifterOperand rd setCond c
  | 14 => bic p opGauche shifterOperand rd setCond
  | 15 => mvn p shifterOperand rd setCond c
  | _ => (UNDEFINED_INSTRUCTION, p)

/-! ## MSR

The operand, the two masks and the merge, each a function of its own; the branches are in the order
of the source. -/

/-- The operand of an MSR as the `uint8_t` it is kept in, or `none` when the
register form has bits 7 … 4 set. -/
def msrOperand (p : ArmCore) (ins : Word) : Option Byte :=
  let bits07 := u8 (getBits ins 8 0)
  if getBit ins 25 = 0 then
    if getBits (u32 bits07) 7 4 = 0 then
      some (u8 (armReadRegister p (u8 (getBits (u32 bits07) 3 0))))
    else none
  else some (u8 (ror (u32 bits07) (u8 (getBits ins 11 8))))

/-- The byte mask of an MSR: its four tests are all of bit 0 of the field mask. -/
def msrByteMask (ins : Word) : Word :=
  let fieldMask := getBits ins 19 16
  let byteMask : Word := 0
  let byteMask := if getBit fieldMask 0 = 1 then byteMask ||| 0x000000FF else byteMask
  let byteMask := if getBit fieldMask 0 = 1 then byteMask ||| 0x0000FF00 else byteMask
  let byteMask := if getBit fieldMask 0 = 1 then byteMask ||| 0x00FF0000 else byteMask
  if getBit fieldMask 0 = 1 then byteMask ||| 0xFF000000 else byteMask

/-- `(status & !mask) | (operand & mask)`: the `!` is the logical negation. -/
def msrMerge (status mask : Word) (operand : Byte) : Word :=
  (status &&& truth (mask = 0)) ||| (u32 operand &&& mask)

/-- `arm_data_processing_immediate_msr`.  Of its two masks for the CPSR the second
assignment, `byte_mask & user_mask`, is the one that counts.  Where the C code
falls off its last branch it returns `DATA_ABORT`. -/
def armDataProcessingImmediateMsr (p : ArmCore) (ins : Word) : Int × ArmCore :=
  let userMask : Word := 0xF0000000
  let privMask : Word := 0x0000000F
  let stateMask : Word := 0x00000020
  match msrOperand p ins with
  | none => (UNDEFINED_INSTRUCTION, p)
  | some operand =>
      let byteMask := msrByteMask ins
      if getBit ins 22 = 0 then
        if armInAPrivilegedMode p ∧ u32 operand &&& stateMask ≠ 0 then
          (UNDEFINED_INSTRUCTION, p)
        else
          let mask := byteMask &&& userMask
          (DATA_ABORT, armWriteCpsr p (msrMerge (armReadCpsr p) mask operand))
      else if armCurrentModeHasSpsr p then
        let mask := byteMask &&& (userMask ||| privMask ||| stateMask)
        (DATA_ABORT, armWriteSpsr p (msrMerge (armReadSpsr p) mask operand))
      else (UNDEFINED_INSTRUCTION, p)

/-! ## The common body

What an opcode with a destination does, once for all of them, and the two functions of the opcode
number that tell them apart. -/

/-- The test of the body: after `result` is written to `Rd`, `Rd` reads as `R15`.  For `Rd` other
than `R15` this is an accident of the values. -/
def ReadsAsPc (p : ArmCore) (rd : Byte) (result : Word) : Prop :=
  armReadRegister (armWriteRegister p rd result) rd =
    armReadRegister (armWriteRegister p rd result) 15

instance decidableReadsAsPc (p : ArmCore) (rd : Byte) (result : Word) :
    Decidable (ReadsAsPc p rd result) :=
  inferInstanceAs (Decidable (_ = _))

/-- The test depends on the registers and on the mode. -/
theorem readsAsPc_congr {p q : ArmCore} (hget : ∀ s, q.reg.get s = p.reg.get s)
    (hmode : q.reg.currentMode = p.reg.currentMode) (rd : Byte) (result : Word) :
    ReadsAsPc q rd result ↔ ReadsAsPc p rd result := by
  have hread : ∀ reg, armReadRegister (armWriteRegister q rd result) reg =
      armReadRegister (armWriteRegister p rd result) reg := by
    refine armReadRegister_congr (fun s => ?_) (by simpa using hmode)
    rw [get_armWriteRegister, get_armWriteRegister, hmode, hget]
  rw [ReadsAsPc, ReadsAsPc, hread, hread]

@[simp] theorem hasSpsr_write (p : ArmCore) (reg : Byte) (value : Word) :
    armCurrentModeHasSpsr (armWriteRegister p reg value) = armCurrentModeHasSpsr p := by
  rw [armCurrentModeHasSpsr, registersCurrentModeHasSpsr, registersGetMode,
    armWriteRegister_currentMode]
  rfl

@[simp] theorem readSpsr_write (p : ArmCore) (reg : Byte) (value : Word) :
    armReadSpsr (armWriteRegister p reg value) = armReadSpsr p := by
  simp only [armReadSpsr, registersGetMode, armWriteRegister_currentMode, registersReadSpsr_eq,
    armWriteRegister_spsr]

/-- **The body with the S bit**: an exception return, an undefined instruction, or a flag update.
Which of the three it is depends on the value that has been written and on the mode. -/
theorem writeResult_one (p : ArmCore) (result : Word) (rd : Byte)
    (updateFlags : ArmCore → ArmCore) :
    writeResult p result rd 1 updateFlags =
      if ReadsAsPc p rd result then
        if armCurrentModeHasSpsr p then
          (0, armWriteCpsr (armWriteRegister p rd result) (armReadSpsr p))
        else (UNDEFINED_INSTRUCTION, armWriteRegister p rd result)
      else (0, updateFlags (armWriteRegister p rd result)) := by
  unfold writeResult ReadsAsPc
  dsimp only
  rw [hasSpsr_write, readSpsr_write]
  split_ifs <;> simp_all

/-- The body without the S bit writes `Rd`. -/
theorem writeResult_of_ne_one (p : ArmCore) (result : Word) (rd : Byte) {setCond : Word}
    (updateFlags : ArmCore → ArmCore) (h : setCond ≠ 1) :
    writeResult p result rd setCond updateFlags = (0, armWriteRegister p rd result) := by
  unfold writeResult
  dsimp only
  rw [if_neg fun hset => h hset.1, if_neg h]

/-- With destination `R15` no flags are computed. -/
theorem writeResult_pc (p : ArmCore) (result : Word) (updateFlags : ArmCore → ArmCore) :
    writeResult p result 15 1 updateFlags =
      if armCurrentModeHasSpsr p then
        (0, armWriteCpsr (armWriteRegister p 15 result) (armReadSpsr p))
      else (UNDEFINED_INSTRUCTION, armWriteRegister p 15 result) := by
  have hpc : ReadsAsPc p 15 result := rfl
  rw [writeResult_one, if_pos hpc]

/-- The value that an opcode with a destination, other than ADC, writes to it. -/
def opcodeResult (opcode : ℕ) (opGauche shifterOperand c : Word) : Word :=
  match opcode with
  | 0 => opGauche &&& shifterOperand
  | 1 => opGauche ^^^ shifterOperand
  | 2 => opGauche - shifterOperand
  | 3 => shifterOperand - opGauche
  | 4 => opGauche + shifterOperand
  | 6 => opGauche - shifterOperand - truth (c = 0)
  | 7 => shifterOperand - opGauche - truth (c = 0)
  | 12 => opGauche ||| shifterOperand
  | 13 => shifterOperand
  | 14 => opGauche &&& ~~~shifterOperand
  | _ => ~~~shifterOperand

/-- The flag update of such an opcode, on the state after the write of `Rd`. -/
def opcodeFlags (opcode : ℕ) (opGauche shifterOperand c : Word) (p : ArmCore) : ArmCore :=
  let result := opcodeResult opcode opGauche shifterOperand c
  match opcode with
  | 2 => arithmeticFlags p result (truth (opGauche < result)) (signDropped opGauche result)
  | 3 =>
      arithmeticFlags p result
        (truth (¬ (getBit shifterOperand 31 ≠ 0 ∧ ¬ getBit result 31 ≠ 0)))
        (signDropped shifterOperand result)
  | 4 => arithmeticFlags p result (truth (result < opGauche)) (signRaised opGauche result)
  | 6 => arithmeticFlags p result (truth (opGauche < result)) (signDropped opGauche result)
  | 7 => arithmeticFlags p result (truth (opGauche < result)) (signDropped opGauche result)
  | 14 => nzcShifftercarryUpdate p result (getBit result 28)
  | _ => nzcShifftercarryUpdate p result c

/-- The opcodes that write their result through the common body: all but ADC and the comparisons.
They are listed by number, since the results about them are about instruction words. -/
def IsCommonOpcode (opcode : ℕ) : Prop := opcode ∉ [5, 8, 9, 10, 11] ∧ opcode < 16

/-- **Eleven opcodes are the common body** with their own result and flags.  This is how the rest of
the development sees them. -/
theorem armDataProcessingShift_common (p : ArmCore) {ins : Word}
    (h : IsCommonOpcode (getBits ins 24 21).toNat) :
    armDataProcessingShift p ins =
      writeResult p
        (opcodeResult (getBits ins 24 21).toNat (armReadRegister p (u8 (getBits ins 19 16)))
          (carry ins p).2 (carry ins p).1)
        (u8 (getBits ins 15 12)) (getBit ins 20)
        (opcodeFlags (getBits ins 24 21).toNat (armReadRegister p (u8 (getBits ins 19 16)))
          (carry ins p).2 (carry ins p).1) := by
  unfold armDataProcessingShift
  dsimp only
  generalize (getBits ins 24 21).toNat = opcode at h
  obtain ⟨hmem, hlt⟩ := h
  match opcode with
  | 0 | 1 | 2 | 3 | 4 | 6 | 7 | 12 | 13 | 14 | 15 => rfl
  | 5 | 8 | 9 | 10 | 11 => exact absurd hmem (by decide)
  | n + 16 => omega

/-! ## What the flag updates write

The updates bit by bit.  The bits below 28 are never touched. -/

theorem signDropped_eq (op result : Word) :
    signDropped op result = truth (op.getLsbD 31 && !result.getLsbD 31) := by
  rw [signDropped, getBit_eq_truth, getBit_eq_truth]
  cases op.getLsbD 31 <;> cases result.getLsbD 31 <;> rfl

theorem signRaised_eq (op result : Word) :
    signRaised op result = truth (!op.getLsbD 31 && result.getLsbD 31) := by
  rw [signRaised, getBit_eq_truth, getBit_eq_truth]
  cases op.getLsbD 31 <;> cases result.getLsbD 31 <;> rfl

/-- The three flags that `nzc_shifftercarry_update` packs into a byte. -/
theorem nzcCpsr_eq (cpsr result : Word) (c : Bool) :
    nzcCpsr cpsr result (truth c) = (cpsr &&& BitField.lowMask 32 29) |||
      (truth (result.getLsbD 31) <<< N ||| truth (result = 0) <<< Z ||| truth c <<< C) := by
  have hpack : ∀ n z c : Bool,
      u32 (u8 ((u32 (u8 (truth n)) <<< 3) ||| (u32 (u8 (truth z)) <<< 2) ||| (truth c <<< 1)))
        <<< 28 = truth n <<< N ||| truth z <<< Z ||| truth c <<< C := by
    decide
  rw [nzcCpsr, getBit_eq_truth, hpack]
  rfl

/-- `nzc_shifftercarry_update` writes bits 31, 30 and 29. -/
theorem getLsbD_nzcCpsr (cpsr result : Word) (c : Bool) (i : ℕ) :
    (nzcCpsr cpsr result (truth c)).getLsbD i =
      if i = N then result.getLsbD 31
      else if i = Z then decide (result = 0)
      else if i = C then c
      else cpsr.getLsbD i := by
  rw [nzcCpsr_eq, BitVec.getLsbD_or, BitVec.getLsbD_or, BitVec.getLsbD_or, BitVec.getLsbD_and,
    BitField.getLsbD_lowMask, getLsbD_truth_shiftLeft _ (by decide),
    getLsbD_truth_shiftLeft _ (by decide), getLsbD_truth_shiftLeft _ (by decide)]
  rw [N, Z, C]
  have hrange : i < 29 ∨ i = 29 ∨ i = 30 ∨ i = 31 ∨ 32 ≤ i := by omega
  rcases hrange with hlow | rfl | rfl | rfl | hhigh
  · have hne : i ≠ 31 ∧ i ≠ 30 ∧ i ≠ 29 ∧ i < 32 := by omega
    simp [hlow, hne]
  · simp
  · simp
  · simp
  · have hne : i ≠ 31 ∧ i ≠ 30 ∧ i ≠ 29 := by omega
    simp [hne, BitVec.getLsbD_of_ge cpsr i hhigh]

/-- The last write of an arithmetic flag update is of bit 28. -/
theorem getLsbD_vCpsr (cpsr : Word) (v : Bool) (i : ℕ) :
    (vCpsr cpsr (truth v)).getLsbD i = if i = V then v else cpsr.getLsbD i := by
  have hmask : (0xEFFFFFFF#32) = ~~~BitVec.twoPow 32 28 := rfl
  rw [vCpsr, BitVec.getLsbD_or, getLsbD_truth_shiftLeft _ (by decide), V,
    hmask, BitVec.getLsbD_and, BitVec.getLsbD_not, BitVec.getLsbD_twoPow]
  by_cases hi : i < 32
  · by_cases h28 : i = 28
    · simp [h28]
    · simp [h28, hi, Ne.symm h28]
  · have hne : i ≠ 28 := by omega
    simp [hne, BitVec.getLsbD_of_ge cpsr i (Nat.le_of_not_lt hi)]

/-- The four flags an arithmetic update leaves. -/
theorem getLsbD_arithmeticFlags (p : ArmCore) (result : Word) (c v : Bool) (i : ℕ) :
    (arithmeticFlags p result (truth c) (truth v)).reg.cpsr.getLsbD i =
      if i = N then result.getLsbD 31
      else if i = Z then decide (result = 0)
      else if i = C then c
      else if i = V then v
      else p.reg.cpsr.getLsbD i := by
  have hcpsr : (arithmeticFlags p result (truth c) (truth v)).reg.cpsr =
      vCpsr (nzcCpsr p.reg.cpsr result (truth c)) (truth v) := rfl
  rw [hcpsr, getLsbD_vCpsr, getLsbD_nzcCpsr]
  simp only [N, Z, C, V]
  grind

/-- **An MSR to the CPSR leaves no mode**: the operand is a byte, the mask has no bit
below 28, and the `!` keeps at most bit 0 of the old value. -/
theorem modeUpdate_msrMerge (status byteMask : Word) (operand : Byte) :
    modeUpdate (msrMerge status (byteMask &&& 0xF0000000) operand) = 255 := by
  -- the mask starts at bit 28, where a byte has ended
  have hnew : u32 operand &&& (byteMask &&& 0xF0000000#32) = 0 := by
    apply BitVec.eq_of_getLsbD_eq
    intro i hi
    by_cases hlow : i < 28
    · have hmask : (0xF0000000#32).getLsbD i = false := by
        revert i
        decide
      simp [hmask]
    · have hbyte : (u32 operand).getLsbD i = false := by
        rw [u32, BitVec.getLsbD_setWidth, BitVec.getLsbD_of_ge operand i (by omega),
          Bool.and_false]
      simp [hbyte]
  have hone : ∀ b : Bool, modeUpdate (truth b) = 255 := by decide
  rw [msrMerge, BitVec.ofNat_eq_ofNat, hnew, BitVec.ofNat_eq_ofNat, BitVec.or_zero]
  cases decide (byteMask &&& 0xF0000000#32 = 0#32) with
  | false =>
      have hzero : status &&& truth false = truth false := BitVec.and_zero
      rw [hzero, hone]
  | true =>
      have hbit : status &&& truth true = getBit status 0 := by
        rw [getBit, BitVec.ushiftRight_zero]
        rfl
      rw [hbit, getBit_eq_truth, hone]

end ArmSimulator
