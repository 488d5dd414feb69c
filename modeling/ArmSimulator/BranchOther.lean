import ArmSimulator.Exception

/-!
# Branches, MRS and coprocessor space (`arm_branch_other.c`)

`arm_branch` serves both the branches of category 5 and the words whose bits 27 … 20 are `00010010`,
which it takes for BX and BLX.  `arm_miscellaneous` is MRS, and it is also where all other words
with bits 24 and 23 equal to `10` and bit 20 clear end up, whatever they encode.

The link is the address behind the branch: the fetch has advanced `R15` by 4, and a read gives 4
more.  A branch to a register clears bit 0 of the address and leaves the instruction set alone,
since there is only one.  What the branches come to as functions of the word is proved in
`Branches`.
-/

namespace ArmSimulator

/-- `LR` receives the address after the branch. -/
def writeLink (p : ArmCore) : ArmCore := armWriteRegister p 14 (armReadRegister p 15 - 4)

/-- The byte offset of B and BL: bits 23 … 0, sign extended to 30 bits, times 4.  The sign is set by
`set_bits` in six bits at once, and the shift drops the two that are left of it. -/
def branchOffset (ins : Word) : Word :=
  let offset := getBits ins 23 0
  let offset := if getBit offset 23 = 1 then setBits offset 29 24 0x3F else offset
  logicalShiftLeft offset 2

/-- `arm_branch`.  With the link bit `R14` is written first, so a BLX to `R14` would go to the
address behind itself if the register were not read before. -/
def armBranch (p : ArmCore) (ins : Word) : Int × ArmCore :=
  if getBits ins 27 25 = 5 then
    let p := if getBit ins 24 = 1 then writeLink p else p
    (0, armWriteRegister p 15 (armReadRegister p 15 + branchOffset ins))
  else if getBits ins 27 20 = 18 then
    let vRegistre := armReadRegister p (u8 (getBits ins 3 0))
    if getBits ins 7 4 = 1 then
      (0, armWriteRegister p 15 (vRegistre &&& 0xFFFFFFFE))
    else if getBits ins 7 4 = 3 then
      (0, armWriteRegister (writeLink p) 15 (vRegistre &&& 0xFFFFFFFE))
    else (UNDEFINED_INSTRUCTION, p)
  else (UNDEFINED_INSTRUCTION, p)

/-- `arm_coprocessor_others_swi`.  The dispatch calls it with bit 24 clear, or for a media
instruction with whatever bit 24 that has. -/
def armCoprocessorOthersSwi (p : ArmCore) (ins : Word) : Int × ArmCore :=
  if getBit ins 24 ≠ 0 then (SOFTWARE_INTERRUPT, p) else (UNDEFINED_INSTRUCTION, p)

/-- `arm_miscellaneous`: MRS.  The word is not looked at beyond bit 22 and `Rd`, so what is
dispatched here by mistake reads a status register too. -/
def armMiscellaneous (p : ArmCore) (ins : Word) : Int × ArmCore :=
  let rd := u8 (getBits ins 15 12)
  if getBit ins 22 = 0 then (0, armWriteRegister p rd (armReadCpsr p))
  else if armCurrentModeHasSpsr p then (0, armWriteRegister p rd (armReadSpsr p))
  else (UNDEFINED_INSTRUCTION, p)

end ArmSimulator
