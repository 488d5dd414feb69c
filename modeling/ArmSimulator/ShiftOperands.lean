import ArmSimulator.ShifterOperand
import ArmSimulator.Library.Shifter

/-!
# The shifter operands of `carry`

The eight functions between which `carry` chooses compute the shifts of `Shifter`, each its own
kind; what may go wrong is the choice.  With bit 4 clear the right function is always among those
called, and the last one called is right (`carry_immediateShift`).  With bit 4 set the rotation is
never called: where the instruction asks for it, `carry` returns the left shift that its second test
has made, and `carry_registerShift_iff` says on which words the two are the same.

The library module defines a shift of each kind once, by a constant and by a register, with its
carry and at the amounts that are special: 0, 32 and above.  The sections here go from the inside
out:

* the four functions of `util.c` are shifts of words for amounts from 1 to 31;
* the helpers of shifts by a constant and by a register are the two forms of `Shifter`, amount by
  amount;
* the cascade of tests chooses a helper (`carryCascade_immediate`, `carryCascade_register`), by what
  the overlapping fields of the word say;
* the two theorems put the value of `Rm` and the amount in.
-/

namespace ArmSimulator

open Shifter

/-! ## Fields

The type of the shift, the C flag, and what the tests of `carry` see of the fields. -/

/-- The type of a shift, bits 6 and 5.  A rotation by the constant 0 is the rotation with extend,
which is part of the last type. -/
def shiftKind (ins : Word) : Kind :=
  match (getBits ins 6 5).toNat with
  | 0 => .lsl
  | 1 => .lsr
  | 2 => .asr
  | _ => .ror

/-- A carry and a word as the code returns them: the carry is a number, 0 or 1. -/
def shifted (r : Bool × Word) : Shifted := (truth r.1, r.2)

/-- The C flag. -/
def cFlag (p : ArmCore) : Bool := (armReadCpsr p).getLsbD C

/-- The carry flag, as the source reads it. -/
theorem getBit_cpsr_C (p : ArmCore) : getBit (armReadCpsr p) 29 = truth (cFlag p) :=
  getBit_eq_truth _ _

/-- The pair of the source determines carry and result. -/
theorem shifted_inj {r r' : Bool × Word} : shifted r = shifted r' ↔ r = r' := by
  obtain ⟨c, x⟩ := r
  obtain ⟨c', x'⟩ := r'
  cases c <;> cases c' <;> simp [shifted, truth]

/-- The fields that `carry` tests overlap. -/
theorem shift_fields (ins : Word) :
    (getBits ins 6 4).toNat = 2 * (getBits ins 6 5).toNat + (getBit ins 4).toNat ∧
      (getBits ins 7 4).toNat = 8 * (getBit ins 7).toNat + (getBits ins 6 4).toNat ∧
      (getBits ins 11 4).toNat = 8 * (getBits ins 11 7).toNat + (getBits ins 6 4).toNat := by
  simp only [toNat_getBits, toNat_getBit]
  omega

/-- Two bits say which of the four shifts it is. -/
theorem shiftKind_cases (ins : Word) :
    ((getBits ins 6 5).toNat = 0 ∧ shiftKind ins = .lsl) ∨
      ((getBits ins 6 5).toNat = 1 ∧ shiftKind ins = .lsr) ∨
      ((getBits ins 6 5).toNat = 2 ∧ shiftKind ins = .asr) ∨
      ((getBits ins 6 5).toNat = 3 ∧ shiftKind ins = .ror) := by
  have hlt : (getBits ins 6 5).toNat < 4 := by
    rw [toNat_getBits]
    exact Nat.mod_lt _ (by decide)
  unfold shiftKind
  generalize (getBits ins 6 5).toNat = t at hlt
  match t with
  | 0 | 1 | 2 | 3 => simp
  | t + 4 => omega

/-! ## The functions of `util.c` -/

section Amounts

variable (v : Word) {n : Byte}

/-- Below 32, the shift of the code is the one of words. -/
theorem logicalShiftLeft_eq (hn : n.toNat < 32) : logicalShiftLeft v n = v <<< n.toNat := by
  rw [logicalShiftLeft, shl, Nat.mod_eq_of_lt hn]

/-- The function of the source is the shift where the amount is less than the width. -/
theorem logicalShiftRight_eq (hn : n.toNat < 32) : logicalShiftRight v n = v >>> n.toNat := by
  rw [logicalShiftRight, shr, Nat.mod_eq_of_lt hn]

/-- The other part of a rotation, which the source computes with eight bits. -/
theorem toNat_complement (hpos : 0 < n.toNat) (hn : n.toNat < 32) :
    (32#8 - n).toNat % 32 = 32 - n.toNat := by
  rw [BitVec.toNat_sub_of_le (BitVec.le_def.mpr hn.le), Nat.mod_eq_of_lt]
  · rfl
  · exact Nat.sub_lt (by decide) hpos

/-- From 1 to 31, `ror` is a rotation.  By 0 the two parts of its `or` are the same word, by the way
the machine counts. -/
theorem ror_eq (hpos : 0 < n.toNat) (hn : n.toNat < 32) : ror v n = v.rotateRight n.toNat := by
  rw [ror, shr, shl, toNat_complement hpos hn, Nat.mod_eq_of_lt hn, BitVec.rotateRight_def,
    Nat.mod_eq_of_lt hn]

/-- From 1 to 31, `asr` copies the sign. -/
theorem asr_eq (hpos : 0 < n.toNat) (hn : n.toNat < 32) : asr v n = v.sshiftRight n.toNat := by
  have hsign : getBit v 31 ≠ 0 ↔ v.msb = true := by
    rw [getBit_ne_zero, getBit_eq_one, BitVec.msb_eq_getLsbD_last]
  -- the ones that are shifted in from the left
  have hones : ∀ i < 32, (BitVec.allOnes 32 <<< (32 - n.toNat)).getLsbD i =
      decide (32 - n.toNat ≤ i) := by
    intro i hi
    have hlow : i - (32 - n.toNat) < 32 := by omega
    rw [BitVec.getLsbD_shiftLeft, BitVec.getLsbD_allOnes]
    by_cases hnew : i < 32 - n.toNat
    · have hold : ¬ 32 - n.toNat ≤ i := Nat.not_le.mpr hnew
      simp only [hnew, hold, decide_true, decide_false, Bool.not_true, Bool.and_false,
        Bool.false_and]
    · have hold : 32 - n.toNat ≤ i := Nat.le_of_not_lt hnew
      simp only [hi, hlow, hnew, hold, decide_true, decide_false, Bool.not_false, Bool.and_true]
  rw [asr, shr, shl, toNat_complement hpos hn, Nat.mod_eq_of_lt hn]
  refine BitVec.eq_of_getLsbD_eq fun i hi => ?_
  rw [BitVec.getLsbD_or, BitVec.getLsbD_ushiftRight, BitVec.getLsbD_sshiftRight]
  by_cases hlow : n.toNat + i < 32
  · have hnew : ¬ 32 - n.toNat ≤ i := by omega
    split_ifs
    · rw [hones i hi]
      simp [hnew, hi]
    · simp [hi]
  · have hnew : 32 - n.toNat ≤ i := by omega
    rw [BitVec.getLsbD_of_ge v _ (Nat.le_of_not_lt hlow)]
    split_ifs with hset
    · rw [hones i hi]
      simp [hnew, hi, hsign.mp hset]
    · have hclear : v.msb = false := Bool.eq_false_iff.mpr fun h => hset (hsign.mpr h)
      simp [hclear]

end Amounts

/-! ## The shifts by a constant -/

section Constants

variable (p : ArmCore) (v : Word) {n : Word}

/-- Bit 31 is the sign. -/
theorem getBit_31_eq_msb : getBit v 31 = truth v.msb := by
  rw [getBit_eq_truth, BitVec.msb_eq_getLsbD_last]

/-- The copies of the sign that two of the functions make. -/
theorem signs_eq :
    (if getBit v 31 = 0 then (getBit v 31, (0 : Word)) else (getBit v 31, 0xFFFFFFFF)) =
      shifted (v.msb, signs v) := by
  rw [getBit_31_eq_msb, signs, shifted]
  cases v.msb <;> rfl

/-- LSL by a constant; by 0 the carry is the C flag. -/
theorem logicalShiftLeftByImmediate_eq (hn : n.toNat < 32) :
    logicalShiftLeftByImmediate p n v = shifted (immediate .lsl v n.toNat (cFlag p)) := by
  by_cases hzero : n = 0
  · rw [logicalShiftLeftByImmediate, if_pos hzero, hzero, getBit_cpsr_C]
    rfl
  · have hne : n.toNat ≠ 0 := fun h => hzero (BitVec.eq_of_toNat_eq h)
    have hu8 : (u8 n).toNat = n.toNat := toNat_u8 (by omega)
    rw [logicalShiftLeftByImmediate, if_neg hzero, immediate, if_neg hne, getBit_eq_truth,
      logicalShiftLeft_eq v (hu8.trans_lt hn), hu8]
    rfl

/-- LSR by a constant, where 0 stands for 32. -/
theorem logicalShiftRightByImmediate_eq (hn : n.toNat < 32) :
    logicalShiftRightByImmediate n v = shifted (immediate .lsr v n.toNat (cFlag p)) := by
  by_cases hzero : n = 0
  · rw [logicalShiftRightByImmediate, if_pos hzero, hzero, getBit_31_eq_msb]
    rfl
  · have hne : n.toNat ≠ 0 := fun h => hzero (BitVec.eq_of_toNat_eq h)
    have hu8 : (u8 n).toNat = n.toNat := toNat_u8 (by omega)
    rw [logicalShiftRightByImmediate, if_neg hzero, immediate, if_neg hne, getBit_eq_truth,
      logicalShiftRight_eq v (hu8.trans_lt hn), hu8]
    rfl

/-- ASR by a constant, where 0 stands for 32. -/
theorem arithmeticShiftRightByImmediate_eq (hn : n.toNat < 32) :
    arithmeticShiftRightByImmediate (u8 n) v = shifted (immediate .asr v n.toNat (cFlag p)) := by
  have hu8 : (u8 n).toNat = n.toNat := toNat_u8 (by omega)
  by_cases hzero : u8 n = 0
  · have hn0 : n.toNat = 0 := by rw [← hu8, hzero]; rfl
    rw [arithmeticShiftRightByImmediate, if_pos hzero, signs_eq, immediate, if_pos hn0]
  · have hne : n.toNat ≠ 0 := fun h => hzero (BitVec.eq_of_toNat_eq (hu8.trans h))
    rw [arithmeticShiftRightByImmediate, if_neg hzero, immediate, if_neg hne, getBit_eq_truth,
      asr_eq v (by omega) (by omega), hu8]
    rfl

/-- The rotation with extend: the C flag comes in at the top, and bit 0 goes out. -/
theorem rotateRightWithExtend_eq :
    rotateRightWithExtend p v = shifted (v.getLsbD 0, rotateExtend v (cFlag p)) := by
  have hcarry : logicalShiftLeft (truth (cFlag p)) 31 =
      (BitVec.ofBool (cFlag p)).setWidth 32 <<< 31 := by
    cases cFlag p <;> rfl
  rw [rotateRightWithExtend, getBit_cpsr_C, getBit_eq_truth, hcarry]
  rfl

/-- ROR by a constant, where 0 stands for the rotation with extend. -/
theorem rotateRightByImmediate_eq (hn : n.toNat < 32) :
    rotateRightByImmediate p (u8 n) v = shifted (immediate .ror v n.toNat (cFlag p)) := by
  have hu8 : (u8 n).toNat = n.toNat := toNat_u8 (by omega)
  by_cases hzero : u8 n = 0
  · have hn0 : n.toNat = 0 := by rw [← hu8, hzero]; rfl
    rw [rotateRightByImmediate, if_pos hzero, rotateRightWithExtend_eq, immediate, if_pos hn0]
  · have hne : n.toNat ≠ 0 := fun h => hzero (BitVec.eq_of_toNat_eq (hu8.trans h))
    rw [rotateRightByImmediate, if_neg hzero, immediate, if_neg hne, getBit_eq_truth,
      ror_eq v (by omega) (by omega), hu8]
    rfl

end Constants

/-! ## The shifts by a register -/

section Registers

variable (p : ArmCore) (v rs : Word)

/-- An amount from a register is one byte. -/
theorem amount_lt (rs : Word) : (getBits rs 7 0).toNat < 256 := by
  rw [toNat_getBits]
  exact Nat.mod_lt _ (by decide)

/-- LSL by a register, by any amount up to 255. -/
theorem logicalShiftLeftByRegister_eq :
    logicalShiftLeftByRegister p v rs =
      shifted (register .lsl v (getBits rs 7 0).toNat (cFlag p)) := by
  have hu8 : (u8 (getBits rs 7 0)).toNat = (getBits rs 7 0).toNat := toNat_u8 (amount_lt rs)
  rw [logicalShiftLeftByRegister, register]
  generalize getBits rs 7 0 = n at hu8
  have hzero : n = 0 ↔ n.toNat = 0 := BitVec.toNat_inj.symm
  have hwidth : n = 32 ↔ n.toNat = 32 := BitVec.toNat_inj.symm
  rw [getBit_cpsr_C, getBit_eq_truth, getBit_eq_truth]
  simp only [hzero, hwidth]
  split_ifs with h0 hlt
  · rfl
  · rw [logicalShiftLeft_eq v (hu8.trans_lt hlt), hu8]
    rfl
  · rfl
  · rfl

/-- LSR by a register, by any amount up to 255. -/
theorem logicalShiftRightByRegister_eq :
    logicalShiftRightByRegister p rs v =
      shifted (register .lsr v (getBits rs 7 0).toNat (cFlag p)) := by
  have hu8 : (u8 (getBits rs 7 0)).toNat = (getBits rs 7 0).toNat := toNat_u8 (amount_lt rs)
  rw [logicalShiftRightByRegister, register]
  generalize getBits rs 7 0 = n at hu8
  have hzero : n = 0 ↔ n.toNat = 0 := BitVec.toNat_inj.symm
  have hwidth : n = 32 ↔ n.toNat = 32 := BitVec.toNat_inj.symm
  rw [getBit_cpsr_C, getBit_31_eq_msb, getBit_eq_truth]
  simp only [hzero, hwidth]
  split_ifs with h0 hlt
  · rfl
  · rw [logicalShiftRight_eq v (hu8.trans_lt hlt), hu8]
    rfl
  · rfl
  · rfl

/-- ASR by a register, by any amount up to 255. -/
theorem arithmeticShiftRightByRegister_eq :
    arithmeticShiftRightByRegister v rs p =
      shifted (register .asr v (getBits rs 7 0).toNat (cFlag p)) := by
  have hu8 : (u8 (getBits rs 7 0)).toNat = (getBits rs 7 0).toNat := toNat_u8 (amount_lt rs)
  rw [arithmeticShiftRightByRegister, register]
  generalize getBits rs 7 0 = n at hu8
  have hzero : n = 0 ↔ n.toNat = 0 := BitVec.toNat_inj.symm
  rw [getBit_cpsr_C, signs_eq, getBit_eq_truth]
  simp only [hzero]
  split_ifs with h0 hlt
  · rfl
  · rw [asr_eq v (by omega) (by omega), hu8]
    rfl
  · rfl

end Registers

/-! ## The choice

The tests look at bits 6 … 4, 7 … 4 and 11 … 4, so one word passes several of them; the last that it
passes decides. -/

section Choice

variable (p : ArmCore) {ins : Word} (v : Word)

/-- The tests of `carry` when bit 4 is clear: the amount is a constant. -/
theorem carryCascade_immediate (h4 : getBit ins 4 = 0) {n : Word} (hn : n = getBits ins 11 7) :
    carryCascade ins p n v = some (shifted (immediate (shiftKind ins) v n.toNat (cFlag p))) := by
  have hlt : n.toNat < 32 := by
    rw [hn, toNat_getBits]
    exact Nat.mod_lt _ (by decide)
  obtain ⟨h64, h74, h114⟩ := shift_fields ins
  have hbit4 : (getBit ins 4).toNat = 0 := congrArg BitVec.toNat h4
  have hamount : (getBits n 7 0).toNat = n.toNat := by
    rw [toNat_getBits]
    omega
  rw [← hn] at h114
  -- of the register forms only the first does not ask for an odd field
  have hodd : ∀ k : Word, k.toNat % 2 = 1 → getBits ins 7 4 ≠ k := by
    rintro k hk rfl
    omega
  have hfield : ∀ t, (getBits ins 6 5).toNat = t → t < 4 →
      getBits ins 6 4 = BitVec.ofNat 32 (2 * t) := by
    intro t ht hlt
    apply BitVec.eq_of_toNat_eq
    rw [BitVec.toNat_ofNat]
    omega
  have hextend : getBits ins 11 4 = 6 ↔ n.toNat = 0 ∧ (getBits ins 6 5).toNat = 3 := by
    rw [← BitVec.toNat_inj]
    simp only [BitVec.ofNat_eq_ofNat, BitVec.toNat_ofNat]
    omega
  unfold carryCascade
  dsimp only
  rw [if_neg (hodd 3 rfl), if_neg (hodd 5 rfl)]
  rcases shiftKind_cases ins with ⟨ht, hkind⟩ | ⟨ht, hkind⟩ | ⟨ht, hkind⟩ | ⟨ht, hkind⟩ <;>
    rw [hfield _ ht (by decide), hkind] <;> simp only [hextend, ht]
  · -- an odd amount goes through the register form, which agrees below 32
    rw [if_neg (fun h => absurd h.2 (by decide)), if_neg (by decide), if_neg (by decide),
      if_neg (by decide), if_pos (show BitVec.ofNat 32 (2 * 0) = 0 from rfl)]
    split_ifs
    · rw [logicalShiftLeftByRegister_eq, hamount, immediate_eq_register _ _ _ hlt fun _ => rfl]
    · rw [logicalShiftLeftByImmediate_eq p v hlt]
  · rw [if_neg (fun h => absurd h.2 (by decide)), if_neg (by decide), if_neg (by decide)]
    exact congrArg some (logicalShiftRightByImmediate_eq p v hlt)
  · rw [if_neg (fun h => absurd h.2 (by decide)), if_neg (by decide)]
    exact congrArg some (arithmeticShiftRightByImmediate_eq p v hlt)
  · by_cases hzero : n.toNat = 0
    · rw [if_pos ⟨hzero, trivial⟩, rotateRightWithExtend_eq, immediate, if_pos hzero]
    · rw [if_neg (fun h => hzero h.1)]
      exact congrArg some (rotateRightByImmediate_eq p v hlt)

/-- The tests of `carry` when bit 4 is set and bit 7 clear: the amount is in a register.  A
rotation is made as a left shift. -/
theorem carryCascade_register (h7 : getBit ins 7 = 0) (h4 : getBit ins 4 = 1) (rs : Word) :
    carryCascade ins p rs v = some (shifted (register
      (if shiftKind ins = .ror then .lsl else shiftKind ins) v (getBits rs 7 0).toNat
      (cFlag p))) := by
  obtain ⟨h64, h74, h114⟩ := shift_fields ins
  have hbit4 : (getBit ins 4).toNat = 1 := congrArg BitVec.toNat h4
  have hbit7 : (getBit ins 7).toNat = 0 := congrArg BitVec.toNat h7
  -- the functions of the other form ask for an even field
  have heven : ∀ k : Word, k.toNat % 2 = 0 → getBits ins 6 4 ≠ k := by
    rintro k hk rfl
    omega
  have hextend : getBits ins 11 4 ≠ 6 := by
    intro h
    have hval : (getBits ins 11 4).toNat = 6 := congrArg BitVec.toNat h
    omega
  have hfield : ∀ t, (getBits ins 6 5).toNat = t → t < 4 →
      getBits ins 7 4 = BitVec.ofNat 32 (2 * t + 1) := by
    intro t ht hlt
    apply BitVec.eq_of_toNat_eq
    rw [BitVec.toNat_ofNat]
    omega
  unfold carryCascade
  dsimp only
  rw [if_neg hextend, if_neg (heven 6 rfl), if_neg (heven 4 rfl), if_neg (heven 2 rfl),
    if_neg (heven 0 rfl)]
  rcases shiftKind_cases ins with ⟨ht, hkind⟩ | ⟨ht, hkind⟩ | ⟨ht, hkind⟩ | ⟨ht, hkind⟩ <;>
    rw [hfield _ ht (by decide), hkind]
  · exact congrArg some (logicalShiftLeftByRegister_eq p v rs)
  · exact congrArg some (logicalShiftRightByRegister_eq p v rs)
  · exact congrArg some (arithmeticShiftRightByRegister_eq p v rs)
  · exact congrArg some (logicalShiftLeftByRegister_eq p v rs)

end Choice

/-! ## The operands -/

/-- The value of `Rm`. -/
def rmValue (p : ArmCore) (ins : Word) : Word := armReadRegister p (u8 (getBits ins 3 0))

/-- The amount of a shift by a register, the low byte of `Rs`. -/
def rsAmount (p : ArmCore) (ins : Word) : ℕ :=
  (getBits (armReadRegister p (u8 (getBits ins 11 8))) 7 0).toNat

section Operands

variable (p : ArmCore) {ins : Word}

/-- **Shifts by a constant are right**: with bits 25 and 4 clear, some test of `carry` holds,
and the last one that does computes carry and operand of the shift that the instruction
asks for. -/
theorem carry_immediateShift (h25 : getBit ins 25 = 0) (h4 : getBit ins 4 = 0) :
    carryCascade ins p (getBits ins 11 7) (rmValue p ins) = some (carry ins p) ∧
      carry ins p = shifted (immediate (shiftKind ins) (rmValue p ins)
        (getBits ins 11 7).toNat (cFlag p)) := by
  have hcascade := carryCascade_immediate p (rmValue p ins) h4 rfl
  have hbit : ¬ getBit ins 4 = 1 := by
    rw [h4]
    decide
  have hcarry : carry ins p = shifted (immediate (shiftKind ins) (rmValue p ins)
      (getBits ins 11 7).toNat (cFlag p)) := by
    rw [carry, if_neg (not_not.mpr h25), if_neg hbit]
    exact congrArg (Option.getD · (0, 0)) hcascade
  exact ⟨hcascade.trans (congrArg some hcarry.symm), hcarry⟩

/-- `R1` is `0x80000001` and `R2` is 1, in mode SVC. -/
def shiftSample : ArmCore :=
  armWriteRegister (armWriteRegister (ArmCore.load 0x1d3 []) 1 0x80000001) 2 1

/-- `MOV r0, r1, LSL #1`. -/
theorem carry_immediateShift_lsl :
    carryCascade 0xE1A00081 shiftSample (getBits 0xE1A00081 11 7)
        (rmValue shiftSample 0xE1A00081) = some (carry 0xE1A00081 shiftSample) ∧
      carry 0xE1A00081 shiftSample = shifted (immediate (shiftKind 0xE1A00081)
        (rmValue shiftSample 0xE1A00081) (getBits 0xE1A00081 11 7).toNat (cFlag shiftSample)) :=
  carry_immediateShift shiftSample (by decide) (by decide)

/-- **Shifts by a register are right but for rotations**: with bit 25 and bit 7 clear and bit 4 set,
`carry` computes the shift that the instruction asks for exactly when that is no rotation or the
rotation is the same as a left shift.  Both results count, the operand and the carry. -/
theorem carry_registerShift_iff (h25 : getBit ins 25 = 0) (h7 : getBit ins 7 = 0)
    (h4 : getBit ins 4 = 1) :
    carry ins p =
        shifted (register (shiftKind ins) (rmValue p ins) (rsAmount p ins) (cFlag p)) ↔
      shiftKind ins ≠ .ror ∨ rsAmount p ins = 0 ∨ rmValue p ins = 0 ∨
        (rsAmount p ins < 32 ∧ (rmValue p ins).getLsbD (rsAmount p ins - 1) = false ∧
          Repeats (rmValue p ins) (rsAmount p ins)) := by
  have hcarry : carry ins p = (carryCascade ins p (armReadRegister p (u8 (getBits ins 11 8)))
      (rmValue p ins)).getD (0, 0) := by
    rw [carry, if_neg (not_not.mpr h25), if_pos h4]
    rfl
  rw [hcarry, carryCascade_register p _ h7 h4, Option.getD_some, shifted_inj, ← rsAmount]
  by_cases hror : shiftKind ins = .ror
  · rw [if_pos hror, hror, register_lsl_eq_ror_iff]
    simp
  · rw [if_neg hror]
    exact iff_of_true rfl (Or.inl hror)

/-- `MOV r0, r1, ROR r2` is no rotation of `0x80000001`. -/
theorem carry_registerShift_iff_ror :
    carry 0xE1A00271 shiftSample = shifted (register (shiftKind 0xE1A00271)
        (rmValue shiftSample 0xE1A00271) (rsAmount shiftSample 0xE1A00271)
        (cFlag shiftSample)) ↔
      shiftKind 0xE1A00271 ≠ .ror ∨ rsAmount shiftSample 0xE1A00271 = 0 ∨
        rmValue shiftSample 0xE1A00271 = 0 ∨
        (rsAmount shiftSample 0xE1A00271 < 32 ∧
          (rmValue shiftSample 0xE1A00271).getLsbD (rsAmount shiftSample 0xE1A00271 - 1) =
            false ∧
          Repeats (rmValue shiftSample 0xE1A00271) (rsAmount shiftSample 0xE1A00271)) :=
  carry_registerShift_iff shiftSample (by decide) (by decide) (by decide)

/-- The code shifts `0x80000001` to 2; its rotation is `0xC0000000`. -/
theorem carry_registerShift_counterexample :
    ¬ ∀ (p : ArmCore) (ins : Word), getBit ins 25 = 0 → getBit ins 7 = 0 → getBit ins 4 = 1 →
      carry ins p =
        shifted (register (shiftKind ins) (rmValue p ins) (rsAmount p ins) (cFlag p)) := by
  intro h
  have hsample := h shiftSample 0xE1A00271 (by decide) (by decide) (by decide)
  have hcode : carry 0xE1A00271 shiftSample = (1, 2) := by decide
  rw [hcode] at hsample
  exact absurd hsample (by decide)

end Operands

end ArmSimulator
