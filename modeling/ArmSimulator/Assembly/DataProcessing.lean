import ArmSimulator.Assembly.View
import ArmSimulator.DataProcessingFrame
import ArmSimulator.ShiftOperands

/-!
# Assembly: data processing

The handler for data processing does what the machine does with an instruction of that kind.

`carry` computes the second operand (`carry_operand`), the opcode functions the result and the flags
N and Z; with the S bit, the result must not be what `R15` reads as
(`armDataProcessingShift_becomes`).  That test is the code's: it compares the *values* of the result
and of `R15` where the architecture compares register numbers, and takes an equal value for a return
from an exception.  The language leaves such a result open.

The operations differ in the code in which of C and V they set, and agree in N and Z.  Only the
latter are seen, so a lemma for the logical flags and one for the arithmetic ones are enough.
-/

namespace ArmSimulator.Assembly

open BitField

/-! ## Operands

The shifts of the code are steps over a cascade of conditions; where the language gives a shift a
meaning, the result is the one of the architecture, and what becomes of the carry is not seen. -/

/-- The fields of a second operand. -/
def OperandFields (ins : Word) : Operand → Prop
  | .immediate rotation value => getBit ins 25 = 1 ∧ (getBits ins 11 8).toNat = rotation.toNat ∧
      (getBits ins 7 0).toNat = value.toNat
  | .shifted kind amount rm => getBit ins 25 = 0 ∧ ShiftFields ins amount (kindCode kind) rm
  | .shiftedBy kind rs rm => getBit ins 25 = 0 ∧ ShiftByFields ins rs (kindCode kind) rm

section Operands

variable {p : ArmCore} {ins x : Word}

theorem shiftKind_eq {kind : Shifter.Kind}
    (h : (getBits ins 6 5).toNat = (kindCode kind).toNat) : shiftKind ins = kind := by
  rw [shiftKind, h]
  cases kind <;> rfl

/-- A shift by a constant that is not left open. -/
theorem shiftConstant_eq_some {kind : Shifter.Kind} {amount : BitVec 5} {value : Word}
    (h : shiftConstant kind amount value = some x) (c : Bool) :
    (Shifter.immediate kind value amount.toNat c).2 = x := by
  rw [shiftConstant] at h
  split_ifs at h with hcarry
  rw [← Option.some.inj h]
  refine Shifter.immediate_snd (fun hzero => hcarry ⟨hzero.1, ?_⟩) value c false
  exact BitVec.eq_of_toNat_eq hzero.2

/-- A byte rotated to the right. -/
theorem ror_rotation {rotation : BitVec 4} (value : Word) :
    ror value (rotation.setWidth 8 * 2) = value.rotateRight (2 * rotation.toNat) := by
  have hamount : (rotation.setWidth 8 * 2 : Byte).toNat = 2 * rotation.toNat := by
    rw [BitVec.toNat_mul, BitVec.toNat_setWidth]
    simp only [BitVec.ofNat_eq_ofNat, BitVec.toNat_ofNat]
    omega
  by_cases hzero : rotation.toNat = 0
  · have hnone : rotation.setWidth 8 * 2 = (0 : Byte) :=
      BitVec.eq_of_toNat_eq (hamount.trans (by rw [hzero]; rfl))
    have hrotate : value.rotateRight 0 = value >>> 0 ||| value <<< 32 := BitVec.rotateRight_def ..
    have hror : ror value 0 = value >>> 0 ||| value <<< 0 := rfl
    rw [hnone, hzero, hrotate, hror]
    simp
  · rw [ror_eq value (by omega) (by omega), hamount]

/-- **The second operand.**  Where the language gives an operand a value, `carry` computes it,
whatever carry comes with it. -/
theorem carry_operand (haligned : WordAligned p.reg.pc) {operand : Operand}
    (hfields : OperandFields ins operand) (h : operand.value (view p) = some x) :
    (carry ins p.fetched).2 = x := by
  have hone : ¬ (1 : Word) = 0 := by decide
  have hzero : ¬ (0 : Word) = 1 := by decide
  match operand with
  | .immediate rotation value =>
      obtain ⟨h25, hrotation, hvalue⟩ := hfields
      have hbyte : u8 (getBits ins 7 0) = value := by
        apply BitVec.eq_of_toNat_eq
        rw [toNat_u8 (by rw [hvalue]; exact value.isLt), hvalue]
      have hamount : u8 (getBits ins 11 8) = rotation.setWidth 8 := by
        apply BitVec.eq_of_toNat_eq
        rw [u8, BitVec.toNat_setWidth, hrotation, BitVec.toNat_setWidth]
      have hresult : ror (u32 value) (rotation.setWidth 8 * 2) = x :=
        (ror_rotation _).trans (Option.some.inj h)
      rw [carry, h25, if_pos hone, hbyte, hamount, immedate]
      split_ifs <;> exact hresult
  | .shifted kind amount rm =>
      obtain ⟨h25, hshift⟩ := hfields
      have hvalue := read_fetched haligned rm
      have hcascade := carryCascade_immediate p.fetched ((view p).read rm) hshift.bit4 rfl
      rw [carry, h25, if_neg (not_not.mpr rfl), hshift.bit4, if_neg hzero, hshift.rm, hvalue]
      dsimp only
      rw [hcascade, Option.getD_some, shifted, shiftKind_eq hshift.kind, hshift.amount]
      exact shiftConstant_eq_some h _
  | .shiftedBy kind rs rm =>
      obtain ⟨h25, hshift⟩ := hfields
      have hrm := read_fetched haligned rm
      have hrs := read_fetched haligned rs
      have hcascade := carryCascade_register p.fetched ((view p).read rm) hshift.bit7 hshift.bit4
        ((view p).read rs)
      have hamount : (getBits ((view p).read rs) 7 0).toNat = ((view p).read rs).toNat % 256 := by
        rw [toNat_getBits]
        omega
      rw [Operand.value] at h
      split_ifs at h with hkind
      rw [carry, h25, if_neg (not_not.mpr rfl), hshift.bit4, if_pos rfl, hshift.rm, hshift.rs, hrm,
        hrs]
      dsimp only
      rw [hcascade, Option.getD_some, shifted, shiftKind_eq hshift.kind, if_neg hkind, hamount,
        ← Option.some.inj h]
      exact Shifter.register_snd ..

end Operands

/-! ## Flags

Setting flags is a change of bits 31 to 28, of which two are seen. -/

namespace Becomes

variable {n : ℕ} {p q : ArmCore} {t : State}

/-- The flags of a logical operation. -/
theorem logical (h : Becomes n p q t) (result : Word) (c : Bool) :
    Becomes n p (nzcShifftercarryUpdate q result (truth c)) (t.setFlags result) := by
  have hflags := h.flags (nzcCpsr_sameBelow (armReadCpsr q) result (truth c))
  have hn : (nzcCpsr (armReadCpsr q) result (truth c)).getLsbD N = result.msb := by
    rw [getLsbD_nzcCpsr, if_pos rfl, BitVec.msb_eq_getLsbD_last]
  have hz : (nzcCpsr (armReadCpsr q) result (truth c)).getLsbD Z = decide (result = 0) := by
    rw [getLsbD_nzcCpsr, if_neg (by decide), if_pos rfl]
  rw [hn, hz] at hflags
  exact hflags

/-- The flags of an addition or a subtraction. -/
theorem arithmetic (h : Becomes n p q t) (result : Word) (c v : Bool) :
    Becomes n p (arithmeticFlags q result (truth c) (truth v)) (t.setFlags result) := by
  have hlogical := h.logical result c
  have hflags := hlogical.flags (vCpsr_sameBelow _ (truth v))
  -- the last write is of V alone
  have hn := congrArg State.n hlogical.view
  have hz := congrArg State.z hlogical.view
  rw [getLsbD_vCpsr, getLsbD_vCpsr, if_neg (by decide), if_neg (by decide)] at hflags
  rw [← hlogical.view] at hflags ⊢
  exact hflags

/-- The flags of an operation with a destination. -/
theorem opcodeFlags (h : Becomes n p q t) {opcode : Opcode} (hdest : opcode.compares = false)
    (rn operand : Word) (c : Bool) :
    Becomes n p (ArmSimulator.opcodeFlags opcode.code.toNat rn operand (truth c) q)
      (t.setFlags (opcode.apply rn operand)) := by
  cases opcode with
  | and | eor | orr | mov | mvn => exact h.logical _ c
  | sub | rsb | add => exact h.arithmetic _ _ _
  | bic =>
      have hbit := getBit_eq_truth (rn &&& ~~~operand) 28
      have hlogical := h.logical (rn &&& ~~~operand) ((rn &&& ~~~operand).getLsbD 28)
      rw [← hbit] at hlogical
      exact hlogical
  | tst | cmp | cmn => cases hdest

end Becomes

/-! ## The opcode functions

All operations at once, by their number: a result, a destination unless it is a comparison, and
flags if they are asked for. -/

section Opcodes

variable {p : ArmCore} {ins junk : Word} {opcode : Opcode} {s : Bool} {rn rd : Register}
  {category : ℕ}

/-- The words of an operation are given to `arm_data_processing_shift`; a comparison only with the
S bit. -/
theorem isDataProcessing_of_fields (h : DataProcessingFields ins category opcode.code s rn rd)
    (hs : opcode.compares = true → s = true)
    (hcategory : category = 1 ∨ (category = 0 ∧ ¬ (getBit ins 4 = 1 ∧ getBit ins 7 = 1))) :
    IsDataProcessing ins := by
  have hcode := h.code
  have hbit := congrArg BitVec.toNat h.s
  rw [toNat_getBits] at hcode
  rw [toNat_getBit] at hbit
  -- bits 24 and 23 are those of a comparison only if bit 20 is set
  have hmisc : ¬ (getBits ins 24 23 = 2 ∧ getBit ins 20 = 0) := by
    rintro ⟨hfield, hclear⟩
    have hcompares : opcode.compares = true := by
      rw [getBits_eq_iff] at hfield
      have hhigh : opcode.code.toNat / 4 = 2 := by
        have hfield' : ins.toNat / 2 ^ 23 % 2 ^ 2 = 2 := hfield
        omega
      revert hhigh
      cases opcode <;> decide
    rw [h.s, hs hcompares] at hclear
    exact absurd hclear (by decide)
  rcases hcategory with rfl | ⟨rfl, hbits⟩
  · have heven : ∀ n : Word, n.toNat % 2 = 0 → getBits ins 21 20 = n → getBit ins 20 = 0 := by
      intro n hn hfield
      rw [getBits_eq_iff] at hfield
      rw [getBit_eq_iff]
      show _ = 0
      omega
    exact Or.inr ⟨h.category, fun hboth => hmisc ⟨hboth.1, heven 0 rfl hboth.2⟩,
      fun hboth => hmisc ⟨hboth.2, heven 2 rfl hboth.1⟩⟩
  · refine Or.inl ⟨h.category, not_exchange_of_opcode h.code, fun h74 => hbits ?_, hmisc, hbits⟩
    rw [getBits_eq_iff] at h74
    have h74' : ins.toNat / 2 ^ 4 % 2 ^ 4 = 11 := h74
    constructor <;> rw [getBit_eq_iff] <;> show _ = 1 <;> omega

theorem isCommonOpcode_of_dest (h : opcode.compares = false) :
    IsCommonOpcode opcode.code.toNat := by
  cases opcode with
  | tst | cmp | cmn => cases h
  | _ => exact ⟨by decide, by decide⟩

theorem opcodeResult_eq (h : opcode.compares = false) (rn operand c : Word) :
    opcodeResult opcode.code.toNat rn operand c = opcode.apply rn operand := by
  cases opcode with
  | tst | cmp | cmn => cases h
  | _ => rfl

/-- The test of the S bit compares the result with what `R15` reads as. -/
theorem readsAsPc_iff (hready : Ready p) (haligned : WordAligned p.reg.pc) (hrd : rd ≠ 15)
    (result : Word) : ReadsAsPc p.fetched rd.number result ↔ result = p.reg.pc + 8 := by
  have hwrite := ((Becomes.fetched hready).write rd result).view
  have hresult : armReadRegister (armWriteRegister p.fetched rd.number result) rd.number =
      result := by
    rw [← view_reg hrd, hwrite]
    exact Function.update_self ..
  have hpc : (15 : Byte) ≠ rd.number := fun heq => hrd (Register.number_eq_pc.mp heq.symm)
  rw [ReadsAsPc, hresult, armReadRegister_write_of_ne _ _ hpc, armReadRegister_fetched_pc haligned]

/-- **Data processing** writes `Rd` and the flags as the machine does. -/
theorem armDataProcessingShift_becomes (hready : Ready p) (haligned : WordAligned p.reg.pc)
    (h : DataProcessingFields ins category opcode.code s rn rd) {x : Word} {t : State}
    (hoperand : (carry ins p.fetched).2 = x)
    (ht : (view p).dataProcess opcode s rd (opcode.apply ((view p).read rn) x) = some t) :
    ∃ q, armDataProcessingShift p.fetched ins = (0, q) ∧ Becomes 1 p q t := by
  have hfetched := Becomes.fetched hready
  have hrn := read_fetched haligned rn
  have hcarry := carry_fst ins p.fetched
  rw [State.dataProcess] at ht
  cases hcompares : opcode.compares with
  | true =>
      rw [hcompares, if_pos rfl] at ht
      split_ifs at ht
      obtain rfl := Option.some.inj ht
      cases opcode with
      | tst =>
          rw [armDataProcessingShift, h.code, h.rn, hrn, hoperand, hcarry]
          exact ⟨_, rfl, hfetched.logical _ _⟩
      | cmp | cmn =>
          rw [armDataProcessingShift, h.code, h.rn, hrn, hoperand]
          exact ⟨_, rfl, hfetched.arithmetic _ _ _⟩
      | _ => cases hcompares
  | false =>
      have hcommon := @armDataProcessingShift_common p.fetched ins
        (by rw [h.code]; exact isCommonOpcode_of_dest hcompares)
      rw [h.code, h.rn, hrn, hoperand, opcodeResult_eq hcompares, h.rd, h.s] at hcommon
      rw [hcommon]
      rw [hcompares, if_neg Bool.false_ne_true] at ht
      cases s with
      | true =>
          rw [if_pos rfl] at ht
          split_ifs at ht with hleft
          obtain rfl := Option.some.inj ht
          obtain ⟨hrd, hresult⟩ := not_or.mp hleft
          rw [view_pc, ← readsAsPc_iff hready haligned hrd] at hresult
          have hone : truth true = 1 := rfl
          rw [hone, writeResult_one, if_neg hresult, hcarry]
          exact ⟨_, rfl, (hfetched.write rd _).opcodeFlags hcompares _ _ _⟩
      | false =>
          rw [if_neg Bool.false_ne_true] at ht
          obtain rfl := Option.some.inj ht
          rw [writeResult_of_ne_one _ _ _ _ (by decide)]
          exact ⟨_, rfl, hfetched.write rd _⟩

end Opcodes

end ArmSimulator.Assembly
