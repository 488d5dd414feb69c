import ArmSimulator.Results
import ArmSimulator.ShiftOperands

/-!
# Writes of the status words

MSR is one instruction in two forms, and the code is right about none of its parts.

* The register form is dispatched by other tests: with the CPSR as its destination it goes to
  `arm_branch`, which rejects it, and with the SPSR to `arm_miscellaneous`, which is MRS.
* The immediate form returns `DATA_ABORT`; the CPSR that it writes is in no mode
  (`modeUpdate_msrMerge`).
* Of the immediate operand the low byte is kept, rotated by the rotate field and not by twice the
  field; bit 16 stands for the whole field mask; and the old word is kept by `!mask`, which has one
  bit at most.

What remains is a write of an SPSR that has nothing to lose (`msr_exact_iff`).

The specification (`MsrExact`) is that of the instruction set: the operand, the bytes that the field
mask selects, the bits that the mode may change, and everything else as it was.  The result is asked
to be 0 for the CPSR only, where the documentation gives it.  On the side of the code the masks are
computed first, as functions of the word (`msrByteMask_eq`, `msrMerge_spsr`); then each form is
brought to one write (`immediate_spsr`, `register_spsr`), and a write is right exactly when its
value is.
-/

namespace ArmSimulator

open BitField

/-! ## The instruction

The two forms in the instruction set. -/

/-- The two forms of MSR. -/
inductive MsrForm
  | immediate | register
  deriving DecidableEq, Repr

namespace MsrForm

/-- The words of a form. -/
def Encodes (ins : Word) : MsrForm → Prop
  | immediate => IsMsr ins
  | register => getBits ins 27 23 = 2 ∧ getBits ins 21 20 = 2 ∧ getBits ins 7 4 = 0

/-- The operand: 8 bits rotated by twice the rotate field, or a register. -/
def operand (p : ArmCore) (ins : Word) : MsrForm → Word
  | immediate => (getBits ins 7 0).rotateRight (2 * (getBits ins 11 8).toNat)
  | register => armReadRegister p (u8 (getBits ins 3 0))

end MsrForm

/-- The bytes that the field mask selects, one for each bit. -/
def fieldMask (ins : Word) : Word :=
  (if getBit ins 16 = 1 then 0x000000FF else 0) |||
    (if getBit ins 17 = 1 then 0x0000FF00 else 0) |||
    (if getBit ins 18 = 1 then 0x00FF0000 else 0) |||
    (if getBit ins 19 = 1 then 0xFF000000 else 0)

/-- The bits of the CPSR that an MSR may change. -/
def cpsrMask (p : ArmCore) (ins : Word) : Word :=
  fieldMask ins &&& (if armInAPrivilegedMode p then 0xF000000F else 0xF0000000)

/-- The bits of an SPSR that an MSR may change. -/
def spsrMask (ins : Word) : Word := fieldMask ins &&& 0xF000002F

/-- The outcome `r` of the MSR `ins` in the state `p` is the one of the instruction set: the CPSR,
with result 0, or the SPSR of the mode gets the masked bits of the operand, and nothing else
changes. -/
structure MsrExact (form : MsrForm) (p : ArmCore) (ins : Word) (r : Int × ArmCore) : Prop where
  cpsr : getBit ins 22 = 0 →
    r.1 = 0 ∧ r.2.reg.cpsr = merge (cpsrMask p ins) p.reg.cpsr (form.operand p ins)
  spsr : getBit ins 22 = 1 →
    r.2.reg.cpsr = p.reg.cpsr ∧ ∀ i, spsrIndex p.reg.currentMode = some i →
      r.2.reg.spsr i = merge (spsrMask ins) (p.reg.spsr i) (form.operand p ins)
  others : ∀ i, (getBit ins 22 = 1 → spsrIndex p.reg.currentMode ≠ some i) →
    r.2.reg.spsr i = p.reg.spsr i
  registers : ∀ s, r.2.reg.get s = p.reg.get s
  mem : r.2.mem = p.mem

/-! ## The values that the code computes

The byte mask, the merge and the rotation, as they come out. -/

section Values

variable (ins : Word)

/-- All four tests of the byte mask are of bit 16. -/
theorem msrByteMask_eq : msrByteMask ins = if getBit ins 16 = 1 then 0xFFFFFFFF else 0 := by
  have hbit : getBit (getBits ins 19 16) 0 = 1 ↔ getBit ins 16 = 1 := by
    rw [getBit_eq_one, getBit_eq_one, getBits_eq_field, getLsbD_field]
    simp
  unfold msrByteMask
  simp only [hbit]
  split_ifs <;> rfl

/-- A byte does not see the high part of a mask. -/
theorem u32_and_congr (b : Byte) {m m' : Word} (h : SameBelow 8 m m') :
    u32 b &&& m = u32 b &&& m' := by
  apply BitVec.eq_of_getLsbD_eq
  intro i _
  rw [BitVec.getLsbD_and, BitVec.getLsbD_and]
  by_cases hlow : i < 8
  · rw [h i hlow]
  · have hbyte : (u32 b).getLsbD i = false := by
      rw [u32, BitVec.getLsbD_setWidth, BitVec.getLsbD_of_ge b i (Nat.le_of_not_lt hlow),
        Bool.and_false]
    rw [hbyte, Bool.false_and, Bool.false_and]

/-- The new SPSR: five bits of the operand, or one bit of the old word. -/
theorem msrMerge_spsr (status : Word) (operand : Byte) :
    msrMerge status (msrByteMask ins &&& 0xF000002F) operand =
      if getBit ins 16 = 1 then u32 operand &&& 0x2F else status &&& 1 := by
  rw [msrMerge, msrByteMask_eq]
  split_ifs with hbit
  · have hlow : SameBelow 8 (0xFFFFFFFF &&& 0xF000002F : Word) 0x2F := by
      rw [SameBelow]
      decide
    have hnone : truth (decide ((0xFFFFFFFF &&& 0xF000002F : Word) = 0)) = 0 := rfl
    rw [hnone, u32_and_congr operand hlow]
    simp
  · have hone : truth (decide ((0 &&& 0xF000002F : Word) = 0)) = 1 := rfl
    rw [hone]
    simp

/-- A rotation by less than a word. -/
theorem ror_of_lt (v : Word) {n : Byte} (hn : n.toNat < 32) : ror v n = v.rotateRight n.toNat := by
  rcases Nat.eq_zero_or_pos n.toNat with hzero | hpos
  · have hn0 : n = 0 := BitVec.eq_of_toNat_eq hzero
    rw [hn0, ror, shr, shl]
    simp [BitVec.rotateRight_def]
  · exact ror_eq v hpos hn

/-- Of the five bits that are kept only the low byte matters. -/
theorem u32_u8_and (x : Word) : u32 (u8 x) &&& 0x2F = x &&& 0x2F := by
  have hmask : ∀ i < 32, 8 ≤ i → (0x2F#32).getLsbD i = false := by decide
  apply BitVec.eq_of_getLsbD_eq
  intro i hi
  rw [BitVec.getLsbD_and, BitVec.getLsbD_and, u32, u8, BitVec.getLsbD_setWidth,
    BitVec.getLsbD_setWidth]
  by_cases hlow : i < 8
  · simp [hi, hlow]
  · simp [hmask i hi (Nat.le_of_not_lt hlow)]

/-- The rotation that the code makes. -/
theorem u32_ror :
    u32 (u8 (ror (u32 (u8 (getBits ins 8 0))) (u8 (getBits ins 11 8)))) &&& 0x2F =
      (getBits ins 7 0).rotateRight (getBits ins 11 8).toNat &&& 0x2F := by
  have hfield : (getBits ins 11 8).toNat < 16 := toNat_registerField ins 8
  have hamount : (u8 (getBits ins 11 8)).toNat = (getBits ins 11 8).toNat :=
    toNat_u8 (hfield.trans (by decide))
  have hbyte : u32 (u8 (getBits ins 8 0)) = getBits ins 7 0 := by
    apply BitVec.eq_of_getLsbD_eq
    intro i hi
    rw [u32, u8, BitVec.getLsbD_setWidth, BitVec.getLsbD_setWidth, getBits_eq_field,
      getBits_eq_field, getLsbD_field, getLsbD_field]
    by_cases hlow : i < 8
    · have hnine : i < 9 := hlow.trans (by decide)
      simp [hi, hlow, hnine]
    · simp [hlow]
  rw [u32_u8_and, ror_of_lt _ (by omega), hamount, hbyte]

end Values

/-! ## The writes of an SPSR

When the one value is the other, and when a write that should not be made does no harm. -/

/-- The SPSR `spsr` has no bit that the code loses, and gets the bits of the operand. -/
def MsrForm.Fits (p : ArmCore) (ins spsr : Word) : MsrForm → Prop
  | immediate =>
      let m := spsrMask ins
      if getBit ins 16 = 1 then
        spsr &&& ~~~m = 0 ∧ MsrForm.immediate.operand p ins &&& m =
          (getBits ins 7 0).rotateRight (getBits ins 11 8).toNat &&& 0x2F
      else spsr &&& ~~~m = spsr &&& 1 ∧ MsrForm.immediate.operand p ins &&& m = 0
  | register =>
      MsrForm.register.operand p ins &&& spsrMask ins = spsr &&& spsrMask ins ∧
        ∀ s, slot (u8 (getBits ins 15 12)) p.reg.currentMode = some s → p.reg.get s = spsr

section Writes

variable (p : ArmCore) {ins : Word}

/-- The five bits lie in the mask if bit 16 is set, and bit 0 outside if it is not. -/
theorem spsrMask_low :
    (getBit ins 16 = 1 → 0x2F &&& ~~~spsrMask ins = 0 ∧ 0x2F &&& spsrMask ins = 0x2F) ∧
      (getBit ins 16 ≠ 1 → 1 &&& ~~~spsrMask ins = 1 ∧ 1 &&& spsrMask ins = 0) := by
  rw [spsrMask, fieldMask]
  constructor
  · intro hbit
    rw [if_pos hbit]
    split_ifs <;> decide
  · intro hbit
    rw [if_neg hbit]
    split_ifs <;> decide

/-- **When the immediate form computes the right SPSR.** -/
theorem merge_immediate_iff (spsr : Word) :
    merge (spsrMask ins) spsr (MsrForm.immediate.operand p ins) =
        (if getBit ins 16 = 1 then
          (getBits ins 7 0).rotateRight (getBits ins 11 8).toNat &&& 0x2F
        else spsr &&& 1) ↔
      MsrForm.immediate.Fits p ins spsr := by
  have hzero : ∀ x : Word, x &&& 0 = 0 := fun _ => BitVec.and_zero
  obtain ⟨hset, hclear⟩ := @spsrMask_low ins
  rw [MsrForm.Fits, merge_eq_iff]
  split_ifs with hbit
  · obtain ⟨hout, hin⟩ := hset hbit
    rw [BitVec.and_assoc, BitVec.and_assoc, hout, hin, hzero]
  · obtain ⟨hout, hin⟩ := hclear hbit
    rw [BitVec.and_assoc, BitVec.and_assoc, hout, hin, hzero]

/-- In a mode without SPSR a rejected MSR to the SPSR is right. -/
theorem msrExact_of_none (form : MsrForm) (hspsr : getBit ins 22 = 1)
    (hnone : spsrIndex p.reg.currentMode = none) (result : Int) :
    MsrExact form p ins (result, p) where
  cpsr := fun h => absurd (hspsr.symm.trans h) (by decide)
  spsr := fun _ => ⟨rfl, fun i hi => absurd (hnone.symm.trans hi) nofun⟩
  others := fun _ _ => rfl
  registers := fun _ => rfl
  mem := rfl

/-- An SPSR write does what an MSR should if it writes the right value. -/
theorem msrExact_armWriteSpsr_iff (form : MsrForm) (hspsr : getBit ins 22 = 1) {i : Fin 5}
    (hi : spsrIndex p.reg.currentMode = some i) (result : Int) (value : Word) :
    MsrExact form p ins (result, armWriteSpsr p value) ↔
      merge (spsrMask ins) (p.reg.spsr i) (form.operand p ins) = value := by
  have hwritten : (armWriteSpsr p value).reg.spsr = Function.update p.reg.spsr i value := by
    rw [armWriteSpsr_spsr, hi]
    rfl
  constructor
  · intro h
    have hvalue := (h.spsr hspsr).2 i hi
    rw [hwritten, Function.update_self] at hvalue
    exact hvalue.symm
  · rintro rfl
    exact {
      cpsr := fun h => absurd (hspsr.symm.trans h) (by decide)
      spsr := fun _ => ⟨armWriteSpsr_cpsr .., fun j hj => by
        obtain rfl : i = j := Option.some.inj (hi.symm.trans hj)
        rw [hwritten, Function.update_self]⟩
      others := fun j hj => by
        have hne : j ≠ i := fun h => hj hspsr (h ▸ hi)
        rw [hwritten, Function.update_of_ne hne]
      registers := fun s => get_armWriteSpsr ..
      mem := rfl }

/-- A register write does what an MSR should if it changes nothing, and there is nothing to
change. -/
theorem msrExact_armWriteRegister_iff (form : MsrForm) (hspsr : getBit ins 22 = 1) {i : Fin 5}
    (hi : spsrIndex p.reg.currentMode = some i) (result : Int) (rd : Byte) (value : Word) :
    MsrExact form p ins (result, armWriteRegister p rd value) ↔
      merge (spsrMask ins) (p.reg.spsr i) (form.operand p ins) = p.reg.spsr i ∧
        ∀ s, slot rd p.reg.currentMode = some s → p.reg.get s = value := by
  constructor
  · intro h
    have hvalue := (h.spsr hspsr).2 i hi
    rw [armWriteRegister_spsr] at hvalue
    refine ⟨hvalue.symm, fun s hs => ?_⟩
    rw [← h.registers s, get_armWriteRegister, if_pos hs]
  · rintro ⟨hmerge, hvalue⟩
    exact {
      cpsr := fun h => absurd (hspsr.symm.trans h) (by decide)
      spsr := fun _ => ⟨armWriteRegister_cpsr .., fun j hj => by
        obtain rfl : i = j := Option.some.inj (hi.symm.trans hj)
        rw [armWriteRegister_spsr, hmerge]⟩
      others := fun j _ => congrFun (armWriteRegister_spsr ..) j
      registers := fun s => by
        rw [get_armWriteRegister]
        split_ifs with hs
        · exact (hvalue s hs).symm
        · rfl
      mem := rfl }

end Writes

/-! ## The two forms

From the dispatch to the write. -/

section Forms

variable (p : ArmCore) {ins : Word}

theorem dispatch_msr (hform : IsMsr ins) (junk : Word) :
    dispatch p ins junk = some (armDataProcessingImmediateMsr p ins) := by
  obtain ⟨hcategory, hhigh, hlow⟩ := hform
  have hdefined : ¬ (getBits ins 24 23 = 2 ∧ getBits ins 21 20 = 0) := by
    rw [hlow]
    exact fun h => absurd h.2 (by decide)
  rw [dispatch_one hcategory, if_neg hdefined, if_pos ⟨hlow, hhigh⟩]

/-- The immediate form with an SPSR as its destination. -/
theorem immediate_spsr (hform : IsMsr ins) (hspsr : getBit ins 22 = 1) :
    armDataProcessingImmediateMsr p ins =
      if armCurrentModeHasSpsr p then
        (DATA_ABORT, armWriteSpsr p
          (if getBit ins 16 = 1 then
            (getBits ins 7 0).rotateRight (getBits ins 11 8).toNat &&& 0x2F
          else armReadSpsr p &&& 1))
      else (UNDEFINED_INSTRUCTION, p) := by
  have himmediate : getBit ins 25 ≠ 0 := by
    have hcategory := hform.1
    rw [toNat_getBits] at hcategory
    rw [Ne, getBit_eq_iff]
    simp only [BitVec.ofNat_eq_ofNat, BitVec.toNat_ofNat]
    omega
  have htarget : getBit ins 22 ≠ 0 := getBit_ne_zero.mpr hspsr
  have hmask : (0xF0000000 ||| 0x0000000F ||| 0x00000020 : Word) = 0xF000002F := rfl
  rw [armDataProcessingImmediateMsr, msrOperand]
  dsimp only
  rw [if_neg himmediate]
  dsimp only
  rw [if_neg htarget, hmask, msrMerge_spsr, u32_ror]

/-- The numbers of the fields of the register form. -/
theorem register_fields (hform : MsrForm.register.Encodes ins) :
    (getBits ins 27 25).toNat = 0 ∧ getBits ins 7 4 ≠ 0b1011 ∧ getBits ins 24 23 = 2 ∧
      getBit ins 20 = 0 ∧ (getBits ins 27 20 = 18 ↔ getBit ins 22 = 0) := by
  obtain ⟨hhigh, hlow, hbits⟩ := hform
  rw [getBits_eq_iff] at hhigh hlow
  simp only [BitVec.ofNat_eq_ofNat, BitVec.toNat_ofNat] at hhigh hlow
  refine ⟨?_, ?_, ?_, ?_, ?_⟩
  · rw [toNat_getBits]
    omega
  · rw [hbits]
    decide
  all_goals
    simp only [getBits_eq_iff, getBit_eq_iff, BitVec.ofNat_eq_ofNat, BitVec.toNat_ofNat]
    omega

/-- The register form with an SPSR as its destination is an MRS. -/
theorem register_spsr (hform : MsrForm.register.Encodes ins) (hspsr : getBit ins 22 = 1)
    (junk : Word) :
    dispatch p ins junk = some
      (if armCurrentModeHasSpsr p then
        (0, armWriteRegister p (u8 (getBits ins 15 12)) (armReadSpsr p))
      else (UNDEFINED_INSTRUCTION, p)) := by
  obtain ⟨hcategory, hhalf, hmisc, hbit, hbranch⟩ := register_fields hform
  have htarget : getBit ins 22 ≠ 0 := getBit_ne_zero.mpr hspsr
  rw [dispatch_zero hcategory, if_neg fun h => htarget (hbranch.mp h), if_neg hhalf,
    if_pos ⟨hmisc, hbit⟩, armMiscellaneous, if_neg htarget]

/-- The register form with the CPSR as its destination is rejected. -/
theorem register_cpsr (hform : MsrForm.register.Encodes ins) (hcpsr : getBit ins 22 = 0)
    (junk : Word) : dispatch p ins junk = some (UNDEFINED_INSTRUCTION, p) := by
  obtain ⟨hcategory, -, -, -, hbranch⟩ := register_fields hform
  have hbx : getBits ins 27 20 = 18 := hbranch.mpr hcpsr
  have hnotB : getBits ins 27 25 ≠ 5 := by
    intro h
    rw [h] at hcategory
    exact absurd hcategory (by decide)
  have hkinds : getBits ins 7 4 ≠ 1 ∧ getBits ins 7 4 ≠ 3 := by
    rw [hform.2.2]
    decide
  rw [dispatch_zero hcategory, if_pos hbx, armBranch, if_neg hnotB, if_pos hbx]
  dsimp only
  rw [if_neg hkinds.1, if_neg hkinds.2]

/-- An MSR to the CPSR never returns 0. -/
theorem msr_cpsr_result {form : MsrForm} (hform : form.Encodes ins) (hcpsr : getBit ins 22 = 0)
    (junk : Word) {r : Int × ArmCore} (h : dispatch p ins junk = some r) : r.1 ≠ 0 := by
  have hundefined : UNDEFINED_INSTRUCTION ≠ 0 := by decide
  cases form with
  | immediate =>
      have hresult := armDataProcessingImmediateMsr_result p ins
      rw [dispatch_msr p hform] at h
      obtain rfl := Option.some.inj h
      rcases hresult with hresult | hresult
      · rw [hresult]
        exact hundefined
      · rw [hresult]
        decide
  | register =>
      rw [register_cpsr p hform hcpsr] at h
      obtain rfl := Option.some.inj h
      exact hundefined

/-- **When an MSR to the SPSR is right**: there is none, or the word that it holds fits. -/
theorem msr_spsr_iff {form : MsrForm} (hform : form.Encodes ins) (hspsr : getBit ins 22 = 1)
    (junk : Word) {r : Int × ArmCore} (h : dispatch p ins junk = some r) :
    MsrExact form p ins r ↔
      ∀ i, spsrIndex p.reg.currentMode = some i → form.Fits p ins (p.reg.spsr i) := by
  cases hindex : spsrIndex p.reg.currentMode with
  | none =>
      have hnone : ¬ armCurrentModeHasSpsr p := by
        rw [hasSpsr_eq, hindex]
        simp
      refine iff_of_true ?_ nofun
      cases form with
      | immediate =>
          rw [dispatch_msr p hform, immediate_spsr p hform hspsr, if_neg hnone] at h
          obtain rfl := Option.some.inj h
          exact msrExact_of_none p _ hspsr hindex _
      | register =>
          rw [register_spsr p hform hspsr, if_neg hnone] at h
          obtain rfl := Option.some.inj h
          exact msrExact_of_none p _ hspsr hindex _
  | some i =>
      have hsome : armCurrentModeHasSpsr p := by
        rw [hasSpsr_eq, hindex]
        rfl
      have hsingle : (∀ j, some i = some j → form.Fits p ins (p.reg.spsr j)) ↔
          form.Fits p ins (p.reg.spsr i) :=
        ⟨fun h => h i rfl, fun h j hj => Option.some.inj hj ▸ h⟩
      rw [hsingle]
      cases form with
      | immediate =>
          rw [dispatch_msr p hform, immediate_spsr p hform hspsr, if_pos hsome,
            armReadSpsr_of_index hindex] at h
          obtain rfl := Option.some.inj h
          exact (msrExact_armWriteSpsr_iff p _ hspsr hindex _ _).trans (merge_immediate_iff p _)
      | register =>
          rw [register_spsr p hform hspsr, if_pos hsome, armReadSpsr_of_index hindex] at h
          obtain rfl := Option.some.inj h
          rw [msrExact_armWriteRegister_iff p _ hspsr hindex, merge_eq_iff, MsrForm.Fits,
            and_iff_right rfl]

end Forms

/-- **MSR.**  For every state and every MSR whose condition holds, the outcome is the one of the
instruction set exactly if the destination is an SPSR that the mode does not have, or one that
fits. -/
theorem msr_exact_iff {p : ArmCore} {ins : Word} {form : MsrForm} (hins : Executes p ins)
    (hform : form.Encodes ins) (junk : Word) :
    (∃ r, armExecuteInstruction p junk = some r ∧ MsrExact form p.fetched ins r) ↔
      getBit ins 22 = 1 ∧
        ∀ i, spsrIndex p.reg.currentMode = some i →
          form.Fits p.fetched ins (p.reg.spsr i) := by
  have hmode : p.fetched.reg.currentMode = p.reg.currentMode := fetched_currentMode p
  rw [hins.dispatched]
  rcases getBit_cases ins 22 with hcpsr | hspsr
  · refine iff_of_false ?_ fun h => absurd (hcpsr.symm.trans h.1) (by decide)
    rintro ⟨r, hr, hexact⟩
    exact msr_cpsr_result p.fetched hform hcpsr junk hr (hexact.cpsr hcpsr).1
  · obtain ⟨r, hr⟩ : ∃ r, dispatch p.fetched ins junk = some r := by
      cases form with
      | immediate => exact ⟨_, dispatch_msr p.fetched hform junk⟩
      | register => exact ⟨_, register_spsr p.fetched hform hspsr junk⟩
    rw [and_iff_right hspsr, ← hmode, ← fetched_spsr p,
      ← msr_spsr_iff p.fetched hform hspsr junk hr, hr]
    constructor
    · rintro ⟨q, hq, hexact⟩
      obtain rfl := Option.some.inj hq
      exact hexact
    · exact fun h => ⟨r, rfl, h⟩

/-- `MSR SPSR_f, #0`. -/
theorem msr_exact_iff_spsr :
    (∃ r, armExecuteInstruction (ArmCore.load 0x1d3 [0xE368F000]) 0 = some r ∧
        MsrExact .immediate (ArmCore.load 0x1d3 [0xE368F000]).fetched 0xE368F000 r) ↔
      getBit 0xE368F000 22 = 1 ∧
        ∀ i, spsrIndex (ArmCore.load 0x1d3 [0xE368F000]).reg.currentMode = some i →
          MsrForm.immediate.Fits (ArmCore.load 0x1d3 [0xE368F000]).fetched 0xE368F000
            ((ArmCore.load 0x1d3 [0xE368F000]).reg.spsr i) :=
  @msr_exact_iff (ArmCore.load 0x1d3 [0xE368F000]) 0xE368F000 .immediate
    ⟨by decide, by decide⟩ ⟨by decide, by decide, by decide⟩ 0

/-- `MSR CPSR_f, #0` returns `DATA_ABORT`. -/
theorem msr_exact_counterexample :
    ¬ ∀ (p : ArmCore) (ins junk : Word) (form : MsrForm), Executes p ins → form.Encodes ins →
      ∃ r, armExecuteInstruction p junk = some r ∧ MsrExact form p.fetched ins r := by
  intro h
  obtain ⟨r, hexec, hexact⟩ := h (ArmCore.load 0x1d3 [0xE328F000]) 0xE328F000 0 .immediate
    ⟨by decide, by decide⟩ ⟨by decide, by decide, by decide⟩
  have hresult : (armExecuteInstruction (ArmCore.load 0x1d3 [0xE328F000]) 0).map (fun r => r.1) =
      some DATA_ABORT := by decide
  rw [hexec] at hresult
  have hzero := (Option.some.inj hresult).symm.trans (hexact.cpsr (by decide)).1
  exact absurd hzero (by decide)

end ArmSimulator
