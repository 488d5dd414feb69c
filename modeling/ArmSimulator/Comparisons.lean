import ArmSimulator.DataProcessingFrame
import ArmSimulator.Effects

/-!
# Comparisons

TST, CMP and CMN compute flags and write nothing else.  TEQ calls the function of EOR with the S bit
set, and so writes its `Rd` field, which is a field without meaning for the programmer; and when the
value written is the one that `R15` reads, it restores the CPSR besides.

`restored` is the state in which the body of the opcodes with a destination leaves the registers and
the status word, up to the four flags (`writeResult_one_flagsOnly`).  It says all there is to say
about TEQ.

`FlagsOnly` is the relation *the same up to the flags*.  It is an equivalence, and it is what makes
it possible to speak of a flag update without computing it: two states that it relates read the same
registers and have the same SPSR, as long as they are in the same mode.

* `armDataProcessingShift_flagsOnly_iff`: when a comparison has no destination, at the call.
* `comparison_flagsOnly_iff`: the same of a whole step, for every state and every word of a
  comparison whose condition holds.
-/

namespace ArmSimulator

/-! ## Flag updates -/

/-- The state `q` is `p` with other flags, at most. -/
structure FlagsOnly (p q : ArmCore) : Prop where
  registers : ∀ s, q.reg.get s = p.reg.get s
  spsr : q.reg.spsr = p.reg.spsr
  mem : q.mem = p.mem
  status : BitField.SameBelow 28 q.reg.cpsr p.reg.cpsr

namespace FlagsOnly

variable {p q r : ArmCore}

/-- Nothing changed is one way to change only the flags. -/
@[refl] theorem refl (p : ArmCore) : FlagsOnly p p := ⟨fun _ => rfl, rfl, rfl, .refl _ _⟩

@[symm] theorem symm (h : FlagsOnly p q) : FlagsOnly q p :=
  ⟨fun s => (h.registers s).symm, h.spsr.symm, h.mem.symm, h.status.symm⟩

/-- Two steps that change only the flags are one. -/
theorem trans (h₁ : FlagsOnly p q) (h₂ : FlagsOnly q r) : FlagsOnly p r :=
  ⟨fun s => (h₂.registers s).trans (h₁.registers s), h₂.spsr.trans h₁.spsr,
    h₂.mem.trans h₁.mem, h₂.status.trans h₁.status⟩

/-- A write of the status word that keeps bits 27 … 0. -/
theorem armWriteCpsr {cpsr : Word} (h : BitField.SameBelow 28 cpsr p.reg.cpsr) :
    FlagsOnly p (armWriteCpsr p cpsr) :=
  ⟨fun s => get_armWriteCpsr p cpsr s, rfl, rfl, h⟩

/-- In one mode, the registers of two such states read the same. -/
theorem readRegister (h : FlagsOnly p q) (hmode : q.reg.currentMode = p.reg.currentMode)
    (reg : Byte) : armReadRegister q reg = armReadRegister p reg :=
  armReadRegister_congr h.registers hmode reg

/-- Such a step leaves every register, so it can be taken before the test for the program counter.
-/
theorem readsAsPc (h : FlagsOnly p q) (hmode : q.reg.currentMode = p.reg.currentMode) (rd : Byte)
    (result : Word) : ReadsAsPc q rd result ↔ ReadsAsPc p rd result :=
  readsAsPc_congr h.registers hmode rd result

/-- And so does the SPSR. -/
theorem readSpsr (h : FlagsOnly p q) (hmode : q.reg.currentMode = p.reg.currentMode) :
    armReadSpsr q = armReadSpsr p := by
  simp only [armReadSpsr, registersGetMode, registersReadSpsr_eq, hmode, h.spsr]

end FlagsOnly

/-- Whether there is an SPSR depends on the mode. -/
theorem hasSpsr_congr {p q : ArmCore} (hmode : q.reg.currentMode = p.reg.currentMode) :
    armCurrentModeHasSpsr q = armCurrentModeHasSpsr p :=
  congrArg registersModeHasSpsr hmode

/-- The flags of a logical operation. -/
theorem nzcShifftercarryUpdate_flagsOnly (p : ArmCore) (result c : Word) :
    FlagsOnly p (nzcShifftercarryUpdate p result c) :=
  .armWriteCpsr (nzcCpsr_sameBelow _ _ _)

/-- The flags of an arithmetic operation. -/
theorem arithmeticFlags_flagsOnly (p : ArmCore) (result cFlag vFlag : Word) :
    FlagsOnly p (arithmeticFlags p result cFlag vFlag) :=
  (nzcShifftercarryUpdate_flagsOnly p result cFlag).trans
    (.armWriteCpsr (vCpsr_sameBelow _ _))

/-! ## The body with the S bit, up to the flags -/

/-- The state after `result` is written to `Rd`, and after the exception return if there is
one. -/
def restored (p : ArmCore) (rd : Byte) (result : Word) : ArmCore :=
  if ReadsAsPc p rd result ∧ armCurrentModeHasSpsr p then
    armWriteCpsr (armWriteRegister p rd result) (armReadSpsr p)
  else armWriteRegister p rd result

section Body

variable (p : ArmCore) (rd : Byte) (result : Word)

/-- With the S bit set, all that the last part of an operation does beyond the result is to set
flags. -/
theorem writeResult_one_flagsOnly {updateFlags : ArmCore → ArmCore}
    (hflags : ∀ q, FlagsOnly q (updateFlags q)) :
    FlagsOnly (restored p rd result) (writeResult p result rd 1 updateFlags).2 := by
  rw [writeResult_one, restored]
  by_cases hpc : ReadsAsPc p rd result
  · rw [if_pos hpc]
    by_cases hspsr : armCurrentModeHasSpsr p
    · rw [if_pos ⟨hpc, hspsr⟩, if_pos hspsr]
    · rw [if_neg fun h => hspsr h.2, if_neg hspsr]
  · rw [if_neg fun h => hpc h.1, if_neg hpc]
    exact hflags _

/-- Only the destination has changed in it. -/
theorem get_restored (s : Slot) :
    (restored p rd result).reg.get s =
      if slot rd p.reg.currentMode = some s then result else p.reg.get s := by
  rw [← get_armWriteRegister, restored]
  split_ifs
  · exact get_armWriteCpsr ..
  · rfl

/-- The saved status is read and not written. -/
theorem restored_spsr : (restored p rd result).reg.spsr = p.reg.spsr := by
  rw [restored]
  split_ifs <;> simp

/-- No memory is touched. -/
theorem restored_mem : (restored p rd result).mem = p.mem := by
  rw [restored]
  split_ifs <;> rfl

/-- The status comes back from the SPSR when the result reads as the program counter and there is an
SPSR. -/
theorem restored_cpsr :
    (restored p rd result).reg.cpsr =
      if ReadsAsPc p rd result ∧ armCurrentModeHasSpsr p then armReadSpsr p
      else p.reg.cpsr := by
  rw [restored]
  split_ifs
  · rfl
  · exact armWriteRegister_cpsr ..

/-- **When the body leaves the registers alone**: the value written is there already, and a
status word that is restored differs in the flags at most. -/
theorem flagsOnly_restored_iff :
    FlagsOnly p (restored p rd result) ↔
      (∀ s, slot rd p.reg.currentMode = some s → p.reg.get s = result) ∧
        (ReadsAsPc p rd result ∧ armCurrentModeHasSpsr p →
          BitField.SameBelow 28 (armReadSpsr p) p.reg.cpsr) := by
  constructor
  · intro h
    refine ⟨fun s hs => ?_, fun hrestore => ?_⟩
    · rw [← h.registers s, get_restored, if_pos hs]
    · have hstatus := h.status
      rw [restored_cpsr, if_pos hrestore] at hstatus
      exact hstatus
  · rintro ⟨hvalue, hstatus⟩
    refine ⟨fun s => ?_, restored_spsr p rd result, restored_mem p rd result, ?_⟩
    · rw [get_restored]
      split_ifs with hs
      · exact (hvalue s hs).symm
      · rfl
    · rw [restored_cpsr]
      split_ifs with hrestore
      · exact hstatus hrestore
      · rfl

end Body

/-! ## The words

Which words are comparisons is decided by the dispatch: without the S bit their numbers belong to
other instructions. -/

/-- The words of TST, TEQ, CMP and CMN. -/
def IsComparison (ins : Word) : Prop :=
  getBits ins 27 26 = 0 ∧ getBits ins 24 23 = 2 ∧ getBit ins 20 = 1 ∧
    ¬ (getBit ins 25 = 0 ∧ getBit ins 4 = 1 ∧ getBit ins 7 = 1)

instance decidableIsComparison (ins : Word) : Decidable (IsComparison ins) :=
  inferInstanceAs (Decidable (_ ∧ _))

/-- They are given to `arm_data_processing_shift`. -/
theorem IsComparison.isDataProcessing {ins : Word} (h : IsComparison ins) :
    IsDataProcessing ins := by
  obtain ⟨htype, hfield, hset, hextension⟩ := h
  have hodd : getBits ins 27 20 ≠ 18 ∧ getBits ins 21 20 ≠ 0 ∧ getBits ins 21 20 ≠ 2 := by
    rw [getBit_eq_iff] at hset
    simp only [ne_eq, getBits_eq_iff, BitVec.ofNat_eq_ofNat, BitVec.toNat_ofNat] at hset ⊢
    omega
  have hcategory : (getBits ins 27 25).toNat = 0 ∧ getBit ins 25 = 0 ∨
      (getBits ins 27 25).toNat = 1 := by
    rw [getBits_eq_iff] at htype
    simp only [toNat_getBits, getBit_eq_iff, BitVec.ofNat_eq_ofNat, BitVec.toNat_ofNat] at htype ⊢
    omega
  rcases hcategory with ⟨hzero, hregister⟩ | hone
  · refine Or.inl ⟨hzero, hodd.1, fun hhalf => hextension ⟨hregister, ?_⟩, ?_,
      fun hbits => hextension ⟨hregister, hbits⟩⟩
    · rw [getBits_eq_iff] at hhalf
      simp only [getBit_eq_iff, BitVec.ofNat_eq_ofNat, BitVec.toNat_ofNat] at hhalf ⊢
      omega
    · intro h
      rw [h.2] at hset
      exact absurd hset (by decide)
  · exact Or.inr ⟨hone, fun h => hodd.2.1 h.2, fun h => hodd.2.2 h.1⟩

/-- Their opcodes are 8 … 11. -/
theorem IsComparison.opcode {ins : Word} (h : IsComparison ins) :
    (getBits ins 24 21).toNat = 8 ∨ (getBits ins 24 21).toNat = 9 ∨
      (getBits ins 24 21).toNat = 10 ∨ (getBits ins 24 21).toNat = 11 := by
  have hfield := getBits_eq_iff.mp h.2.1
  rw [toNat_getBits]
  simp only [BitVec.ofNat_eq_ofNat, BitVec.toNat_ofNat] at hfield
  omega

/-! ## What they change

Three of the four write the CPSR alone; the fourth is the body of EOR. -/

open DataProcessing in
/-- **TEQ is the body of EOR**, up to the flags. -/
theorem teq_flagsOnly (p : ArmCore) (op1 op2 : Word) (rd : Byte) (c : Word) :
    FlagsOnly (restored p rd (op1 ^^^ op2)) (teq p op1 op2 rd c).2 :=
  (writeResult_one_flagsOnly p rd (op1 ^^^ op2) fun q =>
    nzcShifftercarryUpdate_flagsOnly q _ c).trans (nzcShifftercarryUpdate_flagsOnly _ _ _)

section Calls

variable (p : ArmCore) {ins : Word}

/-- TST, CMP and CMN write the CPSR, and keep bits 27 … 0. -/
theorem exec_comparison (hcode : (getBits ins 24 21).toNat = 8 ∨ (getBits ins 24 21).toNat = 10 ∨
    (getBits ins 24 21).toNat = 11) :
    ∃ cpsr, BitField.SameBelow 28 cpsr p.reg.cpsr ∧
      armDataProcessingShift p ins = (0, armWriteCpsr p cpsr) := by
  rw [armDataProcessingShift]
  rcases hcode with hcode | hcode | hcode
  · rw [hcode]
    exact ⟨_, nzcCpsr_sameBelow _ _ _, rfl⟩
  · rw [hcode]
    exact ⟨_, (vCpsr_sameBelow _ _).trans (nzcCpsr_sameBelow _ _ _), rfl⟩
  · rw [hcode]
    exact ⟨_, (vCpsr_sameBelow _ _).trans (nzcCpsr_sameBelow _ _ _), rfl⟩

/-- The dispatcher reaches TEQ by its code. -/
theorem exec_teq (hcode : (getBits ins 24 21).toNat = 9) :
    armDataProcessingShift p ins =
      DataProcessing.teq p (armReadRegister p (u8 (getBits ins 19 16))) (carry ins p).2
        (u8 (getBits ins 15 12)) (carry ins p).1 := by
  rw [armDataProcessingShift, hcode]
  rfl

end Calls

/-- The TEQ `ins` finds in `Rd` what it writes there, and in the SPSR, if it restores it, the CPSR
with other flags. -/
def TeqHarmless (p : ArmCore) (ins : Word) : Prop :=
  let rd := u8 (getBits ins 15 12)
  let result := armReadRegister p (u8 (getBits ins 19 16)) ^^^ (carry ins p).2
  (∀ s, slot rd p.reg.currentMode = some s → p.reg.get s = result) ∧
    (ReadsAsPc p rd result ∧ armCurrentModeHasSpsr p →
      BitField.SameBelow 28 (armReadSpsr p) p.reg.cpsr)

/-- **When a comparison has no destination**: always, but for a TEQ whose write is not
harmless. -/
theorem armDataProcessingShift_flagsOnly_iff (p : ArmCore) {ins : Word} (h : IsComparison ins) :
    FlagsOnly p (armDataProcessingShift p ins).2 ↔
      ((getBits ins 24 21).toNat = 9 → TeqHarmless p ins) := by
  by_cases hteq : (getBits ins 24 21).toNat = 9
  · have hflags := teq_flagsOnly p (armReadRegister p (u8 (getBits ins 19 16))) (carry ins p).2
      (u8 (getBits ins 15 12)) (carry ins p).1
    rw [exec_teq p hteq, forall_prop_of_true hteq, TeqHarmless, ← flagsOnly_restored_iff]
    exact ⟨fun h => h.trans hflags.symm, fun h => h.trans hflags⟩
  · have hopcode := h.opcode
    obtain ⟨cpsr, hcpsr, hexec⟩ := @exec_comparison p ins (by omega)
    rw [hexec]
    exact iff_of_true (.armWriteCpsr hcpsr) fun h9 => absurd h9 hteq

/-- **Comparisons have no destination**, for every state and every word of a comparison whose
condition holds, exactly if the word is not a TEQ or its write is harmless. -/
theorem comparison_flagsOnly_iff {p : ArmCore} {ins : Word} (hins : Executes p ins)
    (hcomparison : IsComparison ins) (junk : Word) :
    (∃ r, armExecuteInstruction p junk = some r ∧ FlagsOnly p.fetched r.2) ↔
      ((getBits ins 24 21).toNat = 9 → TeqHarmless p.fetched ins) := by
  have hexec : armExecuteInstruction p junk = some (armDataProcessingShift p.fetched ins) :=
    hins.dispatched.trans (dispatch_dataProcessing hcomparison.isDataProcessing)
  rw [← armDataProcessingShift_flagsOnly_iff p.fetched hcomparison, hexec]
  constructor
  · rintro ⟨r, hr, hflags⟩
    cases hr
    exact hflags
  · exact fun h => ⟨_, rfl, h⟩

/-- `CMP r1, #1` at address 0. -/
theorem comparison_flagsOnly_iff_cmp :
    (∃ r, armExecuteInstruction (ArmCore.load 0x1d3 [0xE3510001]) 0 = some r ∧
        FlagsOnly (ArmCore.load 0x1d3 [0xE3510001]).fetched r.2) ↔
      ((getBits 0xE3510001 24 21).toNat = 9 →
        TeqHarmless (ArmCore.load 0x1d3 [0xE3510001]).fetched 0xE3510001) :=
  comparison_flagsOnly_iff ⟨by decide, by decide⟩ (by decide) 0

/-- `TEQ r1, #1` with 0 in `r1` writes 1 to `r0`. -/
theorem comparison_flagsOnly_counterexample :
    ¬ ∀ (p : ArmCore) (ins junk : Word), Executes p ins → IsComparison ins →
      ∃ r, armExecuteInstruction p junk = some r ∧ FlagsOnly p.fetched r.2 := by
  intro h
  obtain ⟨r, hexec, hflags⟩ := h (ArmCore.load 0x1d3 [0xE3310001]) 0xE3310001 0
    ⟨by decide, by decide⟩ (by decide)
  have hwritten : (armExecuteInstruction (ArmCore.load 0x1d3 [0xE3310001]) 0).map
      (fun r => r.2.reg.get (.low 0)) = some 1 := by decide
  rw [hexec] at hwritten
  have hkept := (Option.some.inj hwritten).symm.trans (hflags.registers (.low 0))
  exact absurd hkept (by decide)

end ArmSimulator
