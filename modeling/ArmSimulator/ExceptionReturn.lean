import ArmSimulator.CarryArithmetic
import ArmSimulator.ModeInvariant

/-!
# Exception returns by data processing

A flag-setting opcode with destination `R15` returns from an exception: the result is the new
program counter, and the CPSR is restored from the SPSR.  The code decides by the *value* that the
destination reads after the write, so that

* any other destination returns too, when its value happens to be the one that `R15` reads
  (`statusKept_iff`);
* with destination `R15` the test always succeeds, and eleven opcodes return as they should.  ADC
  does not: its second addition starts from what `R15` reads, 4 ahead (`exceptionReturn_iff`).

The two halves of the module have opposite specifications for the same code.  In the first an
instruction should keep the status word up to the flags (`KeepsStatus`), and a jump is the accident:
it is harmless when the SPSR holds the CPSR with other flags (`ReturnKeeps`).  In the second an
instruction should jump (`ReturnsTo`), and what can go wrong is the address.

A jump in a mode without an SPSR is not carried out: the destination has been written, and the
instruction is undefined.  In the first half that breaks the specification, in the second such modes
are excluded.
-/

namespace ArmSimulator

/-! ## Another destination

The condition for the common body, and for the two additions of ADC. -/

/-- The call has returned 0, and the status word of `p` has got other flags, at most. -/
structure KeepsStatus (p : ArmCore) (r : Int × ArmCore) : Prop where
  result : r.1 = 0
  status : BitField.SameBelow 28 r.2.reg.cpsr p.reg.cpsr
  mode : r.2.reg.currentMode = p.reg.currentMode

/-- A call that writes the CPSR keeps the mode if it keeps bits 27 … 0, and if the mode was the
one of the CPSR before. -/
theorem keepsStatus_iff {p : ArmCore} {r : Int × ArmCore} (hwrites : r.1 = 0 → Consistent r.2) :
    KeepsStatus p r ↔
      Consistent p ∧ r.1 = 0 ∧ BitField.SameBelow 28 r.2.reg.cpsr p.reg.cpsr := by
  have hmode : BitField.SameBelow 28 r.2.reg.cpsr p.reg.cpsr →
      modeUpdate r.2.reg.cpsr = modeUpdate p.reg.cpsr := fun h =>
    modeUpdate_congr (h.mono (by decide))
  constructor
  · rintro ⟨hresult, hstatus, hkept⟩
    exact ⟨hkept.symm.trans ((hwrites hresult).trans (hmode hstatus)), hresult, hstatus⟩
  · rintro ⟨hp, hresult, hstatus⟩
    exact ⟨hresult, hstatus, (hwrites hresult).trans ((hmode hstatus).trans hp.symm)⟩

/-- **The value taken for a jump**: that of `R15`, for a register of the mode.  `R13` and `R14` of
an invalid mode read as `UINT32_MAX`, whatever is written. -/
theorem readsAsPc_iff (p : ArmCore) {rd : Byte} (result : Word) (hrd : rd ≠ 15) :
    ReadsAsPc p rd result ↔
      (if (slot rd p.reg.currentMode).isSome then result else UINT32_MAX) =
        armReadRegister p 15 := by
  rw [ReadsAsPc, armReadRegister_write_of_ne p result (Ne.symm hrd), armReadRegister_eq,
    if_neg hrd, armWriteRegister_currentMode]
  cases hslot : slot rd p.reg.currentMode with
  | none => rfl
  | some s =>
      have hget : (armWriteRegister p rd result).reg.get s = result := by
        rw [get_armWriteRegister, if_pos hslot]
      simp [hget]

/-- After a jump the status word `status` is kept: the mode has an SPSR, which holds it up to the
flags. -/
def ReturnKeeps (p : ArmCore) (status : Word) : Prop :=
  armCurrentModeHasSpsr p ∧ BitField.SameBelow 28 (armReadSpsr p) status

section Body

variable (p : ArmCore) (rd : Byte) (result : Word) {updateFlags : ArmCore → ArmCore}

/-- The common body returns 0 and keeps the status word: there is no jump, or a harmless one. -/
theorem body_keeps_iff (hflags : ∀ q, FlagsOnly q (updateFlags q)) (status : Word) :
    (writeResult p result rd 1 updateFlags).1 = 0 ∧
        BitField.SameBelow 28 (writeResult p result rd 1 updateFlags).2.reg.cpsr status ↔
      if ReadsAsPc p rd result then ReturnKeeps p status
      else BitField.SameBelow 28 p.reg.cpsr status := by
  have hcpsr := armWriteRegister_cpsr p rd result
  have hundefined : ¬ UNDEFINED_INSTRUCTION = 0 := by decide
  rw [writeResult_one]
  split_ifs with hpc hspsr
  · rw [ReturnKeeps, and_iff_right hspsr]
    exact and_iff_right rfl
  · exact iff_of_false (fun h => hundefined h.1) fun h => hspsr h.1
  · have hstatus := (hflags (armWriteRegister p rd result)).status
    rw [hcpsr] at hstatus
    rw [and_iff_right rfl]
    exact ⟨fun h => hstatus.symm.trans h, fun h => hstatus.trans h⟩

theorem body_consistent (hflags : ∀ q, Consistent (updateFlags q))
    (hresult : (writeResult p result rd 1 updateFlags).1 = 0) :
    Consistent (writeResult p result rd 1 updateFlags).2 := by
  rw [writeResult_one] at hresult ⊢
  split_ifs at hresult ⊢
  · rfl
  · cases hresult
  · exact hflags _

end Body

/-- The ADC of `a` and `b` with the carry `carried` does no exception return, or a harmless
one, in its two additions. -/
def AdcKeeps (p : ArmCore) (a b : Word) (rd : Byte) (carried : Bool) : Prop :=
  let q := afterPartial p rd (a + b)
  (ReadsAsPc p rd (a + b) → armCurrentModeHasSpsr p) ∧
    if ReadsAsPc q rd (armReadRegister q rd + truth carried) then ReturnKeeps q p.reg.cpsr
    else BitField.SameBelow 28 q.reg.cpsr p.reg.cpsr

open DataProcessing in
theorem adc_keeps_iff (p : ArmCore) (a b : Word) (rd : Byte) (carried : Bool) :
    (adc p a b rd 1 (truth carried)).1 = 0 ∧
        BitField.SameBelow 28 (adc p a b rd 1 (truth carried)).2.reg.cpsr p.reg.cpsr ↔
      AdcKeeps p a b rd carried := by
  rw [AdcKeeps]
  by_cases hjump : ReadsAsPc p rd (a + b) ∧ ¬ armCurrentModeHasSpsr p
  · refine iff_of_false (fun h => ?_) fun h => hjump.2 (h.1 hjump.1)
    have hundefined : ¬ UNDEFINED_INSTRUCTION = 0 := by decide
    rw [adc_of_jump p a b rd _ hjump] at h
    exact hundefined h.1
  · obtain ⟨-, hflags, hmode⟩ := add_afterPartial p a b rd hjump
    rw [adc_eq_add p a b rd carried hjump, and_iff_right (hasSpsr_of_jump p rd hjump)]
    refine (body_keeps_iff _ rd _ (fun q => arithmeticFlags_flagsOnly q _ _ _) _).trans ?_
    rw [if_congr (hflags.readsAsPc hmode ..) rfl rfl, ReturnKeeps, hasSpsr_congr hmode,
      hflags.readSpsr hmode]
    by_cases hpc : ReadsAsPc (afterPartial p rd (a + b)) rd
        (armReadRegister (afterPartial p rd (a + b)) rd + truth carried)
    · rw [if_pos hpc, if_pos hpc, ReturnKeeps]
    · rw [if_neg hpc, if_neg hpc]
      exact ⟨fun h => hflags.status.symm.trans h, fun h => hflags.status.trans h⟩

open DataProcessing in
theorem adc_consistent {p : ArmCore} {a b : Word} {rd : Byte} {carryIn : Word}
    (hresult : (adc p a b rd 1 carryIn).1 = 0) : Consistent (adc p a b rd 1 carryIn).2 := by
  have hadd : ∀ (q : ArmCore) (x y : Word), (add q x y rd 1).1 = 0 →
      Consistent (add q x y rd 1).2 := fun q x y =>
    body_consistent q rd (x + y) fun _ => rfl
  rw [adc] at hresult ⊢
  split_ifs at hresult ⊢ with hfirst
  · exact hadd _ _ _ hresult
  · exact absurd hresult hfirst

/-! ## The flag-setting instructions

All sixteen opcodes, the comparisons included. -/

/-- The instruction `ins` does no exception return, or one that only changes the flags. -/
def StatusKept (p : ArmCore) (ins : Word) : Prop :=
  let a := rnValue p ins
  let b := (carry ins p).2
  let rd := u8 (getBits ins 15 12)
  match (getBits ins 24 21).toNat with
  | 5 => AdcKeeps p a b rd (shifterCarry ins p)
  | 8 => True
  | 9 =>
      ReadsAsPc p rd (a ^^^ b) ∧ armCurrentModeHasSpsr p →
        BitField.SameBelow 28 (armReadSpsr p) p.reg.cpsr
  | 10 => True
  | 11 => True
  | opcode =>
      ReadsAsPc p rd (opcodeResult opcode a b (carry ins p).1) → ReturnKeeps p p.reg.cpsr

section Instructions

variable (p : ArmCore) {ins : Word}

/-- The flag update of an opcode. -/
theorem opcodeFlags_flagsOnly (opcode : ℕ) (a b c : Word) (q : ArmCore) :
    FlagsOnly q (opcodeFlags opcode a b c q) ∧ Consistent (opcodeFlags opcode a b c q) := by
  unfold opcodeFlags
  dsimp only
  split
  case h_1 | h_2 | h_3 | h_4 | h_5 => exact ⟨arithmeticFlags_flagsOnly q _ _ _, rfl⟩
  case h_6 | h_7 => exact ⟨nzcShifftercarryUpdate_flagsOnly q _ _, rfl⟩

theorem statusKept_common (h : IsCommonOpcode (getBits ins 24 21).toNat) :
    StatusKept p ins ↔
      (ReadsAsPc p (u8 (getBits ins 15 12))
          (opcodeResult (getBits ins 24 21).toNat (rnValue p ins) (carry ins p).2
            (carry ins p).1) → ReturnKeeps p p.reg.cpsr) := by
  unfold StatusKept
  generalize (getBits ins 24 21).toNat = opcode at h
  obtain ⟨hmem, hlt⟩ := h
  match opcode with
  | 0 | 1 | 2 | 3 | 4 | 6 | 7 | 12 | 13 | 14 | 15 => rfl
  | 5 | 8 | 9 | 10 | 11 => exact absurd hmem (by decide)
  | n + 16 => omega

/-- A comparison returns 0 and writes the CPSR: it keeps the status word if the state that it
leaves, up to the flags, does. -/
theorem comparison_keeps_iff {q : ArmCore} {r : Int × ArmCore} (hflags : FlagsOnly q r.2)
    (hresult : r.1 = 0) (hconsistent : Consistent r.2) :
    KeepsStatus p r ↔ Consistent p ∧ BitField.SameBelow 28 q.reg.cpsr p.reg.cpsr := by
  rw [keepsStatus_iff fun _ => hconsistent, and_iff_right hresult]
  exact and_congr_right fun _ =>
    ⟨fun h => hflags.status.symm.trans h, fun h => hflags.status.trans h⟩

/-- TEQ keeps the status word unless it restores another one. -/
theorem restored_keeps_iff (rd : Byte) (result : Word) :
    BitField.SameBelow 28 (restored p rd result).reg.cpsr p.reg.cpsr ↔
      (ReadsAsPc p rd result ∧ armCurrentModeHasSpsr p →
        BitField.SameBelow 28 (armReadSpsr p) p.reg.cpsr) := by
  rw [restored_cpsr]
  split_ifs with hrestore
  · exact ⟨fun h _ => h, fun h => h hrestore⟩
  · exact iff_of_true (.refl _ _) fun h => absurd h hrestore

/-- **When a flag-setting instruction leaves the mode alone**: for every state and every word with
the S bit, if the mode is that of the CPSR and no exception return does harm.  The mode has to be
that of the CPSR since every flag update writes the CPSR, and with it the cached mode. -/
theorem statusKept_iff (hs : getBit ins 20 = 1) :
    KeepsStatus p (armDataProcessingShift p ins) ↔ Consistent p ∧ StatusKept p ins := by
  have hlt : (getBits ins 24 21).toNat < 16 := toNat_registerField ins 21
  have hself := BitField.SameBelow.refl 28 p.reg.cpsr
  by_cases hcommon : IsCommonOpcode (getBits ins 24 21).toNat
  · have hflags := opcodeFlags_flagsOnly (getBits ins 24 21).toNat (rnValue p ins)
      (carry ins p).2 (carry ins p).1
    rw [armDataProcessingShift_common p hcommon, hs, statusKept_common p hcommon]
    refine (keepsStatus_iff (body_consistent p _ _ fun q => (hflags q).2)).trans ?_
    refine and_congr_right fun _ => ?_
    refine (body_keeps_iff p _ _ (fun q => (hflags q).1) p.reg.cpsr).trans ?_
    change (if ReadsAsPc p _ (opcodeResult _ (rnValue p ins) _ _) then _ else _) ↔ _
    split_ifs with hpc
    · exact ⟨fun h _ => h, fun h => h hpc⟩
    · exact iff_of_true hself fun h => absurd h hpc
  · have hmem : (getBits ins 24 21).toNat ∈ [5, 8, 9, 10, 11] :=
      not_not.mp fun hnot => hcommon ⟨hnot, hlt⟩
    have hcases : (getBits ins 24 21).toNat = 5 ∨ (getBits ins 24 21).toNat = 9 ∨
        ((getBits ins 24 21).toNat = 8 ∨ (getBits ins 24 21).toNat = 10 ∨
          (getBits ins 24 21).toNat = 11) := by
      simp only [List.mem_cons, List.not_mem_nil, or_false] at hmem
      omega
    rcases hcases with hcode | hcode | hcode
    · have hexec : armDataProcessingShift p ins = DataProcessing.adc p (rnValue p ins)
          (carry ins p).2 (u8 (getBits ins 15 12)) 1 (truth (shifterCarry ins p)) := by
        rw [exec_adc p hcode, hs]
      rw [hexec, keepsStatus_iff adc_consistent, StatusKept, hcode]
      exact and_congr_right fun _ => adc_keeps_iff p _ _ _ _
    · rw [exec_teq p hcode, StatusKept, hcode]
      exact (comparison_keeps_iff p (teq_flagsOnly p _ _ _ _) rfl (by rfl)).trans
        (and_congr_right fun _ => restored_keeps_iff p _ _)
    · obtain ⟨cpsr, hcpsr, hexec⟩ := exec_comparison p hcode
      have hkept : StatusKept p ins := by
        rcases hcode with hcode | hcode | hcode
        all_goals
          rw [StatusKept, hcode]
          trivial
      rw [hexec]
      exact (comparison_keeps_iff p (.armWriteCpsr hcpsr) rfl (by rfl)).trans
        (and_congr_right fun _ => iff_of_true hself hkept)

end Instructions

/-- `ADDS r0, r1, r2` on zeros. -/
theorem statusKept_iff_adds :
    KeepsStatus (ArmCore.load 0x1d3 []) (armDataProcessingShift (ArmCore.load 0x1d3 [])
        0xE0910002) ↔
      Consistent (ArmCore.load 0x1d3 []) ∧ StatusKept (ArmCore.load 0x1d3 []) 0xE0910002 :=
  @statusKept_iff (ArmCore.load 0x1d3 []) 0xE0910002 (by decide)

/-- `MOVS r0, #8` at address 0: the program counter reads 8, and the CPSR becomes the SPSR. -/
theorem statusKept_counterexample :
    ¬ ∀ (p : ArmCore) (ins : Word), Consistent p → getBit ins 20 = 1 →
      u8 (getBits ins 15 12) ≠ 15 → KeepsStatus p (armDataProcessingShift p ins) := by
  intro h
  have hkept := h (ArmCore.load 0x1d3 [0xE3B00008]).fetched 0xE3B00008 rfl (by decide)
    (by decide)
  exact absurd hkept.mode (by decide)

/-! ## Destination `R15`

The result that is meant is on the carry flag; SBC and RSC compute theirs on the carry out of the
shifter. -/

/-- The result of an opcode with a destination, on `Rn`, the operand and the carry flag. -/
def destinationResult (opcode : ℕ) (a b : Word) (c : Bool) : Word :=
  match opcode with
  | 5 => CarryOpcode.adc.value a b c
  | 6 => CarryOpcode.sbc.value a b c
  | 7 => CarryOpcode.rsc.value a b c
  | opcode => ((operation opcode).map fun f => f a b).getD 0

/-- The outcome `r` of an instruction in the state `p` is a return to the address `value`, with
the status word that the SPSR holds. -/
structure ReturnsTo (p : ArmCore) (value : Word) (r : Int × ArmCore) : Prop where
  result : r.1 = 0
  pc : r.2.reg.pc = value
  status : r.2.reg.cpsr = armReadSpsr p
  mode : r.2.reg.currentMode = modeField (armReadSpsr p)
  others : ∀ s, s ≠ .pc → r.2.reg.get s = p.reg.get s
  spsr : r.2.reg.spsr = p.reg.spsr
  mem : r.2.mem = p.mem

section Returns

variable {p : ArmCore} {ins : Word}

/-- The exception return of the common body goes to the value that it is given. -/
theorem returnsTo_iff (hvalid : ValidMode (modeField (armReadSpsr p))) (value target : Word) :
    ReturnsTo p target (0, armWriteCpsr (armWriteRegister p 15 value) (armReadSpsr p)) ↔
      value = target := by
  constructor
  · intro h
    exact h.pc
  · rintro rfl
    exact {
      result := rfl
      pc := rfl
      status := rfl
      mode := modeUpdate_of_valid hvalid
      others := fun s hs => by
        rw [get_armWriteCpsr, get_armWriteRegister, slot_pc,
          if_neg fun h => hs (Option.some.inj h).symm]
      spsr := rfl
      mem := rfl }

/-- The eleven opcodes of the common body compute their result, SBC and RSC on the carry out of the
shifter. -/
theorem opcodeResult_eq_iff (h : IsCommonOpcode (getBits ins 24 21).toNat) (a b : Word)
    (carried c : Bool) :
    opcodeResult (getBits ins 24 21).toNat a b (truth carried) =
        destinationResult (getBits ins 24 21).toNat a b c ↔
      ((getBits ins 24 21).toNat = 6 ∨ (getBits ins 24 21).toNat = 7 → carried = c) := by
  have hnot : ∀ s : Bool, truth (decide (truth s = 0)) = truth (!s) := by decide
  generalize (getBits ins 24 21).toNat = opcode at h ⊢
  obtain ⟨hmem, hlt⟩ := h
  match opcode with
  | 0 | 1 | 2 | 3 | 4 | 12 | 13 | 14 | 15 =>
      exact iff_of_true rfl fun h => absurd h (by decide)
  | 6 =>
      rw [forall_prop_of_true (Or.inl rfl), ← CarryOpcode.value_inj a b .sbc, opcodeResult, hnot]
      rfl
  | 7 =>
      rw [forall_prop_of_true (Or.inr rfl), ← CarryOpcode.value_inj a b .rsc, opcodeResult, hnot]
      rfl
  | 5 | 8 | 9 | 10 | 11 => exact absurd hmem (by decide)
  | n + 16 => omega

/-- ADC with destination `R15` misses its result by 1 … 5: the second addition starts from what
`R15` reads after the first. -/
theorem adc_pc_ne (a b : Word) (carried c : Bool) (hspsr : armCurrentModeHasSpsr p) :
    (DataProcessing.adc p a b 15 1 (truth carried)).2.reg.pc ≠ a + b + truth c := by
  have hpc : (DataProcessing.adc p a b 15 1 (truth carried)).2.reg.pc =
      pcRead (a + b) + truth carried :=
    get_adc p a b 15 carried (fun h => h.2 hspsr) .pc
  have hread := toNat_and_two (a + b)
  have hbits : ∀ s : Bool, (truth s).toNat ≤ 1 := by decide
  have hcarried := hbits carried
  have hc := hbits c
  rw [hpc, pcRead_eq]
  generalize a + b = sum at hread ⊢
  generalize truth carried = x at hcarried ⊢
  generalize truth c = y at hc ⊢
  generalize sum &&& 2#32 = bit at hread ⊢
  intro heq
  bv_omega

/-- **Exception returns.**  For every state in a mode with an SPSR that holds a valid mode, and
every word of an opcode with a destination, the S bit and destination `R15`, the return is the
right one unless the opcode is ADC, or subtracts with a carry that is not the flag. -/
theorem exceptionReturn_iff (hs : getBit ins 20 = 1) (hrd : u8 (getBits ins 15 12) = 15)
    (hopcode : (getBits ins 24 21).toNat / 4 ≠ 2) (hspsr : armCurrentModeHasSpsr p)
    (hvalid : ValidMode (modeField (armReadSpsr p))) :
    ReturnsTo p
        (destinationResult (getBits ins 24 21).toNat (rnValue p ins) (carry ins p).2 (cFlag p))
        (armDataProcessingShift p ins) ↔
      (getBits ins 24 21).toNat ≠ 5 ∧
        ((getBits ins 24 21).toNat = 6 ∨ (getBits ins 24 21).toNat = 7 →
          shifterCarry ins p = cFlag p) := by
  by_cases hadc : (getBits ins 24 21).toNat = 5
  · refine iff_of_false (fun h => ?_) fun h => h.1 hadc
    have hpc := h.pc
    rw [exec_adc p hadc, hs, hrd, hadc] at hpc
    exact adc_pc_ne _ _ _ _ hspsr hpc
  · have hcommon : IsCommonOpcode (getBits ins 24 21).toNat := by
      refine ⟨?_, toNat_registerField ins 21⟩
      simp only [List.mem_cons, List.not_mem_nil, or_false]
      omega
    have hexec : armDataProcessingShift p ins =
        (0, armWriteCpsr (armWriteRegister p 15 (opcodeResult (getBits ins 24 21).toNat
          (rnValue p ins) (carry ins p).2 (truth (shifterCarry ins p)))) (armReadSpsr p)) := by
      rw [armDataProcessingShift_common p hcommon, hs, hrd, writeResult_pc, if_pos hspsr, carry_fst]
      rfl
    rw [hexec, returnsTo_iff hvalid, opcodeResult_eq_iff hcommon, and_iff_right hadc]

end Returns

/-- The state after `load`, with mode USR in the SPSRs. -/
def ArmCore.loadUsrSpsr : ArmCore :=
  let p := ArmCore.load 0x1d3 []
  { p with reg := { p.reg with spsr := fun _ => 0x10 } }

/-- `MOVS pc, lr` returns from mode SVC to mode USR. -/
theorem exceptionReturn_iff_movs :
    ReturnsTo ArmCore.loadUsrSpsr
        (destinationResult (getBits 0xE1B0F00E 24 21).toNat
          (rnValue ArmCore.loadUsrSpsr 0xE1B0F00E) (carry 0xE1B0F00E ArmCore.loadUsrSpsr).2
          (cFlag ArmCore.loadUsrSpsr))
        (armDataProcessingShift ArmCore.loadUsrSpsr 0xE1B0F00E) ↔
      (getBits 0xE1B0F00E 24 21).toNat ≠ 5 ∧
        ((getBits 0xE1B0F00E 24 21).toNat = 6 ∨ (getBits 0xE1B0F00E 24 21).toNat = 7 →
          shifterCarry 0xE1B0F00E ArmCore.loadUsrSpsr = cFlag ArmCore.loadUsrSpsr) :=
  exceptionReturn_iff (by decide) (by decide) (by decide) (by decide) (by decide)

/-- `ADCS pc, r1, r2` on zeros goes to address 4. -/
theorem exceptionReturn_counterexample :
    ¬ ∀ (p : ArmCore) (ins : Word), getBit ins 20 = 1 → u8 (getBits ins 15 12) = 15 →
      (getBits ins 24 21).toNat / 4 ≠ 2 → armCurrentModeHasSpsr p →
        ValidMode (modeField (armReadSpsr p)) →
          ReturnsTo p
            (destinationResult (getBits ins 24 21).toNat (rnValue p ins) (carry ins p).2
              (cFlag p))
            (armDataProcessingShift p ins) := by
  intro h
  have hpc := (h ArmCore.loadUsrSpsr 0xE0B1F002 (by decide) (by decide) (by decide) (by decide)
    (by decide)).pc
  exact absurd hpc (by decide)

end ArmSimulator
