import ArmSimulator.PreciseFaults

/-!
# Unsupported encodings

Category 0 holds more than data processing: multiplies, swaps, CLZ, BKPT, the saturating additions
and the extra loads and stores, none of which the simulator has. The words of category 3 with bit 4
set are media instructions, and it has none of these either.  A comment of the decoder calls them
undefined, but its tests come in an order that lets some of them through: whatever has bits 24 … 23
equal to `10` and bit 20 clear is taken for MRS before bits 7 and 4 are looked at, and a media word
with bit 24 set is a software interrupt.

`unsupported_trapped_iff` says which of the words trap.

The encodings are listed by kind with their fixed bits.  What the tests of the decoder see of such a
word is computed once for all kinds (`UnsupportedKind.tests`): whether it looks like an MRS, and
whether bits 7 and 4 give it away.  The outcome is then that of the handler it was given to, and a
handler that returns an undefined instruction has changed nothing (`dispatch_unsupported`).
-/

namespace ArmSimulator

/-! ## The encodings

Each kind by the bits that the instruction set fixes; the condition field is left open. -/

/-- The instructions of category 0 that the simulator does not have. -/
inductive UnsupportedKind
  | multiply | signedMultiply | swap | countLeadingZeros | breakpoint | saturating
  | doubleword | signedLoad

/-- The encodings of an instruction of category 0. -/
def UnsupportedKind.Encodes (ins : Word) : UnsupportedKind → Prop
  -- MUL, MLA and the long multiplies
  | multiply => getBits ins 27 24 = 0 ∧ getBits ins 7 4 = 0b1001
  -- SMLAxy, SMLAWy, SMULWy, SMLALxy and SMULxy
  | signedMultiply =>
      getBits ins 27 23 = 0b00010 ∧ getBit ins 20 = 0 ∧ getBit ins 7 = 1 ∧ getBit ins 4 = 0
  -- SWP and SWPB
  | swap => getBits ins 27 23 = 0b00010 ∧ getBits ins 21 20 = 0 ∧ getBits ins 7 4 = 0b1001
  | countLeadingZeros => getBits ins 27 20 = 0x16 ∧ getBits ins 7 4 = 0b0001
  | breakpoint => getBits ins 27 20 = 0x12 ∧ getBits ins 7 4 = 0b0111
  -- QADD, QSUB, QDADD and QDSUB
  | saturating =>
      getBits ins 27 23 = 0b00010 ∧ getBit ins 20 = 0 ∧ getBits ins 7 4 = 0b0101
  -- LDRD and STRD
  | doubleword =>
      getBits ins 27 25 = 0 ∧ getBit ins 20 = 0 ∧
        (getBits ins 7 4 = 0b1101 ∨ getBits ins 7 4 = 0b1111)
  -- LDRSB and LDRSH
  | signedLoad =>
      getBits ins 27 25 = 0 ∧ getBit ins 20 = 1 ∧
        (getBits ins 7 4 = 0b1101 ∨ getBits ins 7 4 = 0b1111)

/-- The media instructions: category 3 with bit 4 set. -/
def IsMedia (ins : Word) : Prop := (getBits ins 27 25).toNat = 3 ∧ getBit ins 4 = 1

/-- The encodings the simulator does not have. -/
def IsUnsupported (ins : Word) : Prop :=
  (∃ kind : UnsupportedKind, kind.Encodes ins) ∨ IsMedia ins

/-- The outcome of a trap: `UNDEFINED_INSTRUCTION`, with no register written but the program
counter. -/
structure Trapped (p : ArmCore) (r : Int × ArmCore) : Prop where
  result : r.1 = UNDEFINED_INSTRUCTION
  pc : r.2.reg.pc = p.reg.pc + 4
  registers : ∀ s : Slot, s ≠ .pc → r.2.reg.get s = p.reg.get s
  cpsr : r.2.reg.cpsr = p.reg.cpsr
  spsr : r.2.reg.spsr = p.reg.spsr

/-- A fetched state returned with `UNDEFINED_INSTRUCTION` is a trap. -/
theorem Trapped.of_fetched (p : ArmCore) : Trapped p (UNDEFINED_INSTRUCTION, p.fetched) where
  result := rfl
  pc := fetched_pc p
  registers s hs := by rw [get_fetched, if_neg hs]
  cpsr := fetched_cpsr p
  spsr := fetched_spsr p

/-! ## The order of the tests

The word as the `switch` sees it, from its first test to its last. -/

/-- The test that takes a word of category 0 for MRS. -/
def LooksLikeMrs (ins : Word) : Prop := getBits ins 24 23 = 2 ∧ getBit ins 20 = 0

/-- What the tests of category 0 see of an unsupported encoding. -/
theorem UnsupportedKind.tests {kind : UnsupportedKind} {ins : Word} (h : kind.Encodes ins) :
    (getBits ins 27 25).toNat = 0 ∧ getBits ins 7 4 ≠ 0b1011 ∧
      (getBits ins 27 20 = 18 → getBits ins 7 4 ≠ 1 ∧ getBits ins 7 4 ≠ 3) ∧
      (¬ LooksLikeMrs ins → getBit ins 4 = 1 ∧ getBit ins 7 = 1) := by
  rw [LooksLikeMrs]
  cases kind <;>
    simp only [Encodes, getBits_eq_iff, getBit_eq_iff, toNat_getBits, Ne] at h ⊢ <;>
    simp only [BitVec.ofNat_eq_ofNat, BitVec.toNat_ofNat] at h ⊢ <;>
    omega

/-- `arm_branch` traps on the words bits 27 … 20 bring it that are neither BX nor BLX. -/
theorem armBranch_of_neither {p : ArmCore} {ins : Word}
    (hcategory : (getBits ins 27 25).toNat = 0) (hbx : getBits ins 7 4 ≠ 1)
    (hblx : getBits ins 7 4 ≠ 3) : armBranch p ins = (UNDEFINED_INSTRUCTION, p) := by
  have hbranch : getBits ins 27 25 ≠ 5 := by
    intro h
    rw [h] at hcategory
    exact absurd hcategory (by decide)
  rw [armBranch, if_neg hbranch, if_neg hbx, if_neg hblx, ite_self]

/-- MRS traps when it reads the SPSR of a mode without one. -/
theorem armMiscellaneous_result_iff (p : ArmCore) (ins : Word) :
    (armMiscellaneous p ins).1 = UNDEFINED_INSTRUCTION ↔
      getBit ins 22 = 1 ∧ armCurrentModeHasSpsr p = false := by
  have hzero : (0 : Int) ≠ UNDEFINED_INSTRUCTION := by decide
  unfold armMiscellaneous
  dsimp only
  split_ifs with hr hspsr
  · exact iff_of_false hzero fun h => absurd (hr.symm.trans h.1) (by decide)
  · exact iff_of_false hzero fun h => absurd (hspsr.symm.trans h.2) (by decide)
  · exact iff_of_true rfl ⟨getBit_ne_zero.mp hr, Bool.eq_false_of_not_eq_true hspsr⟩

/-- The condition under which the tests of the decoder leave an unsupported encoding to
a trap. -/
def TrapReached (p : ArmCore) (ins : Word) : Prop :=
  if (getBits ins 27 25).toNat = 3 then getBit ins 24 = 0 ∨ getBits ins 24 20 = 0b11111
  else getBits ins 27 20 = 18 ∨ ¬ LooksLikeMrs ins ∨
    (getBit ins 22 = 1 ∧ armCurrentModeHasSpsr p = false)

/-- The outcomes of an unsupported encoding: it traps, and then changes nothing, or it
returns something else. -/
theorem dispatch_unsupported {p : ArmCore} {ins junk : Word} (h : IsUnsupported ins) :
    (TrapReached p ins ∧ dispatch p ins junk = some (UNDEFINED_INSTRUCTION, p)) ∨
      (¬ TrapReached p ins ∧
        ∃ r, dispatch p ins junk = some r ∧ r.1 ≠ UNDEFINED_INSTRUCTION) := by
  rcases h with ⟨kind, hkind⟩ | ⟨hcategory, hbit4⟩
  · obtain ⟨hcategory, hhalf, hbranch, hmultiply⟩ := kind.tests hkind
    have hthree : (getBits ins 27 25).toNat ≠ 3 := by rw [hcategory]; decide
    simp only [TrapReached, if_neg hthree]
    rw [dispatch_zero hcategory]
    by_cases hbx : getBits ins 27 20 = 18
    · rw [if_pos hbx, armBranch_of_neither hcategory (hbranch hbx).1 (hbranch hbx).2]
      exact Or.inl ⟨Or.inl hbx, rfl⟩
    · rw [if_neg hbx, if_neg hhalf]
      by_cases hmrs : LooksLikeMrs ins
      · have hmrs' : getBits ins 24 23 = 2 ∧ getBit ins 20 = 0 := hmrs
        rw [if_pos hmrs']
        by_cases hres : (armMiscellaneous p ins).1 = UNDEFINED_INSTRUCTION
        · have hfault : (armMiscellaneous p ins).1 ≠ 0 := by rw [hres]; decide
          have hmrs : armMiscellaneous p ins = (UNDEFINED_INSTRUCTION, p) :=
            Prod.ext hres (armMiscellaneous_fault hfault)
          rw [hmrs]
          exact Or.inl ⟨Or.inr (Or.inr ((armMiscellaneous_result_iff p ins).mp hres)), rfl⟩
        · refine Or.inr ⟨?_, _, rfl, hres⟩
          rintro (h | h | h)
          · exact hbx h
          · exact h hmrs
          · exact hres ((armMiscellaneous_result_iff p ins).mpr h)
      · have hmrs' : ¬ (getBits ins 24 23 = 2 ∧ getBit ins 20 = 0) := hmrs
        rw [if_neg hmrs', if_pos (hmultiply hmrs)]
        exact Or.inl ⟨Or.inr (Or.inl hmrs), rfl⟩
  · simp only [TrapReached, if_pos hcategory]
    have hone : getBit ins 4 ≠ 0 := getBit_ne_zero.mpr hbit4
    rw [dispatch_three hcategory, if_neg hone]
    by_cases hfield : getBits ins 24 20 = 0b11111
    · rw [if_pos hfield]
      exact Or.inl ⟨Or.inr hfield, rfl⟩
    · rw [if_neg hfield, armCoprocessorOthersSwi]
      by_cases hbit24 : getBit ins 24 = 0
      · rw [if_neg (not_not.mpr hbit24)]
        exact Or.inl ⟨Or.inl hbit24, rfl⟩
      · rw [if_pos hbit24]
        refine Or.inr ⟨fun h => h.elim hbit24 hfield, _, rfl, ?_⟩
        exact (show SOFTWARE_INTERRUPT ≠ UNDEFINED_INSTRUCTION by decide)

/-- **Which unsupported encodings trap.**  For every state and every word whose condition
holds: a media word traps when bit 24 is clear or bits 24 … 20 are all set; the others
trap when `arm_branch` takes them, when they do not look like MRS, or when they look like
an MRS from an SPSR in a mode that has none. -/
theorem unsupported_trapped_iff {p : ArmCore} {ins junk : Word} (hins : Executes p ins)
    (h : IsUnsupported ins) :
    (∃ r, armExecuteInstruction p junk = some r ∧ Trapped p r) ↔ TrapReached p ins := by
  have hspsr : TrapReached p.fetched ins ↔ TrapReached p ins := by
    have hmode : armCurrentModeHasSpsr p.fetched = armCurrentModeHasSpsr p :=
      congrArg registersModeHasSpsr (fetched_currentMode p)
    rw [TrapReached, TrapReached, hmode]
  rw [hins.dispatched, ← hspsr]
  rcases dispatch_unsupported (p := p.fetched) h with
    ⟨hreached, hdispatch⟩ | ⟨hmissed, r, hdispatch, hres⟩ <;> rw [hdispatch]
  · exact iff_of_true ⟨_, rfl, Trapped.of_fetched p⟩ hreached
  · refine iff_of_false ?_ hmissed
    rintro ⟨r', hr', htrapped⟩
    cases hr'
    exact hres htrapped.result

/-- `MUL r0, r1, r2` traps. -/
theorem unsupported_trapped_iff_mul :
    ∃ r, armExecuteInstruction (ArmCore.load 0x1d3 [0xE0000291]) 0 = some r ∧
      Trapped (ArmCore.load 0x1d3 [0xE0000291]) r := by
  have hins : Executes (ArmCore.load 0x1d3 [0xE0000291]) 0xE0000291 := by
    constructor <;> decide
  have hmul : IsUnsupported 0xE0000291 := Or.inl ⟨.multiply, by decide, by decide⟩
  refine (unsupported_trapped_iff hins hmul).mpr ?_
  rw [TrapReached, if_neg (by decide)]
  exact Or.inr (Or.inl (fun h => absurd h.1 (by decide)))

/-- `SWP r0, r1, [r2]` writes the CPSR to `r0`. -/
theorem unsupported_trapped_counterexample :
    ¬ ∀ (p : ArmCore) (ins junk : Word), Executes p ins → IsUnsupported ins →
      ∃ r, armExecuteInstruction p junk = some r ∧ Trapped p r := by
  intro h
  have hins : Executes (ArmCore.load 0x1d3 [0xE1020091]) 0xE1020091 := by
    constructor <;> decide
  have hswap : IsUnsupported 0xE1020091 := Or.inl ⟨.swap, by decide, by decide, by decide⟩
  obtain ⟨r, hexec, htrapped⟩ := h _ _ 0 hins hswap
  have hresult : (armExecuteInstruction (ArmCore.load 0x1d3 [0xE1020091]) 0).map Prod.fst =
      some 0 := by decide
  rw [hexec, Option.map_some, htrapped.result] at hresult
  exact absurd hresult (by decide)

end ArmSimulator
