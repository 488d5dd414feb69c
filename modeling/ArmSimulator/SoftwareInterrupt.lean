import ArmSimulator.Results

/-!
# Software interrupts

An SWI has bits 27 … 24 set, and category 7 returns `INTERRUPT` for it.  What reaches
`arm_exception` as a software interrupt are the words of category 3 with bits 4 and 24 set, whose
bits 27 … 24 are `0111`.  `arm_exception` reads the word again and looks at its low 24 bits, so the
simulation is ended by `0x?7123456` and by no SWI; the word that should call `putchar` has bit 4
clear and never gets there.

`softwareInterrupts_dispatched_iff` says that a state is treated as it should be exactly when the
word it is about to execute is none of these.

The word is read again at the address that `R15` gives, minus 8.  With an aligned program counter
this is the word that was fetched (`swi_word`), which is why the results ask for one; with any other
it is a word at or below it, and can be read since that one could (`swi_word_isSome` in `Results`).
A simulation ends in one way only, by the number `0x123456` in such a word
(`armException_ends_iff`), so the condition is read off the fields of the word.
-/

namespace ArmSimulator

/-! ## The words that raise a software interrupt

By the fields of a word alone. -/

/-- The low 24 bits of a word, as `arm_exception` takes them. -/
theorem and_low24 (ins : Word) : ins &&& 0xFFFFFF = getBits ins 23 0 := by
  rw [getBits, BitVec.ushiftRight_zero]
  rfl

theorem PlainResult.ne_swi {result : Int} (h : PlainResult result) :
    result ≠ SOFTWARE_INTERRUPT := by
  rcases h with rfl | rfl | rfl <;> decide

/-- **Only words with bits `0111` raise a software interrupt.** -/
theorem field_of_dispatch_swi {p : ArmCore} {ins junk : Word} {r : Int × ArmCore}
    (h : dispatch p ins junk = some r) (hswi : r.1 = SOFTWARE_INTERRUPT) :
    getBits ins 27 24 = 7 := by
  have hplain : ¬ PlainResult r.1 := fun hres => hres.ne_swi hswi
  cases handled_of_dispatch h with
  | undefined => exact absurd PlainResult.undefined hplain
  | interrupt => exact absurd (show INTERRUPT = SOFTWARE_INTERRUPT from hswi) (by decide)
  | branch => exact absurd (armBranch_result p ins) hplain
  | miscellaneous => exact absurd (armMiscellaneous_result p ins) hplain
  | dataProcessing => exact absurd (armDataProcessingShift_result p ins) hplain
  | msr =>
      rcases armDataProcessingImmediateMsr_result p ins with hres | hres <;>
        rw [hres] at hswi <;> exact absurd hswi (by decide)
  | halfWord => exact absurd (armLoadStore_result p ins) hplain
  | single => exact absurd (armLoadStore_result p ins) hplain
  | multiple _ hmultiple => exact absurd (Or.inl (armLoadStoreMultiple_result hmultiple)) hplain
  | others hcategory =>
      have hbit : getBit ins 24 = 1 := by
        unfold armCoprocessorOthersSwi at hswi
        split_ifs at hswi with hbit
        · exact getBit_ne_zero.mp hbit
        · exact absurd (show UNDEFINED_INSTRUCTION = SOFTWARE_INTERRUPT from hswi) (by decide)
      rcases hcategory with hcategory | ⟨-, hclear⟩
      · rw [getBit_eq_iff] at hbit
        rw [toNat_getBits] at hcategory
        rw [getBits_eq_iff]
        simp only [BitVec.ofNat_eq_ofNat, BitVec.toNat_ofNat] at hbit ⊢
        omega
      · exact absurd hbit (by rw [hclear]; decide)

/-- An SWI is dispatched as an interrupt. -/
theorem dispatch_of_swi {p : ArmCore} {ins junk : Word} (h : getBits ins 27 24 = 0xF) :
    dispatch p ins junk = some (INTERRUPT, p) := by
  rw [getBits_eq_iff] at h
  have hcategory : (getBits ins 27 25).toNat = 7 := by
    rw [toNat_getBits]
    simp only [BitVec.ofNat_eq_ofNat, BitVec.toNat_ofNat] at h
    omega
  have hbit : getBit ins 24 ≠ 0 := by
    rw [Ne, getBit_eq_iff]
    simp only [BitVec.ofNat_eq_ofNat, BitVec.toNat_ofNat] at h ⊢
    omega
  rw [dispatch_seven hcategory, if_neg hbit]

/-- `0x?7123456` is dispatched as a software interrupt. -/
theorem dispatch_of_media {p : ArmCore} {ins junk : Word} (h : getBits ins 27 24 = 7)
    (hlow : getBits ins 23 0 = 0x123456) :
    dispatch p ins junk = some (SOFTWARE_INTERRUPT, p) := by
  rw [getBits_eq_iff] at h hlow
  simp only [BitVec.ofNat_eq_ofNat, BitVec.toNat_ofNat] at h hlow
  have hcategory : (getBits ins 27 25).toNat = 3 := by
    rw [toNat_getBits]
    omega
  have hbit4 : getBit ins 4 ≠ 0 := by
    rw [Ne, getBit_eq_iff]
    simp only [BitVec.ofNat_eq_ofNat, BitVec.toNat_ofNat]
    omega
  have hfield : getBits ins 24 20 ≠ 0b11111 := by
    rw [Ne, getBits_eq_iff]
    simp only [BitVec.ofNat_eq_ofNat, BitVec.toNat_ofNat]
    omega
  have hbit24 : getBit ins 24 ≠ 0 := by
    rw [Ne, getBit_eq_iff]
    simp only [BitVec.ofNat_eq_ofNat, BitVec.toNat_ofNat]
    omega
  rw [dispatch_three hcategory, if_neg hbit4, if_neg hfield, armCoprocessorOthersSwi,
    if_pos hbit24]

/-! ## The end of the simulation -/

/-- The step ends the simulation. -/
def EndsSimulation (p : ArmCore) (junk : Word) : Prop :=
  ∃ q, armStep p junk = some (END_SIMULATION, q)

/-- A software interrupt returns `END_SIMULATION` when the word it reads again has the
number `0x123456`. -/
theorem armException_ends_iff (p : ArmCore) (exception : Byte) (junk : Word) :
    (armException p exception junk).1 = END_SIMULATION ↔
      exception = 9 ∨ (exception = 8 ∧
        (armReadWord p (armReadRegister p 15 - 8)).getD junk &&& 0xFFFFFF = 0x123456) := by
  have hcode : ∀ code : Byte, (exception.toNat : Int) = (code.toNat : Int) ↔ exception = code :=
    fun code => Int.ofNat_inj.trans BitVec.toNat_inj
  have hnine : (exception.toNat : Int) = END_SIMULATION ↔ exception = 9 := hcode 9
  have height : (exception.toNat : Int) = SOFTWARE_INTERRUPT ↔ exception = 8 := hcode 8
  unfold armException
  dsimp only
  simp only [height]
  split_ifs with hswi hend hput
  · exact iff_of_true rfl (Or.inr ⟨hswi, hend⟩)
  · refine iff_of_false (show (0 : Int) ≠ END_SIMULATION by decide) ?_
    rintro (h | ⟨-, h⟩)
    · rw [hswi] at h
      exact absurd h (by decide)
    · exact hend h
  · rw [hnine]
    exact ⟨Or.inl, fun h => h.resolve_right fun h => hend h.2⟩
  · rw [hnine]
    exact ⟨Or.inl, fun h => h.resolve_right fun h => hswi h.1⟩

/-- `arm_exception` reads the word that was fetched, when the program counter is
aligned. -/
theorem swi_word {p : ArmCore} (haligned : WordAligned p.reg.pc) :
    armReadWord p.fetched (armReadRegister p.fetched 15 - 8) = (armFetch p).1 := by
  have haddress : armReadRegister p.fetched 15 - 8 = p.reg.pc := by
    rw [armReadRegister_fetched_pc haligned]
    exact BitVec.add_sub_cancel _ _
  rw [haddress]
  rfl

/-- The low 28 bits of a word, from its two fields. -/
theorem getBits_27_0_eq_iff {ins field number word : Word} (hfield : field.toNat < 2 ^ 4)
    (hnumber : number.toNat < 2 ^ 24)
    (hword : word.toNat = field.toNat * 2 ^ 24 + number.toNat) :
    getBits ins 27 0 = word ↔ getBits ins 27 24 = field ∧ getBits ins 23 0 = number := by
  simp only [getBits_eq_iff]
  omega

/-- **The word that ends the simulation** is `0x?7123456`. -/
theorem endsSimulation_iff {p : ArmCore} {ins junk : Word} (haligned : WordAligned p.reg.pc)
    (hins : Executes p ins) :
    EndsSimulation p junk ↔ getBits ins 27 24 = 7 ∧ getBits ins 23 0 = 0x123456 := by
  have hexec : armExecuteInstruction p junk = dispatch p.fetched ins junk := hins.dispatched
  have hword := swi_word haligned
  rw [hins.1] at hword
  constructor
  · rintro ⟨q, hstep⟩
    obtain ⟨r, hr, hresult⟩ := Option.map_eq_some_iff.mp hstep
    rw [hexec] at hr
    by_cases hzero : r.1 = 0
    · rw [if_neg (not_not.mpr hzero)] at hresult
      rw [hresult] at hzero
      exact absurd (show END_SIMULATION = 0 from hzero) (by decide)
    · rw [if_pos hzero] at hresult
      have hends := (armException_ends_iff r.2 (BitVec.ofInt 8 r.1) junk).mp
        (congrArg Prod.fst hresult)
      rcases hends with hnine | ⟨height, hlow⟩
      · -- no instruction returns a code that is narrowed to 9
        have hcode : ∀ code : Int, r.1 = code → BitVec.ofInt 8 code = 9 :=
          fun code hres => hres ▸ hnine
        rcases dispatch_result hr with (hres | hres | hres) | ⟨-, hres⟩ | hres | hres
        · exact absurd (hcode _ hres) (by decide)
        · exact absurd (hcode _ hres) (by decide)
        · exact absurd (hcode _ hres) (by decide)
        · exact absurd (hcode _ hres) (by decide)
        · exact absurd (hcode SOFTWARE_INTERRUPT (congrArg Prod.fst hres)) (by decide)
        · exact absurd (hcode INTERRUPT (congrArg Prod.fst hres)) (by decide)
      · have hswi := dispatch_swi hr height
        rw [hswi, hword, Option.getD_some, and_low24] at hlow
        exact ⟨field_of_dispatch_swi hr (congrArg Prod.fst hswi), hlow⟩
  · rintro ⟨hfield, hlow⟩
    have hr : dispatch p.fetched ins junk = _ := dispatch_of_media hfield hlow
    rw [← hexec] at hr
    have hends := (armException_ends_iff p.fetched (BitVec.ofInt 8 SOFTWARE_INTERRUPT) junk).mpr
      (Or.inr ⟨rfl, by rw [hword, Option.getD_some, and_low24, hlow]⟩)
    refine ⟨(armException p.fetched (BitVec.ofInt 8 SOFTWARE_INTERRUPT) junk).2, ?_⟩
    have hfault : SOFTWARE_INTERRUPT ≠ 0 := by decide
    rw [armStep_of_execute hr, if_pos hfault]
    exact congrArg some (Prod.ext hends rfl)

/-! ## Dispatch

What the numbers `0x123456` and 1 should do, and for which states they do it. -/

/-- The step emits the low byte of `R0`, returns 0 and changes only the program counter and the
cycle count. -/
structure Emitted (p : ArmCore) (r : Int × ArmCore) : Prop where
  result : r.1 = 0
  out : r.2.out = p.out ++ [u8 (armReadRegister p 0)]
  registers : ∀ s : Slot, s ≠ .pc → r.2.reg.get s = p.reg.get s
  cpsr : r.2.reg.cpsr = p.reg.cpsr
  spsr : r.2.reg.spsr = p.reg.spsr
  mode : r.2.reg.currentMode = p.reg.currentMode
  mem : r.2.mem = p.mem

/-- An SWI with the number `0x123456`, and no other word, ends the simulation; an SWI
with the number 1 emits a character. -/
def SoftwareInterruptsDispatched (p : ArmCore) (junk : Word) : Prop :=
  (EndsSimulation p junk ↔
    ∃ ins, Executes p ins ∧ getBits ins 27 24 = 0xF ∧ getBits ins 23 0 = 0x123456) ∧
  ∀ ins, Executes p ins → getBits ins 27 24 = 0xF → getBits ins 23 0 = 1 →
    ∃ r, armStep p junk = some r ∧ Emitted p r

/-- Nothing ends the simulation when no word is executed. -/
theorem not_endsSimulation {p : ArmCore} {junk : Word} (h : ¬ ∃ ins, Executes p ins) :
    ¬ EndsSimulation p junk := by
  rintro ⟨q, hstep⟩
  obtain ⟨r, hexec, hresult⟩ := Option.map_eq_some_iff.mp hstep
  have hends : ∀ code : Int, code ≠ 0 → BitVec.ofInt 8 code ≠ 9 → BitVec.ofInt 8 code ≠ 8 →
      r.1 ≠ code := by
    rintro code hzero hnine height rfl
    rw [if_pos hzero] at hresult
    rcases (armException_ends_iff _ _ _).mp (congrArg Prod.fst hresult) with h9 | ⟨h8, -⟩
    · exact hnine h9
    · exact height h8
  rcases armExecuteInstruction_cases hexec with
    ⟨-, rfl⟩ | ⟨ins, hfetch, ⟨-, rfl⟩ | ⟨hpassed, -⟩⟩
  · exact hends PREFETCH_ABORT (by decide) (by decide) (by decide) rfl
  · exact hends INTERRUPT (by decide) (by decide) (by decide) rfl
  · exact h ⟨ins, hfetch, hpassed⟩

/-- No SWI emits a character: its result is not 0. -/
theorem not_emitted_of_swi {p : ArmCore} {ins junk : Word} {r : Int × ArmCore}
    (hins : Executes p ins) (hswi : getBits ins 27 24 = 0xF) (h : armStep p junk = some r) :
    ¬ Emitted p r := by
  intro hemitted
  have hexec : armExecuteInstruction p junk = some (INTERRUPT, p.fetched) := by
    rw [hins.dispatched, dispatch_of_swi hswi]
  rw [armStep_of_execute hexec] at h
  cases h
  exact absurd (show INTERRUPT = 0 from hemitted.result) (by decide)

/-- **When software interrupts are dispatched as they should be.**  In a state with an
aligned program counter, exactly when the word about to be executed is neither of the
SWIs the simulator gives a meaning, nor the word it takes for the first of them. -/
theorem softwareInterrupts_dispatched_iff {p : ArmCore} {junk : Word}
    (haligned : WordAligned p.reg.pc) :
    SoftwareInterruptsDispatched p junk ↔
      ∀ ins, Executes p ins → getBits ins 27 0 ≠ 0xF123456 ∧ getBits ins 27 0 ≠ 0x7123456 ∧
        getBits ins 27 0 ≠ 0xF000001 := by
  by_cases hany : ∃ ins, Executes p ins
  · obtain ⟨ins, hins⟩ := hany
    have hends : EndsSimulation p junk ↔ _ := endsSimulation_iff haligned hins
    have hend : getBits ins 27 0 = 0xF123456 ↔
        getBits ins 27 24 = 0xF ∧ getBits ins 23 0 = 0x123456 :=
      getBits_27_0_eq_iff (by decide) (by decide) rfl
    have hmedia : getBits ins 27 0 = 0x7123456 ↔
        getBits ins 27 24 = 7 ∧ getBits ins 23 0 = 0x123456 :=
      getBits_27_0_eq_iff (by decide) (by decide) rfl
    have hput : getBits ins 27 0 = 0xF000001 ↔
        getBits ins 27 24 = 0xF ∧ getBits ins 23 0 = 1 :=
      getBits_27_0_eq_iff (by decide) (by decide) rfl
    constructor
    · rintro ⟨hfirst, hsecond⟩ ins' hins'
      obtain rfl := hins.unique hins'
      refine ⟨fun h => ?_, fun h => ?_, fun h => ?_⟩
      · -- an SWI that should end the simulation would have bits `0111`
        obtain ⟨hswi, hlow⟩ := hend.mp h
        have hfield := (hends.mp (hfirst.mpr ⟨ins', hins, hswi, hlow⟩)).1
        rw [hswi] at hfield
        exact absurd hfield (by decide)
      · -- a word with bits `0111` that does would be an SWI
        obtain ⟨hfield, hlow⟩ := hmedia.mp h
        obtain ⟨ins, hexec, hswi, -⟩ := hfirst.mp (hends.mpr ⟨hfield, hlow⟩)
        rw [hins.unique hexec, hfield] at hswi
        exact absurd hswi (by decide)
      · obtain ⟨hswi, hlow⟩ := hput.mp h
        obtain ⟨r, hstep, hemitted⟩ := hsecond ins' hins hswi hlow
        exact not_emitted_of_swi hins hswi hstep hemitted
    · intro hall
      obtain ⟨hnend, hnmedia, hnput⟩ := hall ins hins
      refine ⟨iff_of_false ?_ ?_, ?_⟩
      · exact fun h => hnmedia (hmedia.mpr (hends.mp h))
      · rintro ⟨ins', hins', h⟩
        obtain rfl := hins.unique hins'
        exact hnend (hend.mpr h)
      · intro ins' hins' hswi hlow
        obtain rfl := hins.unique hins'
        exact absurd (hput.mpr ⟨hswi, hlow⟩) hnput
  · refine iff_of_true ⟨?_, ?_⟩ ?_
    · exact iff_of_false (not_endsSimulation hany) fun ⟨ins, hins, _⟩ => hany ⟨ins, hins⟩
    · exact fun ins hins => absurd ⟨ins, hins⟩ hany
    · exact fun ins hins => absurd ⟨ins, hins⟩ hany

/-- `SWI 2`, a number the simulator gives no meaning. -/
theorem softwareInterrupts_dispatched_iff_swi :
    SoftwareInterruptsDispatched (ArmCore.load 0x1d3 [0xEF000002]) 0 := by
  have haligned : WordAligned (ArmCore.load 0x1d3 [0xEF000002]).reg.pc := by decide
  refine (softwareInterrupts_dispatched_iff haligned).mpr fun ins hins => ?_
  have hfetch : (armFetch (ArmCore.load 0x1d3 [0xEF000002])).1 = some 0xEF000002 := by decide
  obtain rfl := Option.some.inj (hfetch.symm.trans hins.1)
  decide

/-- `SWI 0x123456` does not end the simulation. -/
theorem softwareInterrupts_dispatched_counterexample :
    ¬ ∀ (p : ArmCore) (junk : Word), WordAligned p.reg.pc →
      SoftwareInterruptsDispatched p junk := by
  intro h
  obtain ⟨hends, -⟩ := h (ArmCore.load 0x1d3 [0xEF123456]) 0 (by decide)
  obtain ⟨q, hstep⟩ := hends.mpr ⟨0xEF123456, by constructor <;> decide, by decide, by decide⟩
  have hresult : (armStep (ArmCore.load 0x1d3 [0xEF123456]) 0).map Prod.fst = some INTERRUPT := by
    decide
  rw [hstep] at hresult
  exact absurd (show END_SIMULATION = INTERRUPT from Option.some.inj hresult) (by decide)

end ArmSimulator
