import ArmSimulator.DataProcessing
import ArmSimulator.LoadStore
import ArmSimulator.BranchOther

/-!
# Instruction execution (`arm_instruction.c`)

`armExecuteInstruction` fetches, tests the condition and dispatches on the three bits 27 … 25;
`armStep` hands every non-zero result to `arm_exception`, narrowed to a `uint8_t`.

Both return `none` when the `assert` of an LDM ends the process, and both take the contents `junk`
of the one uninitialised local an instruction can read: the `value` of an LDM or the `instruction`
of a software interrupt, never both in one step.  A statement about a step is about every `junk`.

The order of the tests in `dispatch` is that of the source and decides what a word is taken for: all
words with `00010010` in bits 27 … 20 go to `arm_branch`, and the half-word transfers are told by
bits 7 … 4 before the multiplications and the MRS are.

Later modules do not unfold these functions.  They use

* `dispatch_zero … dispatch_seven`, the `switch` read one category at a time;
* `handled_of_dispatch`, the inversion of the dispatch: the handler that a word was given to, with
  the tests that have led to it as far as they matter;
* `armExecuteInstruction_of_fetch` and `armExecuteInstruction_of_abort` for the two outcomes of a
  fetch, and `armExecuteInstruction_cases` for all three ways through the function;
* `armStep_of_execute` for the exception that may follow.
-/

namespace ArmSimulator

/-! ## Conditions

The condition codes are numbers, as the field gives them; the fifteenth is AL, and the sixteenth
takes the default of the `switch`, which passes too. -/

section ConditionCodes

@[match_pattern] abbrev EQ : ℕ := 0
@[match_pattern] abbrev NE : ℕ := 1
@[match_pattern] abbrev CS : ℕ := 2
@[match_pattern] abbrev CC : ℕ := 3
@[match_pattern] abbrev MI : ℕ := 4
@[match_pattern] abbrev PL : ℕ := 5
@[match_pattern] abbrev VS : ℕ := 6
@[match_pattern] abbrev VC : ℕ := 7
@[match_pattern] abbrev HI : ℕ := 8
@[match_pattern] abbrev LS : ℕ := 9
@[match_pattern] abbrev GE : ℕ := 10
@[match_pattern] abbrev LT : ℕ := 11
@[match_pattern] abbrev GT : ℕ := 12
@[match_pattern] abbrev LE : ℕ := 13
@[match_pattern] abbrev AL : ℕ := 14

end ConditionCodes

/-- The `switch` of `ConditionPassed`, on the condition field and the flags. -/
def conditionHolds (cond : ℕ) (z c n v : Word) : Bool :=
  match cond with
  | EQ => z = 1
  | NE => z = 0
  | CS => c = 1
  | CC => c = 0
  | MI => n = 1
  | PL => n = 0
  | VS => v = 1
  | VC => v = 0
  | HI => c = 1 && z = 0
  | LS => c = 0 && z = 1
  | GE => n = v
  | LT => n ≠ v
  | GT => z = 0 && ((n = 1 && v = 1) || (n = 0 && v = 0))
  | LE => z = 1 || (n = 1 && v = 0) || (n = 0 && v = 1)
  | AL => true
  | _ => true

/-- `ConditionPassed`. -/
def conditionPassed (p : ArmCore) (ins : Word) : Int :=
  let cond := getBits ins 31 28
  let cpsr := armReadCpsr p
  let z := getBit cpsr Z
  let c := getBit cpsr C
  let n := getBit cpsr N
  let v := getBit cpsr V
  if conditionHolds cond.toNat z c n v then 1 else 0

/-! ## Execution -/

/-- The `switch` of `arm_execute_instruction` on the category of the instruction, for an instruction
whose condition holds.  Bit 24 of category 7 is what tells a software interrupt from a coprocessor
instruction, and the branch of a software interrupt returns `INTERRUPT`. -/
def dispatch (p : ArmCore) (value junk : Word) : Option (Int × ArmCore) :=
  let bit21_20 := getBits value 21 20
  let bit24_23 := getBits value 24 23
  let bit4 := getBit value 4
  let bit20 := getBit value 20
  let bit7 := getBit value 7
  match (getBits value 27 25).toNat with
  | 0 =>
      if getBits value 27 20 = 18 then some (armBranch p value)
      else if getBits value 7 4 = 0b1011 then some (armLoadStore p value)
      else if bit24_23 = 2 ∧ bit20 = 0 then some (armMiscellaneous p value)
      else if bit4 = 1 ∧ bit7 = 1 then some (UNDEFINED_INSTRUCTION, p)
      else if bit4 = 1 ∨ bit4 = 0 then some (armDataProcessingShift p value)
      else some (UNDEFINED_INSTRUCTION, p)
  | 1 =>
      if bit24_23 = 2 ∧ bit21_20 = 0 then some (UNDEFINED_INSTRUCTION, p)
      else if bit21_20 = 2 ∧ bit24_23 = 2 then some (armDataProcessingImmediateMsr p value)
      else some (armDataProcessingShift p value)
  | 2 => some (armLoadStore p value)
  | 3 =>
      if bit4 = 0 then some (armLoadStore p value)
      else if getBits value 24 20 = 0b11111 then some (UNDEFINED_INSTRUCTION, p)
      else some (armCoprocessorOthersSwi p value)
  | 4 => armLoadStoreMultiple p value junk
  | 5 => some (armBranch p value)
  | 6 => some (armCoprocessorLoadStore p value)
  | 7 =>
      if getBit value 24 = 0 then some (armCoprocessorOthersSwi p value)
      else some (INTERRUPT, p)
  | _ => some (PREFETCH_ABORT, p)

/-- The words of category 1 that are dispatched to
`arm_data_processing_immediate_msr`. -/
def IsMsr (ins : Word) : Prop :=
  (getBits ins 27 25).toNat = 1 ∧ getBits ins 24 23 = 2 ∧ getBits ins 21 20 = 2

/-- `arm_execute_instruction`.  The state is the one after the fetch from the first line on, also
where the condition fails or the read of the word has failed. -/
def armExecuteInstruction (p : ArmCore) (junk : Word) : Option (Int × ArmCore) :=
  match armFetch p with
  | (some value, p) =>
      if conditionPassed p value ≠ 0 then dispatch p value junk
      else some (INTERRUPT, p)
  | (none, p) => some (PREFETCH_ABORT, p)

/-- `arm_step`.  A result of 0 is returned as it is; any other is the number of an exception, and
what is returned is what `arm_exception` returns for it. -/
def armStep (p : ArmCore) (junk : Word) : Option (Int × ArmCore) :=
  (armExecuteInstruction p junk).map fun r =>
    if r.1 ≠ 0 then armException r.2 (BitVec.ofInt 8 r.1) junk
    else r

/-! ## The categories

The tests on bits 27 … 25 are disjoint, so each category has an equation of its own. -/

section Categories

variable {p : ArmCore} {ins junk : Word}

/-- Bits 27 … 25 are one of eight categories. -/
theorem category_lt (ins : Word) : (getBits ins 27 25).toNat < 8 := by
  rw [toNat_getBits]
  exact Nat.mod_lt _ (by decide)

theorem category_cases (ins : Word) :
    (getBits ins 27 25).toNat = 0 ∨ (getBits ins 27 25).toNat = 1 ∨
      (getBits ins 27 25).toNat = 2 ∨ (getBits ins 27 25).toNat = 3 ∨
      (getBits ins 27 25).toNat = 4 ∨ (getBits ins 27 25).toNat = 5 ∨
      (getBits ins 27 25).toNat = 6 ∨ (getBits ins 27 25).toNat = 7 := by
  have hlt := category_lt ins
  omega

theorem dispatch_zero (h : (getBits ins 27 25).toNat = 0) :
    dispatch p ins junk =
      if getBits ins 27 20 = 18 then some (armBranch p ins)
      else if getBits ins 7 4 = 0b1011 then some (armLoadStore p ins)
      else if getBits ins 24 23 = 2 ∧ getBit ins 20 = 0 then some (armMiscellaneous p ins)
      else if getBit ins 4 = 1 ∧ getBit ins 7 = 1 then some (UNDEFINED_INSTRUCTION, p)
      else some (armDataProcessingShift p ins) := by
  have hbit : getBit ins 4 = 1 ∨ getBit ins 4 = 0 := by
    rw [← getBit_ne_zero]
    exact (em _).symm
  simp only [dispatch, h, if_pos hbit]

theorem dispatch_one (h : (getBits ins 27 25).toNat = 1) :
    dispatch p ins junk =
      if getBits ins 24 23 = 2 ∧ getBits ins 21 20 = 0 then some (UNDEFINED_INSTRUCTION, p)
      else if getBits ins 21 20 = 2 ∧ getBits ins 24 23 = 2 then
        some (armDataProcessingImmediateMsr p ins)
      else some (armDataProcessingShift p ins) := by
  rw [dispatch, h]
  rfl

theorem dispatch_two (h : (getBits ins 27 25).toNat = 2) :
    dispatch p ins junk = some (armLoadStore p ins) := by
  rw [dispatch, h]
  rfl

theorem dispatch_three (h : (getBits ins 27 25).toNat = 3) :
    dispatch p ins junk =
      if getBit ins 4 = 0 then some (armLoadStore p ins)
      else if getBits ins 24 20 = 0b11111 then some (UNDEFINED_INSTRUCTION, p)
      else some (armCoprocessorOthersSwi p ins) := by
  rw [dispatch, h]
  rfl

theorem dispatch_four (h : (getBits ins 27 25).toNat = 4) :
    dispatch p ins junk = armLoadStoreMultiple p ins junk := by
  rw [dispatch, h]
  rfl

theorem dispatch_five (h : (getBits ins 27 25).toNat = 5) :
    dispatch p ins junk = some (armBranch p ins) := by
  rw [dispatch, h]
  rfl

theorem dispatch_six (h : (getBits ins 27 25).toNat = 6) :
    dispatch p ins junk = some (UNDEFINED_INSTRUCTION, p) := by
  rw [dispatch, h]
  rfl

theorem dispatch_seven (h : (getBits ins 27 25).toNat = 7) :
    dispatch p ins junk =
      if getBit ins 24 = 0 then some (armCoprocessorOthersSwi p ins)
      else some (INTERRUPT, p) := by
  rw [dispatch, h]
  rfl

/-- The handler that a dispatched instruction is given to, with the tests that have led
to it as far as they matter. -/
inductive Handled (p : ArmCore) (ins junk : Word) : Int × ArmCore → Prop
  | undefined : Handled p ins junk (UNDEFINED_INSTRUCTION, p)
  | interrupt : Handled p ins junk (INTERRUPT, p)
  | branch : Handled p ins junk (armBranch p ins)
  | miscellaneous : Handled p ins junk (armMiscellaneous p ins)
  | dataProcessing : Handled p ins junk (armDataProcessingShift p ins)
  | msr (hmsr : IsMsr ins) : Handled p ins junk (armDataProcessingImmediateMsr p ins)
  | halfWord (hcategory : (getBits ins 27 25).toNat = 0) (hhalf : getBits ins 7 4 = 0b1011) :
      Handled p ins junk (armLoadStore p ins)
  | single (hcategory : (getBits ins 27 25).toNat = 2 ∨
      ((getBits ins 27 25).toNat = 3 ∧ getBit ins 4 = 0)) :
      Handled p ins junk (armLoadStore p ins)
  | multiple {r : Int × ArmCore} (hcategory : (getBits ins 27 25).toNat = 4)
      (h : armLoadStoreMultiple p ins junk = some r) : Handled p ins junk r
  | others (hcategory : (getBits ins 27 25).toNat = 3 ∨
      ((getBits ins 27 25).toNat = 7 ∧ getBit ins 24 = 0)) :
      Handled p ins junk (armCoprocessorOthersSwi p ins)

/-- **Inversion of the dispatch.**  Whatever a dispatched instruction does, one of the handlers does
it. -/
theorem handled_of_dispatch {r : Int × ArmCore} (h : dispatch p ins junk = some r) :
    Handled p ins junk r := by
  rcases category_cases ins with hcategory | hcategory | hcategory | hcategory | hcategory |
    hcategory | hcategory | hcategory
  · rw [dispatch_zero hcategory] at h
    split_ifs at h with hbx hhalf <;> cases h
    · exact .branch
    · exact .halfWord hcategory hhalf
    · exact .miscellaneous
    · exact .undefined
    · exact .dataProcessing
  · rw [dispatch_one hcategory] at h
    split_ifs at h with hundefined hmsr <;> cases h
    · exact .undefined
    · exact .msr ⟨hcategory, hmsr.2, hmsr.1⟩
    · exact .dataProcessing
  · rw [dispatch_two hcategory] at h
    cases h
    exact .single (Or.inl hcategory)
  · rw [dispatch_three hcategory] at h
    split_ifs at h with hbit <;> cases h
    · exact .single (Or.inr ⟨hcategory, hbit⟩)
    · exact .undefined
    · exact .others (Or.inl hcategory)
  · rw [dispatch_four hcategory] at h
    exact .multiple hcategory h
  · rw [dispatch_five hcategory] at h
    cases h
    exact .branch
  · rw [dispatch_six hcategory] at h
    cases h
    exact .undefined
  · rw [dispatch_seven hcategory] at h
    split_ifs at h with hbit <;> cases h
    · exact .others (Or.inr ⟨hcategory, hbit⟩)
    · exact .interrupt

/-- Bits 27 and 26 in the categories of `arm_load_store`. -/
theorem type_of_category {ins : Word} {n : ℕ} (h : (getBits ins 27 25).toNat = n) :
    (getBits ins 27 26).toNat = n / 2 := by
  rw [toNat_getBits] at h ⊢
  omega

/-- Bit 25 is the lowest bit of the category. -/
theorem bit25_of_category_zero {ins : Word} (h : (getBits ins 27 25).toNat = 0) :
    getBit ins 25 = 0 := by
  have hzero : getBits ins 27 25 = 0#32 := BitVec.eq_of_toNat_eq h
  have hbit : (getBits ins 27 25).getLsbD 0 = ins.getLsbD 25 := by
    rw [getBits_eq_field, BitField.getLsbD_field]
    rfl
  rw [getBit_eq_zero, ← hbit, hzero]
  rfl

/-- The words and bytes. -/
theorem armLoadStore_of_type_one (h : (getBits ins 27 26).toNat = 1) :
    armLoadStore p ins = handleLdrStr p ins := by
  have hword : getBits ins 27 26 = 1 := BitVec.eq_of_toNat_eq h
  rw [armLoadStore, if_pos hword]

/-- The half-words. -/
theorem armLoadStore_of_type_zero (h : (getBits ins 27 26).toNat = 0) :
    armLoadStore p ins = handleLdrhStrh p ins := by
  have hhalf : getBits ins 27 26 = 0 := BitVec.eq_of_toNat_eq h
  rw [armLoadStore, hhalf]
  rfl

end Categories

/-! ## The outcomes of a step -/

section Outcomes

variable {p : ArmCore} {ins junk : Word}

/-- A fetch whose read succeeds leads to the condition test. -/
theorem armExecuteInstruction_of_fetch (h : (armFetch p).1 = some ins) :
    armExecuteInstruction p junk =
      if conditionPassed p.fetched ins ≠ 0 then dispatch p.fetched ins junk
      else some (INTERRUPT, p.fetched) := by
  have hfetch : armFetch p = (some ins, p.fetched) := Prod.ext h rfl
  rw [armExecuteInstruction, hfetch]

/-- A fetch whose read fails is a prefetch abort. -/
theorem armExecuteInstruction_of_abort (h : (armFetch p).1 = none) :
    armExecuteInstruction p junk = some (PREFETCH_ABORT, p.fetched) := by
  have hfetch : armFetch p = (none, p.fetched) := Prod.ext h rfl
  rw [armExecuteInstruction, hfetch]

/-- The word about to be executed is `ins`, and its condition holds.  It is the hypothesis of the
results about one instruction. -/
def Executes (p : ArmCore) (ins : Word) : Prop :=
  (armFetch p).1 = some ins ∧ conditionPassed p.fetched ins ≠ 0

theorem Executes.unique {ins' : Word} (h : Executes p ins) (h' : Executes p ins') :
    ins' = ins := Option.some.inj (h'.1.symm.trans h.1)

/-- A word whose condition holds is dispatched. -/
theorem Executes.dispatched (h : Executes p ins) :
    armExecuteInstruction p junk = dispatch p.fetched ins junk := by
  rw [armExecuteInstruction_of_fetch h.1, if_pos h.2]

/-- **The three ways through `arm_execute_instruction`**: no instruction, an
instruction whose condition fails, an instruction that is dispatched. -/
theorem armExecuteInstruction_cases {r : Int × ArmCore}
    (h : armExecuteInstruction p junk = some r) :
    ((armFetch p).1 = none ∧ r = (PREFETCH_ABORT, p.fetched)) ∨
      ∃ ins, (armFetch p).1 = some ins ∧
        ((conditionPassed p.fetched ins = 0 ∧ r = (INTERRUPT, p.fetched)) ∨
          (conditionPassed p.fetched ins ≠ 0 ∧ dispatch p.fetched ins junk = some r)) := by
  cases hword : (armFetch p).1 with
  | none =>
      rw [armExecuteInstruction_of_abort hword] at h
      exact Or.inl ⟨rfl, (Option.some.inj h).symm⟩
  | some ins =>
      rw [armExecuteInstruction_of_fetch hword] at h
      refine Or.inr ⟨ins, rfl, ?_⟩
      split_ifs at h with hcond
      · exact Or.inr ⟨hcond, h⟩
      · exact Or.inl ⟨not_not.mp hcond, (Option.some.inj h).symm⟩

/-- A result other than 0 is handed to `arm_exception`, narrowed to a `uint8_t`. -/
theorem armStep_of_execute {r : Int × ArmCore} (h : armExecuteInstruction p junk = some r) :
    armStep p junk =
      some (if r.1 ≠ 0 then armException r.2 (BitVec.ofInt 8 r.1) junk else r) := by
  rw [armStep, h]
  rfl

end Outcomes

end ArmSimulator
