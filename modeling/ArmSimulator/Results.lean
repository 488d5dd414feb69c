import ArmSimulator.Instruction

/-!
# What an instruction can return

Most handlers return 0, `UNDEFINED_INSTRUCTION`, or the `-1` of a failed memory access
(`PlainResult`).  The other codes have one source each: `DATA_ABORT` comes from MSR,
`SOFTWARE_INTERRUPT` from `arm_coprocessor_others_swi`, `INTERRUPT` from category 7 or a failed
condition, `PREFETCH_ABORT` from a failed fetch.

`dispatch_result` collects them for a whole instruction.  The state a software interrupt is raised
in is the fetched state: nothing has been executed.

The lemmas are one for each handler, as those of `Effects` are for the state; together the two
modules are what is known of an instruction without looking at its word.  What `arm_step` makes of a
result depends on its low byte, and 255, the `-1` of a failed access, is none of the numbers that
`arm_exception` tests for.
-/

namespace ArmSimulator

/-- The results of the handlers that neither trap nor return from MSR. -/
def PlainResult (result : Int) : Prop :=
  result = 0 ∨ result = -1 ∨ result = UNDEFINED_INSTRUCTION

namespace PlainResult

theorem zero : PlainResult 0 := Or.inl rfl

theorem error : PlainResult (-1) := Or.inr (Or.inl rfl)

theorem undefined : PlainResult UNDEFINED_INSTRUCTION := Or.inr (Or.inr rfl)

end PlainResult

/-! ## Data processing -/

/-- The body of the opcodes returns 0, or `UNDEFINED_INSTRUCTION` where it finds no SPSR. -/
theorem writeResult_result (p : ArmCore) (result : Word) (rd : Byte) (setCond : Word)
    (updateFlags : ArmCore → ArmCore) :
    PlainResult (writeResult p result rd setCond updateFlags).1 := by
  unfold writeResult
  dsimp only
  split_ifs
  · exact PlainResult.zero
  · exact PlainResult.undefined
  · exact PlainResult.zero
  · exact PlainResult.zero

/-- Data processing.  No opcode returns anything else than the body, ADC and TEQ included. -/
theorem armDataProcessingShift_result (p : ArmCore) (ins : Word) :
    PlainResult (armDataProcessingShift p ins).1 := by
  unfold armDataProcessingShift
  dsimp only
  split
  case h_6 =>
    unfold DataProcessing.adc
    dsimp only
    split_ifs
    · exact writeResult_result _ _ _ _ _
    · exact writeResult_result _ _ _ _ _
  -- TST, TEQ, CMP and CMN return the constant 0
  case h_9 | h_10 | h_11 | h_12 => exact PlainResult.zero
  case h_17 => exact PlainResult.undefined
  all_goals exact writeResult_result _ _ _ _ _

/-- MSR never returns 0: where the code falls off its end, the result is `DATA_ABORT`. -/
theorem armDataProcessingImmediateMsr_result (p : ArmCore) (ins : Word) :
    (armDataProcessingImmediateMsr p ins).1 = UNDEFINED_INSTRUCTION ∨
      (armDataProcessingImmediateMsr p ins).1 = DATA_ABORT := by
  unfold armDataProcessingImmediateMsr
  cases msrOperand p ins with
  | none => exact Or.inl rfl
  | some operand =>
      dsimp only
      split_ifs
      · exact Or.inl rfl
      · exact Or.inr rfl
      · exact Or.inr rfl
      · exact Or.inl rfl

/-! ## Loads and stores -/

/-- A store returns 0 or -1. -/
theorem afterWrite_result (p : ArmCore) (mem : Option Memory) :
    PlainResult (p.afterWrite mem).1 := by
  cases mem with
  | none => exact PlainResult.error
  | some mem => exact PlainResult.zero

/-- An access returns 0 or -1. -/
theorem processMemoryAccess_result (p : ArmCore) (address loadStore b rd : Word) :
    PlainResult (processMemoryAccess p address loadStore b rd).1 := by
  unfold processMemoryAccess
  split_ifs
  · exact afterWrite_result p _
  · exact afterWrite_result p _
  · cases armReadWord p address with
    | none => exact PlainResult.error
    | some value => exact PlainResult.zero
  · cases armReadByte p address with
    | none => exact PlainResult.error
    | some value => exact PlainResult.zero

theorem processMemoryAccessHalf_result (p : ArmCore) (address loadStore rd : Word) :
    PlainResult (processMemoryAccessHalf p address loadStore rd).1 := by
  unfold processMemoryAccessHalf
  split_ifs
  · exact afterWrite_result p _
  · cases armReadHalf p address with
    | none => exact PlainResult.error
    | some value => exact PlainResult.zero

/-- LDR and STR return what their access returns, or -1 for an offset of no known kind. -/
theorem handleMemoryOperation_result (p : ArmCore) (ins : Word) (write : Bool) :
    PlainResult (handleMemoryOperation p ins write).1 := by
  unfold handleMemoryOperation
  dsimp only
  cases memoryOperationOffset p ins with
  | none => exact PlainResult.error
  | some offset => exact processMemoryAccess_result _ _ _ _ _

theorem handleCommonLdrhStrh_result (p : ArmCore) (ins offset : Word) (write : Bool) :
    PlainResult (handleCommonLdrhStrh p ins offset write).1 :=
  processMemoryAccessHalf_result _ _ _ _

/-- The single transfers return what their handler returns. -/
theorem armLoadStore_result (p : ArmCore) (ins : Word) :
    PlainResult (armLoadStore p ins).1 := by
  unfold armLoadStore
  dsimp only
  split_ifs
  · rw [handleLdrStr_eq]
    split_ifs
    · exact PlainResult.undefined
    · exact handleMemoryOperation_result p ins _
  · unfold handleLdrhStrh
    split
    all_goals first
      | exact handleCommonLdrhStrh_result p ins _ _
      | exact PlainResult.undefined
  · exact PlainResult.undefined

/-- A multiple transfer that returns at all returns 0. -/
theorem armLoadStoreMultiple_result {p : ArmCore} {ins junk : Word} {r : Int × ArmCore}
    (h : armLoadStoreMultiple p ins junk = some r) : r.1 = 0 := by
  unfold armLoadStoreMultiple at h
  dsimp only at h
  split_ifs at h <;> cases h <;> rfl

/-! ## The other instructions -/

/-- A branch returns 0, or `UNDEFINED_INSTRUCTION` for a word that is none. -/
theorem armBranch_result (p : ArmCore) (ins : Word) : PlainResult (armBranch p ins).1 := by
  unfold armBranch
  dsimp only
  split_ifs
  · exact PlainResult.zero
  · exact PlainResult.zero
  · exact PlainResult.zero
  · exact PlainResult.zero
  · exact PlainResult.undefined
  · exact PlainResult.undefined

/-- MRS returns 0, or `UNDEFINED_INSTRUCTION` where there is no SPSR. -/
theorem armMiscellaneous_result (p : ArmCore) (ins : Word) :
    PlainResult (armMiscellaneous p ins).1 := by
  unfold armMiscellaneous
  dsimp only
  split_ifs
  · exact PlainResult.zero
  · exact PlainResult.zero
  · exact PlainResult.undefined

/-- The one handler that raises a software interrupt; it has then changed nothing. -/
theorem armCoprocessorOthersSwi_result (p : ArmCore) (ins : Word) :
    armCoprocessorOthersSwi p ins = (SOFTWARE_INTERRUPT, p) ∨
      armCoprocessorOthersSwi p ins = (UNDEFINED_INSTRUCTION, p) := by
  unfold armCoprocessorOthersSwi
  split_ifs
  · exact Or.inl rfl
  · exact Or.inr rfl

/-- **The result of a dispatched instruction.**  A plain result, or a code whose handler is known.
-/
theorem dispatch_result {p : ArmCore} {ins junk : Word} {r : Int × ArmCore}
    (h : dispatch p ins junk = some r) :
    PlainResult r.1 ∨ (IsMsr ins ∧ r.1 = DATA_ABORT) ∨ r = (SOFTWARE_INTERRUPT, p) ∨
      r = (INTERRUPT, p) := by
  cases handled_of_dispatch h with
  | undefined => exact Or.inl PlainResult.undefined
  | interrupt => exact Or.inr (Or.inr (Or.inr rfl))
  | branch => exact Or.inl (armBranch_result p ins)
  | miscellaneous => exact Or.inl (armMiscellaneous_result p ins)
  | dataProcessing => exact Or.inl (armDataProcessingShift_result p ins)
  | msr hmsr =>
      rcases armDataProcessingImmediateMsr_result p ins with hres | hres
      · rw [hres]
        exact Or.inl PlainResult.undefined
      · exact Or.inr (Or.inl ⟨hmsr, hres⟩)
  | halfWord => exact Or.inl (armLoadStore_result p ins)
  | single => exact Or.inl (armLoadStore_result p ins)
  | multiple _ hmultiple => exact Or.inl (Or.inl (armLoadStoreMultiple_result hmultiple))
  | others =>
      rcases armCoprocessorOthersSwi_result p ins with hres | hres
      · exact Or.inr (Or.inr (Or.inl hres))
      · rw [hres]
        exact Or.inl PlainResult.undefined

/-- Only a software interrupt reaches `arm_exception` as one, and the instruction has
then changed nothing. -/
theorem dispatch_swi {p : ArmCore} {ins junk : Word} {r : Int × ArmCore}
    (h : dispatch p ins junk = some r) (hswi : BitVec.ofInt 8 r.1 = 8) :
    r = (SOFTWARE_INTERRUPT, p) := by
  have hcode : ∀ code : Int, r.1 = code → BitVec.ofInt 8 code ≠ 8 → r = (SOFTWARE_INTERRUPT, p) :=
    fun code hres hne => absurd (hres ▸ hswi) hne
  rcases dispatch_result h with (hres | hres | hres) | ⟨-, hres⟩ | hres | hres
  · exact hcode _ hres (by decide)
  · exact hcode _ hres (by decide)
  · exact hcode _ hres (by decide)
  · exact hcode _ hres (by decide)
  · exact hres
  · exact hcode INTERRUPT (congrArg Prod.fst hres) (by decide)

/-- The word of a software interrupt can be read again: `arm_exception` reads it at
or below the address it was fetched from. -/
theorem swi_word_isSome {p : ArmCore} {ins : Word} (h : (armFetch p).1 = some ins) :
    (armReadWord p.fetched (armReadRegister p.fetched 15 - 8)).isSome = true :=
  memoryReadWord_isSome_of_le (fetched_pcRead_sub_le p) (Option.isSome_of_eq_some h)

end ArmSimulator
