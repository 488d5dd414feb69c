import ArmSimulator.Results

/-!
# Loads and stores outside memory

The `-1` of a failed memory access is not an exception number: narrowed to a `uint8_t` it is `255`,
on which `arm_exception` does nothing.  A multiple transfer does not look at the result of its
accesses at all.  So no load or store is ever a data abort (`memoryAccess_not_aborted`), wherever it
goes.

`DataAborted` says what a data abort would be: the number that the step returns, the mode, the
vector, and registers that hold their old values or what was read.  The result excludes it for every
state and every memory instruction, by way of the three numbers that such an instruction can return
(`memoryAccess_result`) and what `arm_step` makes of each (`memoryAccess_step`): 0 is returned as it
is, `-1` becomes 255, and an undefined instruction has an entry of its own.
-/

namespace ArmSimulator

/-- LDR, STR, LDRB and STRB; LDRH and STRH; LDM and STM. -/
def IsMemoryAccess (ins : Word) : Prop :=
  (getBits ins 27 25).toNat = 2 ∨
    ((getBits ins 27 25).toNat = 3 ∧ getBit ins 4 = 0) ∨
    ((getBits ins 27 25).toNat = 0 ∧ getBits ins 7 4 = 0b1011) ∨
    (getBits ins 27 25).toNat = 4

/-- The first address and the number of bytes that a memory instruction accesses, in
the fetched state, as the instruction set defines them: a post-indexed transfer
(bit 24 clear) uses the base alone, and bit 22 of a half-word transfer selects the
immediate offset. -/
def accessWindow (p : ArmCore) (ins : Word) : Option (Word × ℕ) :=
  let rn := getBits ins 19 16
  let address (offset : Word) : Word :=
    if getBit ins 24 = 1 then calculateAddress p rn offset (getBit ins 23)
    else armReadRegister p (u8 rn)
  match (getBits ins 27 25).toNat with
  | 0 =>
      let offset := if getBit ins 22 = 1
        then logicalShiftLeft (getBits ins 11 8) 4 ||| getBits ins 3 0
        else armReadRegister p (u8 (getBits ins 3 0))
      some (address offset, 2)
  | 4 => some (blockStart p ins, 4 * countListed (getBits ins 15 0) (List.range 16))
  | _ =>
      (memoryOperationOffset p ins).map fun offset =>
        (address offset, if getBit ins 22 = 1 then 1 else 4)

/-- Some byte of the access lies outside the memory. -/
def OutOfRange (p : ArmCore) (ins : Word) : Prop :=
  ∃ address bytes, accessWindow p ins = some (address, bytes) ∧
    ∃ k < bytes, p.mem.capacity ≤ size (address + BitVec.ofNat 32 k)

/-- The registers that a load writes, other than the program counter. -/
def destinations (ins : Word) : List Byte :=
  if getBit ins 20 = 0 then []
  else if (getBits ins 27 25).toNat = 4 then
    ((List.range 15).filter fun i => getBit (getBits ins 15 0) i = 1).map (BitVec.ofNat 8)
  else [u8 (getBits ins 15 12)]

/-- A word, half-word or byte of the memory. -/
def FromMemory (mem : Memory) (value : Word) : Prop :=
  ∃ address, memoryReadWord mem address ENDIANESS = some value ∨
    (memoryReadHalf mem address ENDIANESS).map (·.setWidth 32) = some value ∨
    (memoryReadByte mem address).map u32 = some value

/-- The outcome `r` of a step on `ins` is a data abort: the result, the mode and the
vector, and no destination register with a value that is neither its old one nor one
read from memory. -/
structure DataAborted (p : ArmCore) (ins : Word) (r : Int × ArmCore) : Prop where
  result : r.1 = DATA_ABORT
  mode : r.2.reg.currentMode = ABT
  pc : r.2.reg.pc = 0x10
  destinations : ∀ reg ∈ destinations ins,
    registersRead r.2.reg reg p.reg.currentMode = registersRead p.reg reg p.reg.currentMode ∨
      FromMemory p.mem (registersRead r.2.reg reg p.reg.currentMode)

/-- A memory instruction returns 0, `-1` or `UNDEFINED_INSTRUCTION`. -/
theorem memoryAccess_result {p : ArmCore} {ins junk : Word} {r : Int × ArmCore}
    (hins : IsMemoryAccess ins) (h : dispatch p ins junk = some r) : PlainResult r.1 := by
  rcases hins with hcategory | ⟨hcategory, hbit4⟩ | ⟨hcategory, hhalf⟩ | hcategory
  · rw [dispatch_two hcategory] at h
    cases h
    exact armLoadStore_result p ins
  · rw [dispatch_three hcategory, if_pos hbit4] at h
    cases h
    exact armLoadStore_result p ins
  · rw [dispatch_zero hcategory] at h
    -- a word with bits 27 … 20 equal to 18 is taken for a branch
    split_ifs at h
    · cases h
      exact armBranch_result p ins
    · cases h
      exact armLoadStore_result p ins
  · rw [dispatch_four hcategory] at h
    exact Or.inl (armLoadStoreMultiple_result h)

/-- What `arm_step` makes of the result of a memory instruction. -/
theorem memoryAccess_step {p : ArmCore} {ins junk : Word} {r : Int × ArmCore}
    (hfetch : (armFetch p).1 = some ins) (hpassed : conditionPassed p.fetched ins ≠ 0)
    (hins : IsMemoryAccess ins) (hstep : armStep p junk = some r) :
    r.1 = 0 ∨ r.1 = 255 ∨ r.1 = UNDEFINED_INSTRUCTION := by
  obtain ⟨s, hexec, rfl⟩ := Option.map_eq_some_iff.mp hstep
  rw [armExecuteInstruction_of_fetch hfetch, if_pos hpassed] at hexec
  obtain ⟨code, q⟩ := s
  rcases memoryAccess_result hins hexec with hres | hres | hres <;> dsimp only at hres <;>
    subst hres
  · exact Or.inl rfl
  · exact Or.inr (Or.inl rfl)
  · exact Or.inr (Or.inr rfl)

/-- **No load or store is a data abort**, inside the memory or outside.  What an access returns is
never the number that `arm_exception` would take for one. -/
theorem memoryAccess_not_aborted {p : ArmCore} {ins junk : Word}
    (hfetch : (armFetch p).1 = some ins) (hpassed : conditionPassed p.fetched ins ≠ 0)
    (hins : IsMemoryAccess ins) :
    ¬ ∃ r, armStep p junk = some r ∧ DataAborted p ins r := by
  rintro ⟨r, hstep, haborted⟩
  have hresult := memoryAccess_step hfetch hpassed hins hstep
  rw [haborted.result] at hresult
  exact absurd hresult (by decide)

/-- `LDR r0, [r1, #-4]` at the end of the address space. -/
theorem memoryAccess_not_aborted_ldr :
    ¬ ∃ r, armStep (ArmCore.load 0x1d3 [0xE5110004]) 0 = some r ∧
      DataAborted (ArmCore.load 0x1d3 [0xE5110004]) 0xE5110004 r :=
  memoryAccess_not_aborted (by decide) (by decide) (Or.inl (by decide))

/-- The same load: every byte of its access is outside the memory. -/
theorem memoryAccess_aborted_counterexample :
    ¬ ∀ (p : ArmCore) (ins junk : Word), (armFetch p).1 = some ins →
      conditionPassed p.fetched ins ≠ 0 → IsMemoryAccess ins → OutOfRange p.fetched ins →
        ∃ r, armStep p junk = some r ∧ DataAborted p ins r := by
  intro h
  have hrange : OutOfRange (ArmCore.load 0x1d3 [0xE5110004]).fetched 0xE5110004 :=
    ⟨0xFFFFFFFC, 4, by decide, 0, by decide, by decide⟩
  obtain ⟨r, hstep, haborted⟩ := h (ArmCore.load 0x1d3 [0xE5110004]) 0xE5110004 0 (by decide)
    (by decide) (Or.inl (by decide)) hrange
  have hresult : (armStep (ArmCore.load 0x1d3 [0xE5110004]) 0).map Prod.fst = some 255 := by
    decide
  rw [hstep, Option.map_some, haborted.result] at hresult
  exact absurd hresult (by decide)

end ArmSimulator
