import ArmSimulator.Effects
import ArmSimulator.MemoryAccess

/-!
# Memory changes only through stores

Four kinds of instruction write memory: STR, STRB, STRH and STM.  `Stores` lists them, each with the
first address and the number of bytes of its window, as the code computes them in the fetched state.
Everything else leaves memory alone: the other handlers (`_mem` lemmas), the loads, and the
exception that a result other than 0 brings.

`memory_changed_by_store` follows a changed byte back through a step to the store whose window it
lies in.  Its lemmas are stated in that direction from the bottom up: *if a byte differs, it is in
the window* (the `_changed` lemmas, for the accessors, the handlers and the loop of STM), so that no
case needs to say what the other bytes are.

A window is counted modulo `2 ^ 32`, as the addresses of an STM are; the guards of the accessors
keep a store inside memory, but the window of an STM may reach round the end of the address space,
with the words inside memory written and the others refused.
-/

namespace ArmSimulator

open ByteOrder

/-! ## Windows -/

/-- The address `a` is one of the `n` addresses from `start` on, modulo `2 ^ 32`.  The window of a
store is all the bytes that it may write, refused or not. -/
def InWindow (start : Word) (n : ℕ) (a : Word) : Prop := ∃ k < n, a = start + BitVec.ofNat 32 k

/-- A window may be made larger. -/
theorem InWindow.mono {start a : Word} {m n : ℕ} (h : InWindow start m a) (hle : m ≤ n) :
    InWindow start n a := by
  obtain ⟨k, hk, rfl⟩ := h
  exact ⟨k, Nat.lt_of_lt_of_le hk hle, rfl⟩

/-- A window that follows another of `m` bytes. -/
theorem InWindow.after {start a : Word} {m n : ℕ}
    (h : InWindow (start + BitVec.ofNat 32 m) n a) : InWindow start (n + m) a := by
  obtain ⟨k, hk, rfl⟩ := h
  refine ⟨m + k, by omega, ?_⟩
  rw [BitVec.ofNat_add, BitVec.add_assoc]

/-- A run of stores changes only its window. -/
theorem Memory.inWindow_of_changed {mem : Memory} {start a : Word} {bs : List Byte}
    (hlength : bs.length ≤ 2 ^ 32) (h : (mem.storeBytes start bs).data a ≠ mem.data a) :
    InWindow start bs.length a := by
  by_contra hout
  exact h (mem.data_storeBytes_of_ne hlength fun k hk heq => hout ⟨k, hk, heq⟩)

section Writes

variable {p : ArmCore} {start a : Word}

/-- The outcome of an accessor that stores `n` bytes behind a guard. -/
theorem afterWrite_changed {guard : Prop} [Decidable guard] {o : Order} {n v : ℕ}
    (hn : n ≤ 2 ^ 32)
    (h : (p.afterWrite (if guard then none
      else some (p.mem.storeBytes start (encode o n v)))).2.mem.data a ≠ p.mem.data a) :
    InWindow start n a := by
  have hlength := length_encode o n v
  split_ifs at h
  · exact absurd rfl h
  · have hwindow := Memory.inWindow_of_changed (by rw [hlength]; exact hn) h
    rwa [hlength] at hwindow

/-- A byte that a store has changed is in its window; for each of the widths. -/
theorem armWriteByte_changed {value : Byte}
    (h : (armWriteByte p start value).2.mem.data a ≠ p.mem.data a) : InWindow start 1 a := by
  rw [armWriteByte, memoryWriteByte_eq] at h
  exact afterWrite_changed (by decide) h

theorem armWriteHalf_changed {value : Half}
    (h : (armWriteHalf p start value).2.mem.data a ≠ p.mem.data a) : InWindow start 2 a := by
  rw [armWriteHalf, memoryWriteHalf_eq] at h
  exact afterWrite_changed (by decide) h

/-- A byte that a word store changes is one of four. -/
theorem armWriteWord_changed {value : Word}
    (h : (armWriteWord p start value).2.mem.data a ≠ p.mem.data a) : InWindow start 4 a := by
  rw [armWriteWord, memoryWriteWord_eq] at h
  exact afterWrite_changed (by decide) h

end Writes

/-! ## The stores

Each handler that can write memory, down to the accessors. -/

/-- A single transfer of a word or byte: category 2, or category 3 with bit 4 clear. -/
def IsSingleTransfer (ins : Word) : Prop :=
  (getBits ins 27 25).toNat = 2 ∨ ((getBits ins 27 25).toNat = 3 ∧ getBit ins 4 = 0)

/-- The stores, with the window that each addresses in the fetched state.  The tests that make a
word one of them are those of the dispatch and of the handlers, and the addresses are the ones that
the code computes. -/
inductive Stores (p : ArmCore) (ins : Word) : Word → ℕ → Prop
  | str {offset : Word} (hins : IsSingleTransfer ins) (hstore : getBit ins 20 = 0)
      (hword : getBit ins 22 = 0) (hoffset : memoryOperationOffset p ins = some offset) :
      Stores p ins (calculateAddress p (getBits ins 19 16) offset (getBit ins 23)) 4
  | strb {offset : Word} (hins : IsSingleTransfer ins) (hstore : getBit ins 20 = 0)
      (hbyte : getBit ins 22 = 1) (hoffset : memoryOperationOffset p ins = some offset) :
      Stores p ins (calculateAddress p (getBits ins 19 16) offset (getBit ins 23)) 1
  -- the offset is the immediate, whatever bit 22 says
  | strh (hcategory : (getBits ins 27 25).toNat = 0) (hhalf : getBits ins 7 4 = 0b1011)
      (hstore : getBit ins 20 = 0) :
      Stores p ins (calculateAddress p (getBits ins 19 16)
        (logicalShiftLeft (getBits ins 11 8) 4 ||| getBits ins 3 0) (getBit ins 23)) 2
  | stm (hcategory : (getBits ins 27 25).toNat = 4) (hstore : getBit ins 20 = 0) :
      Stores p ins (blockStart p ins) (4 * countListed (getBits ins 15 0) (List.range 15))

section Transfers

variable {p : ArmCore} {ins a : Word}

@[simp] theorem writeBack_mem (p : ArmCore) (enabled : Bool) (rn address : Word) :
    (writeBack p enabled rn address).mem = p.mem := by
  cases enabled <;> rfl

/-- Bit 20 set is a load, bit 22 set a byte. -/
theorem processMemoryAccess_changed {address loadStore b rd : Word}
    (h : (processMemoryAccess p address loadStore b rd).2.mem.data a ≠ p.mem.data a) :
    loadStore = 0 ∧ InWindow address (if b = 0 then 4 else 1) a := by
  unfold processMemoryAccess at h
  split_ifs at h with hstore hword hword
  · rw [if_pos hword]
    exact ⟨hstore, armWriteWord_changed h⟩
  · rw [if_neg hword]
    exact ⟨hstore, armWriteByte_changed h⟩
  · cases hread : armReadWord p address <;> rw [hread] at h <;> exact absurd rfl h
  · cases hread : armReadByte p address <;> rw [hread] at h <;> exact absurd rfl h

/-- Bit 20 set is a load, which changes no byte. -/
theorem processMemoryAccessHalf_changed {address loadStore rd : Word}
    (h : (processMemoryAccessHalf p address loadStore rd).2.mem.data a ≠ p.mem.data a) :
    loadStore = 0 ∧ InWindow address 2 a := by
  unfold processMemoryAccessHalf at h
  split_ifs at h with hstore
  · exact ⟨hstore, armWriteHalf_changed h⟩
  · cases hread : armReadHalf p address <;> rw [hread] at h <;> exact absurd rfl h

/-- LDR and STR.  The write-back comes first and changes no byte. -/
theorem handleMemoryOperation_changed {write : Bool} (hins : IsSingleTransfer ins)
    (h : (handleMemoryOperation p ins write).2.mem.data a ≠ p.mem.data a) :
    ∃ start n, Stores p ins start n ∧ InWindow start n a := by
  unfold handleMemoryOperation at h
  dsimp only at h
  cases hoffset : memoryOperationOffset p ins with
  | none =>
      rw [hoffset] at h
      exact absurd rfl h
  | some offset =>
      rw [hoffset] at h
      -- the base is written back before the access; memory is still that of `p`
      have hframe : (writeBack p write (getBits ins 19 16)
          (calculateAddress p (getBits ins 19 16) offset (getBit ins 23))).mem = p.mem :=
        writeBack_mem _ _ _ _
      rw [← hframe] at h
      obtain ⟨hstore, hwindow⟩ := processMemoryAccess_changed h
      by_cases hword : getBit ins 22 = 0
      · rw [if_pos hword] at hwindow
        exact ⟨_, _, .str hins hstore hword hoffset, hwindow⟩
      · rw [if_neg hword] at hwindow
        exact ⟨_, _, .strb hins hstore (getBit_ne_zero.mp hword) hoffset, hwindow⟩

/-- The nine handlers of LDR and STR are one, as far as memory goes. -/
theorem handleLdrStr_changed (hins : IsSingleTransfer ins)
    (h : (handleLdrStr p ins).2.mem.data a ≠ p.mem.data a) :
    ∃ start n, Stores p ins start n ∧ InWindow start n a := by
  rw [handleLdrStr_eq] at h
  split_ifs at h
  · exact absurd rfl h
  · exact handleMemoryOperation_changed hins h

/-- LDRH and STRH, at the address that the code computes for them. -/
theorem handleLdrhStrh_changed (hcategory : (getBits ins 27 25).toNat = 0)
    (hhalf : getBits ins 7 4 = 0b1011) (h : (handleLdrhStrh p ins).2.mem.data a ≠ p.mem.data a) :
    ∃ start n, Stores p ins start n ∧ InWindow start n a := by
  rw [handleLdrhStrh_eq p (bit25_of_category_zero hcategory)] at h
  split_ifs at h
  · exact absurd rfl h
  · unfold handleImmediateCommonLdrhStrh handleCommonLdrhStrh at h
    dsimp only at h
    have hframe : (writeBack p (determineAddressingModeLdrStr ins).writesBack (getBits ins 19 16)
        (calculateAddress p (getBits ins 19 16)
          (logicalShiftLeft (getBits ins 11 8) 4 ||| getBits ins 3 0) (getBit ins 23))).mem =
        p.mem := writeBack_mem _ _ _ _
    rw [← hframe] at h
    obtain ⟨hstore, hwindow⟩ := processMemoryAccessHalf_changed h
    exact ⟨_, _, .strh hcategory hhalf hstore, hwindow⟩

/-- **The loop of STM**: each listed register takes the next word of the window. -/
theorem stmLoop_changed (regList a : Word) :
    ∀ (is : List ℕ) (p : ArmCore) (address : Word),
      (stmLoop regList is p address).mem.data a ≠ p.mem.data a →
        InWindow address (4 * countListed regList is) a := by
  intro is
  induction is with
  | nil => exact fun p address h => absurd rfl h
  | cons i is ih =>
      intro p address h
      rw [stmLoop] at h
      rw [countListed_cons]
      split_ifs at h ⊢ with hbit
      · dsimp only at h
        generalize hq : armWriteWord p address (armReadRegister p (BitVec.ofNat 8 i)) = q at h
        by_cases hhere : q.2.mem.data a = p.mem.data a
        · rw [← hhere] at h
          exact (ih q.2 (address + 4) h).after
        · rw [← hq] at hhere
          exact (armWriteWord_changed hhere).mono (by omega)
      · exact ih p address h

end Transfers

/-! ## Everything else

The handlers that leave memory alone, each by the lemmas of what it calls. -/

section Frame

variable {p : ArmCore} {ins junk : Word}

/-- No opcode writes memory. -/
theorem writeResult_mem (p : ArmCore) (result : Word) (rd : Byte) (setCond : Word)
    {updateFlags : ArmCore → ArmCore} (hflags : ∀ q, (updateFlags q).mem = q.mem) :
    (writeResult p result rd setCond updateFlags).2.mem = p.mem := by
  unfold writeResult
  dsimp only
  split_ifs
  · rfl
  · rfl
  · exact hflags _
  · rfl

open DataProcessing in
/-- An addition touches no memory. -/
theorem add_mem (p : ArmCore) (op1 op2 : Word) (rd : Byte) (setCond : Word) :
    (add p op1 op2 rd setCond).2.mem = p.mem := writeResult_mem _ _ _ _ fun _ => rfl

open DataProcessing in
/-- Nor do the two additions of ADC. -/
theorem adc_mem (p : ArmCore) (op1 op2 : Word) (rd : Byte) (setCond carryIn : Word) :
    (adc p op1 op2 rd setCond carryIn).2.mem = p.mem := by
  unfold adc
  dsimp only
  split_ifs
  · exact (add_mem _ _ _ _ _).trans (add_mem p op1 op2 rd setCond)
  · exact add_mem p op1 op2 rd setCond

/-- Data processing leaves memory alone, the two additions of ADC and the comparisons as well. -/
theorem armDataProcessingShift_mem (p : ArmCore) (ins : Word) :
    (armDataProcessingShift p ins).2.mem = p.mem := by
  unfold armDataProcessingShift
  dsimp only
  split
  case h_6 => exact adc_mem _ _ _ _ _ _
  case h_10 => exact writeResult_mem _ _ _ _ fun _ => rfl
  -- TST, CMP and CMN write flags only
  case h_9 | h_11 | h_12 | h_17 => rfl
  all_goals exact writeResult_mem _ _ _ _ fun _ => rfl

theorem armDataProcessingImmediateMsr_mem (p : ArmCore) (ins : Word) :
    (armDataProcessingImmediateMsr p ins).2.mem = p.mem := by
  unfold armDataProcessingImmediateMsr
  cases msrOperand p ins with
  | none => rfl
  | some operand =>
      dsimp only
      split_ifs <;> rfl

theorem armBranch_mem (p : ArmCore) (ins : Word) : (armBranch p ins).2.mem = p.mem := by
  unfold armBranch
  dsimp only
  split_ifs <;> rfl

theorem armMiscellaneous_mem (p : ArmCore) (ins : Word) :
    (armMiscellaneous p ins).2.mem = p.mem := by
  unfold armMiscellaneous
  dsimp only
  split_ifs <;> rfl

/-- `start_end_adresse` writes a register and no memory. -/
theorem startEndAdresse_mem (p : ArmCore) (pBit uBit rn regList w : Word) :
    (startEndAdresse p pBit uBit rn regList w).core.mem = p.mem := by
  unfold startEndAdresse
  dsimp only
  split_ifs <;> rfl

/-- A multiple transfer changes memory only as an STM, in its window. -/
theorem armLoadStoreMultiple_changed {r : Int × ArmCore} {a : Word}
    (hcategory : (getBits ins 27 25).toNat = 4) (h : armLoadStoreMultiple p ins junk = some r)
    (hne : r.2.mem.data a ≠ p.mem.data a) :
    ∃ start n, Stores p ins start n ∧ InWindow start n a := by
  have hstart := startEndAdresse_mem p (getBit ins 24) (getBit ins 23) (getBits ins 19 16)
    (getBits ins 15 0) (getBit ins 21)
  rw [← hstart] at hne
  unfold armLoadStoreMultiple at h
  dsimp only at h
  split_ifs at h with hstore hpc hassert <;> cases h
  · exact ⟨_, _, .stm hcategory hstore, stmLoop_changed _ a _ _ _ hne⟩
  · exact absurd (congrArg (Memory.data · a) (ldmLoop_mem _ _ _)) hne
  · exact absurd (congrArg (Memory.data · a) (ldmLoop_mem _ _ _)) hne

/-- No exception writes memory. -/
theorem armException_mem (p : ArmCore) (exception : Byte) (junk : Word) :
    (armException p exception junk).2.mem = p.mem := by
  rw [(armException_snd p exception junk).2.1, takeException_eq]
  split
  · rfl
  all_goals first
    | exact exceptionEntry_mem ..
    | rfl

/-- **A whole instruction** changes memory only as a store, in its window. -/
theorem dispatch_changed {r : Int × ArmCore} {a : Word} (h : dispatch p ins junk = some r)
    (hne : r.2.mem.data a ≠ p.mem.data a) :
    ∃ start n, Stores p ins start n ∧ InWindow start n a := by
  have hframe : r.2.mem ≠ p.mem := fun hmem => hne (by rw [hmem])
  cases handled_of_dispatch h with
  | undefined => exact absurd rfl hframe
  | interrupt => exact absurd rfl hframe
  | branch => exact absurd (armBranch_mem p ins) hframe
  | miscellaneous => exact absurd (armMiscellaneous_mem p ins) hframe
  | dataProcessing => exact absurd (armDataProcessingShift_mem p ins) hframe
  | msr => exact absurd (armDataProcessingImmediateMsr_mem p ins) hframe
  | halfWord hcategory hhalf =>
      rw [armLoadStore_of_type_zero (type_of_category hcategory)] at hne
      exact handleLdrhStrh_changed hcategory hhalf hne
  | single hcategory =>
      have htype : (getBits ins 27 26).toNat = 1 :=
        hcategory.elim type_of_category fun h => type_of_category h.1
      rw [armLoadStore_of_type_one htype] at hne
      exact handleLdrStr_changed hcategory hne
  | multiple hcategory hmultiple => exact armLoadStoreMultiple_changed hcategory hmultiple hne
  | others => exact absurd (congrArg ArmCore.mem (armCoprocessorOthersSwi_snd p ins)) hframe

end Frame

/-- **Memory changes only through stores.**  A byte that differs after a step, with the
exception the step may end in, lies in the window of the STR, STRB, STRH or STM that was
executed. -/
theorem memory_changed_by_store {p : ArmCore} {junk a : Word} {r : Int × ArmCore}
    (h : armStep p junk = some r) (hne : r.2.mem.data a ≠ p.mem.data a) :
    ∃ ins, Executes p ins ∧
      ∃ start n, Stores p.fetched ins start n ∧ InWindow start n a := by
  obtain ⟨s, hexec, hresult⟩ := Option.map_eq_some_iff.mp h
  have hmem : r.2.mem = s.2.mem := by
    rw [← hresult]
    split_ifs
    · exact armException_mem _ _ _
    · rfl
  rw [hmem] at hne
  rcases armExecuteInstruction_cases hexec with
    ⟨-, rfl⟩ | ⟨ins, hfetch, ⟨-, rfl⟩ | ⟨hpassed, hdispatch⟩⟩
  · exact absurd rfl hne
  · exact absurd rfl hne
  · exact ⟨ins, ⟨hfetch, hpassed⟩, dispatch_changed hdispatch hne⟩

/-- `STR r0, [r1]` at address 0 overwrites itself. -/
theorem memory_changed_by_store_str :
    ∃ ins, Executes (ArmCore.load 0x1d3 [0xE5810000]) ins ∧
      ∃ start n, Stores (ArmCore.load 0x1d3 [0xE5810000]).fetched ins start n ∧
        InWindow start n 0 := by
  have hresult : (armStep (ArmCore.load 0x1d3 [0xE5810000]) 0).map (fun r => r.2.mem.data 0) =
      some 0 := by decide
  obtain ⟨r, hstep, hr⟩ := Option.map_eq_some_iff.mp hresult
  refine memory_changed_by_store hstep ?_
  rw [hr]
  decide

end ArmSimulator
