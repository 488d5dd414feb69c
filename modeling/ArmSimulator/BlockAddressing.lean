import ArmSimulator.BlockTransfer
import ArmSimulator.StoreFrame

/-!
# The addresses of multiple transfers

The four modes of LDM and STM, as the instruction set has them: where the block begins
(`firstWord`), which word of it belongs to which register (`wordAddress`), and what becomes of the
base (`baseAfter`).  The lowest register of the list takes the lowest word in every mode; only the
place of the block differs.

These definitions speak of a word and a state, as the code does, but of no step of it.  The first
lemmas connect them: `start_end_adresse` gives `firstWord` and, but for one mode, `baseAfter`
(`startAdr_eq`, `core_eq`).  The mode that is different is increment after with write-back
(`RaisesNumber`), where the C function raises the number of the base.

The last section is about the one statement of the C function that looks at the end of the block,
the `assert` behind a load of `R15`.  In the increment-after mode the end is computed from the
number of the base too, with write-back or without, and so the assertion fails for nearly every
state: `ldm_assert_iff` is the exact condition.

Where a register has its word in the block is counted by the listed registers before it
(`countListed`); `stmLoop_stored` is the lemma about the loop that the results on multiple transfers
share.
-/

namespace ArmSimulator

open ByteOrder

/-! ## Words in memory

Reads and writes of words that lie inside memory, and the loop of STM as a sequence of such writes.
-/

section Words

/-- A word is read from its four bytes and from the size of the memory. -/
theorem memoryReadWord_congr {mem mem' : Memory} {address : Word} {be : Byte}
    (hcapacity : mem'.capacity = mem.capacity)
    (hdata : ∀ k < 4, mem'.data (address + BitVec.ofNat 32 k) =
      mem.data (address + BitVec.ofNat 32 k)) :
    memoryReadWord mem' address be = memoryReadWord mem address be := by
  have hbytes : mem'.bytesAt address 4 = mem.bytesAt address 4 :=
    List.map_congr_left fun k hk => hdata k (List.mem_range.mp hk)
  rw [memoryReadWord_eq, memoryReadWord_eq, hcapacity, hbytes]

/-- A word inside memory is read. -/
theorem armReadWord_isSome {p : ArmCore} {address : Word}
    (h : address.toNat + 4 ≤ p.mem.capacity.toNat) :
    ∃ value, armReadWord p address = some value := by
  refine Option.isSome_iff_exists.mp (memoryReadWord_isSome.mpr ?_)
  exact (guard_word p.mem address (by omega)).mpr h

/-- A word inside memory is written, and read back. -/
theorem armWriteWord_spec {p : ArmCore} {address : Word} (value : Word)
    (h : address.toNat + 4 ≤ p.mem.capacity.toNat) :
    ∃ mem, armWriteWord p address value = (0, { p with mem := mem }) ∧
      memoryReadWord mem address ENDIANESS = some value := by
  have hguard := (guard_word p.mem address (by omega)).mpr h
  have hwrite := memoryWriteWord_eq p.mem address ENDIANESS value
  rw [if_neg hguard] at hwrite
  refine ⟨_, ?_, memoryReadWord_memoryWriteWord p.mem address ENDIANESS hwrite⟩
  rw [armWriteWord, hwrite]
  rfl

/-- A store does not change the size. -/
theorem armWriteWord_capacity (p : ArmCore) (address value : Word) :
    (armWriteWord p address value).2.mem.capacity = p.mem.capacity := by
  rw [armWriteWord, memoryWriteWord_eq]
  split_ifs
  · rfl
  · exact Memory.storeBytes_capacity ..

/-- Neither do all the stores of the loop. -/
theorem stmLoop_capacity (regList : Word) :
    ∀ (is : List ℕ) (p : ArmCore) (address : Word),
      (stmLoop regList is p address).mem.capacity = p.mem.capacity :=
  @stmLoop_rel (fun p q => q.mem.capacity = p.mem.capacity) (fun _ => rfl)
    (fun _ _ _ hpq hqr => hqr.trans hpq) armWriteWord_capacity regList

/-- **A stored register** is in the word at its place, counted by the listed registers before
it; the words after it do not come round to it. -/
theorem stmLoop_stored {regList : Word} {pre post : List ℕ} {i : ℕ} {p : ArmCore}
    {address : Word} (hbit : getBit regList i = 1)
    (hroom : (address + BitVec.ofNat 32 (4 * countListed regList pre)).toNat + 4 ≤
      p.mem.capacity.toNat)
    (hpost : 4 * countListed regList post + 4 ≤ 2 ^ 32) :
    armReadWord (stmLoop regList (pre ++ i :: post) p address)
        (address + BitVec.ofNat 32 (4 * countListed regList pre)) =
      some (armReadRegister p (BitVec.ofNat 8 i)) := by
  rw [stmLoop_append, stmLoop, if_pos hbit]
  have hreg := stmLoop_reg regList pre p address
  have hcapacity := stmLoop_capacity regList pre p address
  generalize stmLoop regList pre p address = u at hreg hcapacity
  generalize address + BitVec.ofNat 32 (4 * countListed regList pre) = place at hroom
  have hvalue : armReadRegister u (BitVec.ofNat 8 i) = armReadRegister p (BitVec.ofNat 8 i) := by
    rw [armReadRegister_eq, armReadRegister_eq, hreg]
  rw [← hcapacity] at hroom
  obtain ⟨mem, hwrite, hread⟩ := armWriteWord_spec (armReadRegister p (BitVec.ofNat 8 i)) hroom
  rw [hvalue]
  dsimp only
  rw [hwrite, armReadWord, ← hread]
  refine memoryReadWord_congr (stmLoop_capacity ..) fun k hk => ?_
  -- a changed byte would lie in the window after this word
  by_contra hchanged
  obtain ⟨j, hj, hplace⟩ := stmLoop_changed regList _ post _ _ hchanged
  have hfour : (4 : Word) = BitVec.ofNat 32 4 := rfl
  rw [hfour, BitVec.add_assoc, ← BitVec.ofNat_add] at hplace
  have hsame := congrArg BitVec.toNat ((BitVec.add_right_inj place).mp hplace)
  rw [BitVec.toNat_ofNat, BitVec.toNat_ofNat] at hsame
  omega

end Words

/-! ## The four modes -/

/-- The value of the base register. -/
def baseValue (p : ArmCore) (ins : Word) : Word := armReadRegister p (u8 (getBits ins 19 16))

/-- The register `i` is in the list. -/
def Listed (ins : Word) (i : ℕ) : Prop := getBit (getBits ins 15 0) i = 1

instance decidableListed (ins : Word) (i : ℕ) : Decidable (Listed ins i) :=
  inferInstanceAs (Decidable (_ = _))

/-- The number of registers in the list. -/
def blockWords (ins : Word) : ℕ := countSetBits (getBits ins 15 0)

/-- The number of bytes of the block. -/
def blockSize (ins : Word) : Word := BitVec.ofNat 32 (4 * blockWords ins)

/-- The address of the first word: `Rn` (IA), `Rn + 4` (IB), `Rn - 4n + 4` (DA), `Rn - 4n` (DB), for
a list of `n` registers. -/
def firstWord (p : ArmCore) (ins : Word) : Word :=
  if getBit ins 23 = 1 then
    if getBit ins 24 = 1 then baseValue p ins + 4 else baseValue p ins
  else
    if getBit ins 24 = 1 then baseValue p ins - blockSize ins
    else baseValue p ins - blockSize ins + 4

/-- The address of the word of register `i`: the listed registers take the words in ascending
order. -/
def wordAddress (p : ArmCore) (ins : Word) (i : ℕ) : Word :=
  firstWord p ins + BitVec.ofNat 32 (4 * countListed (getBits ins 15 0) (List.range i))

/-- The base afterwards: moved by the size of the block, up or down, if it is written back. -/
def baseAfter (p : ArmCore) (ins : Word) : Word :=
  if getBit ins 21 = 1 then
    if getBit ins 23 = 1 then baseValue p ins + blockSize ins else baseValue p ins - blockSize ins
  else baseValue p ins

/-- Increment after, with write-back: the mode that raises the number of the base.  It is the mode
of a pop. -/
def RaisesNumber (ins : Word) : Prop :=
  getBit ins 24 = 0 ∧ getBit ins 23 = 1 ∧ getBit ins 21 = 1

instance decidableRaisesNumber (ins : Word) : Decidable (RaisesNumber ins) :=
  inferInstanceAs (Decidable (_ ∧ _))

/-- `start_end_adresse` for an instruction. -/
def blockAddresses (p : ArmCore) (ins : Word) : BlockAddresses :=
  startEndAdresse p (getBit ins 24) (getBit ins 23) (getBits ins 19 16) (getBits ins 15 0)
    (getBit ins 21)

section Addresses

variable (p : ArmCore) (ins : Word)

/-- The number of listed registers, as counted by the source, gives the size of the block. -/
theorem blockSize_eq : BitVec.ofNat 32 (countSetBits (getBits ins 15 0) * 4) = blockSize ins := by
  rw [blockSize, blockWords, Nat.mul_comm]

/-- The address that the source starts with is the first word of the block. -/
theorem startAdr_eq : (blockAddresses p ins).startAdr = firstWord p ins := by
  rw [blockAddresses, startEndAdresse, firstWord, blockSize_eq, baseValue]
  rcases getBit_cases ins 24 with hp | hp <;> rcases getBit_cases ins 23 with hu | hu <;>
    rw [hp, hu] <;> rfl

/-- The end that an LDM with `R15` checks: in the first mode it is computed from the number of
the base. -/
theorem endAdr_eq : (blockAddresses p ins).endAdr =
    (if getBit ins 24 = 0 ∧ getBit ins 23 = 1 then getBits ins 19 16 else firstWord p ins) +
      blockSize ins - 4 := by
  rw [blockAddresses, startEndAdresse, firstWord, blockSize_eq, ← baseValue]
  generalize baseValue p ins = rn
  generalize blockSize ins = bytes
  rcases getBit_cases ins 24 with hp | hp <;> rcases getBit_cases ins 23 with hu | hu <;>
    rw [hp, hu]
  · show rn = rn - bytes + 4 + bytes - 4
    bv_omega
  · rfl
  · show rn - 4 = rn - bytes + bytes - 4
    bv_omega
  · show rn + bytes = rn + 4 + bytes - 4
    bv_omega

/-- The base is written, but for the one mode. -/
theorem core_eq (h : ¬ RaisesNumber ins) : (blockAddresses p ins).core =
    armWriteRegister p (u8 (getBits ins 19 16)) (baseAfter p ins) := by
  rw [RaisesNumber] at h
  rw [blockAddresses, startEndAdresse, baseAfter, blockSize_eq, ← baseValue]
  rcases getBit_cases ins 24 with hp | hp <;> rcases getBit_cases ins 23 with hu | hu <;>
    rcases getBit_cases ins 21 with hw | hw <;> rw [hp, hu, hw] at h ⊢ <;>
    first
      | rfl
      | exact absurd ⟨rfl, rfl, rfl⟩ h

end Addresses

/-! ## The number of words

The list as a set of numbers below 16, and the count of the registers before one of them, at it and
after it. -/

section Counts

variable {ins : Word} {i : ℕ}

theorem Listed.bit (h : Listed ins i) : getBit (getBits ins 15 0) i = 1 := h

/-- A list has sixteen registers. -/
theorem Listed.lt (h : Listed ins i) : i < 16 := by
  by_contra hi
  rw [Listed, getBit_eq_one, getBits_eq_field, BitField.getLsbD_field] at h
  simp only [Bool.and_eq_true, decide_eq_true_eq] at h
  omega

/-- The two ways to count the listed registers. -/
theorem blockWords_eq (ins : Word) :
    blockWords ins = countListed (getBits ins 15 0) (List.range 16) := by
  have hsplit : List.range 32 = List.range 16 ++ (List.range 16).map (16 + ·) := rfl
  have hrest : countListed (getBits ins 15 0) ((List.range 16).map (16 + ·)) = 0 := by
    refine List.countP_eq_zero.mpr fun j hj => ?_
    obtain ⟨k, -, rfl⟩ := List.mem_map.mp hj
    rw [decide_eq_true_eq]
    exact fun hbit => absurd (@Listed.lt ins _ hbit) (by omega)
  rw [blockWords, countSetBits_eq_countListed, hsplit, countListed_append, hrest, Nat.add_zero]

/-- A listed register, those before it and those after it. -/
theorem blockWords_split {post : List ℕ} (h : Listed ins i)
    (hsplit : List.range 16 = List.range i ++ i :: post) :
    blockWords ins = countListed (getBits ins 15 0) (List.range i) +
      countListed (getBits ins 15 0) post + 1 := by
  rw [blockWords_eq, hsplit, countListed_append, countListed_cons, if_pos h.bit, Nat.add_assoc]

/-- There are no more than sixteen. -/
theorem blockWords_le (ins : Word) : blockWords ins ≤ 16 := by
  rw [blockWords_eq]
  exact List.countP_le_length.trans (List.length_range).le

/-- The word of a listed register lies in the block. -/
theorem countListed_lt (h : Listed ins i) :
    countListed (getBits ins 15 0) (List.range i) < blockWords ins := by
  obtain ⟨post, hsplit, -⟩ := range_split h.lt
  rw [blockWords_split h hsplit]
  omega

/-- With `R15` in the list its word is the last. -/
theorem blockWords_pc (h : Listed ins 15) :
    blockWords ins = countListed (getBits ins 15 0) (List.range 15) + 1 := by
  rw [blockWords_eq, countListed_range_succ, if_pos h.bit]

end Counts

/-! ## The instructions

A multiple transfer as its loop, from the state and the address that `start_end_adresse` leaves. -/

/-- The loop of an LDM, before `R15`. -/
def loadedBlock (p : ArmCore) (ins junk : Word) : LdmState :=
  ldmLoop (getBits ins 15 0) (List.range 15) ⟨(blockAddresses p ins).core, firstWord p ins, junk⟩

section Instructions

variable {p : ArmCore} {ins junk : Word}

/-- A store always gets through, and its loop ends before the program counter. -/
theorem armLoadStoreMultiple_store (h : getBit ins 20 = 0) :
    armLoadStoreMultiple p ins junk = some (0, stmLoop (getBits ins 15 0) (List.range 15)
      (blockAddresses p ins).core (firstWord p ins)) := by
  rw [armLoadStoreMultiple, if_pos h, ← startAdr_eq]
  rfl

/-- A load without the program counter meets no assertion. -/
theorem armLoadStoreMultiple_load (h : getBit ins 20 = 1) (hpc : ¬ Listed ins 15) :
    armLoadStoreMultiple p ins junk = some (0, (loadedBlock p ins junk).core) := by
  have hload : ¬ getBit ins 20 = 0 := by
    rw [h]
    decide
  have hbit : ¬ getBit (getBits ins 15 0) 15 = 1 := hpc
  rw [armLoadStoreMultiple, if_neg hload, if_neg hbit, loadedBlock, ← startAdr_eq]
  rfl

/-- After the loop of an LDM with `R15` the address is that of the last word. -/
theorem loadedBlock_address (hpc : Listed ins 15) :
    (loadedBlock p ins junk).address = firstWord p ins + blockSize ins - 4 := by
  have hsize : blockSize ins =
      BitVec.ofNat 32 (4 * countListed (getBits ins 15 0) (List.range 15)) + 4 := by
    rw [blockSize, blockWords_pc hpc, Nat.mul_add, BitVec.ofNat_add]
    rfl
  rw [loadedBlock, ldmLoop_address, hsize, ← BitVec.add_assoc, BitVec.add_sub_cancel]

/-- An LDM with `R15` ends in the assertion. -/
theorem armLoadStoreMultiple_load_pc (h : getBit ins 20 = 1) (hpc : Listed ins 15) :
    armLoadStoreMultiple p ins junk =
      if (blockAddresses p ins).endAdr = firstWord p ins + blockSize ins - 4 then
        some (0, ((loadedBlock p ins junk).transfer 0xFFFFFFFE 15).core)
      else none := by
  have hload : ¬ getBit ins 20 = 0 := by
    rw [h]
    decide
  have haddress : ((loadedBlock p ins junk).transfer 0xFFFFFFFE 15).address - 4 =
      firstWord p ins + blockSize ins - 4 := by
    rw [← @loadedBlock_address p ins junk hpc]
    exact BitVec.add_sub_cancel ..
  rw [← haddress, loadedBlock, ← startAdr_eq, armLoadStoreMultiple, if_neg hload,
    if_pos hpc.bit]
  rfl

/-- The assertion, as a condition on the mode and the base. -/
theorem endAdr_eq_iff (p : ArmCore) (ins : Word) :
    (blockAddresses p ins).endAdr = firstWord p ins + blockSize ins - 4 ↔
      ¬ (getBit ins 24 = 0 ∧ getBit ins 23 = 1) ∨ baseValue p ins = getBits ins 19 16 := by
  rw [endAdr_eq]
  by_cases hmode : getBit ins 24 = 0 ∧ getBit ins 23 = 1
  · have hfirst : firstWord p ins = baseValue p ins := by
      rw [firstWord, hmode.1, hmode.2]
      rfl
    rw [if_pos hmode, hfirst, or_iff_right (not_not.mpr hmode)]
    constructor
    · intro h
      bv_omega
    · intro h
      rw [h]
  · rw [if_neg hmode]
    exact iff_of_true rfl (Or.inl hmode)

/-- **When the assertion of LDM holds**: for every state and every LDM with `R15` in its list,
the end address is the last address of the loop unless the mode is increment after; there the
base must contain its own number. -/
theorem ldm_assert_iff (p : ArmCore) {ins junk : Word} (hload : getBit ins 20 = 1)
    (hpc : Listed ins 15) :
    (armLoadStoreMultiple p ins junk).isSome = true ↔
      ¬ (getBit ins 24 = 0 ∧ getBit ins 23 = 1) ∨ baseValue p ins = getBits ins 19 16 := by
  rw [armLoadStoreMultiple_load_pc hload hpc, ← endAdr_eq_iff]
  split_ifs with hend
  · exact iff_of_true rfl hend
  · exact iff_of_false Bool.false_ne_true hend

/-- `LDMDB r1, {r15}`. -/
theorem ldm_assert_iff_db :
    (armLoadStoreMultiple (ArmCore.load 0x1d3 []) 0xE9118000 0).isSome = true ↔
      ¬ (getBit 0xE9118000 24 = 0 ∧ getBit 0xE9118000 23 = 1) ∨
        baseValue (ArmCore.load 0x1d3 []) 0xE9118000 = getBits 0xE9118000 19 16 :=
  ldm_assert_iff (ArmCore.load 0x1d3 []) (by decide) (by decide)

/-- `LDMIA r1, {r15}` with `R1` zero ends the process. -/
theorem ldm_assert_counterexample :
    ¬ ∀ (p : ArmCore) (ins junk : Word), (getBits ins 27 25).toNat = 4 → getBit ins 20 = 1 →
      Listed ins 15 → (armLoadStoreMultiple p ins junk).isSome = true := by
  intro h
  have hfails := h (ArmCore.load 0x1d3 []) 0xE8918000 0 (by decide) (by decide) (by decide)
  exact absurd hfails (by decide)

end Instructions

end ArmSimulator
