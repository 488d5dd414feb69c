import ArmSimulator.BlockAddressing

/-!
# Multiple transfers, carried out

What LDM and STM do in memory, against what the instruction set wants of them (`BlockTransferred`).
The store loop ends before `R15`, and one of the four modes raises the number of the base; the other
transfers are carried out (`blockTransferred_iff`).

`BlockTransferred` is stated by what is *read* afterwards: the words of a store through
`arm_read_word`, the registers of a load and the base through `arm_read_register`, everything else
slot by slot.  So a transfer that names a register which the mode does not have is no right
transfer, although the code does nothing to it: a write to such a register is lost.  `CarriedOut`
has that as a condition, next to the mode and the two about `R15`.

One direction of the equivalence is that the transfers of `CarriedOut` are right, in three steps:
the block (`InMemory`), a word of it (`InMemory.stored`, `InMemory.loaded`), and the whole
(`blockTransferred_store`, `blockTransferred_load`).  The other direction is one lemma for each
condition, which shows what is read when it fails: the base that has not been moved
(`InMemory.not_transferred`), the register that is not there (`BlockTransferred.registers`,
`BlockTransferred.writtenBack`), the word of `R15`.
-/

namespace ArmSimulator

/-! ## The transfers

What the two loops leave in a block that lies in memory, register by register. -/

/-- A multiple transfer in memory: the base is not `R15`, nor in the list if it is written back, and
the block, if it has any words, lies in memory without wrapping round.  These are the transfers that
the instruction set defines. -/
structure InMemory (p : ArmCore) (ins : Word) : Prop where
  base : getBits ins 19 16 ≠ 15
  writeBack : getBit ins 21 = 1 → ¬ Listed ins (getBits ins 19 16).toNat
  block : 0 < blockWords ins →
    (firstWord p ins).toNat + 4 * blockWords ins ≤ p.mem.capacity.toNat ∧
      (firstWord p ins).toNat + 4 * blockWords ins ≤ 2 ^ 32

section Transfers

variable {p : ArmCore} {ins junk : Word} {i : ℕ}

/-- The field of the base register is a register number. -/
theorem toNat_baseNumber (ins : Word) :
    (u8 (getBits ins 19 16)).toNat = (getBits ins 19 16).toNat ∧
      (getBits ins 19 16).toNat < 16 := by
  have hlt : (getBits ins 19 16).toNat < 16 := toNat_registerField ins 16
  exact ⟨toNat_u8 (by omega), hlt⟩

/-- The program counter is no base. -/
theorem InMemory.base_ne (h : InMemory p ins) : u8 (getBits ins 19 16) ≠ 15 := by
  intro heq
  have hval := (toNat_baseNumber ins).1
  rw [heq] at hval
  exact h.base (BitVec.eq_of_toNat_eq hval.symm)

/-- The number of a listed register is its place in the list. -/
theorem toNat_listed (h : Listed ins i) : (BitVec.ofNat 8 i).toNat = i := by
  have hlt := h.lt
  rw [BitVec.toNat_ofNat]
  omega

/-- The block of a register that is listed lies in memory. -/
theorem InMemory.block_of_listed (h : InMemory p ins) (hi : Listed ins i) :
    (firstWord p ins).toNat + 4 * blockWords ins ≤ p.mem.capacity.toNat ∧
      (firstWord p ins).toNat + 4 * blockWords ins ≤ 2 ^ 32 :=
  h.block (Nat.zero_lt_of_lt (countListed_lt hi))

/-- Where the word of a listed register lies. -/
theorem InMemory.toNat_wordAddress (h : InMemory p ins) (hi : Listed ins i) :
    (wordAddress p ins i).toNat =
      (firstWord p ins).toNat + 4 * countListed (getBits ins 15 0) (List.range i) := by
  have hlt := countListed_lt hi
  have hblock := h.block_of_listed hi
  rw [wordAddress, BitVec.toNat_add, BitVec.toNat_ofNat]
  omega

/-- Every word of a block that is in the memory is in it whole. -/
theorem InMemory.word_le (h : InMemory p ins) (hi : Listed ins i) :
    (wordAddress p ins i).toNat + 4 ≤ p.mem.capacity.toNat := by
  have hlt := countListed_lt hi
  have hblock := h.block_of_listed hi
  rw [h.toNat_wordAddress hi]
  omega

/-- So every access of the block succeeds. -/
theorem InMemory.read (h : InMemory p ins) (hi : Listed ins i) :
    ∃ value, armReadWord p (wordAddress p ins i) = some value :=
  armReadWord_isSome (h.word_le hi)

/-- The registers of the list read as before when the base has been written. -/
theorem InMemory.core_read (h : InMemory p ins) (hmode : ¬ RaisesNumber ins)
    (hi : Listed ins i) : armReadRegister (blockAddresses p ins).core (BitVec.ofNat 8 i) =
      armReadRegister p (BitVec.ofNat 8 i) := by
  rw [core_eq p ins hmode]
  rcases getBit_cases ins 21 with hw | hw
  · have hsame : baseAfter p ins = armReadRegister p (u8 (getBits ins 19 16)) := by
      rw [baseAfter, hw]
      rfl
    rw [hsame, armWriteRegister_self p h.base_ne]
  · refine armReadRegister_write_of_ne p _ fun heq => h.writeBack hw ?_
    -- the base would be in the list
    rw [← (toNat_baseNumber ins).1, ← heq, toNat_listed hi]
    exact hi

/-- Finding the addresses touches no memory. -/
theorem core_mem (p : ArmCore) (ins : Word) : (blockAddresses p ins).core.mem = p.mem :=
  startEndAdresse_mem ..

/-- **Stored registers** are found at their places. -/
theorem InMemory.stored (h : InMemory p ins) (hmode : ¬ RaisesNumber ins) (hi : Listed ins i)
    (hpc : i < 15) :
    armReadWord (stmLoop (getBits ins 15 0) (List.range 15) (blockAddresses p ins).core
        (firstWord p ins)) (wordAddress p ins i) =
      some (armReadRegister p (BitVec.ofNat 8 i)) := by
  obtain ⟨post, hsplit, -⟩ := range_split hpc
  have hcount := blockWords_le ins
  have hbefore : countListed (getBits ins 15 0) (List.range 15) ≤ blockWords ins := by
    rw [blockWords_eq, countListed_range_succ (getBits ins 15 0) 15]
    exact Nat.le_add_right _ _
  rw [hsplit, countListed_append, countListed_cons] at hbefore
  rw [← h.core_read hmode hi, hsplit]
  refine stmLoop_stored hi ?_ (by omega)
  rw [core_mem]
  exact h.word_le hi

/-- The word of `R15` lies behind those that are stored. -/
theorem InMemory.read_last (h : InMemory p ins) (hpc : Listed ins 15) :
    armReadWord (stmLoop (getBits ins 15 0) (List.range 15) (blockAddresses p ins).core
        (firstWord p ins)) (wordAddress p ins 15) = armReadWord p (wordAddress p ins 15) := by
  have hwords := blockWords_pc hpc
  have hblock := h.block_of_listed hpc
  have hcapacity : (stmLoop (getBits ins 15 0) (List.range 15) (blockAddresses p ins).core
      (firstWord p ins)).mem.capacity = p.mem.capacity := by
    rw [stmLoop_capacity, core_mem]
  refine memoryReadWord_congr hcapacity fun k hk => ?_
  by_contra hchanged
  rw [← core_mem p ins] at hchanged
  obtain ⟨j, hj, hplace⟩ := stmLoop_changed _ _ _ _ _ hchanged
  rw [wordAddress, BitVec.add_assoc, ← BitVec.ofNat_add] at hplace
  have hsame := congrArg BitVec.toNat ((BitVec.add_right_inj (firstWord p ins)).mp hplace)
  rw [BitVec.toNat_ofNat, BitVec.toNat_ofNat] at hsame
  omega

/-- Two listed registers have different slots. -/
theorem slot_listed_ne {j : ℕ} {mode : Byte} {t : Slot} (hi : Listed ins i) (hj : Listed ins j)
    (hne : j ≠ i) (hslot : slot (BitVec.ofNat 8 i) mode = some t) :
    slot (BitVec.ofNat 8 j) mode ≠ some t := by
  refine slot_ne_of_ne (fun heq => hne ?_) hslot
  rw [← toNat_listed hj, heq, toNat_listed hi]

/-- Nor the mode. -/
theorem core_currentMode (p : ArmCore) (ins : Word) :
    (blockAddresses p ins).core.reg.currentMode = p.reg.currentMode := by
  rw [blockAddresses, startEndAdresse]
  dsimp only
  split_ifs <;> exact armWriteRegister_currentMode ..

/-- **Loaded registers** hold the words at their places. -/
theorem InMemory.loaded (h : InMemory p ins) (hi : Listed ins i) (hpc : i < 15) {t : Slot}
    (hslot : slot (BitVec.ofNat 8 i) p.reg.currentMode = some t) :
    armReadWord p (wordAddress p ins i) = some ((loadedBlock p ins junk).core.reg.get t) := by
  obtain ⟨post, hsplit, hpost⟩ := range_split hpc
  obtain ⟨value, hread⟩ := h.read hi
  rw [hread, loadedBlock, hsplit]
  refine (congrArg some (ldmLoop_loaded hi ?_ ?_ ?_)).symm
  · rwa [core_currentMode p ins]
  · intro j hj hbit
    rw [core_currentMode p ins]
    exact slot_listed_ne hi hbit (hpost j hj).1.ne' hslot
  · rw [armReadWord, core_mem]
    exact hread

/-- The registers that are not loaded. -/
theorem loadedBlock_kept {t : Slot}
    (ht : ∀ i < 15, Listed ins i → slot (BitVec.ofNat 8 i) p.reg.currentMode ≠ some t) :
    (loadedBlock p ins junk).core.reg.get t = (blockAddresses p ins).core.reg.get t := by
  refine (ldmLoop_frame (getBits ins 15 0) t (List.range 15) _ fun j hj hbit => ?_).2
  rw [core_currentMode p ins]
  exact ht j (List.mem_range.mp hj) hbit

/-- The loop of a load writes registers only. -/
theorem loadedBlock_mem (p : ArmCore) (ins junk : Word) :
    (loadedBlock p ins junk).core.mem = p.mem :=
  (ldmLoop_mem ..).trans (core_mem p ins)

/-- It leaves the status registers and the mode alone, unless the write back raised the number of
the base register. -/
theorem loadedBlock_status (hmode : ¬ RaisesNumber ins) :
    (loadedBlock p ins junk).core.reg.cpsr = p.reg.cpsr ∧
      (loadedBlock p ins junk).core.reg.spsr = p.reg.spsr ∧
      (loadedBlock p ins junk).core.reg.currentMode = p.reg.currentMode := by
  have hloop := ldmLoop_status (getBits ins 15 0) (List.range 15)
    ⟨(blockAddresses p ins).core, firstWord p ins, junk⟩
  rw [core_eq p ins hmode, armWriteRegister_cpsr, armWriteRegister_spsr,
    armWriteRegister_currentMode] at hloop
  rw [loadedBlock, core_eq p ins hmode]
  exact hloop

/-- The last word of a load goes to the program counter, bit 0 cleared. -/
theorem InMemory.loaded_pc (h : InMemory p ins) (hpc : Listed ins 15) :
    (armReadWord p (wordAddress p ins 15)).map (· &&& 0xFFFFFFFE) =
      some (((loadedBlock p ins junk).transfer 0xFFFFFFFE 15).core.reg.get .pc) := by
  obtain ⟨value, hread⟩ := h.read hpc
  have hplace : (loadedBlock p ins junk).address = wordAddress p ins 15 :=
    ldmLoop_address (getBits ins 15 0) (List.range 15) _
  have hvalue : armReadWord (loadedBlock p ins junk).core (loadedBlock p ins junk).address =
      some value := by
    rw [hplace, armReadWord, loadedBlock_mem]
    exact hread
  have hget : ((loadedBlock p ins junk).transfer 0xFFFFFFFE 15).core.reg.get .pc =
      value &&& 0xFFFFFFFE := by
    refine (get_armWriteRegister ..).trans ?_
    rw [slot_pc, if_pos rfl, hvalue]
    rfl
  rw [hread, hget]
  rfl

/-- The load of the program counter writes no other register. -/
theorem transfer_pc_get (s : LdmState) {t : Slot} (ht : t ≠ .pc) :
    (s.transfer 0xFFFFFFFE 15).core.reg.get t = s.core.reg.get t := by
  refine (get_armWriteRegister ..).trans (if_neg ?_)
  rw [slot_pc]
  exact fun heq => ht (Option.some.inj heq).symm

end Transfers

/-! ## What a multiple transfer should do

The specification, the condition, and that the condition is enough. -/

/-- The state after an LDM, if the assertion lets it get there. -/
def loadedCore (p : ArmCore) (ins junk : Word) : ArmCore :=
  if Listed ins 15 then ((loadedBlock p ins junk).transfer 0xFFFFFFFE 15).core
  else (loadedBlock p ins junk).core

/-- The state `q` is that after the multiple transfer `ins` in the state `p`: every listed
register is in its word, or reads as its word afterwards; the base reads as the mode wants it; and
every other register is as it was.  A base that is loaded holds what was loaded. -/
structure BlockTransferred (p : ArmCore) (ins : Word) (q : ArmCore) : Prop where
  stored : getBit ins 20 = 0 → ∀ i, Listed ins i →
    armReadWord q (wordAddress p ins i) = some (armReadRegister p (BitVec.ofNat 8 i))
  loaded : getBit ins 20 = 1 → ∀ i < 15, Listed ins i →
    armReadWord p (wordAddress p ins i) = some (armReadRegister q (BitVec.ofNat 8 i))
  loadedPc : getBit ins 20 = 1 → Listed ins 15 →
    (armReadWord p (wordAddress p ins 15)).map (· &&& 0xFFFFFFFE) = some (q.reg.get .pc)
  base : (getBit ins 20 = 1 → ¬ Listed ins (getBits ins 19 16).toNat) →
    armReadRegister q (u8 (getBits ins 19 16)) = baseAfter p ins
  others : ∀ t, slot (u8 (getBits ins 19 16)) p.reg.currentMode ≠ some t →
    (getBit ins 20 = 1 → ∀ i, Listed ins i →
      slot (BitVec.ofNat 8 i) p.reg.currentMode ≠ some t) → q.reg.get t = p.reg.get t
  cpsr : q.reg.cpsr = p.reg.cpsr
  spsr : q.reg.spsr = p.reg.spsr
  mode : q.reg.currentMode = p.reg.currentMode

/-- The multiple transfers that the code carries out: not those of the mode that raises the
number of the base; with `R15` in the list, a store whose last word is that of `R15` already, or
a load that passes the assertion.  The registers that are loaded or written back are registers of
the mode, unless a word that is loaded is what a missing register reads as anyway. -/
structure CarriedOut (p : ArmCore) (ins : Word) : Prop where
  mode : ¬ RaisesNumber ins
  registers : getBit ins 20 = 1 → ∀ i < 15, Listed ins i →
    HasRegister p (BitVec.ofNat 8 i) ∨ armReadWord p (wordAddress p ins i) = some UINT32_MAX
  writtenBack : getBit ins 21 = 1 → HasRegister p (u8 (getBits ins 19 16))
  storePc : Listed ins 15 → getBit ins 20 = 0 →
    armReadWord p (wordAddress p ins 15) = some (armReadRegister p 15)
  loadPc : Listed ins 15 → getBit ins 20 = 1 →
    ¬ (getBit ins 24 = 0 ∧ getBit ins 23 = 1) ∨ baseValue p ins = getBits ins 19 16

section Outcomes

variable {p : ArmCore} {ins junk : Word}

/-- **A load gets through** where the assertion at its end holds; that is made only with the program
counter in the list. -/
theorem armLoadStoreMultiple_loaded (hload : getBit ins 20 = 1)
    (h : Listed ins 15 → (blockAddresses p ins).endAdr = firstWord p ins + blockSize ins - 4) :
    armLoadStoreMultiple p ins junk = some (0, loadedCore p ins junk) := by
  rw [loadedCore]
  split_ifs with hpc
  · rw [armLoadStoreMultiple_load_pc hload hpc, if_pos (h hpc)]
  · exact armLoadStoreMultiple_load hload hpc

/-- A load that returns `0` has ended with this processor, whatever its assertion. -/
theorem eq_loadedCore {q : ArmCore} (hload : getBit ins 20 = 1)
    (h : armLoadStoreMultiple p ins junk = some (0, q)) : q = loadedCore p ins junk := by
  by_cases hpc : Listed ins 15
  · rw [armLoadStoreMultiple_load_pc hload hpc] at h
    split_ifs at h
    cases h
    rw [loadedCore, if_pos hpc]
  · rw [armLoadStoreMultiple_load hload hpc] at h
    cases h
    rw [loadedCore, if_neg hpc]

/-- A slot that is not loaded is as `start_end_adresse` leaves it. -/
theorem loadedCore_kept {t : Slot}
    (ht : ∀ i, Listed ins i → slot (BitVec.ofNat 8 i) p.reg.currentMode ≠ some t) :
    (loadedCore p ins junk).reg.get t = (blockAddresses p ins).core.reg.get t := by
  have hkept : (loadedBlock p ins junk).core.reg.get t =
      (blockAddresses p ins).core.reg.get t := loadedBlock_kept fun i _ hi => ht i hi
  rw [loadedCore]
  split_ifs with hpc
  · have hne : t ≠ .pc := by
      rintro rfl
      exact ht 15 hpc (slot_pc _)
    exact (transfer_pc_get _ hne).trans hkept
  · exact hkept

/-- A listed register but `R15` is as the loop leaves it. -/
theorem loadedCore_listed {i : ℕ} (hi : i < 15) (hlisted : Listed ins i) {t : Slot}
    (hslot : slot (BitVec.ofNat 8 i) p.reg.currentMode = some t) :
    (loadedCore p ins junk).reg.get t = (loadedBlock p ins junk).core.reg.get t := by
  have hne : t ≠ .pc := by
    rintro rfl
    have hnumber := toNat_of_slot hslot
    rw [toNat_listed hlisted] at hnumber
    exact absurd hnumber hi.ne
  rw [loadedCore]
  split_ifs
  · exact transfer_pc_get _ hne
  · rfl

/-- A base that is not in the list is not loaded. -/
theorem base_kept {t : Slot} (hslot : slot (u8 (getBits ins 19 16)) p.reg.currentMode = some t)
    (hbase : ¬ Listed ins (getBits ins 19 16).toNat) :
    ∀ i, Listed ins i → slot (BitVec.ofNat 8 i) p.reg.currentMode ≠ some t := by
  intro i hi
  refine slot_ne_of_ne (fun heq => hbase ?_) hslot
  rw [← (toNat_baseNumber ins).1, ← heq, toNat_listed hi]
  exact hi

/-- Before the transfers only the base register has changed, if it was written back. -/
theorem core_get (hmode : ¬ RaisesNumber ins) (t : Slot) :
    (blockAddresses p ins).core.reg.get t =
      if slot (u8 (getBits ins 19 16)) p.reg.currentMode = some t then baseAfter p ins
      else p.reg.get t := by
  rw [core_eq p ins hmode, get_armWriteRegister]

/-- The same for the processor after the whole instruction. -/
theorem loadedCore_status (hmode : ¬ RaisesNumber ins) :
    (loadedCore p ins junk).reg.cpsr = p.reg.cpsr ∧ (loadedCore p ins junk).reg.spsr = p.reg.spsr ∧
      (loadedCore p ins junk).reg.currentMode = p.reg.currentMode := by
  have hblock := @loadedBlock_status p ins junk hmode
  rw [loadedCore]
  split_ifs
  · obtain ⟨hcpsr, hspsr, hcurrent⟩ :=
      (loadedBlock p ins junk).transfer_status 0xFFFFFFFE 15
    rw [hcpsr, hspsr, hcurrent]
    exact hblock
  · exact hblock

/-- A register that is loaded is not the program counter. -/
theorem listed_ne_pc {i : ℕ} (hi : i < 15) (hlisted : Listed ins i) : BitVec.ofNat 8 i ≠ 15 := by
  intro heq
  have hnumber := congrArg BitVec.toNat heq
  rw [toNat_listed hlisted] at hnumber
  exact absurd hnumber hi.ne

/-- **A listed register reads as its word**, if the mode has it. -/
theorem InMemory.read_loadedCore (h : InMemory p ins) (hmode : ¬ RaisesNumber ins) {i : ℕ}
    (hi : i < 15) (hlisted : Listed ins i) (hhas : HasRegister p (BitVec.ofNat 8 i)) :
    armReadWord p (wordAddress p ins i) =
      some (armReadRegister (loadedCore p ins junk) (BitVec.ofNat 8 i)) := by
  obtain ⟨t, hslot⟩ := Option.isSome_iff_exists.mp hhas
  have hcurrent := (@loadedCore_status p ins junk hmode).2.2
  rw [armReadRegister_of_slot (listed_ne_pc hi hlisted) (hcurrent ▸ hslot),
    loadedCore_listed hi hlisted hslot]
  exact h.loaded hlisted hi hslot

/-- What the base reads as in a state that `start_end_adresse` has left so. -/
theorem read_base (h : InMemory p ins) (hmode : ¬ RaisesNumber ins)
    (hwritten : getBit ins 21 = 1 → HasRegister p (u8 (getBits ins 19 16))) {q : ArmCore}
    (hcurrent : q.reg.currentMode = p.reg.currentMode)
    (hkept : ∀ t, slot (u8 (getBits ins 19 16)) p.reg.currentMode = some t →
      q.reg.get t = (blockAddresses p ins).core.reg.get t) :
    armReadRegister q (u8 (getBits ins 19 16)) = baseAfter p ins := by
  by_cases hhas : HasRegister p (u8 (getBits ins 19 16))
  · obtain ⟨t, hslot⟩ := Option.isSome_iff_exists.mp hhas
    rw [armReadRegister_of_slot h.base_ne (hcurrent ▸ hslot), hkept t hslot, core_get hmode,
      if_pos hslot]
  · -- a base that is missing is not written back
    have hsame : baseAfter p ins = baseValue p ins := if_neg fun hw => hhas (hwritten hw)
    rw [hsame]
    refine armReadRegister_congr_slot h.base_ne hcurrent fun t hslot => ?_
    exact absurd (Option.isSome_iff_exists.mpr ⟨t, hslot⟩) hhas

/-- **A load that passes the assertion** is carried out. -/
theorem InMemory.blockTransferred_load (h : InMemory p ins) (hcarried : CarriedOut p ins)
    (hload : getBit ins 20 = 1) : BlockTransferred p ins (loadedCore p ins junk) := by
  have hmode := hcarried.mode
  have hnostore : ¬ getBit ins 20 = 0 := by
    rw [hload]
    decide
  obtain ⟨hcpsr, hspsr, hcurrent⟩ := @loadedCore_status p ins junk hmode
  exact {
    stored := fun hstore => absurd hstore hnostore
    loaded := by
      intro _ i hi hlisted
      by_cases hhas : HasRegister p (BitVec.ofNat 8 i)
      · exact h.read_loadedCore hmode hi hlisted hhas
      · have hmissing : ¬ HasRegister (loadedCore p ins junk) (BitVec.ofNat 8 i) := by
          rwa [HasRegister, hcurrent]
        rw [armReadRegister_of_missing (listed_ne_pc hi hlisted) hmissing]
        exact (hcarried.registers hload i hi hlisted).resolve_left hhas
    loadedPc := by
      intro _ hpc
      rw [loadedCore, if_pos hpc]
      exact h.loaded_pc hpc
    base := fun hkeep => read_base h hmode hcarried.writtenBack hcurrent fun t hslot =>
      loadedCore_kept (base_kept hslot (hkeep hload))
    others := by
      intro t hslot hkeep
      rw [loadedCore_kept (hkeep hload), core_get hmode, if_neg hslot]
    cpsr := hcpsr
    spsr := hspsr
    mode := hcurrent }

/-- **A store** is carried out if the word of `R15` is there already. -/
theorem InMemory.blockTransferred_store (h : InMemory p ins) (hcarried : CarriedOut p ins)
    (hstore : getBit ins 20 = 0) :
    BlockTransferred p ins (stmLoop (getBits ins 15 0) (List.range 15)
      (blockAddresses p ins).core (firstWord p ins)) := by
  have hmode := hcarried.mode
  have hnoload : ¬ getBit ins 20 = 1 := by
    rw [hstore]
    decide
  have hreg := stmLoop_reg (getBits ins 15 0) (List.range 15) (blockAddresses p ins).core
    (firstWord p ins)
  exact {
    stored := by
      intro _ i hi
      have hlt := hi.lt
      rcases Nat.lt_or_eq_of_le (Nat.le_of_lt_succ hlt) with hlow | rfl
      · exact h.stored hmode hi hlow
      · rw [h.read_last hi, hcarried.storePc hi hstore]
        rfl
    loaded := fun hload => absurd hload hnoload
    loadedPc := fun hload => absurd hload hnoload
    base := fun _ => read_base h hmode hcarried.writtenBack
      (by rw [hreg, core_currentMode p ins]) fun t _ => by rw [hreg]
    others := fun t hslot _ => by rw [hreg, core_get hmode, if_neg hslot]
    cpsr := by rw [hreg, core_eq p ins hmode, armWriteRegister_cpsr]
    spsr := by rw [hreg, core_eq p ins hmode, armWriteRegister_spsr]
    mode := by rw [hreg, core_currentMode p ins] }

end Outcomes

/-! ## Which transfers are carried out

That the condition is needed: what is read when a part of it fails. -/

section Main

variable {p : ArmCore} {ins junk : Word}

/-- The mode that raises the number of the base leaves the base as it was. -/
theorem raisesNumber_core_get (h : RaisesNumber ins) {t : Slot}
    (hslot : slot (u8 (getBits ins 19 16)) p.reg.currentMode = some t)
    (hnonempty : getBits ins 15 0 ≠ 0) :
    (blockAddresses p ins).core.reg.get t = p.reg.get t := by
  obtain ⟨hp, hu, hw⟩ := h
  have hcore : (blockAddresses p ins).core = armWriteRegister p
      (u8 (getBits ins 19 16 + blockSize ins)) (baseValue p ins) := by
    rw [blockAddresses, hp, hu, hw, ← blockSize_eq]
    rfl
  rw [hcore, get_armWriteRegister, if_neg]
  -- the number that is written instead is higher by four to sixty-four
  have hpos : 0 < blockWords ins := countSetBits_pos hnonempty
  have hle := blockWords_le ins
  have hlt := (toNat_baseNumber ins).2
  refine slot_ne_of_ne (fun heq => ?_) hslot
  have hval := congrArg BitVec.toNat heq
  rw [(toNat_baseNumber ins).1, u8, BitVec.toNat_setWidth, BitVec.toNat_add, blockSize,
    BitVec.toNat_ofNat] at hval
  omega

/-- The base of a block that is not empty is moved when it is written back. -/
theorem baseAfter_ne (hw : getBit ins 21 = 1) (hnonempty : getBits ins 15 0 ≠ 0) :
    baseAfter p ins ≠ baseValue p ins := by
  intro heq
  have hpos : 0 < blockWords ins := countSetBits_pos hnonempty
  have hle := blockWords_le ins
  have hsize : (blockSize ins).toNat = 4 * blockWords ins := by
    rw [blockSize, BitVec.toNat_ofNat]
    omega
  rw [baseAfter, if_pos hw] at heq
  -- the base would be its own sum with the size of the block, or its difference
  split_ifs at heq <;> bv_omega

/-- The mode that raises the number of the base is never carried out. -/
theorem InMemory.not_transferred (h : InMemory p ins) (hraises : RaisesNumber ins)
    (hnonempty : getBits ins 15 0 ≠ 0) {q : ArmCore}
    (hexec : armLoadStoreMultiple p ins junk = some (0, q)) : ¬ BlockTransferred p ins q := by
  intro hq
  have hbase := h.writeBack hraises.2.2
  have hkept : armReadRegister q (u8 (getBits ins 19 16)) = baseValue p ins := by
    refine armReadRegister_congr_slot h.base_ne hq.mode fun t hslot => ?_
    rw [← raisesNumber_core_get hraises hslot hnonempty]
    rcases getBit_cases ins 20 with hl | hl
    · rw [armLoadStoreMultiple_store hl] at hexec
      cases hexec
      rw [stmLoop_reg]
    · rw [eq_loadedCore hl hexec]
      exact loadedCore_kept (base_kept hslot hbase)
  exact baseAfter_ne hraises.2.2 hnonempty ((hq.base fun _ => hbase).symm.trans hkept)

/-- What a right transfer says of the registers it loads. -/
theorem BlockTransferred.registers {q : ArmCore} (hq : BlockTransferred p ins q)
    (hload : getBit ins 20 = 1) {i : ℕ} (hi : i < 15) (hlisted : Listed ins i) :
    HasRegister p (BitVec.ofNat 8 i) ∨ armReadWord p (wordAddress p ins i) = some UINT32_MAX := by
  by_cases hhas : HasRegister p (BitVec.ofNat 8 i)
  · exact Or.inl hhas
  · have hmissing : ¬ HasRegister q (BitVec.ofNat 8 i) := by rwa [HasRegister, hq.mode]
    rw [hq.loaded hload i hi hlisted,
      armReadRegister_of_missing (listed_ne_pc hi hlisted) hmissing]
    exact Or.inr rfl

/-- A base that a right transfer writes back is a register of the mode. -/
theorem BlockTransferred.writtenBack {q : ArmCore} (hq : BlockTransferred p ins q)
    (h : InMemory p ins) (hnonempty : getBits ins 15 0 ≠ 0) (hw : getBit ins 21 = 1) :
    HasRegister p (u8 (getBits ins 19 16)) := by
  by_contra hmissing
  have hsame : armReadRegister q (u8 (getBits ins 19 16)) = baseValue p ins := by
    refine armReadRegister_congr_slot h.base_ne hq.mode fun t hslot => ?_
    exact absurd (Option.isSome_iff_exists.mpr ⟨t, hslot⟩) hmissing
  exact baseAfter_ne hw hnonempty ((hq.base fun _ => h.writeBack hw).symm.trans hsame)

/-- **Which multiple transfers are right.**  For every mode, base, list and state whose block is in
memory, the mode of the processor valid or not: the transfer is that of the instruction set exactly
when it is one of `CarriedOut`.  The list is not empty; the instruction set says nothing of one that
is. -/
theorem blockTransferred_iff (h : InMemory p ins) (hnonempty : getBits ins 15 0 ≠ 0) :
    (∃ q, armLoadStoreMultiple p ins junk = some (0, q) ∧ BlockTransferred p ins q) ↔
      CarriedOut p ins := by
  constructor
  · rintro ⟨q, hexec, hq⟩
    have hmode : ¬ RaisesNumber ins := fun hraises =>
      h.not_transferred hraises hnonempty hexec hq
    refine ⟨hmode, fun hload i hi hlisted => hq.registers hload hi hlisted,
      hq.writtenBack h hnonempty, fun hpc hstore => ?_, fun hpc hload => ?_⟩
    · have hlast := hq.stored hstore 15 hpc
      rw [armLoadStoreMultiple_store hstore] at hexec
      cases hexec
      rwa [h.read_last hpc] at hlast
    · rw [armLoadStoreMultiple_load_pc hload hpc] at hexec
      split_ifs at hexec with hend
      exact (endAdr_eq_iff p ins).mp hend
  · intro hcarried
    rcases getBit_cases ins 20 with hl | hl
    · exact ⟨_, armLoadStoreMultiple_store hl, h.blockTransferred_store hcarried hl⟩
    · exact ⟨_, armLoadStoreMultiple_loaded hl fun hpc =>
        (endAdr_eq_iff p ins).mpr (hcarried.loadPc hpc hl), h.blockTransferred_load hcarried hl⟩

/-- `R1` is `0x100`, in mode SVC. -/
def blockSample : ArmCore := armWriteRegister (ArmCore.load 0x1d3 []) 1 0x100

/-- `LDMIB r1!, {r0, r4, r14}`. -/
theorem blockTransferred_iff_ldmib :
    (∃ q, armLoadStoreMultiple blockSample 0xE9B14011 0 = some (0, q) ∧
      BlockTransferred blockSample 0xE9B14011 q) ↔ CarriedOut blockSample 0xE9B14011 :=
  blockTransferred_iff ⟨by decide, by decide, by decide⟩ (by decide)

/-- `LDMIA r1!, {r6, r7}` leaves its base at `0x100`. -/
theorem blockTransferred_counterexample :
    ¬ ∀ (p : ArmCore) (ins junk : Word), InMemory p ins → getBits ins 15 0 ≠ 0 →
      ∃ q, armLoadStoreMultiple p ins junk = some (0, q) ∧ BlockTransferred p ins q := by
  intro h
  have hblock : InMemory blockSample 0xE8B100C0 := ⟨by decide, by decide, by decide⟩
  obtain ⟨q, hexec, hq⟩ := h blockSample 0xE8B100C0 0 hblock (by decide)
  exact hblock.not_transferred (by decide) (by decide) hexec hq

end Main

end ArmSimulator
