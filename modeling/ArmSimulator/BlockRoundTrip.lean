import ArmSimulator.MultipleTransfers

/-!
# Storing and loading a list of registers

Without write-back a store and a load of the same list cancel, in each of the four modes.  The two
instructions compute the same block: the base is in neither list and keeps its value, so that
`firstWord` and with it every `wordAddress` are the same for the load as for the store.

This is the counterpart of `PushPop`, where the same is wanted of a pair of modes with write-back
and never holds.

* `StoreLoad` is the situation: two instruction words with the same fields but for the direction,
  and a block in memory.
* `StoreLoad.exec_store` and `StoreLoad.firstWord_eq` put the two instructions on the same block,
  whatever the listed registers have been overwritten with between them.
* `StoreLoad.restored_listed` is one register, by what the store left at its place and what the load
  reads there; `StoreLoad.restored_unlisted` and `storedBlock_kept` are the frame.
* `block_roundTrip` puts them together.
-/

namespace ArmSimulator

/-- A store and a load of one list of registers among `R0` … `R14`, without write-back, in the same
mode and from the same base, which is neither `R15` nor in the list; the words of the block lie in
memory without wrapping round.  An empty list has no block, and nothing is asked of it. -/
structure StoreLoad (p : ArmCore) (pBit uBit : Word) (rn : Fin 16) (regList stm ldm : Word) :
    Prop where
  mode : ValidMode p.reg.currentMode
  base : rn ≠ 15
  listed : ∀ i, getBit regList i = 1 → i ≤ 14 ∧ i ≠ rn.val
  store : IsBlockTransfer stm pBit uBit 0 0 rn regList
  load : IsBlockTransfer ldm pBit uBit 0 1 rn regList
  block : regList ≠ 0 →
    (firstWord p stm).toNat + 4 * countSetBits regList ≤ p.mem.capacity.toNat ∧
      (firstWord p stm).toNat + 4 * countSetBits regList ≤ 2 ^ 32

/-- The registers of the list have their old values, the base, the other registers and the memory
outside the block are as they were. -/
structure BlockRestored (p : ArmCore) (rn : Fin 16) (regList stm : Word) (q : ArmCore) : Prop where
  listed : ∀ i, getBit regList i = 1 →
    armReadRegister q (BitVec.ofNat 8 i) = armReadRegister p (BitVec.ofNat 8 i)
  base : armReadRegister q (BitVec.ofNat 8 rn.val) = armReadRegister p (BitVec.ofNat 8 rn.val)
  unlisted : ∀ s, Unlisted p regList s → q.reg.get s = p.reg.get s
  cpsr : q.reg.cpsr = p.reg.cpsr
  spsr : q.reg.spsr = p.reg.spsr
  mode : q.reg.currentMode = p.reg.currentMode
  capacity : q.mem.capacity = p.mem.capacity
  memory : ∀ a, ¬ InWindow (firstWord p stm) (4 * countSetBits regList) a →
    q.mem.data a = p.mem.data a

/-! ## Without write-back

`start_end_adresse` writes the base in every case; without write-back it writes the value that is
there. -/

section NoWriteBack

variable {p q : ArmCore} {ins stm ldm : Word}

/-- Without write-back `start_end_adresse` leaves the processor as it was. -/
theorem core_of_not_writeBack (hbase : u8 (getBits ins 19 16) ≠ 15) (hw : getBit ins 21 = 0) :
    (blockAddresses p ins).core = p := by
  have hmode : ¬ RaisesNumber ins := by
    rintro ⟨-, -, hraises⟩
    rw [hw] at hraises
    exact absurd hraises (by decide)
  have hsame : baseAfter p ins = armReadRegister p (u8 (getBits ins 19 16)) := by
    rw [baseAfter, hw]
    rfl
  rw [core_eq p ins hmode, hsame, armWriteRegister_self p hbase]

/-- Two multiple transfers of one mode and list, whose bases read the same, have the same
block. -/
theorem firstWord_congr (hp : getBit ldm 24 = getBit stm 24) (hu : getBit ldm 23 = getBit stm 23)
    (hlist : getBits ldm 15 0 = getBits stm 15 0) (hbase : baseValue q ldm = baseValue p stm) :
    firstWord q ldm = firstWord p stm := by
  rw [firstWord, firstWord, blockSize, blockSize, blockWords, blockWords, hp, hu, hlist, hbase]

end NoWriteBack

/-! ## The two instructions -/

section Instructions

variable {p q : ArmCore} {pBit uBit l : Word} {rn : Fin 16} {regList ins stm ldm : Word}

theorem baseNumber_eq {w : Word} (h : IsBlockTransfer ins pBit uBit w l rn regList) :
    u8 (getBits ins 19 16) = BitVec.ofNat 8 rn.val := by
  rw [h.rn, u8_ofNat]

/-- The fields of a multiple transfer without write-back make its block one in memory. -/
theorem inMemory_of_isBlockTransfer (h : IsBlockTransfer ins pBit uBit 0 l rn regList)
    (hrn : rn ≠ 15) (hblock : regList ≠ 0 →
      (firstWord q ins).toNat + 4 * countSetBits regList ≤ q.mem.capacity.toNat ∧
        (firstWord q ins).toNat + 4 * countSetBits regList ≤ 2 ^ 32) : InMemory q ins where
  base := by
    rw [h.rn]
    intro heq
    have hval := congrArg BitVec.toNat heq
    have hlt := rn.isLt
    rw [BitVec.toNat_ofNat, Nat.mod_eq_of_lt (by omega)] at hval
    exact hrn (Fin.ext hval)
  writeBack := by
    rw [h.w]
    exact fun hw => absurd hw (by decide)
  block := by
    rw [blockWords, h.regList]
    intro hpos
    refine hblock fun hempty => ?_
    rw [hempty] at hpos
    exact absurd hpos (by decide)

theorem not_raisesNumber (h : IsBlockTransfer ins pBit uBit 0 l rn regList) :
    ¬ RaisesNumber ins := by
  rw [RaisesNumber, h.w]
  exact fun hraises => absurd hraises.2.2 (by decide)

/-- The store, as the loop from the state it begins in. -/
theorem StoreLoad.exec_store (h : StoreLoad p pBit uBit rn regList stm ldm) (junk : Word) :
    armLoadStoreMultiple p stm junk =
      some (0, stmLoop regList (List.range 15) p (firstWord p stm)) := by
  have hmem := inMemory_of_isBlockTransfer h.store h.base h.block
  rw [armLoadStoreMultiple_store h.store.l, core_of_not_writeBack hmem.base_ne h.store.w,
    h.store.regList]

/-- The slot of the base is not that of a listed register. -/
theorem StoreLoad.unlisted_base (h : StoreLoad p pBit uBit rn regList stm ldm) {t : Slot}
    (hslot : slot (BitVec.ofNat 8 rn.val) p.reg.currentMode = some t) : Unlisted p regList t := by
  intro i hi hbit
  refine slot_ne_of_ne (fun heq => (h.listed i hbit).2 ?_) hslot
  have hval := congrArg BitVec.toNat heq
  rwa [toNat_register, BitVec.toNat_ofNat, Nat.mod_eq_of_lt (by omega)] at hval

/-- **The load finds the block of the store** in every state in which the base has its old
value. -/
theorem StoreLoad.firstWord_eq (h : StoreLoad p pBit uBit rn regList stm ldm)
    (hbase : armReadRegister q (BitVec.ofNat 8 rn.val) =
      armReadRegister p (BitVec.ofNat 8 rn.val)) : firstWord q ldm = firstWord p stm := by
  refine firstWord_congr ?_ ?_ ?_ ?_
  · rw [h.load.p, h.store.p]
  · rw [h.load.u, h.store.u]
  · rw [h.load.regList, h.store.regList]
  · rw [baseValue, baseValue, baseNumber_eq h.load, baseNumber_eq h.store, hbase]

end Instructions

/-! ## There and back

From the state after the store, through any overwriting, to the state after the load. -/

/-- The state after the store of `StoreLoad`. -/
def storedBlock (p : ArmCore) (regList stm : Word) : ArmCore :=
  stmLoop regList (List.range 15) p (firstWord p stm)

section RoundTrip

variable {p q : ArmCore} {pBit uBit : Word} {rn : Fin 16} {regList stm ldm junk : Word}

/-- What is not in the list survives the store and the overwriting. -/
theorem overwritten_get (hover : Overwritten regList (storedBlock p regList stm) q) {s : Slot}
    (hs : Unlisted p regList s) : q.reg.get s = p.reg.get s := by
  have hreg : (storedBlock p regList stm).reg = p.reg := stmLoop_reg ..
  rw [hover.slots s (by rwa [Unlisted, hreg]), hreg]

theorem overwritten_mode (hover : Overwritten regList (storedBlock p regList stm) q) :
    q.reg.currentMode = p.reg.currentMode := by
  rw [hover.mode, storedBlock, stmLoop_reg]

/-- The base has its old value when the load begins. -/
theorem StoreLoad.overwritten_base (h : StoreLoad p pBit uBit rn regList stm ldm)
    (hover : Overwritten regList (storedBlock p regList stm) q) :
    armReadRegister q (BitVec.ofNat 8 rn.val) = armReadRegister p (BitVec.ofNat 8 rn.val) := by
  have hne := register_ne_pc h.base
  obtain ⟨t, hslot⟩ := slot_isSome (by rw [toNat_register]; exact rn.isLt) h.mode
  have hslot' : slot (BitVec.ofNat 8 rn.val) q.reg.currentMode = some t := by
    rw [overwritten_mode hover, hslot]
  rw [armReadRegister_of_slot hne hslot, armReadRegister_of_slot hne hslot',
    overwritten_get hover (h.unlisted_base hslot)]

/-- The load is one in memory. -/
theorem StoreLoad.inMemory_load (h : StoreLoad p pBit uBit rn regList stm ldm)
    (hover : Overwritten regList (storedBlock p regList stm) q) : InMemory q ldm := by
  refine inMemory_of_isBlockTransfer h.load h.base ?_
  rw [h.firstWord_eq (h.overwritten_base hover), hover.mem, storedBlock, stmLoop_capacity]
  exact h.block

/-- The word of a listed register after the store. -/
theorem StoreLoad.stored (h : StoreLoad p pBit uBit rn regList stm ldm) {i : ℕ}
    (hbit : getBit regList i = 1) :
    armReadWord (storedBlock p regList stm) (wordAddress p stm i) =
      some (armReadRegister p (BitVec.ofNat 8 i)) := by
  have hmem := inMemory_of_isBlockTransfer h.store h.base h.block
  have hlisted : Listed stm i := by rwa [Listed, h.store.regList]
  have hstored := hmem.stored (not_raisesNumber h.store) hlisted
    (Nat.lt_succ_of_le (h.listed i hbit).1)
  rwa [core_of_not_writeBack hmem.base_ne h.store.w, h.store.regList] at hstored

/-- **A listed register** gets back what was stored: its word is at the same place for both
instructions. -/
theorem StoreLoad.restored_listed (h : StoreLoad p pBit uBit rn regList stm ldm)
    (hover : Overwritten regList (storedBlock p regList stm) q) {i : ℕ}
    (hbit : getBit regList i = 1) :
    armReadRegister (loadedCore q ldm junk) (BitVec.ofNat 8 i) =
      armReadRegister p (BitVec.ofNat 8 i) := by
  have hlt : i < 15 := Nat.lt_succ_of_le (h.listed i hbit).1
  have hlisted : Listed ldm i := by rwa [Listed, h.load.regList]
  have hplace : wordAddress q ldm i = wordAddress p stm i := by
    rw [wordAddress, wordAddress, h.firstWord_eq (h.overwritten_base hover), h.load.regList,
      h.store.regList]
  -- the slot is the same in all the states, since the mode is
  obtain ⟨t, hslot⟩ : ∃ t, slot (BitVec.ofNat 8 i) q.reg.currentMode = some t := by
    rw [overwritten_mode hover]
    exact slot_isSome (by rw [toNat_listed hlisted]; omega) h.mode
  obtain ⟨-, -, hmode⟩ := @loadedCore_status q ldm junk (not_raisesNumber h.load)
  have hne : BitVec.ofNat 8 i ≠ 15 := by
    intro heq
    have hval := congrArg BitVec.toNat heq
    rw [toNat_listed hlisted] at hval
    exact hlt.ne hval
  have hloaded := @InMemory.loaded q ldm junk i (h.inMemory_load hover) hlisted hlt t hslot
  rw [hplace, armReadWord, hover.mem, ← armReadWord, h.stored hbit,
    ← loadedCore_listed hlt hlisted hslot] at hloaded
  rw [armReadRegister_of_slot hne (by rw [hmode, hslot]), Option.some.inj hloaded]

/-- A slot that is not in the list is not written by the load. -/
theorem StoreLoad.restored_unlisted (h : StoreLoad p pBit uBit rn regList stm ldm)
    (hover : Overwritten regList (storedBlock p regList stm) q) {s : Slot}
    (hs : Unlisted p regList s) : (loadedCore q ldm junk).reg.get s = p.reg.get s := by
  have hbase := (h.inMemory_load hover).base_ne
  rw [loadedCore_kept, core_of_not_writeBack hbase h.load.w, overwritten_get hover hs]
  intro i hi
  rw [Listed, h.load.regList] at hi
  rw [overwritten_mode hover]
  exact hs i (h.listed i hi).1 hi

theorem StoreLoad.not_listed_pc (h : StoreLoad p pBit uBit rn regList stm ldm) :
    ¬ Listed ldm 15 := by
  rw [Listed, h.load.regList]
  exact fun hbit => absurd (h.listed 15 hbit).1 (by decide)

/-- The store changes no byte outside its block. -/
theorem storedBlock_kept {a : Word}
    (ha : ¬ InWindow (firstWord p stm) (4 * countSetBits regList) a) :
    (storedBlock p regList stm).mem.data a = p.mem.data a := by
  by_contra hchanged
  refine ha ((stmLoop_changed regList a _ _ _ hchanged).mono ?_)
  have hsub : List.Sublist (List.range 15) (List.range 32) := List.range_sublist.mpr (by decide)
  rw [countSetBits_eq_countListed]
  exact Nat.mul_le_mul_left 4 hsub.countP_le

/-- **The load restores the registers** in every state that the overwriting leaves.  The block has
not been touched by it, and the base that the load finds is the one that it needs. -/
theorem StoreLoad.blockRestored (h : StoreLoad p pBit uBit rn regList stm ldm)
    (hover : Overwritten regList (storedBlock p regList stm) q) :
    BlockRestored p rn regList stm (loadedCore q ldm junk) := by
  have hreg : (storedBlock p regList stm).reg = p.reg := stmLoop_reg ..
  obtain ⟨hcpsr, hspsr, hmode⟩ := @loadedCore_status q ldm junk (not_raisesNumber h.load)
  have hmem : (loadedCore q ldm junk).mem = (storedBlock p regList stm).mem := by
    rw [loadedCore, if_neg h.not_listed_pc, loadedBlock_mem, hover.mem]
  have hne := register_ne_pc h.base
  obtain ⟨t, hslot⟩ := slot_isSome (by rw [toNat_register]; exact rn.isLt) h.mode
  have hslot' : slot (BitVec.ofNat 8 rn.val) (loadedCore q ldm junk).reg.currentMode = some t := by
    rw [hmode, overwritten_mode hover, hslot]
  exact {
    listed := fun i hbit => h.restored_listed hover hbit
    base := by
      rw [armReadRegister_of_slot hne hslot, armReadRegister_of_slot hne hslot',
        h.restored_unlisted hover (h.unlisted_base hslot)]
    unlisted := fun s hs => h.restored_unlisted hover hs
    cpsr := by rw [hcpsr, hover.cpsr, hreg]
    spsr := by rw [hspsr, hover.spsr, hreg]
    mode := by rw [hmode, overwritten_mode hover]
    capacity := by rw [hmem, storedBlock, stmLoop_capacity]
    memory := by
      intro a ha
      rw [hmem, storedBlock_kept ha] }

/-- **Store and load cancel**: for each of the four modes without write-back, every base, every
list and every state whose block is in memory, the load brings the listed registers back whatever
they have been overwritten with, and nothing else is changed but the block. -/
theorem block_roundTrip (h : StoreLoad p pBit uBit rn regList stm ldm) (junk junk' : Word) :
    ∃ q, armLoadStoreMultiple p stm junk = some (0, q) ∧
      ∀ q', Overwritten regList q q' → ∃ r, armLoadStoreMultiple q' ldm junk' = some (0, r) ∧
        BlockRestored p rn regList stm r := by
  refine ⟨_, h.exec_store junk, fun q' hover => ⟨loadedCore q' ldm junk', ?_, ?_⟩⟩
  · exact armLoadStoreMultiple_loaded h.load.l fun hlisted => absurd hlisted h.not_listed_pc
  · exact h.blockRestored hover

/-- `STMDB r1, {r0, r2, lr}` and `LDMDB r1, {r0, r2, lr}`. -/
theorem blockSample_storeLoad : StoreLoad blockSample 1 0 1 0x4005 0xE9014005 0xE9114005 where
  mode := ⟨.svc, by decide⟩
  base := by decide
  listed := forall_getBit (by decide)
  store := by constructor <;> decide
  load := by constructor <;> decide
  block := by decide

theorem block_roundTrip_sample :
    ∃ q, armLoadStoreMultiple blockSample 0xE9014005 0 = some (0, q) ∧
      ∀ q', Overwritten 0x4005 q q' → ∃ r, armLoadStoreMultiple q' 0xE9114005 0 = some (0, r) ∧
        BlockRestored blockSample 1 0x4005 0xE9014005 r :=
  block_roundTrip blockSample_storeLoad 0 0

end RoundTrip

end ArmSimulator
