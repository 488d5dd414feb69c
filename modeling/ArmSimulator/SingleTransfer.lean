import ArmSimulator.RegisterHistory
import ArmSimulator.ShiftOperands
import ArmSimulator.StoreFrame

/-!
# Single transfers

LDR, STR, LDRB, STRB, LDRH and STRH all come down to the same two steps: the base may be written
back, and then one access of memory is made (`dispatch_of_access`).  The address of that access is
`accessAddress`, as the code computes it.  Inside memory the rest is right whatever the address is
(`transferred_of_access`), so that the correctness of a single transfer is a question about
addresses alone.

For words and bytes with bit 24 set the address is right too.  The code decodes the offset twice;
`memoryOperationKind_eq` is the agreement of the two, and `memoryOperationOffset_eq` gives the
offset as the instruction set has it, with the shifts of `Shifter`.

The module goes from the code to the specification in four steps.

* The access of the code: its width, its offset and its address, each as a function of the word and
  the state, and the state in which it is made.
* The two decodings, and that they agree on every word the first accepts.
* The access inside memory, which is a load or a store of a run of bytes, and `Transferred`, which
  says what a transfer at an address should be: the register, the bytes, the base, and everything
  else as it was.
* `singleTransfer_indexed`: offset and pre-indexed transfers of words and bytes are right, for every
  state in a valid mode.

The half-words and the post-indexed transfers, where the address or the write-back is wrong, are in
`TransferAddresses`.
-/

namespace ArmSimulator

open ByteOrder

/-! ## The access of the code

What a word makes the code do, before any question whether it is right. -/

instance decidableIsSingleTransfer (ins : Word) : Decidable (IsSingleTransfer ins) :=
  inferInstanceAs (Decidable (_ ∨ _))

/-- A transfer of a half-word: category 0 with `1011` in bits 7 … 4. -/
def IsHalfTransfer (ins : Word) : Prop :=
  (getBits ins 27 25).toNat = 0 ∧ getBits ins 7 4 = 0b1011

instance decidableIsHalfTransfer (ins : Word) : Decidable (IsHalfTransfer ins) :=
  inferInstanceAs (Decidable (_ ∧ _))

/-- The immediate that LDRH and STRH assemble from two fields. -/
def halfImmediate (ins : Word) : Word :=
  logicalShiftLeft (getBits ins 11 8) 4 ||| getBits ins 3 0

/-- The number of bytes of the access. -/
def accessWidth (ins : Word) : ℕ :=
  if IsHalfTransfer ins then 2 else if getBit ins 22 = 0 then 4 else 1

/-- The offset that the code adds to the base or subtracts from it; for half-words always the
immediate. -/
def codeOffset (p : ArmCore) (ins : Word) : Option Word :=
  if IsHalfTransfer ins then some (halfImmediate ins) else memoryOperationOffset p ins

/-- The address that the code gives to `process_memory_access` or `process_memory_access_half`;
none if the instruction does not come to either.  A half-word transfer whose bits 27 … 20 are
`0x12` is taken for a branch. -/
def accessAddress (p : ArmCore) (ins : Word) : Option Word :=
  if (IsSingleTransfer ins ∨ (IsHalfTransfer ins ∧ getBits ins 27 20 ≠ 18)) ∧
      determineAddressingModeLdrStr ins ≠ .undefined then
    (codeOffset p ins).map fun offset =>
      calculateAddress p (getBits ins 19 16) offset (getBit ins 23)
  else none

/-- The state in which the access is made: the base has been written back, if it is at all.  The
write-back comes before the access in the code, so a base that is also `Rd` is stored with its new
value. -/
def accessState (p : ArmCore) (ins address : Word) : ArmCore :=
  writeBack p (determineAddressingModeLdrStr ins).writesBack (getBits ins 19 16) address

/-- The access itself. -/
def processAccess (p : ArmCore) (ins address : Word) : Int × ArmCore :=
  if IsHalfTransfer ins then
    processMemoryAccessHalf p address (getBit ins 20) (getBits ins 15 12)
  else processMemoryAccess p address (getBit ins 20) (getBit ins 22) (getBits ins 15 12)

/-! ## The two decodings

An addressing mode of the header is an indexing and an offset (`AddressingMode.make`).  Both
decodings are brought to that form. -/

/-- What the offset is made of. -/
inductive OffsetKind
  | immediate | register | scaledRegister
  deriving DecidableEq, Repr

/-- When the base is written back: after the access, not at all, before it. -/
inductive Indexing
  | post | offset | pre
  deriving DecidableEq, Repr

/-- The addressing mode of an indexing and an offset. -/
def AddressingMode.make : Indexing → OffsetKind → AddressingMode
  | .post, .immediate => .immediatePostIndexed
  | .post, .register => .registerPostIndexed
  | .post, .scaledRegister => .scaledRegisterPostIndexed
  | .offset, .immediate => .immediateOffset
  | .offset, .register => .registerOffset
  | .offset, .scaledRegister => .scaledRegisterOffset
  | .pre, .immediate => .immediatePreIndexed
  | .pre, .register => .registerPreIndexed
  | .pre, .scaledRegister => .scaledRegisterPreIndexed

/-- The offset of an addressing mode. -/
def AddressingMode.offsetKind : AddressingMode → Option OffsetKind
  | .immediatePostIndexed | .immediateOffset | .immediatePreIndexed => some .immediate
  | .registerPostIndexed | .registerOffset | .registerPreIndexed => some .register
  | .scaledRegisterPostIndexed | .scaledRegisterOffset | .scaledRegisterPreIndexed =>
      some .scaledRegister
  | .undefined => none

/-- The branch that `handle_memory_operation` takes. -/
def memoryOperationKind (ins : Word) : Option OffsetKind :=
  if isRegisterOffset ins then some .register
  else if isScaledRegisterOffset ins then some .scaledRegister
  else if isImmediateOffset ins then some .immediate
  else none

/-- The offset of a word or byte in the instruction set: bit 25 selects a register, and a register
is shifted unless bits 11 … 4 are zero. -/
def offsetKind (ins : Word) : OffsetKind :=
  if getBit ins 25 = 0 then .immediate
  else if getBits ins 11 4 = 0 then .register
  else .scaledRegister

/-- The indexing, from bits 24 and 21. -/
def indexing (ins : Word) : Indexing :=
  if getBit ins 24 = 0 then .post else if getBit ins 21 = 0 then .offset else .pre

section Decoding

variable {p : ArmCore} {ins : Word}

@[simp] theorem AddressingMode.offsetKind_make (i : Indexing) (k : OffsetKind) :
    (AddressingMode.make i k).offsetKind = some k := by
  cases i <;> cases k <;> rfl

/-- The mode that `determine_addressing_mode_ldr_str` finds, when it finds one. -/
theorem determineAddressingModeLdrStr_eq (h : determineAddressingModeLdrStr ins ≠ .undefined) :
    determineAddressingModeLdrStr ins = .make (indexing ins) (offsetKind ins) := by
  unfold determineAddressingModeLdrStr at h ⊢
  unfold indexing offsetKind
  dsimp only at h ⊢
  split_ifs at h ⊢ <;>
    first
      | rfl
      | exact absurd rfl h

/-- A mode is found unless bits 24 and 21 ask for an unprivileged access, or bits 25 and 4 for
something else than a transfer. -/
theorem determineAddressingModeLdrStr_ne_undefined
    (hindexing : getBit ins 24 = 1 ∨ getBit ins 21 = 0)
    (hoffset : getBit ins 25 = 1 → getBit ins 4 = 0) :
    determineAddressingModeLdrStr ins ≠ .undefined := by
  intro h
  unfold determineAddressingModeLdrStr at h
  dsimp only at h
  split_ifs at h with hp hw hi h114 h4 hw hi h114 h4 hi h114 h4
  · exact h4 (hoffset (getBit_ne_zero.mp hi))
  · rw [hp] at hindexing
    exact hw (hindexing.resolve_left (by decide))
  · exact h4 (hoffset (getBit_ne_zero.mp hi))
  · exact h4 (hoffset (getBit_ne_zero.mp hi))

/-- A word that is a transfer has bit 4 clear if bit 25 is set. -/
theorem getBit_four_of_mode (h : determineAddressingModeLdrStr ins ≠ .undefined)
    (hbit : getBit ins 25 = 1) : getBit ins 4 = 0 := by
  have hone : ¬ (1 : Word) = 0 := by decide
  by_contra hbit4
  -- bits 11 … 4 contain bit 4
  have hfield : getBits ins 11 4 ≠ 0 := by
    rw [Ne, getBits_eq_iff]
    rw [getBit_eq_iff] at hbit4
    simp only [BitVec.ofNat_eq_ofNat, BitVec.toNat_ofNat] at hbit4 ⊢
    omega
  refine h ?_
  simp only [determineAddressingModeLdrStr, hbit, hone, hfield, hbit4, if_false, ite_self]

/-- The base is written back unless bit 24 is set and bit 21 clear. -/
theorem writesBack_eq (h : determineAddressingModeLdrStr ins ≠ .undefined) :
    (determineAddressingModeLdrStr ins).writesBack =
      decide (getBit ins 24 = 0 ∨ getBit ins 21 = 1) := by
  rw [determineAddressingModeLdrStr_eq h, indexing]
  rcases getBit_cases ins 24 with hp | hp <;> rcases getBit_cases ins 21 with hw | hw <;>
    rw [hp, hw] <;> cases offsetKind ins <;> rfl

/-- **The two decodings agree**: on a word that is accepted `handle_memory_operation` takes the
branch of the addressing mode. -/
theorem memoryOperationKind_eq (htype : (getBits ins 27 26).toNat = 1)
    (h : determineAddressingModeLdrStr ins ≠ .undefined) :
    memoryOperationKind ins = some (offsetKind ins) := by
  have hcategory : (getBits ins 27 25).toNat = 2 + (getBit ins 25).toNat := by
    rw [toNat_getBits] at htype ⊢
    rw [toNat_getBit]
    omega
  rcases getBit_cases ins 25 with hi | hi
  · have htwo : getBits ins 27 25 = 2 := BitVec.eq_of_toNat_eq (by rw [hcategory, hi]; rfl)
    rw [memoryOperationKind, isRegisterOffset, isScaledRegisterOffset, isImmediateOffset,
      offsetKind, htwo, if_pos hi]
    rfl
  · have hthree : getBits ins 27 25 = 3 := BitVec.eq_of_toNat_eq (by rw [hcategory, hi]; rfl)
    rw [memoryOperationKind, isRegisterOffset, isScaledRegisterOffset, offsetKind, hthree, hi,
      getBit_four_of_mode h hi]
    by_cases h114 : getBits ins 11 4 = 0
    · rw [h114]
      rfl
    · simp only [h114, decide_true, decide_false, Bool.and_false, Bool.and_self, if_true, if_false]
      rfl

end Decoding

/-! ## The offset -/

/-- The three offsets of a word or byte. -/
def OffsetKind.offset (p : ArmCore) (ins : Word) : OffsetKind → Word
  | immediate => getBits ins 11 0
  | register => rmValue p ins
  | scaledRegister =>
      (Shifter.immediate (shiftKind ins) (rmValue p ins) (getBits ins 11 7).toNat (cFlag p)).2

/-- The offset of a word or byte in the instruction set. -/
def wordOffset (p : ArmCore) (ins : Word) : Word := (offsetKind ins).offset p ins

section Offset

variable {p : ArmCore} {ins : Word}

/-- The shifts of `calculate_address_scaled_register`. -/
theorem calculateAddressScaledRegister_eq (p : ArmCore) (v ins : Word) :
    calculateAddressScaledRegister v (getBits ins 6 5) (getBits ins 11 7)
        (getBit (armReadCpsr p) 29) =
      (Shifter.immediate (shiftKind ins) v (getBits ins 11 7).toNat (cFlag p)).2 := by
  have hlt := toNat_shiftField ins
  generalize getBits ins 11 7 = n at hlt
  have hu8 : (u8 n).toNat = n.toNat := toNat_u8 (by omega)
  have hzero : n = 0 ↔ n.toNat = 0 := BitVec.toNat_inj.symm
  rcases shiftKind_cases ins with ⟨ht, hkind⟩ | ⟨ht, hkind⟩ | ⟨ht, hkind⟩ | ⟨ht, hkind⟩
  · have hshift : getBits ins 6 5 = 0 := BitVec.eq_of_toNat_eq ht
    rw [hshift, hkind, calculateAddressScaledRegister, Shifter.immediate, if_pos rfl,
      logicalShiftLeft_eq v (hu8.trans_lt hlt), hu8]
    split_ifs with hn
    · rw [hn, BitVec.shiftLeft_zero]
    · rfl
  · have hshift : getBits ins 6 5 = 1 := BitVec.eq_of_toNat_eq ht
    rw [hshift, hkind, calculateAddressScaledRegister, Shifter.immediate, if_neg (by decide),
      if_pos rfl, logicalShiftRight_eq v (hu8.trans_lt hlt), hu8]
    simp only [hzero]
    split_ifs <;> rfl
  · have hshift : getBits ins 6 5 = 2 := BitVec.eq_of_toNat_eq ht
    have hsigns : (if truth v.msb = 1 then (0xFFFFFFFF : Word) else 0) = Shifter.signs v := by
      rw [Shifter.signs]
      cases v.msb <;> rfl
    rw [hshift, hkind, calculateAddressScaledRegister, Shifter.immediate, if_neg (by decide),
      if_neg (by decide), if_pos rfl, getBit_31_eq_msb, hsigns]
    simp only [hzero]
    split_ifs with hn
    · rfl
    · rw [asr_eq v (by omega) (by omega), hu8]
  · have hshift : getBits ins 6 5 = 3 := BitVec.eq_of_toNat_eq ht
    rw [hshift, hkind, calculateAddressScaledRegister, Shifter.immediate, if_neg (by decide),
      if_neg (by decide), if_neg (by decide)]
    simp only [hzero]
    split_ifs with hn
    · -- the function of `carry` computes the same word
      exact congrArg Prod.snd (rotateRightWithExtend_eq p v)
    · rw [ror_eq v (by omega) (by omega), hu8]

/-- Each branch of `handle_memory_operation` computes its own offset. -/
theorem memoryOperationOffset_kind (p : ArmCore) (ins : Word) :
    memoryOperationOffset p ins = (memoryOperationKind ins).map (OffsetKind.offset p ins) := by
  rw [memoryOperationOffset, memoryOperationKind]
  dsimp only
  split_ifs
  · rfl
  · exact congrArg some (calculateAddressScaledRegister_eq p (rmValue p ins) ins)
  · rfl
  · rfl

/-- **The offset of the code** is that of the instruction set, for the three kinds of an offset. -/
theorem memoryOperationOffset_eq (p : ArmCore) (htype : (getBits ins 27 26).toNat = 1)
    (h : determineAddressingModeLdrStr ins ≠ .undefined) :
    memoryOperationOffset p ins = some (wordOffset p ins) := by
  rw [memoryOperationOffset_kind, memoryOperationKind_eq htype h]
  rfl

end Offset

/-! ## From the dispatch to the access

A word with an access is dispatched to `arm_load_store`, and there to the handler of its mode. -/

section Dispatch

variable {p : ArmCore} {ins junk address : Word}

/-- Only a defined addressing mode has an address. -/
theorem mode_of_access (h : accessAddress p ins = some address) :
    determineAddressingModeLdrStr ins ≠ .undefined := by
  rw [accessAddress] at h
  split_ifs at h with hcond
  exact hcond.2

/-- The handlers of a transfer whose mode is found. -/
theorem armLoadStore_access (hins : IsSingleTransfer ins ∨ IsHalfTransfer ins)
    (hmode : determineAddressingModeLdrStr ins ≠ .undefined) {offset : Word}
    (hoffset : codeOffset p ins = some offset)
    (haddress : calculateAddress p (getBits ins 19 16) offset (getBit ins 23) = address) :
    armLoadStore p ins = processAccess (accessState p ins address) ins address := by
  subst haddress
  by_cases hhalf : IsHalfTransfer ins
  · rw [codeOffset, if_pos hhalf] at hoffset
    rw [armLoadStore_of_type_zero (type_of_category hhalf.1),
      handleLdrhStrh_eq p (bit25_of_category_zero hhalf.1), if_neg hmode, processAccess,
      if_pos hhalf, ← Option.some.inj hoffset]
    rfl
  · rw [codeOffset, if_neg hhalf] at hoffset
    have htype : (getBits ins 27 26).toNat = 1 :=
      (hins.resolve_right hhalf).elim type_of_category fun h => type_of_category h.1
    rw [armLoadStore_of_type_one htype, handleLdrStr_eq, if_neg hmode, processAccess,
      if_neg hhalf, handleMemoryOperation, hoffset]
    rfl

/-- **An instruction with an access** is that access, after the write-back. -/
theorem dispatch_of_access (h : accessAddress p ins = some address) :
    dispatch p ins junk = some (processAccess (accessState p ins address) ins address) := by
  have hmode := mode_of_access h
  rw [accessAddress] at h
  split_ifs at h with hcond
  obtain ⟨offset, hoffset, haddress⟩ := Option.map_eq_some_iff.mp h
  rcases hcond.1 with hsingle | ⟨hhalf, hbranch⟩
  · rw [← armLoadStore_access (Or.inl hsingle) hmode hoffset haddress]
    rcases hsingle with hcategory | ⟨hcategory, hbit4⟩
    · exact dispatch_two hcategory
    · rw [dispatch_three hcategory, if_pos hbit4]
  · rw [← armLoadStore_access (Or.inr hhalf) hmode hoffset haddress, dispatch_zero hhalf.1,
      if_neg hbranch, if_pos hhalf.2]

end Dispatch

/-! ## The access inside memory

The hypothesis is that the bytes of the access are below the capacity; it is that of the guards,
which are exact here (`MemoryBounds` has the addresses where they are not). -/

/-- The transfer between `Rd` and the bytes at an address, the highest byte first. -/
def transfer (p : ArmCore) (ins address : Word) : ArmCore :=
  let rd := u8 (getBits ins 15 12)
  let n := accessWidth ins
  if getBit ins 20 = 0 then
    { p with mem := p.mem.storeBytes address (encode .big n (armReadRegister p rd).toNat) }
  else armWriteRegister p rd (BitVec.ofNat 32 (decode .big (p.mem.bytesAt address n)))

section Inside

variable {p : ArmCore} {ins address : Word}

/-- A number of `n` bytes, cut to a smaller width first. -/
theorem ofNat_decode {n w : ℕ} (mem : Memory) (hn : 256 ^ n = 2 ^ w) (hw : w ≤ 32) :
    (BitVec.ofNat w (decode .big (mem.bytesAt address n))).setWidth 32 =
      BitVec.ofNat 32 (decode .big (mem.bytesAt address n)) := by
  have hlt := decode_lt .big (mem.bytesAt address n)
  rw [Memory.length_bytesAt, hn] at hlt
  exact BitVec.setWidth_ofNat_of_le_of_lt hw hlt

/-- The guard of `memory_write_half`, also where `address + 1` wraps round. -/
theorem guard_writeHalf_of_inside (mem : Memory) (h : address.toNat + 2 ≤ mem.capacity.toNat) :
    ¬ mem.capacity ≤ size (address + 1) := by
  rw [guard_byte, BitVec.toNat_add]
  have hle := Nat.mod_le (address.toNat + (1#32).toNat) (2 ^ 32)
  have hone : (1#32).toNat = 1 := rfl
  simp only [BitVec.ofNat_eq_ofNat] at hle ⊢
  omega

/-- An access that lies in the memory succeeds and does what `transfer` says. -/
theorem processMemoryAccess_inside (hhalf : ¬ IsHalfTransfer ins)
    (h : address.toNat + accessWidth ins ≤ p.mem.capacity.toNat) :
    processMemoryAccess p address (getBit ins 20) (getBit ins 22) (getBits ins 15 12) =
      (0, transfer p ins address) := by
  rw [accessWidth, if_neg hhalf] at h
  rw [processMemoryAccess, transfer, accessWidth, if_neg hhalf]
  generalize u8 (getBits ins 15 12) = rd
  split_ifs at h ⊢
  · have hguard := (guard_word p.mem address (by omega)).mpr h
    rw [armWriteWord, memoryWriteWord_eq, if_neg hguard]
    rfl
  · have hguard := (guard_byte p.mem address).mpr h
    have hvalue : (u8 (armReadRegister p rd)).toNat = (armReadRegister p rd).toNat % 256 ^ 1 :=
      BitVec.toNat_setWidth ..
    rw [armWriteByte, memoryWriteByte_eq, if_neg hguard, hvalue, encode_mod]
    rfl
  · have hguard := (guard_word p.mem address (by omega)).mpr h
    rw [armReadWord, memoryReadWord_eq, if_neg hguard]
    rfl
  · have hguard := (guard_byte p.mem address).mpr h
    have hvalue := @ofNat_decode address 1 8 p.mem (by decide) (by decide)
    rw [armReadByte, memoryReadByte_eq, if_neg hguard, ← hvalue]
    rfl

/-- The same for the function of the half words. -/
theorem processMemoryAccessHalf_inside (hhalf : IsHalfTransfer ins)
    (h : address.toNat + accessWidth ins ≤ p.mem.capacity.toNat) :
    processMemoryAccessHalf p address (getBit ins 20) (getBits ins 15 12) =
      (0, transfer p ins address) := by
  rw [accessWidth, if_pos hhalf] at h
  rw [processMemoryAccessHalf, transfer, accessWidth, if_pos hhalf]
  generalize u8 (getBits ins 15 12) = rd
  split_ifs with hstore
  · have hguard := guard_writeHalf_of_inside p.mem h
    have hvalue : ((armReadRegister p rd).setWidth 16).toNat =
        (armReadRegister p rd).toNat % 256 ^ 2 := BitVec.toNat_setWidth ..
    rw [armWriteHalf, memoryWriteHalf_eq, if_neg hguard, hvalue, encode_mod]
    rfl
  · have hcapacity : p.mem.capacity ≠ 0 := by
      intro hzero
      rw [hzero] at h
      exact absurd h (Nat.not_le_of_lt (Nat.succ_pos _))
    have hguard := (guard_readHalf p.mem address hcapacity).mpr h
    have hvalue := @ofNat_decode address 2 16 p.mem (by decide) (by decide)
    rw [armReadHalf, memoryReadHalf_eq, if_neg hguard, ← hvalue]
    rfl

/-- **An access inside memory** returns 0, and is the transfer.  This is where the guards of the
memory come in. -/
theorem processAccess_inside (h : address.toNat + accessWidth ins ≤ p.mem.capacity.toNat) :
    processAccess p ins address = (0, transfer p ins address) := by
  rw [processAccess]
  split_ifs with hhalf
  · exact processMemoryAccessHalf_inside hhalf h
  · exact processMemoryAccess_inside hhalf h

end Inside

/-! ## What a single transfer should do

`Transferred` is stated on slots, with what the registers read as derived from it, since two
registers of the instruction may be one. -/

/-- The state `q` is that after a transfer of `Rd` at an address in the state `p`, with the address
in the base if bit 21 is set, and nothing else changed.  A load puts the bytes into `Rd` as a
number, the highest first; a store puts the low bytes of `Rd` there. -/
structure Transferred (p : ArmCore) (ins address : Word) (q : ArmCore) : Prop where
  loaded : getBit ins 20 = 1 → ∀ t, slot (u8 (getBits ins 15 12)) p.reg.currentMode = some t →
    q.reg.get t = BitVec.ofNat 32 (decode .big (p.mem.bytesAt address (accessWidth ins)))
  stored : getBit ins 20 = 0 → q.mem.bytesAt address (accessWidth ins) =
    encode .big (accessWidth ins) (armReadRegister p (u8 (getBits ins 15 12))).toNat
  base : getBit ins 21 = 1 → ∀ t, slot (u8 (getBits ins 19 16)) p.reg.currentMode = some t →
    q.reg.get t = address
  others : ∀ t, (getBit ins 20 = 1 → slot (u8 (getBits ins 15 12)) p.reg.currentMode ≠ some t) →
    (getBit ins 21 = 1 → slot (u8 (getBits ins 19 16)) p.reg.currentMode ≠ some t) →
      q.reg.get t = p.reg.get t
  memory : ∀ a, (getBit ins 20 = 0 → ¬ InWindow address (accessWidth ins) a) →
    q.mem.data a = p.mem.data a
  capacity : q.mem.capacity = p.mem.capacity
  cpsr : q.reg.cpsr = p.reg.cpsr
  spsr : q.reg.spsr = p.reg.spsr
  mode : q.reg.currentMode = p.reg.currentMode
  out : q.out = p.out

section Effect

variable {p : ArmCore} {ins address : Word}

theorem accessWidth_le (ins : Word) : accessWidth ins ≤ 2 ^ 32 := by
  unfold accessWidth
  split_ifs <;> decide

/-- A load puts the bytes into the register and extends them with zeros. -/
theorem transfer_load (h : getBit ins 20 = 1) :
    transfer p ins address = armWriteRegister p (u8 (getBits ins 15 12))
      (BitVec.ofNat 32 (decode .big (p.mem.bytesAt address (accessWidth ins)))) := by
  rw [transfer, h]
  rfl

/-- A store puts the lowest bytes of the register into the memory. -/
theorem transfer_store (h : getBit ins 20 = 0) :
    transfer p ins address = { p with
      mem := p.mem.storeBytes address
        (encode .big (accessWidth ins) (armReadRegister p (u8 (getBits ins 15 12))).toNat) } := by
  rw [transfer, h]
  rfl

/-- The state between the two steps of an indexed transfer: the base holds the address if bit 21
is set, and everything else is as it was. -/
structure BaseWritten (p : ArmCore) (ins address : Word) (q : ArmCore) : Prop where
  get : ∀ t, q.reg.get t =
    if getBit ins 21 = 1 ∧ slot (u8 (getBits ins 19 16)) p.reg.currentMode = some t then address
    else p.reg.get t
  rd : armReadRegister q (u8 (getBits ins 15 12)) = armReadRegister p (u8 (getBits ins 15 12))
  mem : q.mem = p.mem
  cpsr : q.reg.cpsr = p.reg.cpsr
  spsr : q.reg.spsr = p.reg.spsr
  mode : q.reg.currentMode = p.reg.currentMode
  out : q.out = p.out

/-- Before the access the base register may have been written, and this is all that has happened. -/
theorem accessState_baseWritten (hmode : determineAddressingModeLdrStr ins ≠ .undefined)
    (hp : getBit ins 24 = 1)
    (hbase : getBit ins 21 = 1 → u8 (getBits ins 15 12) ≠ u8 (getBits ins 19 16)) :
    BaseWritten p ins address (accessState p ins address) := by
  have hflag := writesBack_eq hmode
  rw [hp] at hflag
  rcases getBit_cases ins 21 with hw | hw
  · have hclear : ¬ getBit ins 21 = 1 := by rw [hw]; decide
    rw [hw] at hflag
    rw [accessState, hflag]
    exact ⟨fun t => (if_neg fun h => hclear h.1).symm, rfl, rfl, rfl, rfl, rfl, rfl⟩
  · rw [hw] at hflag
    rw [accessState, hflag]
    refine ⟨fun t => ?_, armReadRegister_write_of_ne p address (hbase hw), rfl,
      armWriteRegister_cpsr .., armWriteRegister_spsr .., armWriteRegister_currentMode .., rfl⟩
    refine (get_armWriteRegister ..).trans ?_
    simp only [hw, true_and]

/-- **The two steps together** are the transfer of the instruction set, if the base that is written
back is not `Rd`. -/
theorem BaseWritten.transferred {q : ArmCore} (h : BaseWritten p ins address q)
    (hbase : getBit ins 21 = 1 → u8 (getBits ins 15 12) ≠ u8 (getBits ins 19 16)) :
    Transferred p ins address (transfer q ins address) := by
  rcases getBit_cases ins 20 with hl | hl
  · have hstore : ¬ getBit ins 20 = 1 := by rw [hl]; decide
    have hlength := length_encode .big (accessWidth ins)
      (armReadRegister p (u8 (getBits ins 15 12))).toNat
    have hle : (encode .big (accessWidth ins)
        (armReadRegister p (u8 (getBits ins 15 12))).toNat).length ≤ 2 ^ 32 := by
      rw [hlength]
      exact accessWidth_le ins
    rw [transfer_store hl, h.rd, h.mem]
    exact {
      loaded := fun hload => absurd hload hstore
      stored := by
        intro _
        have hbytes := p.mem.bytesAt_storeBytes address _ hle
        rwa [hlength] at hbytes
      base := fun hw t hslot => (h.get t).trans (if_pos ⟨hw, hslot⟩)
      others := fun t _ hrn => (h.get t).trans (if_neg fun hboth => hrn hboth.1 hboth.2)
      memory := by
        intro a ha
        by_contra hchanged
        have hwindow := Memory.inWindow_of_changed hle hchanged
        rw [hlength] at hwindow
        exact ha hl hwindow
      capacity := Memory.storeBytes_capacity ..
      cpsr := h.cpsr
      spsr := h.spsr
      mode := h.mode
      out := h.out }
  · have hload : ¬ getBit ins 20 = 0 := by rw [hl]; decide
    rw [transfer_load hl, h.mem]
    exact {
      loaded := fun _ t hslot => (get_armWriteRegister ..).trans (if_pos (by rwa [h.mode]))
      stored := fun hstore => absurd hstore hload
      base := by
        intro hw t hslot
        refine (get_armWriteRegister ..).trans ?_
        rw [h.mode, if_neg (slot_ne_of_ne (hbase hw) hslot), h.get, if_pos ⟨hw, hslot⟩]
      others := by
        intro t hrd hrn
        refine (get_armWriteRegister ..).trans ?_
        rw [h.mode, if_neg (hrd hl), h.get, if_neg fun hboth => hrn hboth.1 hboth.2]
      memory := fun a _ => congrArg (Memory.data · a) h.mem
      capacity := congrArg Memory.capacity h.mem
      cpsr := (armWriteRegister_cpsr ..).trans h.cpsr
      spsr := (armWriteRegister_spsr ..).trans h.spsr
      mode := (armWriteRegister_currentMode ..).trans h.mode
      out := h.out }

end Effect

/-! ## Indexed transfers -/

section Indexed

variable {p : ArmCore} {ins address : Word}

/-- **A transfer is right if its address is**: with bit 24 set, a base that is written back
different from `Rd`, and the access inside memory, the step returns 0 and is the transfer at the
address of the code. -/
theorem transferred_of_access (junk : Word) (hins : Executes p ins)
    (haccess : accessAddress p.fetched ins = some address) (hp : getBit ins 24 = 1)
    (hbase : getBit ins 21 = 1 → getBits ins 19 16 ≠ getBits ins 15 12)
    (hinside : address.toNat + accessWidth ins ≤ p.mem.capacity.toNat) :
    ∃ q, armStep p junk = some (0, q) ∧ Transferred p.fetched ins address q := by
  have hne : getBit ins 21 = 1 → u8 (getBits ins 15 12) ≠ u8 (getBits ins 19 16) := by
    intro hw heq
    exact hbase hw (registerField_inj ins 16 12 heq.symm)
  have hwritten := @accessState_baseWritten p.fetched ins address (mode_of_access haccess) hp hne
  refine ⟨_, ?_, hwritten.transferred hne⟩
  have hexec : armExecuteInstruction p junk =
      some (0, transfer (accessState p.fetched ins address) ins address) := by
    rw [hins.dispatched, dispatch_of_access haccess, processAccess_inside]
    rw [hwritten.mem]
    exact hinside
  rw [armStep_of_execute hexec]
  rfl

/-- The registers that a transfer names read as it leaves them, in a mode that has them. -/
theorem Transferred.read {q : ArmCore} (h : Transferred p ins address q)
    (hvalid : ValidMode p.reg.currentMode) :
    (getBit ins 20 = 1 → getBits ins 15 12 ≠ 15 → armReadRegister q (u8 (getBits ins 15 12)) =
        BitVec.ofNat 32 (decode .big (p.mem.bytesAt address (accessWidth ins)))) ∧
      (getBit ins 21 = 1 → getBits ins 19 16 ≠ 15 →
        armReadRegister q (u8 (getBits ins 19 16)) = address) := by
  have hread : ∀ (l : ℕ) (value : Word), getBits ins (l + 3) l ≠ 15 →
      (∀ t, slot (u8 (getBits ins (l + 3) l)) p.reg.currentMode = some t → q.reg.get t = value) →
        armReadRegister q (u8 (getBits ins (l + 3) l)) = value := by
    intro l value hne hget
    have hlt := toNat_registerField ins l
    have hnumber : (u8 (getBits ins (l + 3) l)).toNat < 16 := by rwa [toNat_u8 (by omega)]
    obtain ⟨t, hslot⟩ := slot_isSome hnumber hvalid
    rw [armReadRegister_of_slot (registerField_ne_pc ins l hne) (by rw [h.mode, hslot]),
      hget t hslot]
  exact ⟨fun hl hne => hread 12 _ hne (h.loaded hl), fun hw hne => hread 16 _ hne (h.base hw)⟩

end Indexed

/-! ## Words and bytes -/

/-- `Rn` plus or minus an offset. -/
def indexedAddress (p : ArmCore) (ins offset : Word) : Word :=
  if getBit ins 23 = 1 then armReadRegister p (u8 (getBits ins 19 16)) + offset
  else armReadRegister p (u8 (getBits ins 19 16)) - offset

/-- What a word or byte transfer with bit 24 set should be: the two decodings of the offset agree,
the access is at the indexed address, and inside memory the step returns 0 and is the transfer at
that address.  The last two parts are what the registers read as afterwards; the mode has to have
them for that. -/
structure IndexedTransfer (p : ArmCore) (ins junk address : Word) : Prop where
  decoding : memoryOperationKind ins = (determineAddressingModeLdrStr ins).offsetKind
  access : accessAddress p.fetched ins = some address
  inside : address.toNat + accessWidth ins ≤ p.mem.capacity.toNat →
    ∃ q, armStep p junk = some (0, q) ∧ Transferred p.fetched ins address q ∧
      (getBit ins 20 = 1 → armReadRegister q (u8 (getBits ins 15 12)) =
        BitVec.ofNat 32 (decode .big (p.mem.bytesAt address (accessWidth ins)))) ∧
      (getBit ins 21 = 1 → armReadRegister q (u8 (getBits ins 19 16)) = address)

section Words

variable {p : ArmCore} {ins junk : Word}

/-- The two decoders agree: the class of the instruction and a defined addressing mode are the
pattern. -/
theorem isSingleTransfer_of_type (htype : (getBits ins 27 26).toNat = 1)
    (h : determineAddressingModeLdrStr ins ≠ .undefined) : IsSingleTransfer ins := by
  have hcategory : (getBits ins 27 25).toNat = 2 + (getBit ins 25).toNat := by
    rw [toNat_getBits] at htype ⊢
    rw [toNat_getBit]
    omega
  rcases getBit_cases ins 25 with hi | hi
  · exact Or.inl (by rw [hcategory, hi]; rfl)
  · exact Or.inr ⟨by rw [hcategory, hi]; rfl, getBit_four_of_mode h hi⟩

/-- No instruction is of both kinds. -/
theorem IsSingleTransfer.not_half (h : IsSingleTransfer ins) : ¬ IsHalfTransfer ins := by
  rintro ⟨hzero, -⟩
  rw [IsSingleTransfer, hzero] at h
  rcases h with h | ⟨h, -⟩ <;> cases h

/-- With a register offset bit 4 is clear; with it set the word is undefined. -/
theorem IsSingleTransfer.bit4 (h : IsSingleTransfer ins) (hbit : getBit ins 25 = 1) :
    getBit ins 4 = 0 := by
  refine h.elim (fun htwo => ?_) fun hthree => hthree.2
  -- bit 25 is the lowest bit of the category
  rw [toNat_getBits] at htwo
  rw [getBit_eq_iff] at hbit
  simp only [BitVec.ofNat_eq_ofNat, BitVec.toNat_ofNat] at hbit
  omega

/-- The class by which the dispatcher finds the function. -/
theorem IsSingleTransfer.type (h : IsSingleTransfer ins) : (getBits ins 27 26).toNat = 1 :=
  h.elim type_of_category fun h => type_of_category h.1

/-- **The address of a word or byte** is that of the instruction set, whatever the indexing: in the
code the access is at the indexed address also when the transfer is post-indexed. -/
theorem accessAddress_single (p : ArmCore) (hins : IsSingleTransfer ins)
    (h : determineAddressingModeLdrStr ins ≠ .undefined) :
    accessAddress p ins = some (indexedAddress p ins (wordOffset p ins)) := by
  rw [accessAddress, if_pos ⟨Or.inl hins, h⟩, codeOffset, if_neg hins.not_half,
    memoryOperationOffset_eq p hins.type h]
  rfl

/-- **Offset and pre-indexed transfers of words and bytes are right**, for every state and every
word that `handle_ldr_str` accepts: the address is `Rn` plus or minus the offset.  A base that is
written back has to differ from `Rd` and from `R15`. -/
theorem singleTransfer_indexed (hvalid : ValidMode p.reg.currentMode) (hins : Executes p ins)
    (htype : (getBits ins 27 26).toNat = 1) (hp : getBit ins 24 = 1)
    (haccepted : determineAddressingModeLdrStr ins ≠ .undefined) (hrd : getBits ins 15 12 ≠ 15)
    (hbase : getBit ins 21 = 1 →
      getBits ins 19 16 ≠ 15 ∧ getBits ins 19 16 ≠ getBits ins 15 12) :
    IndexedTransfer p ins junk (indexedAddress p.fetched ins (wordOffset p.fetched ins)) := by
  have hsingle := isSingleTransfer_of_type htype haccepted
  have haccess := accessAddress_single p.fetched hsingle haccepted
  refine ⟨?_, haccess, fun hinside => ?_⟩
  · rw [memoryOperationKind_eq htype haccepted, determineAddressingModeLdrStr_eq haccepted,
      AddressingMode.offsetKind_make]
  · obtain ⟨q, hstep, hq⟩ := transferred_of_access junk hins haccess hp (fun hw => (hbase hw).2)
      hinside
    have hread := hq.read (by rwa [fetched_currentMode])
    exact ⟨q, hstep, hq, fun hl => hread.1 hl hrd, fun hw => hread.2 hw (hbase hw).1⟩

/-- `STR r0, [r1, #4]!` at address 0. -/
theorem singleTransfer_indexed_str :
    IndexedTransfer (ArmCore.load 0x1d3 [0xE5A10004]) 0xE5A10004 0 4 ∧
      ∃ q, armStep (ArmCore.load 0x1d3 [0xE5A10004]) 0 = some (0, q) ∧
        armReadRegister q 1 = 4 := by
  have h : IndexedTransfer (ArmCore.load 0x1d3 [0xE5A10004]) 0xE5A10004 0 4 :=
    singleTransfer_indexed ⟨.svc, by decide⟩ ⟨by decide, by decide⟩ (by decide) (by decide)
      (by decide) (by decide) (by decide)
  obtain ⟨q, hstep, -, -, hbase⟩ := h.inside (by decide)
  exact ⟨h, q, hstep, hbase (by decide)⟩

end Words

end ArmSimulator
