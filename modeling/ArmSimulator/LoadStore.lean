import ArmSimulator.Exception

/-!
# Loads and stores (`arm_load_store.c`, `load_store_*_operations.c`)

Single transfers: the addressing mode is determined twice, once by
`determine_addressing_mode_ldr_str` to choose a handler (of which only the write-back flag matters)
and once by the tests of `handle_memory_operation` to choose the offset.  The half-word transfers
use the first of these functions too.

Multiple transfers: `start_end_adresse` and the loops of `arm_load_store_multiple`.  The local
`value` of the LDM branch is uninitialised until a read succeeds; its initial contents are the
parameter `junk`.  The model returns `none` where the C code fails an `assert` and the process ends.

The handlers are as the source has them, with two things to note.

* An access that is refused returns -1, and every caller drops that result or returns it as it is;
  no data abort comes of it.
* In the increment-after branch of `start_end_adresse` the variable that is raised is the *number*
  of the base register, where the three other branches raise its value.

The loops run over the register numbers `0 … 14` in a list, so that what they do is proved by
induction on that list (`stmLoop_rel`, `ldmLoop_rel`); `R15` is loaded after the loop and never
stored.
-/

namespace ArmSimulator

/-! ## Addressing -/

/-- The addressing modes of `load_store_addressing_operations.h`; `undefined` is
`UNDEFINED_INSTRUCTION`. -/
inductive AddressingMode
  | immediatePostIndexed | registerPostIndexed | scaledRegisterPostIndexed
  | immediateOffset | registerOffset | scaledRegisterOffset
  | immediatePreIndexed | registerPreIndexed | scaledRegisterPreIndexed
  | undefined
  deriving DecidableEq, Repr

/-- `calculate_address`: the base read as a register, so that a base `R15` is 8 ahead, plus or minus
the offset. -/
def calculateAddress (p : ArmCore) (rn offset u : Word) : Word :=
  let address := armReadRegister p (u8 rn)
  if u = 1 then address + offset else address - offset

/-- `calculate_address_scaled_register`; the two-bit `shift` is 0, 1, 2 or 3. -/
def calculateAddressScaledRegister (rmValue shift shiftImm cFlag : Word) : Word :=
  if shift = 0 then logicalShiftLeft rmValue (u8 shiftImm)
  else if shift = 1 then
    if shiftImm = 0 then 0 else logicalShiftRight rmValue (u8 shiftImm)
  else if shift = 2 then
    if shiftImm = 0 then (if getBit rmValue 31 = 1 then 0xFFFFFFFF else 0)
    else asr rmValue (u8 shiftImm)
  else
    if shiftImm = 0 then logicalShiftLeft cFlag 31 ||| logicalShiftRight rmValue 1
    else ror rmValue (u8 shiftImm)

/-- `determine_addressing_mode_ldr_str`, by the bits P, W and I.  P clear with W set is not
supported.  A half-word transfer has bit 25 clear whatever its offset is, and comes out as an
immediate one. -/
def determineAddressingModeLdrStr (ins : Word) : AddressingMode :=
  let p := getBit ins 24
  let w := getBit ins 21
  let i := getBit ins 25
  let bit11_4 := getBits ins 11 4
  let bit4 := getBit ins 4
  if p = 0 then
    if w = 0 then
      if i = 0 then .immediatePostIndexed
      else if bit11_4 = 0 then .registerPostIndexed
      else if bit4 = 0 then .scaledRegisterPostIndexed
      else .undefined
    else .undefined
  else if w = 0 then
    if i = 0 then .immediateOffset
    else if bit11_4 = 0 then .registerOffset
    else if bit4 = 0 then .scaledRegisterOffset
    else .undefined
  else
    if i = 0 then .immediatePreIndexed
    else if bit11_4 = 0 then .registerPreIndexed
    else if bit4 = 0 then .scaledRegisterPreIndexed
    else .undefined

/-- `is_register_offset`. -/
def isRegisterOffset (ins : Word) : Bool := getBits ins 27 25 = 3 && getBits ins 11 4 = 0

/-- `is_scaled_register_offset`, asked after `is_register_offset`, whose words it contains. -/
def isScaledRegisterOffset (ins : Word) : Bool := getBits ins 27 25 = 3 && getBit ins 4 = 0

/-- `is_immediate_offset`. -/
def isImmediateOffset (ins : Word) : Bool := getBits ins 27 25 = 2

/-! ## The memory access -/

/-- `process_memory_access`: a load or a store of a word or a byte.  A load that is refused writes
no register, and the -1 is handed on. -/
def processMemoryAccess (p : ArmCore) (address loadStore b rd : Word) : Int × ArmCore :=
  if loadStore = 0 then
    if b = 0 then armWriteWord p address (armReadRegister p (u8 rd))
    else armWriteByte p address (u8 (armReadRegister p (u8 rd)))
  else if b = 0 then
    match armReadWord p address with
    | some chargedValue => (0, armWriteRegister p (u8 rd) chargedValue)
    | none => (-1, p)
  else
    match armReadByte p address with
    | some chargedValue => (0, armWriteRegister p (u8 rd) (u32 chargedValue))
    | none => (-1, p)

/-- `process_memory_access_half`.  A half-word is loaded with zeros above it. -/
def processMemoryAccessHalf (p : ArmCore) (address loadStore rd : Word) : Int × ArmCore :=
  if loadStore = 0 then
    armWriteHalf p address ((armReadRegister p (u8 rd)).setWidth 16)
  else
    match armReadHalf p address with
    | some value => (0, armWriteRegister p (u8 rd) (value.setWidth 32))
    | none => (-1, p)

/-- The base register write-back of the single transfers, done before the access, whether that
succeeds or not. -/
def writeBack (p : ArmCore) (enabled : Bool) (rn address : Word) : ArmCore :=
  if enabled then armWriteRegister p (u8 rn) address else p

/-- The offset chosen by `handle_memory_operation`, `none` for an unsupported
type. -/
def memoryOperationOffset (p : ArmCore) (ins : Word) : Option Word :=
  let rm := getBits ins 3 0
  if isRegisterOffset ins then some (armReadRegister p (u8 rm))
  else if isScaledRegisterOffset ins then
    let cFlag := getBit (armReadCpsr p) 29
    some (calculateAddressScaledRegister (armReadRegister p (u8 rm)) (getBits ins 6 5)
      (getBits ins 11 7) cFlag)
  else if isImmediateOffset ins then some (getBits ins 11 0)
  else none

/-- `handle_memory_operation`.  There is one address, which is both where the access is made and
what is written back; post-indexing makes no difference to it. -/
def handleMemoryOperation (p : ArmCore) (ins : Word) (write : Bool) : Int × ArmCore :=
  let rd := getBits ins 15 12
  let rn := getBits ins 19 16
  let u := getBit ins 23
  let loadStore := getBit ins 20
  let b := getBit ins 22
  match memoryOperationOffset p ins with
  | none => (-1, p)
  | some offset =>
      let address := calculateAddress p rn offset u
      let p := writeBack p write rn address
      processMemoryAccess p address loadStore b rd

/-- `handle_ldr_str`; the nine handlers it chooses from only pass on the
write-back flag. -/
def handleLdrStr (p : ArmCore) (ins : Word) : Int × ArmCore :=
  match determineAddressingModeLdrStr ins with
  | .immediatePostIndexed | .registerPostIndexed | .scaledRegisterPostIndexed =>
      handleMemoryOperation p ins true
  | .immediateOffset | .registerOffset | .scaledRegisterOffset =>
      handleMemoryOperation p ins false
  | .immediatePreIndexed | .registerPreIndexed | .scaledRegisterPreIndexed =>
      handleMemoryOperation p ins true
  | .undefined => (UNDEFINED_INSTRUCTION, p)

/-- The common body of `handle_immediate_common_ldrh_strh` and
`handle_register_common_ldrh_strh`. -/
def handleCommonLdrhStrh (p : ArmCore) (ins offset : Word) (write : Bool) : Int × ArmCore :=
  let rd := getBits ins 15 12
  let rn := getBits ins 19 16
  let u := getBit ins 23
  let loadStore := getBit ins 20
  let address := calculateAddress p rn offset u
  let p := writeBack p write rn address
  processMemoryAccessHalf p address loadStore rd

/-- `handle_immediate_common_ldrh_strh`: the offset is in two halves, bits 11 … 8 and 3 … 0. -/
def handleImmediateCommonLdrhStrh (p : ArmCore) (ins : Word) (write : Bool) : Int × ArmCore :=
  let immedL := getBits ins 3 0
  let immedH := getBits ins 11 8
  handleCommonLdrhStrh p ins (logicalShiftLeft immedH 4 ||| immedL) write

/-- `handle_register_common_ldrh_strh`.  No word leads here, since the addressing mode of a
half-word transfer is always an immediate one. -/
def handleRegisterCommonLdrhStrh (p : ArmCore) (ins : Word) (write : Bool) : Int × ArmCore :=
  handleCommonLdrhStrh p ins (armReadRegister p (u8 (getBits ins 3 0))) write

/-- `handle_ldrh_strh`: it calls the function of LDR and STR for the addressing
mode, which looks at bit 25. -/
def handleLdrhStrh (p : ArmCore) (ins : Word) : Int × ArmCore :=
  match determineAddressingModeLdrStr ins with
  | .immediatePostIndexed => handleImmediateCommonLdrhStrh p ins true
  | .registerPostIndexed => handleRegisterCommonLdrhStrh p ins true
  | .immediateOffset => handleImmediateCommonLdrhStrh p ins false
  | .registerOffset => handleRegisterCommonLdrhStrh p ins false
  | .immediatePreIndexed => handleImmediateCommonLdrhStrh p ins true
  | .registerPreIndexed => handleRegisterCommonLdrhStrh p ins true
  | _ => (UNDEFINED_INSTRUCTION, p)

/-- `arm_load_store`, with `determine_instruction_type`: bits 27 and 26 tell the words and bytes
from the half-words. -/
def armLoadStore (p : ArmCore) (ins : Word) : Int × ArmCore :=
  let type := getBits ins 27 26
  if type = 1 then handleLdrStr p ins
  else if type = 0 then handleLdrhStrh p ins
  else (UNDEFINED_INSTRUCTION, p)

/-! ## Multiple transfers -/

/-- The loop of `count_set_bits`, at most `fuel` times round.  Each round adds the lowest bit and
shifts. -/
def countSetBitsLoop : ℕ → Word → ℕ
  | 0, _ => 0
  | fuel + 1, regList =>
      if regList = 0 then 0
      else (regList &&& 1).toNat + countSetBitsLoop fuel (regList >>> 1)

/-- `count_set_bits`.  The C loop ends when no bit is left, after 32 shifts at the latest. -/
def countSetBits (regList : Word) : ℕ := countSetBitsLoop 32 regList

/-- What `start_end_adresse` stores through its pointers, and the state. -/
structure BlockAddresses where
  startAdr : Word
  endAdr : Word
  core : ArmCore

/-- `start_end_adresse`.  In the first branch `Rn` is the register *number*: the number is what is
raised by the size of the block, and the register of the raised number gets the old base. -/
def startEndAdresse (p : ArmCore) (pBit uBit rn regList w : Word) : BlockAddresses :=
  let bytes : Word := BitVec.ofNat 32 (countSetBits regList * 4)
  let valRn := armReadRegister p (u8 rn)
  if pBit = 0 ∧ uBit = 1 then
    let endAdr := (rn + bytes) - 4
    let rn := if w = 1 then rn + bytes else rn
    ⟨valRn, endAdr, armWriteRegister p (u8 rn) valRn⟩
  else if pBit = 1 ∧ uBit = 1 then
    let written := if w = 1 then valRn + bytes else valRn
    ⟨valRn + 4, valRn + bytes, armWriteRegister p (u8 rn) written⟩
  else if pBit = 0 ∧ uBit = 0 then
    let written := if w = 1 then valRn - bytes else valRn
    ⟨valRn - bytes + 4, valRn, armWriteRegister p (u8 rn) written⟩
  else
    let written := if w = 1 then valRn - bytes else valRn
    ⟨valRn - bytes, valRn - 4, armWriteRegister p (u8 rn) written⟩

/-- The STM loop over the register numbers of a list: the results of the writes
are ignored. -/
def stmLoop (regList : Word) : List ℕ → ArmCore → Word → ArmCore
  | [], p, _ => p
  | i :: is, p, address =>
      if getBit regList i = 1 then
        let value := armReadRegister p (BitVec.ofNat 8 i)
        stmLoop regList is (armWriteWord p address value).2 (address + 4)
      else stmLoop regList is p address

/-- The locals of the LDM loop, with the state.  The local `value` outlives a round, which is seen
when a read fails. -/
structure LdmState where
  core : ArmCore
  address : Word
  value : Word

/-- One transfer of the LDM loop: a failed read leaves `value` as it was, and
`value` is written to the register all the same. -/
def LdmState.transfer (s : LdmState) (mask : Word) (reg : Byte) : LdmState :=
  let value := (armReadWord s.core s.address).getD s.value &&& mask
  { core := armWriteRegister s.core reg value, address := s.address + 4, value := value }

/-- The LDM loop over the register numbers of a list.  Each listed register takes the next word. -/
def ldmLoop (regList : Word) : List ℕ → LdmState → LdmState
  | [], s => s
  | i :: is, s =>
      if getBit regList i = 1 then
        ldmLoop regList is (s.transfer 0xFFFFFFFF (BitVec.ofNat 8 i))
      else ldmLoop regList is s

/-- `arm_load_store_multiple`.  The base is written back before the first transfer, so a stored base
is the new one; `R15` in the list of an LDM is loaded with bit 0 cleared, and is followed by the
`assert` on the end of the block. -/
def armLoadStoreMultiple (p : ArmCore) (ins junk : Word) : Option (Int × ArmCore) :=
  let regList := getBits ins 15 0
  let adr := startEndAdresse p (getBit ins 24) (getBit ins 23) (getBits ins 19 16) regList
    (getBit ins 21)
  if getBit ins 20 = 0 then
    some (0, stmLoop regList (List.range 15) adr.core adr.startAdr)
  else
    let s := ldmLoop regList (List.range 15) ⟨adr.core, adr.startAdr, junk⟩
    if getBit regList 15 = 1 then
      let s := s.transfer 0xFFFFFFFE 15
      -- assert(end_adr == address - 4)
      if adr.endAdr = s.address - 4 then some (0, s.core) else none
    else some (0, s.core)

/-- `arm_coprocessor_load_store`. -/
def armCoprocessorLoadStore (p : ArmCore) (_ins : Word) : Int × ArmCore :=
  (UNDEFINED_INSTRUCTION, p)

/-! ## What the handlers do

The nine handlers of LDR and STR differ in what they write back and in nothing else. -/

/-- The addressing modes whose handler writes the base back. -/
def AddressingMode.writesBack : AddressingMode → Bool
  | .immediateOffset | .registerOffset | .scaledRegisterOffset | .undefined => false
  | _ => true

section Handlers

variable (p : ArmCore) {ins : Word}

/-- The handlers of LDR and STR differ in the write-back alone. -/
theorem handleLdrStr_eq (ins : Word) :
    handleLdrStr p ins =
      if determineAddressingModeLdrStr ins = .undefined then (UNDEFINED_INSTRUCTION, p)
      else handleMemoryOperation p ins (determineAddressingModeLdrStr ins).writesBack := by
  rw [handleLdrStr]
  cases determineAddressingModeLdrStr ins <;> rfl

/-- With bit 25 clear the addressing mode is an immediate one, or undefined. -/
theorem addressingMode_of_bit25 (h : getBit ins 25 = 0) :
    determineAddressingModeLdrStr ins = .immediatePostIndexed ∨
      determineAddressingModeLdrStr ins = .immediateOffset ∨
      determineAddressingModeLdrStr ins = .immediatePreIndexed ∨
      determineAddressingModeLdrStr ins = .undefined := by
  unfold determineAddressingModeLdrStr
  dsimp only
  rw [if_pos h, if_pos h, if_pos h]
  split_ifs <;> simp

/-- The half-word transfers have bit 25 clear, and so an immediate offset. -/
theorem handleLdrhStrh_eq (h : getBit ins 25 = 0) :
    handleLdrhStrh p ins =
      if determineAddressingModeLdrStr ins = .undefined then (UNDEFINED_INSTRUCTION, p)
      else handleImmediateCommonLdrhStrh p ins (determineAddressingModeLdrStr ins).writesBack := by
  rw [handleLdrhStrh]
  rcases addressingMode_of_bit25 h with hmode | hmode | hmode | hmode <;> rw [hmode] <;> rfl

end Handlers

/-! ## What the loops do

A rule for each loop: a relation that one transfer keeps is kept by the loop.  The frames and the
invariants of multiple transfers are instances. -/

/-- The address of the first word of a multiple transfer.  The words follow one another upwards, in
the order of the register numbers. -/
def blockStart (p : ArmCore) (ins : Word) : Word :=
  (startEndAdresse p (getBit ins 24) (getBit ins 23) (getBits ins 19 16) (getBits ins 15 0)
    (getBit ins 21)).startAdr

/-- The number of the registers among `is` that a list names. -/
def countListed (regList : Word) (is : List ℕ) : ℕ := is.countP fun i => getBit regList i = 1

theorem countListed_cons (regList : Word) (i : ℕ) (is : List ℕ) :
    countListed regList (i :: is) =
      countListed regList is + if getBit regList i = 1 then 1 else 0 := by
  simp [countListed, List.countP_cons]

theorem countListed_range_succ (regList : Word) (n : ℕ) :
    countListed regList (List.range (n + 1)) =
      countListed regList (List.range n) + if getBit regList n = 1 then 1 else 0 := by
  rw [List.range_succ, countListed, List.countP_append]
  simp [countListed, List.countP_cons]

/-- **A run of stores** stays in a relation that each store keeps. -/
theorem stmLoop_rel {R : ArmCore → ArmCore → Prop} (hrefl : ∀ p, R p p)
    (htrans : ∀ p q r, R p q → R q r → R p r)
    (hstore : ∀ p address value, R p (armWriteWord p address value).2) (regList : Word) :
    ∀ (is : List ℕ) (p : ArmCore) (address : Word), R p (stmLoop regList is p address) := by
  intro is
  induction is with
  | nil => exact fun p _ => hrefl p
  | cons i is ih =>
      intro p address
      rw [stmLoop]
      split_ifs
      · exact htrans _ _ _ (hstore p address _) (ih _ _)
      · exact ih p address

/-- **A run of loads** stays in a relation that each transfer keeps. -/
theorem ldmLoop_rel {R : ArmCore → ArmCore → Prop} (hrefl : ∀ p, R p p)
    (htrans : ∀ p q r, R p q → R q r → R p r)
    (htransfer : ∀ (s : LdmState) mask reg, R s.core (s.transfer mask reg).core) (regList : Word) :
    ∀ (is : List ℕ) (s : LdmState), R s.core (ldmLoop regList is s).core := by
  intro is
  induction is with
  | nil => exact fun s => hrefl s.core
  | cons i is ih =>
      intro s
      rw [ldmLoop]
      split_ifs
      · exact htrans _ _ _ (htransfer s _ _) (ih (s.transfer _ _))
      · exact ih s

/-- The LDM loop writes no memory. -/
theorem ldmLoop_mem (regList : Word) :
    ∀ (is : List ℕ) (s : LdmState), (ldmLoop regList is s).core.mem = s.core.mem :=
  @ldmLoop_rel (fun p q => q.mem = p.mem) (fun _ => rfl) (fun _ _ _ hpq hqr => hqr.trans hpq)
    (fun _ _ _ => rfl) regList

/-- The LDM loop advances by one word for each listed register. -/
theorem ldmLoop_address (regList : Word) :
    ∀ (is : List ℕ) (s : LdmState), (ldmLoop regList is s).address =
      s.address + BitVec.ofNat 32 (4 * countListed regList is) := by
  intro is
  induction is with
  | nil => exact fun s => (BitVec.add_zero s.address).symm
  | cons i is ih =>
      intro s
      rw [ldmLoop, countListed_cons]
      split_ifs with hbit
      · rw [ih, Nat.mul_add, Nat.add_comm, BitVec.ofNat_add, ← BitVec.add_assoc]
        rfl
      · rw [ih, Nat.add_zero]

end ArmSimulator
