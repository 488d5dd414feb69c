import ArmSimulator.Assembly.DataProcessing
import ArmSimulator.MultipleTransfers
import ArmSimulator.TransferAddresses

/-!
# Assembly: transfers

The handlers for transfers do what the machine does with LDR, STR, LDRB, STRB, LDRH and STRH, and
with LDM and STM.

A single transfer is one access at the address of the code, after the base has been written back
(`transfer_becomes`).  The six instructions go through two handlers of the code and have three forms
of an offset; what they share is stated once, on the fields of the word, and an instruction is then
its width and its offset.

The two loops of the multiple transfers store and load the registers of the list one by one, as the
machine does (`stmLoop_becomes`, `ldmLoop_becomes`).  The code counts registers and addresses in its
loop; the machine goes over a list, and the two are connected by `listedAmong`, the part of the list
whose numbers the loop has still to come to.

A transfer of the language lies in memory as a whole (`Room`), so no access fails.  For "increment
after" with write-back the code writes another register than the base, and the language has no such
instruction.
-/

namespace ArmSimulator.Assembly

/-! ## Single transfers

The address of the access, the base afterwards, and the access.  A stored register is read after the
base has been written back, which makes no difference since the two are not the same. -/

section Single

variable {p : ArmCore} {ins junk x : Word} {category width : ℕ} {u b w l : Bool}
  {rn rd : Register} {t : State}

/-- What a transfer of the machine asks for, and what it does. -/
theorem State.transfer_eq_some {s : State} (h : s.transfer width l u w rn rd x = some t) :
    ∃ address, address = (if u then s.read rn + x else s.read rn - x) ∧
      (w = true → rn ≠ rd) ∧ address.toNat + width ≤ s.mem.capacity.toNat ∧
      t = if l then (if w then s.next.write rn address else s.next).write rd (s.load address width)
        else (if w then s.next.write rn address else s.next).store address width (s.read rd) := by
  rw [State.transfer] at h
  dsimp only at h
  refine ⟨_, rfl, ?_⟩
  generalize (if u then s.read rn + x else s.read rn - x) = address at h ⊢
  by_cases hbase : w = true ∧ (rn = 15 ∨ rn = rd)
  · rw [if_pos hbase] at h
    cases h
  · rw [if_neg hbase] at h
    by_cases hroom : s.mem.capacity.toNat < address.toNat + width
    · rw [if_pos hroom] at h
      cases h
    · rw [if_neg hroom] at h
      exact ⟨fun hw heq => hbase ⟨hw, Or.inr heq⟩, Nat.not_lt.mp hroom, (Option.some.inj h).symm⟩

/-- Where the code makes the access. -/
theorem TransferFields.accessed (h : TransferFields ins category u b w l rn rd)
    (haligned : WordAligned p.reg.pc) (offset : Word) :
    calculateAddress p.fetched (getBits ins 19 16) offset (getBit ins 23) =
      if u then (view p).read rn + offset else (view p).read rn - offset := by
  rw [calculateAddress, h.rn, read_fetched haligned, h.u]
  cases u <;> rfl

/-- The base is written back as the bit W says. -/
theorem TransferFields.written (h : TransferFields ins category u b w l rn rd) (hready : Ready p)
    (hmode : determineAddressingModeLdrStr ins ≠ .undefined) (address : Word) :
    Becomes 1 p (accessState p.fetched ins address)
      (if w then (view p).next.write rn address else (view p).next) := by
  have hflag : (determineAddressingModeLdrStr ins).writesBack = w := by
    rw [writesBack_eq hmode, h.p, h.w]
    cases w <;> rfl
  rw [accessState, hflag, writeBack, h.rn]
  cases w with
  | true => exact (Becomes.fetched hready).write rn address
  | false => exact Becomes.fetched hready

/-- A base that is written back is not the register that is stored. -/
theorem TransferFields.read_written (h : TransferFields ins category u b w l rn rd)
    (haligned : WordAligned p.reg.pc) (hbase : w = true → rn ≠ rd)
    (hmode : determineAddressingModeLdrStr ins ≠ .undefined) (address : Word) :
    armReadRegister (accessState p.fetched ins address) rd.number = (view p).read rd := by
  rw [← read_fetched haligned, accessState, writesBack_eq hmode, h.p, h.w, writeBack, h.rn]
  cases w with
  | true =>
      exact armReadRegister_write_of_ne _ _ fun heq => hbase rfl (Register.number_inj.mp heq).symm
  | false => rfl

/-- **A single transfer** whose address the code computes.  The width and the offset are parameters,
so it serves all six instructions. -/
theorem transfer_becomes (hready : Ready p) (haligned : WordAligned p.reg.pc)
    (h : TransferFields ins category u b w l rn rd) (hwidth : accessWidth ins = width)
    (haccess : accessAddress p.fetched ins =
      some (if u then (view p).read rn + x else (view p).read rn - x))
    (ht : (view p).transfer width l u w rn rd x = some t) :
    ∃ q, dispatch p.fetched ins junk = some (0, q) ∧ Becomes 1 p q t := by
  obtain ⟨address, haddress, hbase, hroom, rfl⟩ := State.transfer_eq_some ht
  rw [← haddress] at haccess
  have hmode := mode_of_access haccess
  have hwritten := h.written hready hmode address
  have hmem : (accessState p.fetched ins address).mem = p.mem := by
    rw [accessState, writeBack]
    split_ifs <;> rfl
  have hinside : address.toNat + accessWidth ins ≤
      (accessState p.fetched ins address).mem.capacity.toNat := by
    rw [hwidth, hmem]
    exact hroom
  rw [dispatch_of_access haccess, processAccess_inside hinside]
  refine ⟨_, rfl, ?_⟩
  rw [ArmSimulator.transfer, h.l, h.rd, hwidth, h.read_written haligned hbase hmode, hmem]
  cases l with
  | true => exact hwritten.write rd _
  | false =>
      have hstored := hwritten.memory
        (p.mem.storeBytes address (ByteOrder.encode .big width ((view p).read rd).toNat))
      cases w <;> exact hstored

/-- **The offset of a shifted register** in both of the kinds the code distinguishes. -/
theorem wordOffset_shifted (haligned : WordAligned p.reg.pc) {kind : Shifter.Kind}
    {amount : BitVec 5} {rm : Register} (hcategory : (getBits ins 27 25).toNat = 3)
    (h : ShiftFields ins amount (kindCode kind) rm)
    (hx : shiftConstant kind amount ((view p).read rm) = some x) :
    wordOffset p.fetched ins = x := by
  have h25 : getBit ins 25 = 1 := by
    rw [toNat_getBits] at hcategory
    rw [getBit_eq_iff]
    show _ = 1
    omega
  have hone : ¬ (1 : Word) = 0 := by decide
  have hrm : rmValue p.fetched ins = (view p).read rm := by
    rw [rmValue, h.rm, read_fetched haligned]
  have hkind := shiftKind_eq h.kind
  rw [wordOffset, offsetKind, h25, if_neg hone]
  split_ifs with hnone
  · -- bits 11 … 4 are zero: a shift to the left by 0
    rw [getBits_eq_iff] at hnone
    have hnone' : ins.toNat / 2 ^ 4 % 2 ^ 8 = 0 := hnone
    have hamount : (getBits ins 11 7).toNat = 0 := by
      rw [toNat_getBits]
      omega
    have hlsl : (getBits ins 6 5).toNat = 0 := by
      rw [toNat_getBits]
      omega
    have hshift := shiftConstant_eq_some hx false
    rw [← hkind, shiftKind, hlsl, ← h.amount, hamount] at hshift
    exact hrm.trans hshift
  · show (Shifter.immediate (shiftKind ins) _ _ _).2 = x
    rw [hkind, hrm, h.amount]
    exact shiftConstant_eq_some hx _

/-- LDR, STR, LDRB and STRB. -/
theorem wordTransfer_becomes (hready : Ready p) (haligned : WordAligned p.reg.pc)
    (h : TransferFields ins category u b w l rn rd) (hsingle : IsSingleTransfer ins)
    (hoffset : wordOffset p.fetched ins = x)
    (ht : (view p).transfer (if b then 1 else 4) l u w rn rd x = some t) :
    ∃ q, dispatch p.fetched ins junk = some (0, q) ∧ Becomes 1 p q t := by
  have hmode := determineAddressingModeLdrStr_ne_undefined (Or.inl h.p) hsingle.bit4
  refine transfer_becomes hready haligned h ?_ ?_ ht
  · rw [accessWidth, if_neg hsingle.not_half, h.b]
    cases b <;> rfl
  · rw [accessAddress_single p.fetched hsingle hmode, hoffset]
    exact congrArg some (h.accessed haligned x)

/-- The two halves of an immediate. -/
theorem halves : ∀ high low : BitVec 4,
    logicalShiftLeft (high.setWidth 32) 4 ||| low.setWidth 32 = (high ++ low).setWidth 32 := by
  decide

/-- LDRH and STRH. -/
theorem halfTransfer_becomes (hready : Ready p) (haligned : WordAligned p.reg.pc)
    {high low : BitVec 4} (h : TransferFields ins 0 u true w l rn rd)
    (hhigh : (getBits ins 11 8).toNat = high.toNat) (hmiddle : (getBits ins 7 4).toNat = 11)
    (hlow : (getBits ins 3 0).toNat = low.toNat)
    (ht : (view p).transfer 2 l u w rn rd ((high ++ low).setWidth 32) = some t) :
    ∃ q, dispatch p.fetched ins junk = some (0, q) ∧ Becomes 1 p q t := by
  have hhalf : IsHalfTransfer ins := ⟨h.category, BitVec.eq_of_toNat_eq hmiddle⟩
  -- BX has bit 22 clear
  have hbranch : ¬ getBits ins 27 20 = 18 := by
    intro heq
    have hb := getBit_eq_iff.mp h.b
    have heq' : ins.toNat / 2 ^ 20 % 2 ^ 8 = 18 := getBits_eq_iff.mp heq
    have hb' : ins.toNat / 2 ^ 22 % 2 = 1 := hb
    omega
  have hoffset : halfImmediate ins = (high ++ low).setWidth 32 := by
    have hhigh' : getBits ins 11 8 = high.setWidth 32 :=
      BitVec.eq_of_toNat_eq (hhigh.trans (BitVec.toNat_setWidth_of_le (by decide)).symm)
    have hlow' : getBits ins 3 0 = low.setWidth 32 :=
      BitVec.eq_of_toNat_eq (hlow.trans (BitVec.toNat_setWidth_of_le (by decide)).symm)
    rw [halfImmediate, hhigh', hlow', halves]
  refine transfer_becomes hready haligned h (if_pos hhalf) ?_ ht
  rw [accessAddress_half p.fetched hhalf (Or.inl h.p), if_neg hbranch, hoffset]
  exact congrArg some (h.accessed haligned _)

end Single

/-! ## The two loops

By induction on the numbers that the loop has still to come to, for any address that has room for
them. -/

/-- The registers of a list whose numbers are among `is`. -/
def listedAmong (regList : BitVec 15) (is : List ℕ) : List Register :=
  (is.filter fun i => regList.getLsbD i).map (BitVec.ofNat 4)

section Loops

variable {p : ArmCore} {regList : BitVec 15} {i : ℕ} {is : List ℕ}

theorem getBit_regList (hi : i < 15) :
    getBit (regList.setWidth 32) i = 1 ↔ regList.getLsbD i = true := by
  have hwidth : i < 32 := by omega
  rw [getBit_eq_one, BitVec.getLsbD_setWidth, decide_eq_true hwidth, Bool.true_and]

/-- The number of a register in the loops. -/
theorem ofNat_number (hi : i < 15) : BitVec.ofNat 8 i = Register.number (BitVec.ofNat 4 i) := by
  apply BitVec.eq_of_toNat_eq
  rw [Register.toNat_number, BitVec.toNat_ofNat, BitVec.toNat_ofNat]
  omega

theorem ofNat_ne_pc (hi : i < 15) : (BitVec.ofNat 4 i : Register) ≠ 15 := by
  intro heq
  have hval := congrArg BitVec.toNat heq
  rw [BitVec.toNat_ofNat] at hval
  have hval' : i % 2 ^ 4 = 15 := hval
  omega

theorem listedAmong_cons : listedAmong regList (i :: is) =
    if regList.getLsbD i then BitVec.ofNat 4 i :: listedAmong regList is
    else listedAmong regList is := by
  cases hbit : regList.getLsbD i with
  | true => rw [listedAmong, List.filter_cons_of_pos hbit, List.map_cons]; rfl
  | false =>
      rw [listedAmong, List.filter_cons_of_neg (by rw [hbit]; exact Bool.false_ne_true)]
      rfl

/-- A block of words lies in memory, and does not wrap round. -/
def Room (mem : Memory) (address : Word) (words : ℕ) : Prop :=
  address.toNat + 4 * words ≤ mem.capacity.toNat ∧ address.toNat + 4 * words ≤ 2 ^ 32

/-- The first word of a block, and the block after it. -/
theorem Room.cons {mem : Memory} {address : Word} {n : ℕ} (h : Room mem address (n + 1)) :
    address.toNat + 4 ≤ mem.capacity.toNat ∧ (n = 0 ∨ Room mem (address + 4) n) := by
  obtain ⟨hcapacity, hwidth⟩ := h
  refine ⟨by omega, (Nat.eq_zero_or_pos n).imp id fun hn => ?_⟩
  have hnext : (address + 4).toNat = address.toNat + 4 := by
    rw [BitVec.toNat_add]
    exact Nat.mod_eq_of_lt (by show _ + 4 < _; omega)
  rw [Room, hnext]
  omega

/-- One store. -/
theorem Becomes.store {n : ℕ} {q : ArmCore} {t : State} (h : Becomes n p q t) {address : Word}
    (hroom : address.toNat + 4 ≤ q.mem.capacity.toNat) (value : Word) :
    Becomes n p (armWriteWord q address value).2 (t.store address 4 value) := by
  have hguard := (guard_word q.mem address (by omega)).mpr hroom
  have hmem : q.mem = t.mem := congrArg State.mem h.view
  have hstored := h.memory (q.mem.storeBytes address (ByteOrder.encode .big 4 value.toNat))
  rw [armWriteWord, memoryWriteWord_eq, if_neg hguard]
  rw [hmem] at hstored ⊢
  exact hstored

/-- One load. -/
theorem load_eq {q : ArmCore} {address : Word}
    (hroom : address.toNat + 4 ≤ q.mem.capacity.toNat) :
    armReadWord q address = some ((view q).load address 4) := by
  have hguard := (guard_word q.mem address (by omega)).mpr hroom
  rw [armReadWord, memoryReadWord_eq, if_neg hguard]
  rfl

/-- **The loop of STM** stores the registers of its list one after the other.  The result of a store
is not looked at by the code; here each succeeds. -/
theorem stmLoop_becomes {n : ℕ} (regList : BitVec 15) (is : List ℕ) (his : ∀ i ∈ is, i < 15) :
    ∀ (q : ArmCore) (t : State) (address : Word), Becomes n p q t →
      (listedAmong regList is = [] ∨ Room q.mem address (listedAmong regList is).length) →
        Becomes n p (stmLoop (regList.setWidth 32) is q address)
          (State.storeWords (listedAmong regList is) address t) := by
  induction is with
  | nil => exact fun _ _ _ h _ => h
  | cons i is ih =>
      intro q t address h hroom
      have hi := his i List.mem_cons_self
      have hrest := ih fun j hj => his j (List.mem_cons_of_mem i hj)
      rw [listedAmong_cons] at hroom ⊢
      rw [stmLoop]
      cases hbit : regList.getLsbD i with
      | false =>
          rw [if_neg fun hset => Bool.false_ne_true (hbit.symm.trans ((getBit_regList hi).mp hset))]
          rw [hbit] at hroom
          exact hrest q t address h hroom
      | true =>
          rw [if_pos ((getBit_regList hi).mpr hbit)]
          rw [hbit, if_pos rfl] at hroom
          obtain ⟨hword, hnext⟩ := (hroom.resolve_left (List.cons_ne_nil _ _)).cons
          have hvalue : armReadRegister q (BitVec.ofNat 8 i) = t.reg (BitVec.ofNat 4 i) := by
            rw [ofNat_number hi, ← view_reg (ofNat_ne_pc hi), h.view]
          have hcapacity := armWriteWord_capacity q address (armReadRegister q (BitVec.ofNat 8 i))
          refine hrest _ _ _ ?_ ?_
          · rw [hvalue]
            exact h.store hword _
          · rw [Room, hcapacity]
            exact hnext.imp List.length_eq_zero_iff.mp id

/-- **The loop of LDM** loads them.  Each read succeeds, so what the local held before is never
seen. -/
theorem ldmLoop_becomes {n : ℕ} (regList : BitVec 15) (is : List ℕ) (his : ∀ i ∈ is, i < 15) :
    ∀ (q : ArmCore) (t : State) (address value : Word), Becomes n p q t →
      (listedAmong regList is = [] ∨ Room q.mem address (listedAmong regList is).length) →
        Becomes n p (ldmLoop (regList.setWidth 32) is ⟨q, address, value⟩).core
          (State.loadWords (listedAmong regList is) address t) := by
  induction is with
  | nil => exact fun _ _ _ _ h _ => h
  | cons i is ih =>
      intro q t address value h hroom
      have hi := his i List.mem_cons_self
      have hrest := ih fun j hj => his j (List.mem_cons_of_mem i hj)
      rw [listedAmong_cons] at hroom ⊢
      rw [ldmLoop]
      cases hbit : regList.getLsbD i with
      | false =>
          rw [if_neg fun hset => Bool.false_ne_true (hbit.symm.trans ((getBit_regList hi).mp hset))]
          rw [hbit] at hroom
          exact hrest q t address value h hroom
      | true =>
          rw [if_pos ((getBit_regList hi).mpr hbit)]
          rw [hbit, if_pos rfl] at hroom
          obtain ⟨hword, hnext⟩ := (hroom.resolve_left (List.cons_ne_nil _ _)).cons
          have hload := load_eq hword
          rw [h.view] at hload
          have hones : t.load address 4 &&& 0xFFFFFFFF = t.load address 4 := BitVec.and_allOnes
          rw [LdmState.transfer, hload, Option.getD_some, hones, ofNat_number hi]
          exact hrest _ _ _ _ (h.write _ _) (hnext.imp List.length_eq_zero_iff.mp id)

end Loops

/-! ## Multiple transfers

The block and the base of each of the modes, and the loop on it. -/

section Multiple

variable {p : ArmCore} {ins junk : Word} {before u w l : Bool} {rn : Register}
  {regList : BitVec 15} {t : State}

/-- Where the block of a multiple transfer begins. -/
def blockBottom (before up : Bool) (base : Word) (n : ℕ) : Word :=
  let bottom := if up then base else base - BitVec.ofNat 32 (4 * n)
  if before = up then bottom + 4 else bottom

/-- The base afterwards. -/
def blockBase (up : Bool) (base : Word) (n : ℕ) : Word :=
  if up then base + BitVec.ofNat 32 (4 * n) else base - BitVec.ofNat 32 (4 * n)

/-- What a multiple transfer of the machine asks for, and what it does. -/
theorem State.multiple_eq_some {s : State} {regs : List Register}
    (h : s.multiple l before u w rn regs = some t) :
    ∃ start, start = blockBottom before u (s.read rn) regs.length ∧ rn ≠ 15 ∧
      ¬ (before = false ∧ u = true ∧ w = true) ∧ Room s.mem start regs.length ∧
      t = (if l then State.loadWords regs start else State.storeWords regs start)
        (if w then s.next.write rn (blockBase u (s.read rn) regs.length) else s.next) := by
  rw [State.multiple] at h
  dsimp only at h
  refine ⟨_, rfl, ?_⟩
  have hstart : blockBottom before u (s.read rn) regs.length =
      if before = u then
        (if u = true then s.read rn else
          if u = true then s.read rn + BitVec.ofNat 32 (4 * regs.length)
          else s.read rn - BitVec.ofNat 32 (4 * regs.length)) + 4
      else if u = true then s.read rn else
        if u = true then s.read rn + BitVec.ofNat 32 (4 * regs.length)
        else s.read rn - BitVec.ofNat 32 (4 * regs.length) := by
    cases u <;> rfl
  rw [← hstart] at h
  generalize blockBottom before u (s.read rn) regs.length = start at h ⊢
  by_cases hbase : rn = 15 ∨ w = true ∧ (rn ∈ regs ∨ u = true ∧ (!before) = true)
  · rw [if_pos hbase] at h
    cases h
  · rw [if_neg hbase] at h
    by_cases hroom : s.mem.capacity.toNat < start.toNat + 4 * regs.length ∨
        2 ^ 32 < start.toNat + 4 * regs.length
    · rw [if_pos hroom] at h
      cases h
    · rw [if_neg hroom] at h
      refine ⟨fun hpc => hbase (Or.inl hpc), ?_, ?_, ?_⟩
      · rintro ⟨rfl, rfl, rfl⟩
        exact hbase (Or.inr ⟨rfl, Or.inr ⟨rfl, rfl⟩⟩)
      · exact ⟨Nat.not_lt.mp fun hlt => hroom (Or.inl hlt),
          Nat.not_lt.mp fun hlt => hroom (Or.inr hlt)⟩
      · rw [← Option.some.inj h]
        cases l <;> rfl

/-- `R15` is not in the list. -/
theorem MultipleFields.not_listed_pc (h : MultipleFields ins before u w l rn regList) :
    ¬ Listed ins 15 := by
  rw [Listed, h.regList, getBit_eq_one, BitVec.getLsbD_setWidth,
    BitVec.getLsbD_of_ge regList 15 (by decide), Bool.and_false]
  exact Bool.false_ne_true

/-- The registers of a list are those that the code counts. -/
theorem MultipleFields.blockWords (h : MultipleFields ins before u w l rn regList) :
    ArmSimulator.blockWords ins = (listed regList).length := by
  have hsucc := countListed_range_succ (getBits ins 15 0) 15
  rw [if_neg (show ¬ getBit (getBits ins 15 0) 15 = 1 from h.not_listed_pc), h.regList] at hsucc
  have hfilter : ((List.range 15).filter fun i => getBit (regList.setWidth 32) i = 1) =
      (List.range 15).filter fun i => regList.getLsbD i :=
    List.filter_congr fun i hi => by
      rw [Bool.eq_iff_iff, decide_eq_true_iff]
      exact getBit_regList (List.mem_range.mp hi)
  rw [blockWords_eq, h.regList, hsucc, countListed, List.countP_eq_length_filter, hfilter, listed,
    List.length_map]
  exact Nat.add_zero _

/-- The base as the code reads it. -/
theorem MultipleFields.baseValue (h : MultipleFields ins before u w l rn regList)
    (haligned : WordAligned p.reg.pc) :
    u8 (getBits ins 19 16) = rn.number ∧
      ArmSimulator.baseValue p.fetched ins = (view p).read rn := by
  have hnumber : u8 (getBits ins 19 16) = rn.number := by
    apply BitVec.eq_of_toNat_eq
    rw [u8, BitVec.toNat_setWidth, h.rn, Register.number, BitVec.toNat_setWidth]
  rw [ArmSimulator.baseValue, hnumber, read_fetched haligned]
  exact ⟨rfl, rfl⟩

/-- The block of the code begins where the machine has it. -/
theorem MultipleFields.firstWord (h : MultipleFields ins before u w l rn regList)
    (haligned : WordAligned p.reg.pc) : ArmSimulator.firstWord p.fetched ins =
      blockBottom before u ((view p).read rn) (listed regList).length := by
  rw [ArmSimulator.firstWord, blockSize, h.blockWords, (h.baseValue haligned).2, h.p, h.u]
  cases before <;> cases u <;> rfl

/-- The base is written back as the bit W says; without it the code writes what is there. -/
theorem MultipleFields.written (h : MultipleFields ins before u w l rn regList) (hready : Ready p)
    (haligned : WordAligned p.reg.pc) (hrn : rn ≠ 15)
    (hmode : ¬ (before = false ∧ u = true ∧ w = true)) :
    Becomes 1 p (blockAddresses p.fetched ins).core (if w then
      (view p).next.write rn (blockBase u ((view p).read rn) (listed regList).length)
      else (view p).next) := by
  obtain ⟨hnumber, hbase⟩ := h.baseValue haligned
  have hraises : ¬ RaisesNumber ins := by
    rw [RaisesNumber, h.p, h.u, h.w]
    refine fun hboth => hmode ?_
    revert hboth
    cases before <;> cases u <;> cases w <;> decide
  have hpc : rn.number ≠ 15 := fun heq => hrn (Register.number_eq_pc.mp heq)
  have hafter : baseAfter p.fetched ins = if w then
      blockBase u ((view p).read rn) (listed regList).length else (view p).read rn := by
    rw [baseAfter, blockSize, h.blockWords, hbase, h.w, h.u]
    cases u <;> cases w <;> rfl
  rw [core_eq p.fetched ins hraises, hnumber, hafter]
  cases w with
  | true => exact (Becomes.fetched hready).write rn _
  | false =>
      have hself := armWriteRegister_self p.fetched hpc
      rw [read_fetched haligned] at hself
      show Becomes 1 p (armWriteRegister p.fetched rn.number ((view p).read rn)) _
      rw [hself]
      exact Becomes.fetched hready

/-- **A multiple transfer** is that of the machine: the base is written back, then the loop runs on
the block. -/
theorem multiple_becomes (hready : Ready p) (haligned : WordAligned p.reg.pc)
    (h : MultipleFields ins before u w l rn regList)
    (ht : (view p).multiple l before u w rn (listed regList) = some t) :
    ∃ q, dispatch p.fetched ins junk = some (0, q) ∧ Becomes 1 p q t := by
  obtain ⟨start, hstart, hrn, hmode, hroom, rfl⟩ := State.multiple_eq_some ht
  have hwritten := h.written hready haligned hrn hmode
  have hroom' : Room (blockAddresses p.fetched ins).core.mem start (listed regList).length := by
    rw [core_mem]
    exact hroom
  have hfirst := (h.firstWord haligned).trans hstart.symm
  have hrange : ∀ i ∈ List.range 15, i < 15 := fun i hi => List.mem_range.mp hi
  rw [dispatch_four h.category]
  cases l with
  | true =>
      rw [armLoadStoreMultiple_load h.l h.not_listed_pc, loadedBlock, hfirst, h.regList]
      exact ⟨_, rfl, ldmLoop_becomes regList _ hrange _ _ _ _ hwritten (Or.inr hroom')⟩
  | false =>
      rw [armLoadStoreMultiple_store h.l, hfirst, h.regList]
      exact ⟨_, rfl, stmLoop_becomes regList _ hrange _ _ _ hwritten (Or.inr hroom')⟩

end Multiple

end ArmSimulator.Assembly
