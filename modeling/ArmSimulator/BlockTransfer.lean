import ArmSimulator.LoadStore
import ArmSimulator.RegisterHistory

/-!
# Multiple transfers

What LDM and STM do to the registers, for any list: how many words are transferred
(`countSetBits_eq_countListed`), that the loop of STM writes no register, and that the loop of LDM
writes the listed ones and no others.

Everything here is an induction on the list of register numbers that a loop runs over, with the word
of the instruction fixed.  A register of the list is found by cutting the numbers `0 … 14` in front
of it and behind it (`range_split`): what the loop does is then what it does to the first part, to
the register, and to the rest, where the rest does not touch the register again.

The two structures at the beginning are shared by the results on block transfers: the fields of an
instruction word that has no bit 22, and a state in which the listed registers have been given any
values.
-/

namespace ArmSimulator

/-- The fields of a multiple transfer, bit 22 clear: the two bits of the mode, the write-back, load
or store, the base and the list. -/
structure IsBlockTransfer (ins p u w l : Word) (rn : Fin 16) (regList : Word) : Prop where
  category : (getBits ins 27 25).toNat = 4
  p : getBit ins 24 = p
  u : getBit ins 23 = u
  s : getBit ins 22 = 0
  w : getBit ins 21 = w
  l : getBit ins 20 = l
  rn : getBits ins 19 16 = BitVec.ofNat 32 rn.val
  regList : getBits ins 15 0 = regList

/-- A slot that no listed register names in the current mode. -/
def Unlisted (p : ArmCore) (regList : Word) (s : Slot) : Prop :=
  ∀ i ≤ 14, getBit regList i = 1 → slot (BitVec.ofNat 8 i) p.reg.currentMode ≠ some s

/-- The listed registers have been given any values, in the same mode.  The memory and all other
registers are as they were. -/
structure Overwritten (regList : Word) (p q : ArmCore) : Prop where
  cpsr : q.reg.cpsr = p.reg.cpsr
  spsr : q.reg.spsr = p.reg.spsr
  mode : q.reg.currentMode = p.reg.currentMode
  mem : q.mem = p.mem
  slots : ∀ s, Unlisted p regList s → q.reg.get s = p.reg.get s

/-! ## The number of words

The C function counts bits from the lowest up while it shifts; the loops count registers. -/

/-- The loop of `count_set_bits` looks at the lowest bit of the shifted word. -/
theorem getBit_shiftRight_one (x : Word) (i : ℕ) : getBit (x >>> 1) i = getBit x (i + 1) := by
  rw [getBit_eq_truth, getBit_eq_truth, BitVec.getLsbD_ushiftRight, Nat.add_comm]

/-- A list counted from its lowest bit. -/
theorem countListed_range_succ' (regList : Word) (n : ℕ) :
    countListed regList (List.range (n + 1)) =
      (regList &&& 1).toNat + countListed (regList >>> 1) (List.range n) := by
  have hlow : (regList &&& 1).toNat = if getBit regList 0 = 1 then 1 else 0 := by
    have hbit : regList &&& 1 = getBit regList 0 := by
      rw [getBit, BitVec.ushiftRight_zero]
      rfl
    rw [hbit, getBit_eq_truth]
    cases regList.getLsbD 0 <;> rfl
  have hrest : countListed regList ((List.range n).map Nat.succ) =
      countListed (regList >>> 1) (List.range n) := by
    rw [countListed, List.countP_map, countListed]
    refine congrArg (fun f => List.countP f (List.range n)) (funext fun i => ?_)
    rw [getBit_shiftRight_one]
    rfl
  rw [List.range_succ_eq_map, countListed_cons, hlow, hrest, Nat.add_comm]

/-- An empty list has no registers. -/
theorem countListed_zero (is : List ℕ) : countListed 0 is = 0 := by
  have hbit : ∀ i, getBit 0 i ≠ 1 := by
    intro i
    rw [Ne, getBit_eq_one, BitVec.ofNat_eq_ofNat, BitVec.getLsbD_zero]
    exact Bool.false_ne_true
  exact List.countP_eq_zero.mpr fun i _ => by simpa using hbit i

/-- **The two counts agree**: the loop of `count_set_bits` counts the listed registers. -/
theorem countSetBitsLoop_eq (fuel : ℕ) :
    ∀ regList : Word, regList.toNat < 2 ^ fuel →
      countSetBitsLoop fuel regList = countListed regList (List.range fuel) := by
  induction fuel with
  | zero => exact fun _ _ => rfl
  | succ fuel ih =>
      intro regList h
      have hhalf : (regList >>> 1).toNat < 2 ^ fuel := by
        rw [BitVec.toNat_ushiftRight, Nat.shiftRight_eq_div_pow]
        omega
      rw [countSetBitsLoop, ih _ hhalf]
      split_ifs with hzero
      · rw [hzero, countListed_zero]
      · exact (countListed_range_succ' regList fuel).symm

/-- **The loop counts the bits**: it may stop early, where all the bits that are left are zero. -/
theorem countSetBits_eq_countListed (regList : Word) :
    countSetBits regList = countListed regList (List.range 32) :=
  countSetBitsLoop_eq 32 regList regList.isLt

/-- A word has 32 bits. -/
theorem countSetBits_le (regList : Word) : countSetBits regList ≤ 32 := by
  rw [countSetBits_eq_countListed]
  exact List.countP_le_length.trans (List.length_range).le

/-- A list that is not empty counts at least one register. -/
theorem countSetBits_pos {regList : Word} (h : regList ≠ 0) : 0 < countSetBits regList := by
  rw [countSetBits_eq_countListed, countListed, List.countP_pos_iff]
  by_contra hnone
  refine h (BitVec.eq_of_getLsbD_eq fun i hi => ?_)
  -- a bit that is set would be counted
  rw [BitVec.ofNat_eq_ofNat, BitVec.getLsbD_zero, ← Bool.not_eq_true, ← getBit_eq_one]
  exact fun hbit => hnone ⟨i, List.mem_range.mpr hi, decide_eq_true hbit⟩

/-! ## The registers -/

/-- The loop of STM writes no register. -/
theorem stmLoop_reg (regList : Word) :
    ∀ (is : List ℕ) (p : ArmCore) (address : Word), (stmLoop regList is p address).reg = p.reg :=
  @stmLoop_rel (fun p q => q.reg = p.reg) (fun _ => rfl) (fun _ _ _ hpq hqr => hqr.trans hpq)
    (fun p _ _ => afterWrite_reg p _) regList

/-- The loop of LDM changes neither the mode nor a slot that no listed register names. -/
theorem ldmLoop_frame (regList : Word) (t : Slot) :
    ∀ (is : List ℕ) (s : LdmState),
      (∀ i ∈ is, getBit regList i = 1 →
        slot (BitVec.ofNat 8 i) s.core.reg.currentMode ≠ some t) →
      (ldmLoop regList is s).core.reg.currentMode = s.core.reg.currentMode ∧
        (ldmLoop regList is s).core.reg.get t = s.core.reg.get t := by
  intro is
  induction is with
  | nil => exact fun _ _ => ⟨rfl, rfl⟩
  | cons i is ih =>
      intro s hother
      have hrest := fun j hj => hother j (List.mem_cons_of_mem i hj)
      rw [ldmLoop]
      split_ifs with hbit
      · have hmode : (s.transfer 0xFFFFFFFF (BitVec.ofNat 8 i)).core.reg.currentMode =
            s.core.reg.currentMode := armWriteRegister_currentMode ..
        have hget : (s.transfer 0xFFFFFFFF (BitVec.ofNat 8 i)).core.reg.get t =
            s.core.reg.get t :=
          (get_armWriteRegister ..).trans (if_neg (hother i List.mem_cons_self hbit))
        rw [← hmode, ← hget]
        exact ih _ (by rw [hmode]; exact hrest)
      · exact ih s hrest

/-! ## One register of a list

Both loops run over a list of numbers, and a run over two lists is one after the other. -/

/-- The registers below `i`, `i` itself, and those above it. -/
theorem range_split {i n : ℕ} (h : i < n) :
    ∃ post, List.range n = List.range i ++ i :: post ∧ ∀ j ∈ post, i < j ∧ j < n := by
  obtain ⟨k, rfl⟩ := Nat.exists_eq_add_of_lt h
  refine ⟨(List.range k).map fun j => i + (j + 1), ?_, fun j hj => ?_⟩
  · rw [Nat.add_assoc, List.range_add, List.range_succ_eq_map, List.map_cons, List.map_map]
    rfl
  · obtain ⟨m, hm, rfl⟩ := List.mem_map.mp hj
    have hlt := List.mem_range.mp hm
    omega

/-- Counting goes part by part. -/
theorem countListed_append (regList : Word) (is js : List ℕ) :
    countListed regList (is ++ js) = countListed regList is + countListed regList js :=
  List.countP_append ..

/-- A loop of LDM over two lists in turn. -/
theorem ldmLoop_append (regList : Word) (js : List ℕ) :
    ∀ (is : List ℕ) (s : LdmState),
      ldmLoop regList (is ++ js) s = ldmLoop regList js (ldmLoop regList is s) := by
  intro is
  induction is with
  | nil => exact fun _ => rfl
  | cons i is ih =>
      intro s
      rw [List.cons_append, ldmLoop, ldmLoop]
      split_ifs
      · exact ih _
      · exact ih s

/-- A loop of STM over two lists in turn. -/
theorem stmLoop_append (regList : Word) (js : List ℕ) :
    ∀ (is : List ℕ) (p : ArmCore) (address : Word),
      stmLoop regList (is ++ js) p address =
        stmLoop regList js (stmLoop regList is p address)
          (address + BitVec.ofNat 32 (4 * countListed regList is)) := by
  intro is
  induction is with
  | nil =>
      intro p address
      exact congrArg (stmLoop regList js p) (BitVec.add_zero address).symm
  | cons i is ih =>
      intro p address
      rw [List.cons_append, stmLoop, stmLoop, countListed_cons]
      split_ifs
      · rw [ih, Nat.mul_add, Nat.add_comm (4 * _), BitVec.ofNat_add, ← BitVec.add_assoc]
        rfl
      · rw [ih, Nat.add_zero]

/-- One turn of the loop of a load leaves the status registers and the mode. -/
theorem LdmState.transfer_status (s : LdmState) (mask : Word) (reg : Byte) :
    (s.transfer mask reg).core.reg.cpsr = s.core.reg.cpsr ∧
      (s.transfer mask reg).core.reg.spsr = s.core.reg.spsr ∧
      (s.transfer mask reg).core.reg.currentMode = s.core.reg.currentMode :=
  ⟨armWriteRegister_cpsr .., armWriteRegister_spsr .., armWriteRegister_currentMode ..⟩

/-- The loop of LDM changes no status register and not the mode. -/
theorem ldmLoop_status (regList : Word) :
    ∀ (is : List ℕ) (s : LdmState),
      (ldmLoop regList is s).core.reg.cpsr = s.core.reg.cpsr ∧
        (ldmLoop regList is s).core.reg.spsr = s.core.reg.spsr ∧
        (ldmLoop regList is s).core.reg.currentMode = s.core.reg.currentMode :=
  @ldmLoop_rel
    (fun p q => q.reg.cpsr = p.reg.cpsr ∧ q.reg.spsr = p.reg.spsr ∧
      q.reg.currentMode = p.reg.currentMode)
    (fun _ => ⟨rfl, rfl, rfl⟩)
    (fun _ _ _ hpq hqr => ⟨hqr.1.trans hpq.1, hqr.2.1.trans hpq.2.1, hqr.2.2.trans hpq.2.2⟩)
    (fun s mask reg => s.transfer_status mask reg) regList

/-- **A loaded register** holds the word at its place, counted by the listed registers before it.
The loads behind it are of other registers and do not write its slot. -/
theorem ldmLoop_loaded {regList : Word} {pre post : List ℕ} {i : ℕ} {s : LdmState} {t : Slot}
    {value : Word} (hbit : getBit regList i = 1)
    (hslot : slot (BitVec.ofNat 8 i) s.core.reg.currentMode = some t)
    (hpost : ∀ j ∈ post, getBit regList j = 1 →
      slot (BitVec.ofNat 8 j) s.core.reg.currentMode ≠ some t)
    (hread : armReadWord s.core (s.address + BitVec.ofNat 32 (4 * countListed regList pre)) =
      some value) :
    (ldmLoop regList (pre ++ i :: post) s).core.reg.get t = value := by
  rw [ldmLoop_append, ldmLoop, if_pos hbit]
  obtain ⟨-, -, hmode⟩ := ldmLoop_status regList pre s
  have haddress := ldmLoop_address regList pre s
  have hmem := ldmLoop_mem regList pre s
  generalize ldmLoop regList pre s = u at hmode haddress hmem
  have hvalue : armReadWord u.core u.address = some value := by
    rw [haddress, ← hread, armReadWord, hmem]
    rfl
  have hmode' : (u.transfer 0xFFFFFFFF (BitVec.ofNat 8 i)).core.reg.currentMode =
      s.core.reg.currentMode := (armWriteRegister_currentMode ..).trans hmode
  rw [(ldmLoop_frame regList t post _ (by rw [hmode']; exact hpost)).2]
  refine (get_armWriteRegister ..).trans ?_
  rw [hmode, if_pos hslot, hvalue]
  exact BitVec.and_allOnes

end ArmSimulator
