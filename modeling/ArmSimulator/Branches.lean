import ArmSimulator.Instruction

/-!
# Branches

`arm_branch` serves B, BL, BX and BLX.  The program counter it reads is 8 ahead of the instruction,
4 from the fetch and 4 from the read, provided that the address is a multiple of 4; so `LR` receives
the address of the next instruction.  The offset of B and BL goes through `set_bits` on bits 29 … 24
and a shift by 2, and is the sign extension of 24 bits, times 4 (`branchOffset_eq`).

A branch writes the program counter and, with a link, `R14`; everything else about it follows from
that one equation (`armBranch_eq`).  In a mode that is none of the seven there is no `R14` to write:
BL still branches there, and the address to return to is lost.

* `Branch` is the four instructions, with the words that encode each, whether it links, and its
  target as a function of the state.
* `Lands` says what a branch does to every component of the processor; `armStep_branch` is the step
  lemma.
* `Resumes` is a call and its return seen from the caller: `resumes_of_lands` follows BX LR from the
  target of a BL, in the seven modes.
* `branches_land` is all of it, for every state with an aligned program counter.
-/

namespace ArmSimulator

/-! ## The instructions

Four instructions in two encodings.  The condition field is left open. -/

/-- The instructions of `arm_branch`. -/
inductive Branch
  | b | bl | bx | blx
  deriving DecidableEq, Repr

namespace Branch

/-- The words of an instruction, by the fields that the dispatch and the handler look at. -/
def Encodes (ins : Word) : Branch → Prop
  | b => getBits ins 27 25 = 5 ∧ getBit ins 24 = 0
  | bl => getBits ins 27 25 = 5 ∧ getBit ins 24 = 1
  | bx => getBits ins 27 20 = 18 ∧ getBits ins 7 4 = 1
  | blx => getBits ins 27 20 = 18 ∧ getBits ins 7 4 = 3

/-- The instructions with a link. -/
def links : Branch → Bool
  | b | bx => false
  | bl | blx => true

/-- The target of the instruction `ins` at the program counter of `p`: 8 ahead plus the offset, or
the register with bit 0 cleared. -/
def target (p : ArmCore) (ins : Word) : Branch → Word
  | b | bl => p.reg.pc + 8 + 4 * (ins.setWidth 24).signExtend 32
  | bx | blx =>
      let rm := u8 (getBits ins 3 0)
      (if rm = 15 then p.reg.pc + 8 else armReadRegister p rm) &&& 0xFFFFFFFE

end Branch

/-- The state `q` is that after the branch `ins` in the state `p`.  It says what has become of every
component; the link is there in the modes that have `R14`. -/
structure Lands (branch : Branch) (p : ArmCore) (ins : Word) (q : ArmCore) : Prop where
  pc : q.reg.pc = branch.target p ins
  link : branch.links = true → ∀ s, slot 14 p.reg.currentMode = some s →
    q.reg.get s = p.reg.pc + 4
  others : ∀ s, s ≠ .pc → (branch.links = true → slot 14 p.reg.currentMode ≠ some s) →
    q.reg.get s = p.reg.get s
  cpsr : q.reg.cpsr = p.reg.cpsr
  spsr : q.reg.spsr = p.reg.spsr
  mode : q.reg.currentMode = p.reg.currentMode
  mem : q.mem = p.mem
  out : q.out = p.out
  cycleCount : q.cycleCount = p.cycleCount + 1

/-! ## The offset -/

/-- **The offset** is the signed 24-bit field, times 4.  The C function builds it with six ones
above a field whose top bit is set; the two bits that this leaves out are shifted away. -/
theorem branchOffset_eq (ins : Word) :
    branchOffset ins = 4 * (ins.setWidth 24).signExtend 32 := by
  have hfour : (4 : Word) = BitVec.twoPow 32 2 := rfl
  have hshift : ∀ x : Word, logicalShiftLeft x 2 = x <<< 2 := fun _ => rfl
  rw [hfour, BitVec.twoPow_mul_eq_shiftLeft, branchOffset]
  rw [hshift]
  apply BitVec.eq_of_getLsbD_eq
  intro i hi
  rw [BitVec.getLsbD_shiftLeft, BitVec.getLsbD_shiftLeft]
  -- bits 29 … 0 of the extended offset are those of the sign extension
  by_cases hlow : i < 2
  · simp [hlow]
  · obtain ⟨j, rfl⟩ := Nat.exists_eq_add_of_le (Nat.le_of_not_lt hlow)
    have hones : ∀ k < 6, (0x3F#32).getLsbD k = true := by decide
    have hfield : ∀ k, (getBits ins 23 0).getLsbD k = (decide (k < 24) && ins.getLsbD k) := by
      intro k
      rw [getBits_eq_field, BitField.getLsbD_field, Nat.zero_add]
    have hsign : (ins.setWidth 24).msb = ins.getLsbD 23 := by
      rw [BitVec.msb_eq_getLsbD_last, BitVec.getLsbD_setWidth]
      rfl
    congr 1
    rw [Nat.add_sub_cancel_left, BitVec.getLsbD_signExtend, hsign, BitVec.getLsbD_setWidth,
      getBit_eq_truth, hfield]
    cases hnegative : ins.getLsbD 23 with
    | false =>
        rw [if_neg (by decide), hfield]
        by_cases hj : j < 24 <;> simp [hj, Nat.lt_of_add_left_lt hi]
    | true =>
        rw [if_pos (by decide), getLsbD_setBits _ _ (by decide) (by decide), hfield]
        by_cases hj : j < 24
        · simp [hj, Nat.lt_of_add_left_lt hi]
        · simp [hj, Nat.lt_of_add_left_lt hi, hones (j - 24) (by omega)]

/-! ## One branch

From the dispatch to the two register writes. -/

section OneBranch

variable {p : ArmCore} {ins : Word} {branch : Branch}

/-- Both encodings are dispatched to `arm_branch`. -/
theorem dispatch_branch (q : ArmCore) (junk : Word) (hcode : branch.Encodes ins) :
    dispatch q ins junk = some (armBranch q ins) := by
  have himmediate : getBits ins 27 25 = 5 → dispatch q ins junk = some (armBranch q ins) := by
    intro h
    exact dispatch_five (congrArg BitVec.toNat h)
  have hexchange : getBits ins 27 20 = 18 → dispatch q ins junk = some (armBranch q ins) := by
    intro h
    have hcategory : (getBits ins 27 25).toNat = 0 := by
      have hfield := getBits_eq_iff.mp h
      rw [toNat_getBits]
      simp only [BitVec.ofNat_eq_ofNat, BitVec.toNat_ofNat] at hfield
      omega
    rw [dispatch_zero hcategory, if_pos h]
  cases branch with
  | b => exact himmediate hcode.1
  | bl => exact himmediate hcode.1
  | bx => exact hexchange hcode.1
  | blx => exact hexchange hcode.1

/-- **One branch**: a write of `R14` if there is a link, then a write of the program counter.
The link does not change what the program counter reads, and `Rm` is read before it. -/
theorem armBranch_eq (hcode : branch.Encodes ins) (haligned : WordAligned p.reg.pc) :
    armBranch p.fetched ins =
      (0, armWriteRegister
        (if branch.links then armWriteRegister p.fetched 14 (p.reg.pc + 4) else p.fetched) 15
        (branch.target p ins)) := by
  have hread := armReadRegister_fetched_pc haligned
  have hlink : writeLink p.fetched = armWriteRegister p.fetched 14 (p.reg.pc + 4) := by
    rw [writeLink, hread]
    congr 1
    bv_omega
  have hrm : armReadRegister p.fetched (u8 (getBits ins 3 0)) &&& 0xFFFFFFFE =
      Branch.bx.target p ins := by
    rw [Branch.target]
    split_ifs with hpc
    · rw [hpc, hread]
    · rw [armReadRegister_fetched p hpc]
  have hnot : getBits ins 27 20 = 18 → getBits ins 27 25 ≠ 5 := by
    intro h h5
    have hfield := getBits_eq_iff.mp h
    have hfive := getBits_eq_iff.mp h5
    simp only [BitVec.ofNat_eq_ofNat, BitVec.toNat_ofNat] at hfield hfive
    omega
  cases branch with
  | b =>
      have hplain : ¬ getBit ins 24 = 1 := by
        rw [hcode.2]
        decide
      rw [armBranch, if_pos hcode.1, if_neg hplain]
      dsimp only
      rw [hread, branchOffset_eq]
      rfl
  | bl =>
      rw [armBranch, if_pos hcode.1, if_pos hcode.2, hlink]
      dsimp only
      rw [armReadRegister_write_of_ne p.fetched _ (by decide : (15 : Byte) ≠ 14), hread,
        branchOffset_eq]
      rfl
  | bx =>
      rw [armBranch, if_neg (hnot hcode.1), if_pos hcode.1]
      dsimp only
      rw [if_pos hcode.2, hrm]
      rfl
  | blx =>
      have hthree : ¬ getBits ins 7 4 = 1 := by
        rw [hcode.2]
        decide
      rw [armBranch, if_neg (hnot hcode.1), if_pos hcode.1]
      dsimp only
      rw [if_neg hthree, if_pos hcode.2, hlink, hrm]
      rfl

/-- The registers after a branch.  The program counter is written last, so it counts there. -/
theorem get_branch (branch : Branch) (p : ArmCore) (target link : Word) (s : Slot) :
    (armWriteRegister
        (if branch.links then armWriteRegister p.fetched 14 link else p.fetched) 15
        target).reg.get s =
      if s = .pc then target
      else if branch.links = true ∧ slot 14 p.reg.currentMode = some s then link
      else p.reg.get s := by
  rw [get_armWriteRegister, slot_pc]
  by_cases hpc : s = .pc
  · rw [hpc, if_pos rfl, if_pos rfl]
  · have hfetched : p.fetched.reg.get s = p.reg.get s := by rw [get_fetched, if_neg hpc]
    rw [if_neg fun h => hpc (Option.some.inj h).symm, if_neg hpc]
    cases branch.links with
    | false => simpa using hfetched
    | true =>
        rw [if_pos rfl, get_armWriteRegister, fetched_currentMode, hfetched]
        simp only [true_and]

/-- **Step lemma**: `arm_step` on a branch returns 0, and lands.  The mode may be any. -/
theorem armStep_branch (hins : Executes p ins) (hcode : branch.Encodes ins)
    (haligned : WordAligned p.reg.pc) (junk : Word) :
    ∃ q, armStep p junk = some (0, q) ∧ Lands branch p ins q := by
  have hexec : armExecuteInstruction p junk = some (armBranch p.fetched ins) :=
    hins.dispatched.trans (dispatch_branch p.fetched junk hcode)
  rw [armBranch_eq hcode haligned] at hexec
  have hget := get_branch branch p (branch.target p ins) (p.reg.pc + 4)
  refine ⟨_, armStep_of_execute hexec, ?_⟩
  exact {
    pc := (hget .pc).trans (if_pos rfl)
    link := fun hlinks s hs => by
      have hpc : s ≠ .pc := by
        rintro rfl
        have hnumber : 14 = 15 := toNat_of_slot hs
        cases hnumber
      rw [hget, if_neg hpc, if_pos ⟨hlinks, hs⟩]
    others := fun s hpc hlink => by
      rw [hget, if_neg hpc, if_neg fun h => hlink h.1 h.2]
    cpsr := by cases branch <;> simp [Branch.links]
    spsr := by cases branch <;> simp [Branch.links]
    mode := by cases branch <;> simp [Branch.links]
    mem := by cases branch <;> rfl
    out := by cases branch <;> rfl
    cycleCount := by cases branch <;> rfl }

end OneBranch

/-! ## Call and return

What a BL leaves for the BX LR that ends the procedure, with nothing said about what is between them
but that `R14` is kept. -/

/-- The state `q` is `p` resumed at the next instruction, with its address in `R14`. -/
structure Resumes (p q : ArmCore) : Prop where
  pc : q.reg.pc = p.reg.pc + 4
  link : armReadRegister q 14 = p.reg.pc + 4
  others : ∀ s, s ≠ .pc → slot 14 p.reg.currentMode ≠ some s → q.reg.get s = p.reg.get s
  cpsr : q.reg.cpsr = p.reg.cpsr
  spsr : q.reg.spsr = p.reg.spsr
  mode : q.reg.currentMode = p.reg.currentMode
  mem : q.mem = p.mem
  out : q.out = p.out

section Return

variable {p q : ArmCore} {ins : Word}

/-- A target of B and BL is an address of a word. -/
theorem aligned_target (haligned : WordAligned p.reg.pc) :
    WordAligned (Branch.bl.target p ins) := by
  rw [WordAligned, Branch.target, BitVec.toNat_add, BitVec.toNat_add, BitVec.toNat_mul]
  rw [WordAligned] at haligned
  simp only [BitVec.ofNat_eq_ofNat, BitVec.toNat_ofNat]
  omega

/-- Clearing bit 0 of the address of a word changes nothing. -/
theorem and_of_aligned {address : Word} (h : WordAligned address) :
    address &&& 0xFFFFFFFE = address := by
  have hmask : (0xFFFFFFFE : Word) = ~~~BitVec.twoPow 32 0 := rfl
  apply BitVec.eq_of_getLsbD_eq
  intro i hi
  rw [hmask, BitVec.getLsbD_and, BitVec.getLsbD_not, BitVec.getLsbD_twoPow]
  by_cases hzero : i = 0
  · have hbit : address.getLsbD 0 = false := by
      rw [WordAligned] at h
      rw [← getBit_eq_zero, getBit_eq_iff]
      simp only [BitVec.ofNat_eq_ofNat, BitVec.toNat_ofNat]
      omega
    rw [hzero, hbit]
    rfl
  · simp [hi, Ne.symm hzero]

/-- In one of the seven modes `R14` reads as the link. -/
theorem Lands.read_link {branch : Branch} (h : Lands branch p ins q)
    (hlinks : branch.links = true) (hmode : ValidMode p.reg.currentMode) :
    armReadRegister q 14 = p.reg.pc + 4 := by
  obtain ⟨m, hm⟩ := hmode
  have hslot : slot 14 p.reg.currentMode = some (.high 1 m.bank) := by rw [hm, slot_r14]
  rw [armReadRegister_of_slot (by decide) (h.mode ▸ hslot), h.link hlinks _ hslot]

/-- **BL and BX LR**: from one of the seven modes, BX LR at the target of a BL resumes after
the BL. -/
theorem resumes_of_lands {ins' : Word} (hland : Lands .bl p ins q)
    (haligned : WordAligned p.reg.pc) (hmode : ValidMode p.reg.currentMode)
    (hins : Executes q ins') (hcode : Branch.bx.Encodes ins') (hlr : getBits ins' 3 0 = 14)
    (junk : Word) : ∃ r, armStep q junk = some (0, r) ∧ Resumes p r := by
  have hlink := hland.read_link rfl hmode
  have hq : WordAligned q.reg.pc := by
    rw [hland.pc]
    exact aligned_target haligned
  obtain ⟨r, hstep, hreturn⟩ := armStep_branch hins hcode hq junk
  have hget : ∀ s, s ≠ .pc → r.reg.get s = q.reg.get s := fun s hpc =>
    hreturn.others s hpc fun h => nomatch h
  have hregister : u8 (14 : Word) ≠ 15 := by decide
  refine ⟨r, hstep, ?_⟩
  exact {
    pc := by
      rw [hreturn.pc, Branch.target, hlr, if_neg hregister]
      exact (congrArg (· &&& 0xFFFFFFFE) hlink).trans (and_of_aligned haligned.add_four)
    link := by
      obtain ⟨m, hm⟩ := hmode
      have hslot : slot 14 q.reg.currentMode = some (.high 1 m.bank) := by
        rw [hland.mode, hm, slot_r14]
      rw [← hlink, armReadRegister_of_slot (by decide) (hreturn.mode ▸ hslot),
        armReadRegister_of_slot (by decide) hslot, hget _ (by simp)]
    others := fun s hpc hs => (hget s hpc).trans (hland.others s hpc fun _ => hs)
    cpsr := hreturn.cpsr.trans hland.cpsr
    spsr := hreturn.spsr.trans hland.spsr
    mode := hreturn.mode.trans hland.mode
    mem := hreturn.mem.trans hland.mem
    out := hreturn.out.trans hland.out }

end Return

/-- **Branches land on their target.**  For every state with an aligned program counter and every
B, BL, BX or BLX whose condition holds, `arm_step` returns 0 and lands; in one of the seven modes
the link is in `R14`, and a BX LR at the target of a BL resumes after it. -/
theorem branches_land {p : ArmCore} {ins : Word} {branch : Branch} (hins : Executes p ins)
    (hcode : branch.Encodes ins) (haligned : WordAligned p.reg.pc) (junk : Word) :
    ∃ q, armStep p junk = some (0, q) ∧ Lands branch p ins q ∧
      (ValidMode p.reg.currentMode →
        (branch.links = true → armReadRegister q 14 = p.reg.pc + 4) ∧
          (branch = .bl → ∀ ins' junk', Executes q ins' → Branch.bx.Encodes ins' →
            getBits ins' 3 0 = 14 → ∃ r, armStep q junk' = some (0, r) ∧ Resumes p r)) := by
  obtain ⟨q, hstep, hland⟩ := armStep_branch hins hcode haligned junk
  refine ⟨q, hstep, hland, fun hmode => ⟨fun hlinks => hland.read_link hlinks hmode, ?_⟩⟩
  rintro rfl ins' junk' hins' hcode' hlr
  exact resumes_of_lands hland haligned hmode hins' hcode' hlr junk'

/-- `BL` from address 0 to address 8, and back from there with `BX LR`. -/
theorem branches_land_bl :
    ∃ q r, armStep (ArmCore.load 0x1d3 [0xEB000000, 0, 0xE12FFF1E]) 0 = some (0, q) ∧
      Lands .bl (ArmCore.load 0x1d3 [0xEB000000, 0, 0xE12FFF1E]) 0xEB000000 q ∧
      armStep q 0 = some (0, r) ∧
      Resumes (ArmCore.load 0x1d3 [0xEB000000, 0, 0xE12FFF1E]) r := by
  obtain ⟨q, hstep, hland, hvalid⟩ :=
    @branches_land (ArmCore.load 0x1d3 [0xEB000000, 0, 0xE12FFF1E]) 0xEB000000 .bl
      ⟨by decide, by decide⟩ ⟨by decide, by decide⟩ (by decide) 0
  have hq : q = ((armStep (ArmCore.load 0x1d3 [0xEB000000, 0, 0xE12FFF1E]) 0).getD
      (0, ArmCore.load 0 [])).2 := by
    rw [hstep]
    rfl
  have hins : Executes q 0xE12FFF1E := by
    rw [hq]
    exact ⟨by decide, by decide⟩
  obtain ⟨r, hreturn, hresumes⟩ := (hvalid (by decide)).2 rfl 0xE12FFF1E 0 hins
    ⟨by decide, by decide⟩ (by decide)
  exact ⟨q, r, hstep, hland, hreturn, hresumes⟩

/-- `BL` in no mode: nothing is written to `R14`, which reads as `UINT32_MAX`. -/
theorem branches_land_counterexample :
    ¬ ∀ (p : ArmCore) (ins : Word) (branch : Branch), Executes p ins → branch.Encodes ins →
      WordAligned p.reg.pc → ∀ junk : Word,
        ∃ q, armStep p junk = some (0, q) ∧
          (branch.links = true → armReadRegister q 14 = p.reg.pc + 4) := by
  intro h
  obtain ⟨q, hstep, hlink⟩ := h (ArmCore.load 0 [0xEB000000]) 0xEB000000 .bl
    ⟨by decide, by decide⟩ ⟨by decide, by decide⟩ (by decide) 0
  have hread : (armStep (ArmCore.load 0 [0xEB000000]) 0).map (fun r => armReadRegister r.2 14) =
      some UINT32_MAX := by decide
  rw [hstep] at hread
  have hlost := (Option.some.inj hread).symm.trans (hlink rfl)
  exact absurd hlost (by decide)

end ArmSimulator
