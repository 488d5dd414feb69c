import ArmSimulator.Assembly.Transfers
import ArmSimulator.Branches
import ArmSimulator.UserMode.Integrity

/-!
# Assembly: the simulator follows the machine

Where the machine has a meaning, `arm_step` has it too: the step returns 0, the processor is seen as
the machine wants it, and everything that is not seen is kept (`armStep_becomes`).  By forward
simulation the same holds of runs of any length (`assembly_followed`).

A step is taken apart as the code has it, into the fetch, the test of the condition and the
dispatch.  The dispatch is a case for each kind of instruction, and each case is a lemma about its
handler; the branches are short and are here.

The simulation goes one way.  Where the machine stops, the simulator goes on: it enters an
exception, or does what the language leaves open.  A program that has a meaning for `n` instructions
has, for as long, no other behaviour on the simulator than that meaning.
-/

namespace ArmSimulator.Assembly

open BitField

/-! ## Fetch and condition

The two machines fetch the same word and test the same flags. -/

section Fetch

variable {p : ArmCore} {ins : Word} {condition : Condition} {i : Instruction}

/-- The word that the machine fetches is the one the simulator fetches. -/
theorem armFetch_of_fetch (h : fetch (view p) = some ins) :
    (armFetch p).1 = some ins ∧ WordAligned p.reg.pc := by
  rw [fetch, view_pc, view_mem] at h
  split_ifs at h with hplace
  obtain ⟨haligned, hroom⟩ := hplace
  have hload := @load_eq p p.reg.pc hroom
  refine ⟨?_, haligned⟩
  show memoryReadWord p.mem p.reg.pc ENDIANESS = some ins
  rw [← h]
  exact hload

/-- `ConditionPassed` lets through what the machine does. -/
theorem conditionPassed_iff (hcode : condition.code = ins.extractLsb' 28 4) :
    conditionPassed p.fetched ins ≠ 0 ↔ condition.holds (view p) = true := by
  have hfield : (getBits ins 31 28).toNat = condition.code.toNat := by
    rw [toNat_getBits, hcode, BitVec.extractLsb'_toNat, Nat.shiftRight_eq_div_pow]
  have hcpsr : armReadCpsr p.fetched = armReadCpsr p := fetched_cpsr p
  have hset : ∀ i, decide (getBit (armReadCpsr p) i = 1) = (armReadCpsr p).getLsbD i := by
    intro i
    rw [Bool.eq_iff_iff, decide_eq_true_iff]
    exact getBit_eq_one
  have hclear : ∀ i, decide (getBit (armReadCpsr p) i = 0) = !(armReadCpsr p).getLsbD i := by
    intro i
    rw [Bool.eq_iff_iff, decide_eq_true_iff, Bool.not_eq_true']
    exact getBit_eq_zero
  have hholds : conditionHolds condition.code.toNat (getBit (armReadCpsr p) Z)
      (getBit (armReadCpsr p) C) (getBit (armReadCpsr p) N) (getBit (armReadCpsr p) V) =
        condition.holds (view p) := by
    cases condition with
    | eq => exact hset Z
    | ne => exact hclear Z
    | mi => exact hset N
    | pl => exact hclear N
    | al => rfl
  rw [conditionPassed, hfield, hcpsr, hholds]
  split_ifs with h
  · exact iff_of_true (by decide) h
  · exact iff_of_false (not_not.mpr rfl) h

end Fetch

/-! ## Branches

A branch changes `R15`, and `R14` with a link. -/

section Branches

variable {p : ArmCore} {ins junk : Word}

/-- **A branch** is that of the machine. -/
theorem branch_becomes (hready : Ready p) (haligned : WordAligned p.reg.pc) {branch : Branch}
    (hcode : branch.Encodes ins) {target : Word} (htarget : branch.target p ins = target) :
    ∃ q, dispatch p.fetched ins junk = some (0, q) ∧
      Becomes 1 p q ((view p).branch branch.links target) := by
  have hfetched := Becomes.fetched hready
  have hlink := hfetched.write 14 (p.reg.pc + 4)
  rw [dispatch_branch p.fetched junk hcode, armBranch_eq hcode haligned, htarget]
  refine ⟨_, rfl, ?_⟩
  rw [State.branch, view_pc]
  cases branch.links with
  | true => exact hlink.write 15 target
  | false => exact hfetched.write 15 target

/-- The target of BX and BLX. -/
theorem target_exchange {rm : Register} (hrm : u8 (getBits ins 3 0) = rm.number) :
    Branch.bx.target p ins = (view p).read rm &&& 0xFFFFFFFE := by
  rw [Branch.target, hrm, State.read]
  by_cases hpc : rm = 15
  · rw [if_pos hpc, if_pos (Register.number_eq_pc.mpr hpc), view_pc]
  · rw [if_neg hpc, if_neg fun heq => hpc (Register.number_eq_pc.mp heq), view_reg hpc]

end Branches

/-! ## Steps

One instruction of each kind, and then a whole step. -/

section Steps

variable {p : ArmCore} {ins junk : Word} {t : State}

/-- Data processing is dispatched to the opcode functions. -/
theorem dataProcessing_becomes (hready : Ready p) (haligned : WordAligned p.reg.pc)
    {opcode : Opcode} {s : Bool} {rn rd : Register} {category : ℕ} {operand : Operand}
    (h : DataProcessingFields ins category opcode.code s rn rd)
    (hoperand : OperandFields ins operand)
    (hcategory : category = 1 ∨ (category = 0 ∧ ¬ (getBit ins 4 = 1 ∧ getBit ins 7 = 1)))
    (ht : exec (view p) (.dataProcessing opcode s rn rd operand) = some t) :
    ∃ q, dispatch p.fetched ins junk = some (0, q) ∧ Becomes 1 p q t := by
  obtain ⟨x, hx, hrest⟩ := Option.bind_eq_some_iff.mp ht
  have hcompares : opcode.compares = true → s = true := by
    intro hcompare
    by_contra hs
    rw [State.dataProcess, if_pos hcompare, if_neg hs] at hrest
    cases hrest
  rw [dispatch_dataProcessing (isDataProcessing_of_fields h hcompares hcategory)]
  obtain ⟨q, hstep, hq⟩ := armDataProcessingShift_becomes hready haligned h
    (carry_operand haligned hoperand hx) hrest
  exact ⟨q, congrArg some hstep, hq⟩

/-- **One instruction**: what the machine makes of it the simulator does.  There is one case for
each kind of instruction, and each is the lemma on its handler. -/
theorem dispatch_becomes (hready : Ready p) (haligned : WordAligned p.reg.pc) (i : Instruction)
    (hins : encodeInstruction i = ins.setWidth 28) (ht : exec (view p) i = some t) :
    ∃ q, dispatch p.fetched ins junk = some (0, q) ∧ Becomes 1 p q t := by
  have hzero : ∀ {n : ℕ}, getBit ins n = 0 → ¬ getBit ins n = 1 := by
    intro n hbit
    rw [hbit]
    decide
  have h25 : ∀ {category : ℕ} {code : BitVec 4} {s : Bool} {rn rd : Register},
      DataProcessingFields ins category code s rn rd → category = 0 → getBit ins 25 = 0 :=
    fun h hcategory => bit25_of_category_zero (h.category.trans hcategory)
  match i with
  | .dataProcessing opcode s rn rd (.immediate rotation value) =>
      obtain ⟨hfields, hrotation, hvalue⟩ := fields_immediate ((read_iff rfl).mpr hins)
      have hset : getBit ins 25 = 1 := by
        have hcategory := hfields.category
        rw [toNat_getBits] at hcategory
        rw [getBit_eq_iff]
        show _ = 1
        omega
      have hoperand : OperandFields ins (.immediate rotation value) := ⟨hset, hrotation, hvalue⟩
      exact dataProcessing_becomes hready haligned hfields hoperand (Or.inl rfl) ht
  | .dataProcessing opcode s rn rd (.shifted kind amount rm) =>
      obtain ⟨hfields, hshift⟩ := fields_shifted ((read_iff rfl).mpr hins)
      have hoperand : OperandFields ins (.shifted kind amount rm) := ⟨h25 hfields rfl, hshift⟩
      exact dataProcessing_becomes hready haligned hfields hoperand
        (Or.inr ⟨rfl, fun hboth => hzero hshift.bit4 hboth.1⟩) ht
  | .dataProcessing opcode s rn rd (.shiftedBy kind rs rm) =>
      obtain ⟨hfields, hshift⟩ := fields_shiftedBy ((read_iff rfl).mpr hins)
      have hoperand : OperandFields ins (.shiftedBy kind rs rm) := ⟨h25 hfields rfl, hshift⟩
      exact dataProcessing_becomes hready haligned hfields hoperand
        (Or.inr ⟨rfl, fun hboth => hzero hshift.bit7 hboth.2⟩) ht
  | .transfer l b u w rn rd (.immediate value) =>
      obtain ⟨hfields, hvalue⟩ := fields_transfer ((read_iff rfl).mpr hins)
      have hsingle : IsSingleTransfer ins := Or.inl hfields.category
      have hoffset : wordOffset p.fetched ins = value.setWidth 32 := by
        have hclear : getBit ins 25 = 0 := by
          have hcategory := hfields.category
          rw [toNat_getBits] at hcategory
          rw [getBit_eq_iff]
          show _ = 0
          omega
        rw [wordOffset, offsetKind, if_pos hclear]
        apply BitVec.eq_of_toNat_eq
        rw [BitVec.toNat_setWidth_of_le (by decide)]
        exact hvalue
      exact wordTransfer_becomes hready haligned hfields hsingle hoffset ht
  | .transfer l b u w rn rd (.shifted kind amount rm) =>
      obtain ⟨hfields, hshift⟩ := fields_transferShifted ((read_iff rfl).mpr hins)
      have hsingle : IsSingleTransfer ins := Or.inr ⟨hfields.category, hshift.bit4⟩
      obtain ⟨x, hx, hrest⟩ := Option.bind_eq_some_iff.mp ht
      exact wordTransfer_becomes hready haligned hfields hsingle
        (wordOffset_shifted haligned hfields.category hshift hx) hrest
  | .transferHalf l u w rn rd offset =>
      obtain ⟨hfields, hhigh, hmiddle, hlow⟩ := fields_half ((read_iff rfl).mpr hins)
      have hoffset : offset.extractLsb' 4 4 ++ offset.extractLsb' 0 4 = offset :=
        BitVec.extractLsb'_append_extractLsb'
      have ht' : (view p).transfer 2 l u w rn rd
          ((offset.extractLsb' 4 4 ++ offset.extractLsb' 0 4).setWidth 32) = some t := by
        rw [hoffset]
        exact ht
      exact halfTransfer_becomes hready haligned hfields hhigh hmiddle hlow ht'
  | .multiple l before u w rn regList =>
      exact multiple_becomes hready haligned (fields_multiple ((read_iff rfl).mpr hins)) ht
  | .branch link offset =>
      obtain ⟨hcategory, hlink, hoffset⟩ := fields_branch ((read_iff rfl).mpr hins)
      have hcategory' : getBits ins 27 25 = 5 := BitVec.eq_of_toNat_eq hcategory
      obtain rfl := Option.some.inj ht
      rw [view_pc]
      cases link with
      | true =>
          refine @branch_becomes p ins junk hready haligned .bl ⟨hcategory', hlink⟩ _ ?_
          rw [Branch.target, hoffset]
      | false =>
          refine @branch_becomes p ins junk hready haligned .b ⟨hcategory', hlink⟩ _ ?_
          rw [Branch.target, hoffset]
  | .exchange link rm =>
      obtain ⟨hbits, hlow, hrm⟩ := fields_exchange ((read_iff rfl).mpr hins)
      obtain rfl := Option.some.inj ht
      cases link with
      | true =>
          exact @branch_becomes p ins junk hready haligned .blx ⟨hbits, hlow⟩ _
            (target_exchange hrm)
      | false =>
          exact @branch_becomes p ins junk hready haligned .bx ⟨hbits, hlow⟩ _
            (target_exchange hrm)

/-- **One step.**  Where the machine takes a step, `arm_step` returns 0, and the processor becomes
the state of the machine. -/
theorem armStep_becomes (hready : Ready p) (junk : Word)
    (h : machine.step (view p) () = some t) :
    ∃ q, armStep p junk = some (0, q) ∧ Becomes 1 p q t := by
  obtain ⟨condition, i, hfetch, hcondition, hexec⟩ := machine_step_eq_some.mp h
  obtain ⟨hword, haligned⟩ := armFetch_of_fetch hfetch
  obtain ⟨hcode, hins⟩ := (encode_eq_iff condition i).mp rfl
  have hexecutes : Executes p (encode condition i) :=
    ⟨hword, (conditionPassed_iff hcode).mpr hcondition⟩
  obtain ⟨q, hdispatch, hq⟩ := @dispatch_becomes p _ junk t hready haligned i hins hexec
  rw [← hexecutes.dispatched] at hdispatch
  exact ⟨q, armStep_of_execute hdispatch, hq⟩

end Steps

/-! ## Runs

The step is a simulation, and the relation composes; the library's rule for runs does the rest. -/

/-- The machine takes one step for each call. -/
theorem forall₂_junks (junks : List Word) :
    List.Forall₂ (fun _ _ => True) (List.replicate junks.length ()) junks := by
  induction junks with
  | nil => exact .nil
  | cons junk junks ih => exact .cons trivial ih

/-- **The simulator follows the machine.**  From every processor that is in one of the seven modes,
`n` calls of `arm_step` do what `n` instructions of the machine do, where these have a meaning:
every call returns 0, the registers of the mode, the flags N and Z and the memory are those of the
machine, and nothing else has changed but C, V and the count of cycles, which is `n` higher. -/
theorem assembly_followed {p : ArmCore} (hready : Ready p) (junks : List Word) {s : State}
    (h : run junks.length (view p) = some s) :
    ∃ q, quietStep.run p junks = some q ∧ Becomes junks.length p q s := by
  have hstep : ∀ {n : ℕ} {u : State} {q : ArmCore} {e : Unit} {junk : Word} {u' : State},
      Becomes n p q u → True → machine.step u e = some u' →
        ∃ q', quietStep.step q junk = some q' ∧ Becomes (n + 1) p q' u' := by
    intro n u q _ junk u' hq _ hu
    rw [← hq.view] at hu
    obtain ⟨q', hcall, hq'⟩ := armStep_becomes hq.ready junk hu
    refine ⟨q', ?_, hq.trans hq'⟩
    show (armStep q junk).bind _ = some q'
    rw [hcall]
    rfl
  obtain ⟨q, hq, hbecomes⟩ := Machine.run_simulation (R := fun n u q => Becomes n p q u) hstep
    (Becomes.refl hready) (forall₂_junks junks) h
  rw [List.length_replicate, Nat.zero_add] at hbecomes
  exact ⟨q, hq, hbecomes⟩

/-- `MOV r1, #0x18`, `MOV r0, #5`, `STR r0, [r1]`, a branch over `MOV r0, #0`, `LDR r2, [r1]`, and
a word of data. -/
def branchSample : ArmCore :=
  ArmCore.load 0x1d3
    [0xE3A01018, 0xE3A00005, 0xE5810000, 0xEA000000, 0xE3A00000, 0xE5912000, 0]

/-- The word is stored and loaded, and the instruction in between is passed over. -/
theorem assembly_followed_branch :
    ∃ q, quietStep.run branchSample [0, 0, 0, 0, 0] = some q ∧
      (view q).reg 0 = 5 ∧ (view q).reg 2 = 5 ∧ (view q).reg 15 = 0x18 := by
  have hready : Ready branchSample := ⟨⟨.svc, rfl⟩, rfl⟩
  have hresult : (run 5 (view branchSample)).map (fun s => (s.reg 0, s.reg 2, s.reg 15)) =
      some (5, 5, 0x18) := by decide +kernel
  obtain ⟨s, hs, hregs⟩ := Option.map_eq_some_iff.mp hresult
  obtain ⟨hfirst, hrest⟩ := Prod.mk.inj hregs
  obtain ⟨hsecond, hpc⟩ := Prod.mk.inj hrest
  obtain ⟨q, hq, hbecomes⟩ := assembly_followed hready [0, 0, 0, 0, 0] hs
  refine ⟨q, hq, ?_⟩
  rw [hbecomes.view]
  exact ⟨hfirst, hsecond, hpc⟩

end ArmSimulator.Assembly
