import ArmSimulator.Assembly.Refinement
import ArmSimulator.Condition

/-!
# Assembly: programs

Code is a list of words in memory (`HasWords`).  A call rule composes a branch with link, a body and
the return (`run_call`); a loop is the rule of the library.  With both, the countdown of the first
example program is proved for every place in memory and every count, and the refinement brings the
proof to the simulator (`countdown_ends`).

The proof of the program never mentions a processor.  It is about runs of the assembly machine, one
lemma for each instruction of the code, and the loop has an invariant, `Counting`: how many rounds
are left, and that the state differs from the first one only in what the loop sets.

The simulator adds two things to the example, and both are in the result.  The branch that closes
the loop fails its condition after the last round and is then an interrupt, so the program does not
come to its end; and a count that comes to what `R15` reads as would be taken for a return from an
exception, which bounds the counts by the address of the code.
-/

namespace ArmSimulator.Assembly

/-! ## Code

Words in memory, and what it takes to run one of them. -/

/-- A word lies in memory at an address. -/
def Stored (mem : Memory) (address ins : Word) : Prop :=
  WordAligned address ∧ address.toNat + 4 ≤ mem.capacity.toNat ∧
    BitVec.ofNat 32 (ByteOrder.decode .big (mem.bytesAt address 4)) = ins

instance decidableStored (mem : Memory) (address ins : Word) :
    Decidable (Stored mem address ins) := inferInstanceAs (Decidable (_ ∧ _))

/-- Words lie in memory from an address on. -/
def HasWords (mem : Memory) : Word → List Word → Prop
  | _, [] => True
  | address, ins :: rest => Stored mem address ins ∧ HasWords mem (address + 4) rest

section Code

variable {s t u : State} {m n : ℕ} {ins : Word}

theorem fetch_of_stored (h : Stored s.mem (s.reg 15) ins) : fetch s = some ins := by
  obtain ⟨haligned, hroom, hword⟩ := h
  rw [fetch, if_pos ⟨haligned, hroom⟩]
  exact congrArg some hword

/-- One instruction of the code. -/
theorem run_one {condition : Condition} {i : Instruction}
    (h : Stored s.mem (s.reg 15) (encode condition i)) (hcondition : condition.holds s = true)
    (hexec : exec s i = some t) : run 1 s = some t := by
  rw [run_one_eq]
  exact machine_step_eq_some.mpr ⟨condition, i, fetch_of_stored h, hcondition, hexec⟩

/-- One run after another. -/
theorem run_then (hfirst : run m s = some t) (hsecond : run n t = some u) :
    run (m + n) s = some u := by
  rw [run_add, hfirst, Option.bind_some, hsecond]

end Code

/-! ## Subroutines

A body is any run from the target of the call to a return, with the link in `R14` again. -/

/-- `MOV pc, lr`. -/
def ret : Instruction := .dataProcessing .mov false 0 15 (.shifted .lsl 0 14)

section Subroutines

variable {s t : State} {n : ℕ}

theorem exec_ret (s : State) : exec s ret = some (s.write 15 (s.reg 14)) := by
  have hwrite : s.next.write 15 (s.reg 14) = s.write 15 (s.reg 14) :=
    State.ext (Function.update_idem ..) rfl rfl rfl
  show some (s.next.write 15 (s.reg 14)) = _
  rw [hwrite]

/-- **Call and return.**  A branch with link, a body that ends at a return with the link in `R14`,
and the return lead behind the branch. -/
theorem run_call {offset : BitVec 24} (hcall : Stored s.mem (s.reg 15)
      (encode .al (.branch true offset)))
    (hbody : run n (s.branch true (s.reg 15 + 8 + 4 * offset.signExtend 32)) = some t)
    (hret : Stored t.mem (t.reg 15) (encode .al ret)) (hlink : t.reg 14 = s.reg 15 + 4) :
    run (1 + (n + 1)) s = some (t.write 15 (s.reg 15 + 4)) := by
  have hreturn := run_one hret rfl (exec_ret t)
  rw [hlink] at hreturn
  exact run_then (run_one hcall rfl rfl) (run_then hbody hreturn)

end Subroutines

/-! ## The countdown of the first example

The code of `example1.s` as words, and its loop.  The state is described by what has been set in it:
count, flags, link and place. -/

/-- `Examples/example1.s`: `decr` at 0 and 4, `main` at 8, the loop at 12 and 16, `end` at 20. -/
def example1 : List Word :=
  [0xE2500001, 0xE1A0F00E, 0xE3A00005, 0xEBFFFFFB, 0x1AFFFFFD, 0xEF123456]

/-- The state `s` with a count in `R0` and in the flags, with the link of the loop, at `pc`. -/
def counted (s : State) (address count pc : Word) : State :=
  (((s.write 14 (address + 16)).write 0 count).write 15 pc).setFlags count

section Countdown

variable {s u : State} {address count : Word} {n : ℕ}

/-- The code of the example, instruction by instruction. -/
theorem example1_stored {mem : Memory} (h : HasWords mem address example1) :
    Stored mem address (encode .al (.dataProcessing .sub true 0 0 (.immediate 0 1))) ∧
      Stored mem (address + 4) (encode .al ret) ∧
      Stored mem (address + 12) (encode .al (.branch true 0xFFFFFB)) ∧
      Stored mem (address + 16) (encode .ne (.branch false 0xFFFFFD)) := by
  obtain ⟨hsubs, hret, -, hcall, hloop, -⟩ := h
  simp only [BitVec.add_assoc] at hcall hloop
  exact ⟨hsubs, hret, hcall, hloop⟩

/-- `counted` forgets what it sets. -/
theorem counted_counted (s : State) (address count pc count' pc' : Word) :
    counted (counted s address count pc) address count' pc' = counted s address count' pc' := by
  refine State.ext ?_ rfl rfl rfl
  funext r
  simp only [counted, State.write, State.setFlags, Function.update_apply]
  split_ifs <;> rfl

/-- `SUBS r0, r0, #1`, unless the result is what `R15` reads as. -/
theorem exec_subs (hcount : s.reg 0 - 1 ≠ s.reg 15 + 8) :
    exec s (.dataProcessing .sub true 0 0 (.immediate 0 1)) =
      some ((s.next.write 0 (s.reg 0 - 1)).setFlags (s.reg 0 - 1)) := by
  have hopen : ¬ ((0 : Register) = 15 ∨ s.reg 0 - 1 = s.reg 15 + 8) :=
    not_or.mpr ⟨by decide, hcount⟩
  show s.dataProcess .sub true 0 (s.reg 0 - 1) = _
  rw [State.dataProcess, if_neg (by decide), if_pos rfl, if_neg hopen]

/-- The call of `decr` counts down by one. -/
theorem run_decr (hcode : HasWords s.mem address example1) (hpc : s.reg 15 = address + 12)
    (hcount : s.reg 0 - 1 ≠ address + 8) :
    run 3 s = some (counted s address (s.reg 0 - 1) (address + 16)) := by
  obtain ⟨hsubs, hret, hcall, -⟩ := example1_stored hcode
  have hoffset : (4 * (0xFFFFFB : BitVec 24).signExtend 32 : Word) = -20 := by decide
  have htarget : s.reg 15 + 8 + 4 * (0xFFFFFB : BitVec 24).signExtend 32 = address := by
    rw [hoffset, hpc]
    bv_omega
  have hlink : s.reg 15 + 4 = address + 16 := by
    rw [hpc, BitVec.add_assoc]
    rfl
  have hbody : run 1 (s.branch true address) =
      some (((s.branch true address).next.write 0 (s.reg 0 - 1)).setFlags (s.reg 0 - 1)) :=
    run_one hsubs rfl (exec_subs hcount)
  rw [← htarget] at hbody
  rw [← hpc] at hcall
  have hround := run_call hcall hbody (by rw [htarget]; exact hret) (by rfl)
  rw [htarget, hlink] at hround
  refine hround.trans (congrArg some (State.ext ?_ rfl rfl rfl))
  funext r
  simp only [counted, State.branch, State.next, State.write, State.setFlags, if_true, hlink,
    Function.update_apply]
  split_ifs <;> rfl

/-- A count that is not zero goes round. -/
theorem run_bne (hcode : HasWords s.mem address example1) (hpc : s.reg 15 = address + 16)
    (hz : s.z = false) : run 1 s = some (s.write 15 (address + 12)) := by
  obtain ⟨-, -, -, hloop⟩ := example1_stored hcode
  have hoffset : (4 * (0xFFFFFD : BitVec 24).signExtend 32 : Word) = -12 := by decide
  have htarget : s.reg 15 + 8 + 4 * (0xFFFFFD : BitVec 24).signExtend 32 = address + 12 := by
    rw [hoffset, hpc]
    bv_omega
  have hbranch : s.branch false (address + 12) = s.write 15 (address + 12) :=
    State.ext (Function.update_idem ..) rfl rfl rfl
  have hpasses : Condition.ne.holds s = true := by
    rw [Condition.holds, hz]
    rfl
  rw [← hbranch, ← htarget]
  exact run_one (by rw [hpc]; exact hloop) hpasses rfl

/-- `u` differs from `s` in what the loop sets alone, and `n` rounds and a last call are left. -/
structure Counting (s : State) (address : Word) (n : ℕ) (u : State) : Prop where
  pc : u.reg 15 = address + 12
  count : (u.reg 0).toNat = n + 1
  below : n < (address + 8).toNat
  rest : ∀ count pc, counted u address count pc = counted s address count pc

theorem Counting.mem (h : Counting s address n u) : u.mem = s.mem := by
  have hmem : (counted u address 0 0).mem = (counted s address 0 0).mem :=
    congrArg State.mem (h.rest 0 0)
  exact hmem

theorem Counting.toNat_sub (h : Counting s address n u) : (u.reg 0 - 1).toNat = n := by
  have hcount := h.count
  bv_omega

/-- The call of `decr` in a round. -/
theorem Counting.run_decr (h : Counting s address n u)
    (hcode : HasWords s.mem address example1) :
    run 3 u = some (counted s address (u.reg 0 - 1) (address + 16)) := by
  have hcount : u.reg 0 - 1 ≠ address + 8 := by
    intro heq
    have hval := h.toNat_sub
    rw [heq] at hval
    exact h.below.ne hval.symm
  rw [← h.rest]
  exact Assembly.run_decr (by rwa [h.mem]) h.pc hcount

/-- **One round**: the call, and the branch back. -/
theorem Counting.round (h : Counting s address (n + 1) u)
    (hcode : HasWords s.mem address example1) :
    ∃ t, run 4 u = some t ∧ Counting s address n t := by
  have hval := h.toNat_sub
  have hz : (counted s address (u.reg 0 - 1) (address + 16)).z = false := by
    refine decide_eq_false fun hzero => ?_
    rw [hzero] at hval
    cases hval
  have hback : (counted s address (u.reg 0 - 1) (address + 16)).write 15 (address + 12) =
      counted s address (u.reg 0 - 1) (address + 12) :=
    State.ext (Function.update_idem ..) rfl rfl rfl
  have hbne := run_bne (s := counted s address (u.reg 0 - 1) (address + 16)) hcode rfl hz
  rw [hback] at hbne
  refine ⟨_, run_then (h.run_decr hcode) hbne, rfl, hval, Nat.lt_of_succ_lt h.below, ?_⟩
  exact counted_counted s address _ _

/-- **The loop** counts down to zero, in `4 n + 3` instructions, by the invariant `Counting`. -/
theorem run_countdown (hcode : HasWords s.mem address example1) (hpc : s.reg 15 = address + 12)
    (hcount : (s.reg 0).toNat = n + 1) (hbelow : n < (address + 8).toNat) :
    run (n * 4 + 3) s = some (counted s address 0 (address + 16)) := by
  have hstart : Counting s address n s := ⟨hpc, hcount, hbelow, fun _ _ => rfl⟩
  obtain ⟨t, hrounds, hlast⟩ := machine.run_rounds (I := Counting s address)
    (fun _ _ h => h.round hcode) n hstart
  have hzero : t.reg 0 - 1 = 0 := BitVec.eq_of_toNat_eq hlast.toNat_sub
  have hend := hlast.run_decr hcode
  rw [hzero] at hend
  rw [List.flatten_replicate_replicate] at hrounds
  exact run_then hrounds hend

end Countdown

/-! ## The countdown on the simulator

The run of the machine, carried over by the refinement, and the call after it. -/

/-- **The loop of the first example**, at every address and for every count.  From the branch with
link at `address + 12` and with `n + 1` in `R0`, the next `4 n + 3` calls of `arm_step` return 0 and
leave 0 in `R0`, the address behind the branch in `R14`, Z set, a count of cycles that is `4 n + 3`
higher, and everything else but the flags as it was; then the branch that closes the loop fails its
condition, and the call returns `INTERRUPT`.  The count must not come to what `R15` reads as in
`decr`: there the S bit is for the code a return from an exception. -/
theorem countdown_ends {p : ArmCore} {address : Word} {n : ℕ} (hready : Ready p)
    (hcode : HasWords p.mem address example1) (hpc : p.reg.pc = address + 12)
    (hcount : (armReadRegister p 0).toNat = n + 1) (hbelow : n < (address + 8).toNat)
    {junks : List Word} (hjunks : junks.length = n * 4 + 3) (junk : Word) :
    ∃ q, quietStep.run p junks = some q ∧
      Becomes (n * 4 + 3) p q (counted (view p) address 0 (address + 16)) ∧
      armStep q junk = some (INTERRUPT, unterrupt q.fetched) := by
  have hrun : run junks.length (view p) = some (counted (view p) address 0 (address + 16)) := by
    rw [hjunks]
    exact run_countdown hcode (by rwa [view_pc]) hcount hbelow
  obtain ⟨q, hq, hbecomes⟩ := assembly_followed hready junks hrun
  refine ⟨q, hq, hjunks ▸ hbecomes, ?_⟩
  -- the branch is fetched, and Z is set
  have hbranch : fetch (view q) = some (encode .ne (.branch false 0xFFFFFD)) := by
    rw [hbecomes.view]
    exact fetch_of_stored (example1_stored hcode).2.2.2
  have hfails : ¬ conditionPassed q.fetched (encode .ne (.branch false 0xFFFFFD)) ≠ 0 := by
    rw [conditionPassed_iff (encode_eq_iff .ne _ |>.mp rfl).1, hbecomes.view]
    exact Bool.false_ne_true
  exact armStep_of_conditionFailed (armFetch_of_fetch hbranch).1 (not_not.mp hfails)

/-- The count of the example, before the first call. -/
def example1Start : ArmCore :=
  armWriteRegister (armWriteRegister (ArmCore.load 0x1d3 example1) 0 5) 15 12

/-- The example itself: five rounds are nineteen calls. -/
theorem countdown_ends_five :
    ∃ q, quietStep.run example1Start (List.replicate 19 0) = some q ∧ (view q).reg 0 = 0 ∧
      (armStep q 0).map Prod.fst = some INTERRUPT := by
  have hready : Ready example1Start := ⟨⟨.svc, rfl⟩, rfl⟩
  have hcode : HasWords example1Start.mem 0 example1 :=
    ⟨by decide, by decide, by decide, by decide, by decide, by decide, trivial⟩
  obtain ⟨q, hq, hbecomes, hinterrupt⟩ := @countdown_ends example1Start 0 4 hready hcode
    (by decide) (by decide) (by decide) (List.replicate 19 0) rfl 0
  refine ⟨q, hq, ?_, ?_⟩
  · rw [hbecomes.view]
    rfl
  · rw [hinterrupt]
    rfl

end ArmSimulator.Assembly
