import ArmSimulator.Assembly.Programs
import Mathlib.Data.List.Nodup

/-!
# Assembly: procedures

A procedure that uses registers saves them on a stack.  The pair that the simulator carries out with
write-back is `STMIB` and `LDMDA`: a stack that grows upwards and whose base is that of the last
word.  What is pushed lies in the words above the base (`storeWords_holds`), a body that keeps these
words is followed by the pop of the same values (`loadWords_reg`), and with the rule for calls the
registers of the caller come back (`procedure_keeps_registers`).

What is asked of the base is `Stack`: it is not `R15`, it is not in the list, and there is room
above it.  The second point cannot be left out: a base in the list is pushed with its old value and
then, when it is popped, overwritten by it or by the write-back.

What is asked of the body is `StackKept`, at its end only: the base is where the push has left it,
and the words of the block are what they were.  On the way it may do what it likes: move the base,
write into the block and put it back, call other procedures.
-/

namespace ArmSimulator.Assembly

/-! ## Blocks of words

What a list of stores leaves in memory and what a list of loads takes from it.  The blocks do not
wrap round, so each store leaves the ones before it alone. -/

/-- Values lie in consecutive words. -/
def HoldsWords (mem : Memory) : Word → List Word → Prop
  | _, [] => True
  | address, value :: values =>
      BitVec.ofNat 32 (ByteOrder.decode .big (mem.bytesAt address 4)) = value ∧
        HoldsWords mem (address + 4) values

section Blocks

variable {s t : State} {mem mem' : Memory} {address i value : Word} {rs : List Register}

/-- The words of a block depend on its bytes alone. -/
theorem HoldsWords.congr : ∀ {values : List Word} {address : Word},
    (∀ k < 4 * values.length, mem'.data (address + BitVec.ofNat 32 k) =
      mem.data (address + BitVec.ofNat 32 k)) →
      HoldsWords mem address values → HoldsWords mem' address values := by
  intro values
  induction values with
  | nil => exact fun _ _ => trivial
  | cons value values ih =>
      rintro address hsame ⟨hfirst, hrest⟩
      rw [List.length_cons] at hsame
      have hbytes : mem'.bytesAt address 4 = mem.bytesAt address 4 :=
        List.map_congr_left fun k hk => hsame k (by have := List.mem_range.mp hk; omega)
      refine ⟨by rw [hbytes]; exact hfirst, ih (fun k hk => ?_) hrest⟩
      have hplace : address + 4 + BitVec.ofNat 32 k = address + BitVec.ofNat 32 (k + 4) := by
        rw [Nat.add_comm k, BitVec.ofNat_add, ← BitVec.add_assoc]
        rfl
      rw [hplace]
      exact hsame (k + 4) (by omega)

/-- A word that was stored is loaded. -/
theorem load_store : (s.store address 4 value).load address 4 = value := by
  have hlength := ByteOrder.length_encode .big 4 value.toNat
  have hbytes := s.mem.bytesAt_storeBytes address (ByteOrder.encode .big 4 value.toNat)
    (by rw [hlength]; decide)
  rw [hlength] at hbytes
  have hlt : value.toNat < 256 ^ 4 := value.isLt
  show BitVec.ofNat 32
    (ByteOrder.decode .big ((s.mem.storeBytes address _).bytesAt address 4)) = value
  rw [hbytes, ByteOrder.decode_encode, Nat.mod_eq_of_lt hlt, BitVec.ofNat_toNat,
    BitVec.setWidth_eq]

/-- A byte that is not in the word is as before. -/
theorem data_store (h : 4 ≤ (i - address).toNat) :
    (s.store address 4 value).mem.data i = s.mem.data i := by
  have hlength := ByteOrder.length_encode .big 4 value.toNat
  have hle : (ByteOrder.encode .big 4 value.toNat).length ≤ (i - address).toNat := by rwa [hlength]
  show (s.mem.storeBytes address (ByteOrder.encode .big 4 value.toNat)).data i = s.mem.data i
  rw [Memory.data_storeBytes _ _ _ (by rw [hlength]; decide), List.getElem?_eq_none hle,
    Option.getD_none]

/-- A byte that is not in the block is as before. -/
theorem storeWords_data : ∀ {rs : List Register} {address : Word} {s : State},
    4 * rs.length ≤ (i - address).toNat →
      (State.storeWords rs address s).mem.data i = s.mem.data i := by
  intro rs
  induction rs with
  | nil => exact fun _ => rfl
  | cons r rs ih =>
      intro address s h
      rw [List.length_cons] at h
      have hnext : 4 * rs.length ≤ (i - (address + 4)).toNat := by bv_omega
      rw [State.storeWords, ih hnext]
      exact data_store (by omega)

/-- **The registers that are stored lie in the block.**  The induction is on the list; a later store
is above the words that are there, and leaves them alone. -/
theorem storeWords_holds : ∀ {rs : List Register} {address : Word} {s : State},
    4 * rs.length ≤ 2 ^ 32 →
      HoldsWords (State.storeWords rs address s).mem address (rs.map s.reg) := by
  intro rs
  induction rs with
  | nil => exact fun _ => trivial
  | cons r rs ih =>
      intro address s h
      rw [List.length_cons] at h
      have hrest := @ih (address + 4) (s.store address 4 (s.reg r)) (by omega)
      refine ⟨?_, hrest⟩
      -- the words behind do not come round to the first
      have hkept : ∀ k < 4, (State.storeWords rs (address + 4)
          (s.store address 4 (s.reg r))).mem.data (address + BitVec.ofNat 32 k) =
            (s.store address 4 (s.reg r)).mem.data (address + BitVec.ofNat 32 k) := by
        intro k hk
        exact storeWords_data (by bv_omega)
      have hbytes : (State.storeWords rs (address + 4)
          (s.store address 4 (s.reg r))).mem.bytesAt address 4 =
            (s.store address 4 (s.reg r)).mem.bytesAt address 4 :=
        List.map_congr_left fun k hk => hkept k (List.mem_range.mp hk)
      show BitVec.ofNat 32 (ByteOrder.decode .big ((State.storeWords rs (address + 4)
        (s.store address 4 (s.reg r))).mem.bytesAt address 4)) = s.reg r
      rw [hbytes]
      exact load_store

/-- **What is loaded from a block**: the registers of the list get its words. -/
theorem loadWords_reg {f : Register → Word} : ∀ {rs : List Register} {address : Word} {t : State},
    rs.Nodup → HoldsWords t.mem address (rs.map f) → ∀ r,
      (State.loadWords rs address t).reg r = if r ∈ rs then f r else t.reg r := by
  intro rs
  induction rs with
  | nil => exact fun _ _ _ => (if_neg List.not_mem_nil).symm
  | cons r rs ih =>
      rintro address t hnodup ⟨hfirst, hrest⟩ r'
      obtain ⟨hnot, hnodup'⟩ := List.nodup_cons.mp hnodup
      rw [State.loadWords, @ih (address + 4) (t.write r (t.load address 4)) hnodup' hrest r']
      by_cases hr : r' = r
      · subst hr
        rw [if_neg hnot, if_pos List.mem_cons_self]
        exact (Function.update_self ..).trans hfirst
      · have hmem : r' ∈ r :: rs ↔ r' ∈ rs := by
          rw [List.mem_cons, or_iff_right hr]
        simp only [hmem]
        split_ifs
        · rfl
        · exact Function.update_of_ne hr _ _

theorem loadWords_rest : ∀ {rs : List Register} {address : Word} {t : State},
    (State.loadWords rs address t).n = t.n ∧ (State.loadWords rs address t).z = t.z ∧
      (State.loadWords rs address t).mem = t.mem := by
  intro rs
  induction rs with
  | nil => exact ⟨rfl, rfl, rfl⟩
  | cons r rs ih => exact fun {address t} => @ih (address + 4) (t.write r (t.load address 4))

end Blocks

/-! ## Lists of registers

Facts about the list of a multiple transfer. -/

/-- No register is in a list twice. -/
theorem nodup_listed (regList : BitVec 15) : (listed regList).Nodup := by
  refine List.Nodup.map_on (fun i hi j hj heq => ?_) (List.nodup_range.filter _)
  have hi' := List.mem_range.mp (List.mem_of_mem_filter hi)
  have hj' := List.mem_range.mp (List.mem_of_mem_filter hj)
  have hval := congrArg BitVec.toNat heq
  rw [BitVec.toNat_ofNat, BitVec.toNat_ofNat] at hval
  omega

/-- `R15` is in none. -/
theorem pc_notMem_listed (regList : BitVec 15) : (15 : Register) ∉ listed regList := by
  intro h
  obtain ⟨i, hi, heq⟩ := List.mem_map.mp h
  exact ofNat_ne_pc (List.mem_range.mp (List.mem_of_mem_filter hi)) heq

theorem length_listed_le (regList : BitVec 15) : (listed regList).length ≤ 15 := by
  rw [listed, List.length_map]
  exact (List.length_filter_le ..).trans (List.length_range).le

/-! ## Push and pop

The two instructions on a stack, and a body between them. -/

/-- `STMIB rn!, {…}`. -/
def push (rn : Register) (regList : BitVec 15) : Instruction :=
  .multiple false true true true rn regList

/-- `LDMDA rn!, {…}`. -/
def pop (rn : Register) (regList : BitVec 15) : Instruction :=
  .multiple true false false true rn regList

/-- A base that can be a stack for a list: not `R15`, not in the list, and with room for it above.
-/
structure Stack (s : State) (rn : Register) (regList : BitVec 15) : Prop where
  base : rn ≠ 15
  unlisted : rn ∉ listed regList
  room : Room s.mem (s.reg rn + 4) (listed regList).length

/-- The base above what is pushed. -/
def top (s : State) (rn : Register) (regList : BitVec 15) : Word :=
  s.reg rn + BitVec.ofNat 32 (4 * (listed regList).length)

/-- The state after a push. -/
def pushed (s : State) (rn : Register) (regList : BitVec 15) : State :=
  State.storeWords (listed regList) (s.reg rn + 4) (s.next.write rn (top s rn regList))

section Frames

variable {s t : State} {rn : Register} {regList : BitVec 15} {n : ℕ}

theorem exec_push (h : Stack s rn regList) :
    exec s (push rn regList) = some (pushed s rn regList) := by
  have hread : s.read rn = s.reg rn := if_neg h.base
  have hbase : ¬ (rn = 15 ∨ true = true ∧ (rn ∈ listed regList ∨ true = true ∧
      (!true) = true)) := by
    rintro (hpc | ⟨-, hlisted | ⟨-, hafter⟩⟩)
    · exact h.base hpc
    · exact h.unlisted hlisted
    · cases hafter
  have hroom : ¬ (s.mem.capacity.toNat < (s.reg rn + 4).toNat + 4 * (listed regList).length ∨
      2 ^ 32 < (s.reg rn + 4).toNat + 4 * (listed regList).length) :=
    not_or.mpr ⟨Nat.not_lt.mpr h.room.1, Nat.not_lt.mpr h.room.2⟩
  show s.multiple false true true true rn (listed regList) = _
  rw [State.multiple, if_neg hbase, hread]
  exact if_neg hroom

/-- The state after a pop, whose base is `base`. -/
def popped (t : State) (base : Word) (rn : Register) (regList : BitVec 15) : State :=
  State.loadWords (listed regList) (base + 4) (t.next.write rn base)

/-- A body has left the stack of the push as it was. -/
structure StackKept (s : State) (rn : Register) (regList : BitVec 15) (t : State) : Prop where
  base : t.reg rn = top s rn regList
  capacity : t.mem.capacity = s.mem.capacity
  block : ∀ k < 4 * (listed regList).length,
    t.mem.data (s.reg rn + 4 + BitVec.ofNat 32 k) =
      (pushed s rn regList).mem.data (s.reg rn + 4 + BitVec.ofNat 32 k)

/-- A pop behind such a body. -/
theorem exec_pop (h : Stack s rn regList) (hkept : StackKept s rn regList t) :
    exec t (pop rn regList) = some (popped t (s.reg rn) rn regList) := by
  have hread : t.read rn = top s rn regList := (if_neg h.base).trans hkept.base
  have hlast : top s rn regList - BitVec.ofNat 32 (4 * (listed regList).length) = s.reg rn :=
    BitVec.add_sub_cancel ..
  have hbase : ¬ (rn = 15 ∨ true = true ∧ (rn ∈ listed regList ∨ false = true ∧
      (!false) = true)) := by
    rintro (hpc | ⟨-, hlisted | ⟨hafter, -⟩⟩)
    · exact h.base hpc
    · exact h.unlisted hlisted
    · cases hafter
  have hroom : ¬ (t.mem.capacity.toNat < (s.reg rn + 4).toNat + 4 * (listed regList).length ∨
      2 ^ 32 < (s.reg rn + 4).toNat + 4 * (listed regList).length) := by
    rw [hkept.capacity]
    exact not_or.mpr ⟨Nat.not_lt.mpr h.room.1, Nat.not_lt.mpr h.room.2⟩
  show t.multiple true false false true rn (listed regList) = _
  rw [State.multiple, if_neg hbase, hread]
  dsimp only
  rw [if_neg Bool.false_ne_true, if_neg Bool.false_ne_true, if_pos rfl, hlast]
  exact if_neg hroom

/-- The stack holds the registers that were pushed. -/
theorem StackKept.holds (h : Stack s rn regList) (hkept : StackKept s rn regList t) :
    HoldsWords t.mem (s.reg rn + 4) ((listed regList).map s.reg) := by
  have hsize := length_listed_le regList
  have hsame : (listed regList).map (s.next.write rn (top s rn regList)).reg =
      (listed regList).map s.reg := by
    refine List.map_congr_left fun r hr => ?_
    have hrn : r ≠ rn := fun heq => h.unlisted (heq ▸ hr)
    have hpc : r ≠ 15 := fun heq => pc_notMem_listed regList (heq ▸ hr)
    exact (Function.update_of_ne hrn ..).trans (Function.update_of_ne hpc ..)
  have hpushed : HoldsWords (pushed s rn regList).mem (s.reg rn + 4)
      ((listed regList).map s.reg) := by
    rw [← hsame]
    exact storeWords_holds (by omega)
  refine hpushed.congr ?_
  rw [List.length_map]
  exact hkept.block

/-- **The pop restores** what was pushed and the base.  Any other register is as the body has left
it. -/
theorem popped_reg (h : Stack s rn regList) (hkept : StackKept s rn regList t) (r : Register) :
    (popped t (s.reg rn) rn regList).reg r =
      if r ∈ listed regList then s.reg r
      else if r = rn then s.reg rn
      else if r = 15 then t.reg 15 + 4
      else t.reg r := by
  have hholds := hkept.holds h
  rw [popped, @loadWords_reg s.reg _ _ (t.next.write rn (s.reg rn)) (nodup_listed regList) hholds]
  simp only [State.next, State.write, Function.update_apply]

/-- **A frame**: a push, a body that keeps the stack, and the pop.  It takes two instructions more
than the body. -/
theorem run_frame (h : Stack s rn regList)
    (hpush : Stored s.mem (s.reg 15) (encode .al (push rn regList)))
    (hbody : run n (pushed s rn regList) = some t) (hkept : StackKept s rn regList t)
    (hpop : Stored t.mem (t.reg 15) (encode .al (pop rn regList))) :
    run (1 + (n + 1)) s = some (popped t (s.reg rn) rn regList) :=
  run_then (run_one hpush rfl (exec_push h))
    (run_then hbody (run_one hpop rfl (exec_pop h hkept)))

/-- **A procedure**: a call, a frame that saves the link, and the return.  The link is in the list,
so the body may use `R14`. -/
theorem run_procedure {offset : BitVec 24} {entry : Word}
    (hentry : entry = s.reg 15 + 8 + 4 * offset.signExtend 32)
    (hcall : Stored s.mem (s.reg 15) (encode .al (.branch true offset)))
    (h : Stack (s.branch true entry) rn regList) (hlink : 14 ∈ listed regList)
    (hpush : Stored s.mem entry (encode .al (push rn regList)))
    (hbody : run n (pushed (s.branch true entry) rn regList) = some t)
    (hkept : StackKept (s.branch true entry) rn regList t)
    (hpop : Stored t.mem (t.reg 15) (encode .al (pop rn regList)))
    (hret : Stored t.mem (t.reg 15 + 4) (encode .al ret)) :
    run (n + 4) s = some
      ((popped t ((s.branch true entry).reg rn) rn regList).write 15 (s.reg 15 + 4)) := by
  have hpc : rn ≠ 15 := h.base
  have hframe := run_frame h hpush hbody hkept hpop
  have hreg := popped_reg h hkept
  have hmem : (popped t ((s.branch true entry).reg rn) rn regList).mem = t.mem :=
    loadWords_rest.2.2
  have hplace : (popped t ((s.branch true entry).reg rn) rn regList).reg 15 = t.reg 15 + 4 := by
    rw [hreg, if_neg (pc_notMem_listed regList), if_neg hpc.symm, if_pos rfl]
  have hreturn : (popped t ((s.branch true entry).reg rn) rn regList).reg 14 = s.reg 15 + 4 := by
    rw [hreg, if_pos hlink]
    rfl
  rw [hentry] at hframe
  have hrun := run_call hcall hframe (by rw [← hentry, hmem, hplace]; exact hret)
    (by rw [← hentry]; exact hreturn)
  have hsteps : n + 4 = 1 + (1 + (n + 1) + 1) := by omega
  rw [hsteps, hrun, ← hentry]

end Frames

/-! ## Procedures on the simulator

A call, a frame and a return, on the machine and then on the simulator. -/

/-- **A procedure keeps the registers that it saves.**  From every processor in one of the seven
modes, for every base that is a `Stack` for the list, every list with `R14` and every body of the
machine that keeps the stack, however long it runs: the calls of `arm_step` from the branch with
link to the return return 0, and lead behind the branch; the base and the saved registers are those
of the caller, `R14` is the link, the rest of the state is as the body has left it, and outside of
the state nothing has changed but C, V and the count of cycles. -/
theorem procedure_keeps_registers {p : ArmCore} (hready : Ready p) {offset : BitVec 24}
    {entry : Word} (hentry : entry = p.reg.pc + 8 + 4 * offset.signExtend 32)
    (hcall : Stored p.mem p.reg.pc (encode .al (.branch true offset))) {rn : Register}
    {regList : BitVec 15} (hstack : Stack ((view p).branch true entry) rn regList)
    (hlink : 14 ∈ listed regList)
    (hpush : Stored p.mem entry (encode .al (push rn regList))) {n : ℕ} {t : State}
    (hbody : run n (pushed ((view p).branch true entry) rn regList) = some t)
    (hkept : StackKept ((view p).branch true entry) rn regList t)
    (hpop : Stored t.mem (t.reg 15) (encode .al (pop rn regList)))
    (hret : Stored t.mem (t.reg 15 + 4) (encode .al ret)) {junks : List Word}
    (hjunks : junks.length = n + 4) :
    ∃ q, quietStep.run p junks = some q ∧ Ready q ∧ Kept (n + 4) p q ∧ q.reg.pc = p.reg.pc + 4 ∧
      (∀ r : Register, r ≠ 15 → armReadRegister q r.number =
        if r = 14 then p.reg.pc + 4
        else if r ∈ listed regList ∨ r = rn then armReadRegister p r.number
        else t.reg r) ∧
      q.mem = t.mem := by
  have hcalled : ∀ r : Register, r ≠ 15 → ((view p).branch true entry).reg r =
      if r = 14 then p.reg.pc + 4 else armReadRegister p r.number := by
    intro r hr
    rw [State.branch, State.reg_write_of_ne _ hr, if_pos rfl, view_pc]
    split_ifs with h14
    · rw [h14, State.reg_write_self]
    · rw [State.reg_write_of_ne _ h14, State.next, State.reg_write_of_ne _ hr, view_reg hr]
  have hrun : run (n + 4) (view p) = some
      ((popped t (((view p).branch true entry).reg rn) rn regList).write 15 (p.reg.pc + 4)) := by
    have hprocedure := @run_procedure (view p) t rn regList n offset entry
    rw [view_pc] at hprocedure
    exact hprocedure hentry hcall hstack hlink hpush hbody hkept hpop hret
  rw [← hjunks] at hrun
  obtain ⟨q, hq, hbecomes⟩ := assembly_followed hready junks hrun
  refine ⟨q, hq, hbecomes.ready, hjunks ▸ hbecomes.kept, ?_, fun r hr => ?_, ?_⟩
  · rw [← view_pc q, hbecomes.view, State.reg_write_self]
  · rw [← view_reg hr, hbecomes.view, State.reg_write_of_ne _ hr, popped_reg hstack hkept,
      hcalled rn hstack.base, hcalled r hr]
    by_cases h14 : r = 14
    · rw [if_pos (h14 ▸ hlink), if_pos h14, if_pos h14]
    · rw [if_neg h14, if_neg h14, if_neg hr]
      by_cases hlisted : r ∈ listed regList
      · rw [if_pos hlisted, if_pos (Or.inl hlisted)]
      · rw [if_neg hlisted]
        by_cases hrn : r = rn
        · have hbase : rn ≠ 14 := fun heq => h14 (hrn.trans heq)
          rw [if_pos hrn, if_pos (Or.inr hrn), if_neg hbase, hrn]
        · rw [if_neg hrn, if_neg (not_or.mpr ⟨hlisted, hrn⟩)]
  · have hmem : q.mem = (view q).mem := rfl
    rw [hmem, hbecomes.view]
    exact loadWords_rest.2.2

/-- `BL` at 0 to a procedure at 8 that uses `R4`: `STMIB r13!, {r4, r14}`, `MOV r4, #7`,
`LDMDA r13!, {r4, r14}`, `MOV pc, lr`; the stack begins at 24. -/
def procedureSample : ArmCore :=
  armWriteRegister (armWriteRegister (ArmCore.load 0x1d3
    [0xEB000000, 0, 0xE9AD4010, 0xE3A04007, 0xE83D4010, 0xE1A0F00E, 0, 0, 0, 0]) 13 24) 4 3

/-- `R4` is the caller's again. -/
theorem procedure_keeps_registers_sample :
    ∃ q, quietStep.run procedureSample [0, 0, 0, 0, 0] = some q ∧ q.reg.pc = 4 ∧
      armReadRegister q 4 = 3 := by
  have hready : Ready procedureSample := ⟨⟨.svc, rfl⟩, rfl⟩
  have hstack : Stack ((view procedureSample).branch true 8) 13 0x4010 :=
    ⟨by decide, by decide, by decide, by decide⟩
  have hbody : run 1 (pushed ((view procedureSample).branch true 8) 13 0x4010) =
      some ((pushed ((view procedureSample).branch true 8) 13 0x4010).next.write 4 7) :=
    @run_one _ _ .al (.dataProcessing .mov false 0 4 (.immediate 0 7)) (by decide) rfl rfl
  obtain ⟨q, hq, -, -, hpc, hreg, -⟩ := @procedure_keeps_registers procedureSample hready 0 8
    (by decide) (by decide) 13 0x4010 hstack (by decide) (by decide) 1 _ hbody
    ⟨by decide, by decide, fun _ _ => rfl⟩ (by decide) (by decide) [0, 0, 0, 0, 0] rfl
  exact ⟨q, hq, hpc, hreg 4 (by decide)⟩

end ArmSimulator.Assembly
