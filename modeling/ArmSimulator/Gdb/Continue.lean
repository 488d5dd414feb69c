import ArmSimulator.Gdb.Framing
import ArmSimulator.Instruction
import ArmSimulator.Library.DoWhile

/-!
# Continuing (`gdb_protocol.c`)

The command `c` steps the processor until the PC is at a breakpoint or a step returns another code
than 0, and then tells the debugger why it has stopped.  The loop holds the lock, so nothing else
touches the processor or the breakpoints.

The loop need not end: a program may run for ever.  `cont` is run with fuel, which is the number of
rounds it may take, and `cont_stops_iff` says for which number of rounds it ends, *with some fuel*;
this is the statement about the C function, where there is none.  Both directions are proved, so a
loop that ends with some fuel is one that ends, and one that has a first stop ends with enough fuel.

The step has one local that is not initialised when an LDM fails, and its contents for each step are
a parameter, a function of the number of the round.

`FirstStop` is the specification, and says nothing about a loop: the step `k` is the first after
which the PC is a breakpoint or the code is not 0.  The PC is read by `registers_read`, as the code
has it, and the search is the one of the table, which finds exactly the breakpoints since the table
is sorted after every sequence of insertions and removals.
-/

namespace ArmSimulator

open DoWhile

/-! ## The commands

The test of `cont` is done after a step.  A breakpoint at the address where the processor already is
does not stop it at once, which is how a debugger gets on from one. -/

/-- The state after a step that has returned the code and the processor `r`. -/
def Gdb.afterStep (g : Gdb) (r : Int × ArmCore) : Gdb :=
  { g with arm := r.2, targetException := r.1 }

/-- `single_step`; the trace of the registers is left out. -/
def singleStep (junk : Word) (g : Gdb) : Option Gdb := (armStep g.arm junk).map g.afterStep

/-- The action that `gdb_send_stop_reason` sends. -/
def stopAction (targetException : Int) : List Byte :=
  if targetException = UNDEFINED_INSTRUCTION then str "S04"
  else if targetException = PREFETCH_ABORT then str "S0A"
  else if targetException = DATA_ABORT then str "S0B"
  else if targetException = END_SIMULATION then str "X05"
  else str "S05"

/-- `gdb_send_stop_reason`, by the code of the last step. -/
def gdbSendStopReason (g : Gdb) : Option Gdb := gdbSendData g (stopAction g.targetException)

/-- The value of `stop` at the end of a round of `cont`.  A breakpoint is looked for first, by the
PC of the current mode. -/
def contStop (g : Gdb) : Option Bool :=
  let pc := registersRead g.arm.reg 15 (registersGetMode g.arm.reg)
  (g.breakpoints.gdbFindBreakpoint pc).map fun position =>
    if position ≠ -1 then true else decide (g.targetException ≠ 0)

/-- `cont`, with at most `fuel` rounds: the number of rounds and the last state. -/
def cont (fuel : ℕ) (junk : ℕ → Word) (g : Gdb) : Option (ℕ × Gdb) :=
  (doWhile (fun n => singleStep (junk n)) contStop fuel 0 g).bind fun r =>
    (gdbSendStopReason r.2).map fun g => (r.1, g)

/-- `arm_step`, `k` times: the code of the last step and the state. -/
def armSteps (junk : ℕ → Word) : ℕ → ArmCore → Option (Int × ArmCore)
  | 0, p => some (0, p)
  | k + 1, p => (armSteps junk k p).bind fun r => armStep r.2 (junk k)

/-! ## What each command does

The rounds of `cont` are steps of the processor, and its test is a question about the PC and the
code. -/

/-- Every stop reason is a payload. -/
theorem stopAction_payload (targetException : Int) :
    ∃ payload : Payload, payload.bytes = stopAction targetException := by
  unfold stopAction
  split_ifs
  all_goals exact ⟨⟨_, by decide, by decide, by decide, by decide⟩, rfl⟩

/-- Sending the stop reason succeeds, and leaves the processor alone. -/
theorem gdbSendStopReason_spec (g : Gdb) :
    ∃ g', gdbSendStopReason g = some g' ∧ g'.arm = g.arm := by
  obtain ⟨payload, hpayload⟩ := stopAction_payload g.targetException
  obtain ⟨packet, hsend⟩ := gdbSendData_spec payload g
  rw [hpayload] at hsend
  exact ⟨_, hsend, rfl⟩

/-- **Step lemma**: the rounds of `cont` are steps of the processor, and change nothing
else but the code. -/
theorem rounds_singleStep (junk : ℕ → Word) (g : Gdb) (k : ℕ) :
    rounds (fun n => singleStep (junk n)) (k + 1) g =
      (armSteps junk (k + 1) g.arm).map g.afterStep := by
  induction k with
  | zero => rfl
  | succ k ih =>
      have hsteps : armSteps junk (k + 1 + 1) g.arm =
          (armSteps junk (k + 1) g.arm).bind fun r => armStep r.2 (junk (k + 1)) := rfl
      rw [rounds, ih, hsteps]
      cases armSteps junk (k + 1) g.arm with
      | none => rfl
      | some r =>
          rw [Option.map_some, Option.bind_some, Option.bind_some]
          rfl

/-- The test finds the breakpoints and the codes other than 0. -/
theorem contStop_afterStep {g : Gdb} (hsorted : g.breakpoints.Sorted) (r : Int × ArmCore) :
    contStop (g.afterStep r) =
      some (decide (r.2.reg.pc ∈ g.breakpoints.breakpointSet ∨ r.1 ≠ 0)) := by
  show (g.breakpoints.gdbFindBreakpoint r.2.reg.pc).map
    (fun position => if position ≠ -1 then true else decide (r.1 ≠ 0)) = _
  rcases BreakpointTable.gdbFindBreakpoint_spec r.2.reg.pc hsorted with
    ⟨i, hi, hentry, hfind⟩ | ⟨hnot, hfind⟩
  · have hmem : r.2.reg.pc ∈ g.breakpoints.breakpointSet :=
      SortedTable.mem_entries.mpr ⟨i, hi, hentry⟩
    have hne : (i : Int) ≠ -1 := by omega
    rw [hfind, Option.map_some, if_pos hne, decide_eq_true (Or.inl hmem)]
  · rw [hfind, Option.map_some, if_neg (not_not.mpr rfl)]
    simp only [hnot, false_or]

/-! ## No breakpoint is run past

The rule for loops with fuel does the work: the loop ends after the first round whose test is true,
if there is one. -/

/-- From `p`, the step `k` is the first after which the PC is in `s` or the code is not 0,
and it leads to `q`. -/
structure FirstStop (junk : ℕ → Word) (s : Finset Word) (p : ArmCore) (k : ℕ) (q : ArmCore) :
    Prop where
  one_le : 1 ≤ k
  last : ∃ code, armSteps junk k p = some (code, q) ∧ (q.reg.pc ∈ s ∨ code ≠ 0)
  before : ∀ j, 0 < j → j < k → ∃ r, armSteps junk j p = some (0, r) ∧ r.reg.pc ∉ s

section FirstStop

variable {junk : ℕ → Word} {g : Gdb} {k : ℕ}

theorem FirstStop.of_stopsFrom (hsorted : g.breakpoints.Sorted) {t : Gdb}
    (h : StopsFrom (fun n => singleStep (junk n)) contStop g 0 k t) :
    FirstStop junk g.breakpoints.breakpointSet g.arm k t.arm := by
  refine ⟨h.lt, ?_, fun j hj hjk => ?_⟩
  · obtain ⟨k, rfl⟩ := Nat.exists_eq_succ_of_ne_zero h.lt.ne'
    have hlast := h.last
    rw [rounds_singleStep] at hlast
    obtain ⟨r, hsteps, rfl⟩ := Option.map_eq_some_iff.mp hlast
    have hstops := h.stops
    rw [contStop_afterStep hsorted] at hstops
    exact ⟨r.1, hsteps, of_decide_eq_true (Option.some.inj hstops)⟩
  · obtain ⟨u, hrounds, hgoes⟩ := h.goesOn j hj hjk
    obtain ⟨j, rfl⟩ := Nat.exists_eq_succ_of_ne_zero hj.ne'
    rw [rounds_singleStep] at hrounds
    obtain ⟨⟨code, q⟩, hsteps, rfl⟩ := Option.map_eq_some_iff.mp hrounds
    rw [contStop_afterStep hsorted] at hgoes
    obtain ⟨hnot, hcode⟩ := not_or.mp (of_decide_eq_false (Option.some.inj hgoes))
    obtain rfl : code = 0 := not_not.mp hcode
    exact ⟨q, hsteps, hnot⟩

theorem FirstStop.stopsFrom (hsorted : g.breakpoints.Sorted) {q : ArmCore}
    (h : FirstStop junk g.breakpoints.breakpointSet g.arm k q) :
    ∃ code, StopsFrom (fun n => singleStep (junk n)) contStop g 0 k (g.afterStep (code, q)) := by
  obtain ⟨code, hlast, hstops⟩ := h.last
  refine ⟨code, h.one_le, ?_, ?_, fun j hj hjk => ?_⟩
  · obtain ⟨k, rfl⟩ := Nat.exists_eq_succ_of_ne_zero (Nat.ne_of_gt h.one_le)
    rw [rounds_singleStep, hlast, Option.map_some]
  · rw [contStop_afterStep hsorted, decide_eq_true hstops]
  · obtain ⟨r, hsteps, hnot⟩ := h.before j hj hjk
    obtain ⟨j, rfl⟩ := Nat.exists_eq_succ_of_ne_zero hj.ne'
    refine ⟨g.afterStep (0, r), ?_, ?_⟩
    · rw [rounds_singleStep, hsteps, Option.map_some]
    · have hgoes : ¬ (r.reg.pc ∈ g.breakpoints.breakpointSet ∨ (0 : Int) ≠ 0) :=
        not_or.mpr ⟨hnot, not_not.mpr rfl⟩
      rw [contStop_afterStep hsorted, decide_eq_false hgoes]

end FirstStop

/-- **No breakpoint is run past.**  After every sequence of insertions and removals, and
from any state of the processor, `cont` ends after `k` rounds in the state `q` exactly when
step `k` is the first whose PC is a breakpoint or whose code is not 0, and leads to `q`. -/
theorem cont_stops_iff (contents : Fin MAX_BREAKPOINTS_NUMBER → Word)
    (calls : List BreakpointCall) (g : Gdb)
    (hhistory : breakpointMachine.run (gdbInitBreakpoints contents) calls = some g.breakpoints)
    (junk : ℕ → Word) (k : ℕ) (q : ArmCore) :
    (∃ fuel g', cont fuel junk g = some (k, g') ∧ g'.arm = q) ↔
      FirstStop junk (breakpointsAfter calls) g.arm k q := by
  obtain ⟨t, hrun, hsorted, hset⟩ :=
    (BreakpointTable.sorted_gdbInitBreakpoints contents).run calls
  obtain rfl : t = g.breakpoints := Option.some.inj (hrun.symm.trans hhistory)
  have hafter : g.breakpoints.breakpointSet = breakpointsAfter calls := hset
  rw [← hafter]
  constructor
  · rintro ⟨fuel, g', hcont, rfl⟩
    obtain ⟨⟨n, s⟩, hloop, hsend⟩ := Option.bind_eq_some_iff.mp hcont
    obtain ⟨sent, hreason, harm⟩ := gdbSendStopReason_spec s
    rw [hreason] at hsend
    cases hsend
    rw [harm]
    exact .of_stopsFrom hsorted (doWhile_iff.mp ⟨fuel, hloop⟩)
  · intro h
    obtain ⟨code, hstops⟩ := h.stopsFrom hsorted
    obtain ⟨fuel, hloop⟩ := doWhile_iff.mpr hstops
    obtain ⟨g', hreason, harm⟩ := gdbSendStopReason_spec (g.afterStep (code, q))
    refine ⟨fuel, g', ?_, harm⟩
    rw [cont, hloop, Option.bind_some, hreason, Option.map_some]

/-- Three times `mov r0, r0`, and a breakpoint at the third one. -/
def continueSample : Gdb :=
  { gdbInitData (ArmCore.load 0x1d3 [0xE1A00000, 0xE1A00000, 0xE1A00000])
      (fun _ => 0) (fun _ => 0) with
    breakpoints := ⟨Function.update (fun _ => 0) ⟨0, by decide⟩ 8, 1⟩ }

/-- The command stops there, after two steps. -/
theorem cont_stops_iff_sample :
    ∃ fuel g', cont fuel (fun _ => 0) continueSample = some (2, g') ∧ g'.arm.reg.pc = 8 := by
  have hcodes : ∀ k : Fin 3, (armSteps (fun _ => 0) k continueSample.arm).map
      (fun r => (r.1, r.2.reg.pc)) = some (0, 4 * BitVec.ofNat 32 k) := by decide +kernel
  have hset : breakpointsAfter [.add 8] = {8} := by decide
  obtain ⟨⟨code, q⟩, hlast, hq⟩ := Option.map_eq_some_iff.mp (hcodes 2)
  have hpc : q.reg.pc = 8 := congrArg Prod.snd hq
  have hfirst : FirstStop (fun _ => 0) (breakpointsAfter [.add 8]) continueSample.arm 2 q := by
    rw [hset]
    refine ⟨by decide, ⟨code, hlast, Or.inl ?_⟩, fun j hj hjk => ?_⟩
    · rw [hpc]
      exact Finset.mem_singleton_self 8
    · obtain rfl : j = 1 := by omega
      obtain ⟨⟨code₁, q₁⟩, hstep, hq₁⟩ := Option.map_eq_some_iff.mp (hcodes 1)
      obtain rfl : code₁ = 0 := congrArg Prod.fst hq₁
      have hpc₁ : q₁.reg.pc = 4 := congrArg Prod.snd hq₁
      refine ⟨q₁, hstep, ?_⟩
      rw [hpc₁]
      decide
  obtain ⟨fuel, g', hcont, rfl⟩ := (cont_stops_iff (fun _ => 0) [.add 8] continueSample rfl
    (fun _ => 0) 2 q).mpr hfirst
  exact ⟨fuel, g', hcont, hpc⟩

end ArmSimulator
