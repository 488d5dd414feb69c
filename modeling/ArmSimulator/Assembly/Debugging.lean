import ArmSimulator.Assembly.Programs
import ArmSimulator.Gdb.Commands

/-!
# Assembly: programs under the debugger

The command `c` runs a program to its first breakpoint: the rounds of `cont` are instructions of the
machine, and the test between two of them finds the breakpoints (`cont_follows_program`).

Two results are put together here.  The one on `cont` says that it ends with the first step whose PC
is a breakpoint or whose code is not 0; the one on the machine says that the codes are 0 and the PC
is `R15` of the machine, as long as the program has a meaning.  So the first stop is the first
breakpoint of the program, and what the debugger finds there is the state of the program.

`RunsTo` speaks of the program alone: the breakpoint is reached after `k` instructions, and none of
the states before it, after the first one, is at a breakpoint.
-/

namespace ArmSimulator.Assembly

open DoWhile

/-- The first breakpoint on the way from `s` is reached after `k` instructions, in the state `t`. -/
structure RunsTo (breakpoints : Finset Word) (s : State) (k : ℕ) (t : State) : Prop where
  one_le : 1 ≤ k
  last : run k s = some t
  stops : t.reg 15 ∈ breakpoints
  before : ∀ j u, 0 < j → j < k → run j s = some u → u.reg 15 ∉ breakpoints

section Steps

variable {p : ArmCore} {breakpoints : Finset Word} {s t : State} {k : ℕ}

/-- Steps of the processor are instructions of the machine. -/
theorem armSteps_becomes (hready : Ready p) (junk : ℕ → Word) :
    ∀ {k : ℕ} {t : State}, run k (view p) = some t →
      ∃ q, armSteps junk k p = some (0, q) ∧ Becomes k p q t := by
  intro k
  induction k with
  | zero =>
      intro t h
      obtain rfl := Option.some.inj h
      exact ⟨p, rfl, Becomes.refl hready⟩
  | succ k ih =>
      intro t h
      rw [run_add] at h
      obtain ⟨u, hu, hlast⟩ := Option.bind_eq_some_iff.mp h
      obtain ⟨m, hm, hmu⟩ := ih hu
      have hstep : machine.step (view m) () = some t := by
        rw [hmu.view, ← run_one_eq]
        exact hlast
      obtain ⟨q, hq, hbecomes⟩ := armStep_becomes hmu.ready (junk k) hstep
      refine ⟨q, ?_, hmu.trans hbecomes⟩
      rw [armSteps, hm, Option.bind_some, hq]

/-- A run that goes on to its end has passed every state before it. -/
theorem run_before (h : run k s = some t) {j : ℕ} (hj : j ≤ k) : ∃ u, run j s = some u := by
  obtain ⟨n, rfl⟩ := Nat.exists_eq_add_of_le hj
  rw [run_add] at h
  obtain ⟨u, hu, -⟩ := Option.bind_eq_some_iff.mp h
  exact ⟨u, hu⟩

/-- The first breakpoint of the program is the first stop of `cont`. -/
theorem RunsTo.firstStop (h : RunsTo breakpoints (view p) k t) (hready : Ready p)
    (junk : ℕ → Word) :
    ∃ q, armSteps junk k p = some (0, q) ∧ Becomes k p q t ∧ FirstStop junk breakpoints p k q := by
  have hpc : ∀ {n q u}, Becomes n p q u → u.reg 15 = q.reg.pc := by
    intro n q u hq
    rw [← hq.view, view_pc]
  obtain ⟨q, hq, hbecomes⟩ := armSteps_becomes hready junk h.last
  refine ⟨q, hq, hbecomes, h.one_le, ⟨0, hq, Or.inl ?_⟩, fun j hj hjk => ?_⟩
  · rw [← hpc hbecomes]
    exact h.stops
  · obtain ⟨u, hu⟩ := run_before h.last hjk.le
    obtain ⟨r, hr, hru⟩ := armSteps_becomes hready junk hu
    refine ⟨r, hr, ?_⟩
    rw [← hpc hru]
    exact h.before j u hj hjk hu

end Steps

/-- **Debugging follows the program.**  From every processor in one of the seven modes, and with
every set of breakpoints: where the program comes to a breakpoint after `k` instructions, the
command `c` ends after as many steps of the processor, with the state of the program there, with the
breakpoints as they were, and with all else kept but C, V and the count of cycles, which is `k`
higher; and it sends one packet, `S05`. -/
theorem cont_follows_program {g : Gdb} (hsorted : g.breakpoints.Sorted) (hready : Ready g.arm)
    {k : ℕ} {t : State} (h : RunsTo g.breakpoints.breakpointSet (view g.arm) k t) {fuel : ℕ}
    (hfuel : k ≤ fuel) (junk : ℕ → Word) (data : List Byte) :
    ∃ g', Gdb.cont fuel junk g data = some g' ∧ Becomes k g.arm g'.arm t ∧
      g'.breakpoints = g.breakpoints ∧ g'.targetException = 0 ∧
      g'.sent = g.sent ++ frame (str "S05") := by
  obtain ⟨q, hq, hbecomes, hfirst⟩ := h.firstStop hready junk
  obtain ⟨code, hstops⟩ := hfirst.stopsFrom hsorted
  -- the last step has returned 0
  obtain rfl : code = 0 := by
    obtain ⟨n, rfl⟩ := Nat.exists_eq_succ_of_ne_zero (Nat.ne_of_gt h.one_le)
    have hlast := hstops.last
    rw [rounds_singleStep, hq, Option.map_some] at hlast
    exact (congrArg Gdb.targetException (Option.some.inj hlast)).symm
  have hloop := doWhile_mono hfuel (hstops.doWhile (Nat.zero_add k) rfl)
  obtain ⟨payload, hpayload⟩ := stopAction_payload 0
  obtain ⟨g', hsend, hsends, hsame⟩ := gdbSendData_answer payload.toAnswer (g.afterStep (0, q))
  have hreason : gdbSendStopReason (g.afterStep (0, q)) = some g' := by
    rw [gdbSendStopReason, ← hsend]
    exact congrArg _ hpayload.symm
  have hcont : Gdb.cont fuel junk g data = some g' := by
    rw [Gdb.cont, ArmSimulator.cont, hloop, Option.bind_some, hreason]
    rfl
  have htext : payload.toAnswer.bytes = str "S05" := hpayload
  refine ⟨g', hcont, ?_, hsame.breakpoints, hsame.targetException, ?_⟩
  · rw [hsame.arm]
    exact hbecomes
  · rw [hsends.sent, htext]
    rfl

/-- The first example before its loop, with a breakpoint behind the call. -/
def countdownSample : Gdb :=
  { gdbInitData example1Start (fun _ => 0) (fun _ => 0) with
    breakpoints := ⟨fun _ => 16, 1⟩ }

/-- The command runs the call, and finds 4 in `R0`. -/
theorem cont_follows_program_countdown :
    ∃ g', Gdb.cont 3 (fun _ => 0) countdownSample [] = some g' ∧ (view g'.arm).reg 0 = 4 ∧
      g'.sent = frame (str "S05") := by
  have hsorted : countdownSample.breakpoints.Sorted := by
    refine ⟨by decide, fun i hi j hj hij => ?_⟩
    have hi' : i < 1 := hi
    have hj' : j < 1 := hj
    omega
  have hset : countdownSample.breakpoints.breakpointSet = {16} := by decide
  have hcode : HasWords (view example1Start).mem 0 example1 :=
    ⟨by decide, by decide, by decide, by decide, by decide, by decide, trivial⟩
  have hplaces : ∀ j : Fin 3, (run j (view example1Start)).map (fun u => u.reg 15) =
      some (if (j : ℕ) = 0 then 12 else if (j : ℕ) = 1 then 0 else 4) := by decide
  have hruns : RunsTo {16} (view example1Start) 3 (counted (view example1Start) 0 4 16) := by
    refine ⟨by decide, run_decr hcode rfl (by decide), Finset.mem_singleton_self _, ?_⟩
    intro j u hj hjk hu
    have hplace := hplaces ⟨j, hjk⟩
    dsimp only at hplace
    rw [hu, Option.map_some] at hplace
    rw [Option.some.inj hplace, Finset.mem_singleton]
    split_ifs <;> decide
  rw [← hset] at hruns
  obtain ⟨g', hcont, hbecomes, -, -, hsent⟩ := cont_follows_program hsorted ⟨⟨.svc, rfl⟩, rfl⟩
    hruns (Nat.le_refl 3) (fun _ => 0) []
  refine ⟨g', hcont, ?_, hsent⟩
  rw [hbecomes.view]
  rfl

end ArmSimulator.Assembly
