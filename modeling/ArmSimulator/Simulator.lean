import ArmSimulator.GdbProtocol
import ArmSimulator.Instruction
import ArmSimulator.Library.Machine

/-!
# The simulator (`arm_simulator.c`)

`main` shares one processor between two threads, each of which holds the lock while it works on it:
the listener of the debugger, which steps the processor and writes its registers and its memory, and
`irq_listener`, which calls `arm_exception` with every byte it receives.  A run of the simulator is
therefore a list of events, in the order in which the lock was taken.

The step is `none` when the process ends by an `assert`.

The events are what the debugger and the other thread *can* do to the processor, with arguments that
are any: a `P` packet of any register, a `G` packet with any values, a byte of any download.  That
the handlers of the debugger do no more than this is proved in the modules on the gdb protocol,
where a whole session is shown to stay in the states reached here; that the threads do no more is
proved in `Threads`.  An invariant of the processor is therefore proved once, over these events, and
holds wherever the processor is used.
-/

namespace ArmSimulator

/-- What can happen to the shared processor: a step, an exception that `irq_listener` receives, and
what the debugger writes into it.  A run of the simulator is a list of these, in any order. -/
inductive Event
  /-- `arm_step`, with the contents of the uninitialised local. -/
  | step (junk : Word)
  /-- A byte received by `irq_listener`. -/
  | exception (irq : Byte) (junk : Word)
  /-- A `P` packet. -/
  | writeRegister (reg : ℕ) (value : Word)
  /-- A `G` packet. -/
  | writeGeneralRegisters (values : Fin 16 → Word) (cpsr : Word)
  /-- One byte of a packet that writes memory. -/
  | writeByte (address : Word) (value : Byte)

/-- The simulator as a machine: its states are processors, its steps are the events. -/
def simulator : Machine ArmCore Event where
  step p
    | .step junk => (armStep p junk).map Prod.snd
    | .exception irq junk => some (armException p irq junk).2
    | .writeRegister reg value =>
        (writeRegister p.reg reg value).map fun reg => { p with reg := reg }
    | .writeGeneralRegisters values cpsr =>
        (writeGeneralRegisters p.reg values cpsr).map fun reg => { p with reg := reg }
    | .writeByte address value => some (armWriteByte p address value).2

theorem simulator_writeGeneralRegisters (p : ArmCore) (values : Fin 16 → Word) (cpsr : Word) :
    simulator.step p (.writeGeneralRegisters values cpsr) =
      (writeGeneralRegisters p.reg values cpsr).map fun reg => { p with reg := reg } := rfl

/-- The states the simulator reaches, from any contents of the registers and of the memory that
`registers_create` and `memory_create` leave. -/
def Reachable (p : ArmCore) : Prop :=
  ∃ reg mem events, simulator.run (armCreate reg mem) events = some p

/-- **Invariant rule of the simulator**: what `arm_create` establishes and every
event preserves holds of every reachable state. -/
theorem Reachable.invariant {P : ArmCore → Prop} (hcreate : ∀ reg mem, P (armCreate reg mem))
    (hstep : ∀ p e q, P p → simulator.step p e = some q → P q) {p : ArmCore}
    (h : Reachable p) : P p := by
  obtain ⟨reg, mem, events, hrun⟩ := h
  exact simulator.run_invariant hstep (hcreate reg mem) hrun

end ArmSimulator
