import ArmSimulator.Effects
import ArmSimulator.Results
import ArmSimulator.ExceptionEntry
import ArmSimulator.Simulator

/-!
# The mode of a reachable state

The register file caches the mode of the CPSR.  Two invariants of the simulator are proved here,
each for one `Effect`, one instruction, one exception and one event.

* `Consistent` — the cache is what `mode_update` makes of the CPSR.  It holds in every reachable
  state.
* `ModeInvariant` — moreover the mode is one of the seven, and so is the mode field of every SPSR.
  It holds when the SPSRs start out so and the debugger writes no other CPSR; MSR breaks it, but
  only until the data abort that ends every MSR.

Without these two conditions an exception return may load any word into the CPSR, and `mode_update`
then gives `255` (`mode_invariant_counterexample`).

The first invariant is what the results about single instructions rest on where they ask for a
consistent mode, and a reachable state has it without further conditions.  The second is about
histories: the SPSRs that memory held when the registers were created, and the packets that the
debugger has sent.  MSR is the one instruction that has to be taken together with the exception that
follows it. A CPSR that it has written is in no mode, and the entry of the data abort puts a mode
into it and writes no SPSR, since a processor in no mode has none; an SPSR that it has written is
that of the mode, and the entry overwrites just that one with the CPSR.
-/

namespace ArmSimulator

/-! ## The cached mode

One lemma for each effect of an instruction, for MSR, for an exception, and for an event. -/

/-- The cached mode is the mode of the CPSR, or 255 when the CPSR is in no mode. -/
def Consistent (p : ArmCore) : Prop := p.reg.currentMode = modeUpdate p.reg.cpsr

/-- An effect keeps the cache right: registers and memory do not matter, and every write of the CPSR
writes the cache. -/
theorem consistent_effect {p q : ArmCore} (hp : Consistent p) (h : Effect p q) :
    Consistent q := by
  cases h with
  | register reg value =>
      rw [Consistent, armWriteRegister_currentMode, armWriteRegister_cpsr]
      exact hp
  | flags cpsr hcpsr => exact rfl
  | memory mem => exact hp
  | restore hspsr => exact rfl

theorem consistent_fetched {p : ArmCore} (hp : Consistent p) : Consistent p.fetched := by
  rw [Consistent, fetched_currentMode, fetched_cpsr]
  exact hp

/-- MSR writes the CPSR by the same function as all others. -/
theorem consistent_msr {p : ArmCore} (hp : Consistent p) (ins : Word) :
    Consistent (armDataProcessingImmediateMsr p ins).2 := by
  unfold armDataProcessingImmediateMsr
  cases msrOperand p ins with
  | none => exact hp
  | some operand =>
      dsimp only
      split_ifs
      · exact hp
      · exact rfl
      · rw [Consistent, armWriteSpsr_currentMode, armWriteSpsr_cpsr]
        exact hp
      · exact hp

theorem consistent_execute {p : ArmCore} {junk : Word} {r : Int × ArmCore} (hp : Consistent p)
    (h : armExecuteInstruction p junk = some r) : Consistent r.2 := by
  rcases armExecuteInstruction_cases h with ⟨-, rfl⟩ | ⟨ins, -, ⟨-, rfl⟩ | ⟨-, hdispatch⟩⟩
  · exact consistent_fetched hp
  · exact consistent_fetched hp
  · rcases dispatch_effects hdispatch with ⟨-, rfl⟩ | heffects
    · exact consistent_msr (consistent_fetched hp) ins
    · exact heffects.rel (fun _ _ => consistent_effect) (consistent_fetched hp)

/-- An entry writes the CPSR last, in the mode that it enters. -/
theorem consistent_takeException {p : ArmCore} (hp : Consistent p) (exception : Byte) :
    Consistent (takeException p exception) := by
  rcases takeException_cases p exception with ⟨e, -, h⟩ | h | h
  · rw [h, Consistent, Entry.enter, exceptionEntry_currentMode, exceptionEntry_cpsr]
  · rw [h, Consistent, armWriteRegister_currentMode, armWriteRegister_cpsr,
      armWriteCpsr_currentMode, armWriteCpsr_cpsr]
  · rw [h]
    exact hp

theorem consistent_of_reg_eq {p q : ArmCore} (h : q.reg = p.reg) (hp : Consistent p) :
    Consistent q := by
  rw [Consistent, h]
  exact hp

/-- **Every event keeps the cached mode right**: a step, an exception, and the writes of the
debugger. -/
theorem consistent_event {p q : ArmCore} {e : Event} (hp : Consistent p)
    (h : simulator.step p e = some q) : Consistent q := by
  cases e with
  | step junk =>
      obtain ⟨r, hstep, rfl⟩ := Option.map_eq_some_iff.mp h
      obtain ⟨s, hexec, rfl⟩ := Option.map_eq_some_iff.mp hstep
      have hs := consistent_execute hp hexec
      split_ifs
      · exact consistent_of_reg_eq (armException_snd _ _ _).1 (consistent_takeException hs _)
      · exact hs
  | exception irq junk =>
      cases h
      exact consistent_of_reg_eq (armException_snd _ _ _).1 (consistent_takeException hp _)
  | writeRegister reg value =>
      obtain ⟨r, hr, rfl⟩ := Option.map_eq_some_iff.mp h
      have hstatus := writeRegister_sameStatus hr
      exact hstatus.currentMode.trans (hp.trans (congrArg modeUpdate hstatus.cpsr.symm))
  | writeGeneralRegisters values cpsr =>
      rw [simulator_writeGeneralRegisters] at h
      obtain ⟨r, hr, rfl⟩ := Option.map_eq_some_iff.mp h
      obtain ⟨hcpsr, hmode, -⟩ := writeGeneralRegisters_status hr
      exact hmode.trans (congrArg modeUpdate hcpsr.symm)
  | writeByte address value =>
      cases h
      exact consistent_of_reg_eq (afterWrite_reg _ _) hp

/-- The reset writes the CPSR, whatever the registers were. -/
theorem consistent_armCreate (reg : Registers) (mem : Memory) :
    Consistent (armCreate reg mem) := by
  rw [Consistent, armCreate_currentMode, armCreate_cpsr]

/-- **The cached mode of a reachable state is the mode of its CPSR.**  It is the run form of the
same fact about one event. -/
theorem Reachable.consistent {p : ArmCore} (h : Reachable p) : Consistent p :=
  h.invariant consistent_armCreate fun _ _ _ => consistent_event

/-! ## Valid modes

The same levels again, with the SPSRs. -/

/-- The processor is in an architectural mode, and every SPSR holds one.  The SPSRs are included
because an exception return copies one of them into the CPSR. -/
structure ModeInvariant (p : ArmCore) : Prop where
  consistent : Consistent p
  mode : ValidMode p.reg.currentMode
  spsr : ∀ i, ValidMode (modeField (p.reg.spsr i))

/-- With a cache that is right, being in a mode is a matter of the CPSR. -/
theorem validMode_of_consistent {p : ArmCore} (hp : Consistent p) :
    ValidMode p.reg.currentMode ↔ ValidMode (modeField p.reg.cpsr) := by
  rw [hp, validMode_modeUpdate]

theorem ModeInvariant.of_reg_eq {p q : ArmCore} (h : q.reg = p.reg) (hp : ModeInvariant p) :
    ModeInvariant q :=
  ⟨consistent_of_reg_eq h hp.consistent, by rw [h]; exact hp.mode, by rw [h]; exact hp.spsr⟩

/-- A mode with an SPSR is valid. -/
theorem validMode_of_spsrIndex {mode : Byte} {i : Fin 5} (h : spsrIndex mode = some i) :
    ValidMode mode := by
  unfold spsrIndex at h
  split_ifs at h with h0 h1 h2 h3 h4
  exacts [⟨.fiq, h0⟩, ⟨.irq, h1⟩, ⟨.svc, h2⟩, ⟨.abt, h3⟩, ⟨.und, h4⟩]

/-- An effect keeps the invariant.  An exception return copies an SPSR that is in a mode. -/
theorem modeInvariant_effect {p q : ArmCore} (hp : ModeInvariant p) (h : Effect p q) :
    ModeInvariant q := by
  have hq := consistent_effect hp.consistent h
  cases h with
  | register reg value => exact ⟨hq, by simpa using hp.mode, by simpa using hp.spsr⟩
  | flags cpsr hcpsr =>
      refine ⟨hq, ?_, hp.spsr⟩
      rw [armWriteCpsr_currentMode, modeUpdate_congr (hcpsr.mono (by decide)), ← hp.consistent]
      exact hp.mode
  | memory mem => exact ⟨hq, hp.mode, hp.spsr⟩
  | restore hspsr =>
      refine ⟨hq, ?_, hp.spsr⟩
      obtain ⟨i, -, hread⟩ := spsrIndex_of_hasSpsr hspsr
      rw [armWriteCpsr_currentMode, validMode_modeUpdate, hread]
      exact hp.spsr i

theorem modeInvariant_fetched {p : ArmCore} (hp : ModeInvariant p) : ModeInvariant p.fetched :=
  ⟨consistent_fetched hp.consistent, by simpa using hp.mode, by simpa using hp.spsr⟩

/-- An entry establishes the invariant: the mode it enters is valid, and the one SPSR
that it writes, the one of the interrupted mode, gets a CPSR in that mode.  The
other SPSRs have to be valid already. -/
theorem modeInvariant_enter {p : ArmCore} (e : Entry) (hp : Consistent p)
    (hspsr : ∀ i, spsrIndex p.reg.currentMode ≠ some i → ValidMode (modeField (p.reg.spsr i))) :
    ModeInvariant (e.enter p) where
  consistent := by
    rw [Consistent, Entry.enter, exceptionEntry_currentMode, exceptionEntry_cpsr]
  mode := ⟨e.mode, enter_currentMode e p⟩
  spsr i := by
    rw [Entry.enter, exceptionEntry_spsr]
    cases hindex : spsrIndex p.reg.currentMode with
    | none => exact hspsr i (by simp [hindex])
    | some k =>
        rw [Option.map_some, Option.getD_some, Function.update_apply]
        split_ifs with hik
        · exact (validMode_of_consistent hp).mp (validMode_of_spsrIndex hindex)
        · refine hspsr i ?_
          rw [hindex]
          exact fun h => hik (Option.some.inj h).symm

/-- An exception keeps the invariant, whichever it is. -/
theorem modeInvariant_takeException {p : ArmCore} (hp : ModeInvariant p) (exception : Byte) :
    ModeInvariant (takeException p exception) := by
  rcases takeException_cases p exception with ⟨e, -, h⟩ | h | h
  · rw [h]
    exact modeInvariant_enter e hp.consistent fun i _ => hp.spsr i
  · rw [h]
    refine ⟨?_, ?_, by simpa using hp.spsr⟩
    · rw [Consistent, armWriteRegister_currentMode, armWriteRegister_cpsr,
        armWriteCpsr_currentMode, armWriteCpsr_cpsr]
    · rw [armWriteRegister_currentMode, armWriteCpsr_currentMode]
      decide
  · rw [h]
    exact hp

/-- **MSR** leaves a consistent state in which every SPSR but the one of the current
mode is valid, and the data abort it ends in repairs the rest. -/
theorem modeInvariant_msr {p : ArmCore} (hp : ModeInvariant p) (ins : Word) :
    ModeInvariant (takeException (armDataProcessingImmediateMsr p ins).2
      (BitVec.ofInt 8 (armDataProcessingImmediateMsr p ins).1)) := by
  have habort : ∀ q : ArmCore,
      takeException q (BitVec.ofInt 8 DATA_ABORT) = Entry.dataAbort.enter q :=
    takeException_entry .dataAbort
  unfold armDataProcessingImmediateMsr
  cases msrOperand p ins with
  | none => exact modeInvariant_takeException hp _
  | some operand =>
      dsimp only
      split_ifs with hcpsr hstate hhas
      · exact modeInvariant_takeException hp _
      · -- the CPSR is in no mode now, until the abort enters ABT
        rw [habort]
        refine modeInvariant_enter _ rfl fun i _ => ?_
        rw [armWriteCpsr_spsr]
        exact hp.spsr i
      · -- only the SPSR of the current mode may be wrong, and the abort writes it
        rw [habort]
        refine modeInvariant_enter _ ?_ fun i hi => ?_
        · rw [Consistent, armWriteSpsr_currentMode, armWriteSpsr_cpsr]
          exact hp.consistent
        · rw [armWriteSpsr_currentMode] at hi
          rw [armWriteSpsr_spsr]
          cases hindex : spsrIndex p.reg.currentMode with
          | none => exact hp.spsr i
          | some k =>
              rw [Option.map_some, Option.getD_some, Function.update_apply, if_neg]
              · exact hp.spsr i
              · rintro rfl
                exact hi hindex
      · exact modeInvariant_takeException hp _

/-- **One `arm_step` keeps the invariant.**  An MSR may break it in between, and the exception that
it ends in restores it. -/
theorem modeInvariant_armStep {p : ArmCore} {junk : Word} {r : Int × ArmCore}
    (hp : ModeInvariant p) (h : armStep p junk = some r) : ModeInvariant r.2 := by
  obtain ⟨s, hexec, rfl⟩ := Option.map_eq_some_iff.mp h
  have hexception : ∀ {q : ArmCore} {code : Int},
      ModeInvariant (takeException q (BitVec.ofInt 8 code)) →
        ModeInvariant (armException q (BitVec.ofInt 8 code) junk).2 := fun hq =>
    hq.of_reg_eq (armException_snd _ _ _).1
  have hkept : ∀ {s : Int × ArmCore}, ModeInvariant s.2 →
      ModeInvariant (if s.1 ≠ 0 then armException s.2 (BitVec.ofInt 8 s.1) junk else s).2 := by
    intro s hs
    split_ifs
    · exact hexception (modeInvariant_takeException hs _)
    · exact hs
  rcases armExecuteInstruction_cases hexec with ⟨-, rfl⟩ | ⟨ins, -, ⟨-, rfl⟩ | ⟨-, hdispatch⟩⟩
  · exact hkept (modeInvariant_fetched hp)
  · exact hkept (modeInvariant_fetched hp)
  · rcases dispatch_effects hdispatch with ⟨-, rfl⟩ | heffects
    · rw [if_pos]
      · exact hexception (modeInvariant_msr (modeInvariant_fetched hp) ins)
      · rcases armDataProcessingImmediateMsr_result p.fetched ins with hres | hres <;>
          rw [hres] <;> decide
    · exact hkept (heffects.rel (fun _ _ => modeInvariant_effect) (modeInvariant_fetched hp))

/-- An event that writes no CPSR in another mode than the seven.  Only a `G` packet of the debugger
can. -/
def Event.Architectural : Event → Prop
  | .writeGeneralRegisters _ cpsr => ValidMode (modeField cpsr)
  | _ => True

/-- **Every architectural event keeps the invariant.** -/
theorem modeInvariant_event {p q : ArmCore} {e : Event} (hp : ModeInvariant p)
    (he : e.Architectural) (h : simulator.step p e = some q) : ModeInvariant q := by
  have hq := consistent_event hp.consistent h
  cases e with
  | step junk =>
      obtain ⟨r, hstep, rfl⟩ := Option.map_eq_some_iff.mp h
      exact modeInvariant_armStep hp hstep
  | exception irq junk =>
      cases h
      exact (modeInvariant_takeException hp _).of_reg_eq (armException_snd _ _ _).1
  | writeRegister reg value =>
      obtain ⟨r, hr, rfl⟩ := Option.map_eq_some_iff.mp h
      obtain ⟨-, hspsr, hmode⟩ := writeRegister_sameStatus hr
      exact ⟨hq, by rw [hmode]; exact hp.mode, by rw [hspsr]; exact hp.spsr⟩
  | writeGeneralRegisters values cpsr =>
      rw [simulator_writeGeneralRegisters] at h
      obtain ⟨r, hr, rfl⟩ := Option.map_eq_some_iff.mp h
      obtain ⟨-, hmode, hspsr⟩ := writeGeneralRegisters_status hr
      refine ⟨hq, ?_, by rw [hspsr]; exact hp.spsr⟩
      rw [hmode, validMode_modeUpdate]
      exact he
  | writeByte address value =>
      cases h
      exact hp.of_reg_eq (afterWrite_reg _ _)

/-- After the reset the mode is SVC, and the SPSRs are what they were. -/
theorem modeInvariant_armCreate {reg : Registers} (mem : Memory)
    (hreg : ∀ i, ValidMode (modeField (reg.spsr i))) : ModeInvariant (armCreate reg mem) where
  consistent := consistent_armCreate reg mem
  mode := by
    rw [armCreate_currentMode]
    decide
  spsr i := by
    rw [armCreate_spsr]
    exact hreg i

/-- **The mode of a reachable state.**  The cached mode is the mode field of the CPSR
when that is one of the seven, and `255` when it is not.  If the initial SPSRs and
the CPSRs of all `G` packets hold one of the seven, so does the CPSR of every
reachable state. -/
theorem mode_invariant (reg : Registers) (mem : Memory) (events : List Event) (p : ArmCore)
    (hrun : simulator.run (armCreate reg mem) events = some p) :
    p.reg.currentMode =
        (if ValidMode (modeField p.reg.cpsr) then modeField p.reg.cpsr else 255) ∧
      ((∀ i, ValidMode (modeField (reg.spsr i))) → (∀ e ∈ events, e.Architectural) →
        p.reg.currentMode = modeField p.reg.cpsr ∧ ValidMode p.reg.currentMode) := by
  have hconsistent : Consistent p :=
    simulator.run_invariant (fun _ _ _ => consistent_event) (consistent_armCreate reg mem) hrun
  refine ⟨by rw [hconsistent, modeUpdate_eq], fun hreg hevents => ?_⟩
  have hp : ModeInvariant p :=
    simulator.run_invariant_on (fun _ _ _ he hs => modeInvariant_event hs he) hevents
      (modeInvariant_armCreate mem hreg) hrun
  refine ⟨?_, hp.mode⟩
  rw [hconsistent, modeUpdate_of_valid ((validMode_of_consistent hconsistent).mp hp.mode)]

/-- A run of one `ADDS r0, r0, #1` after the reset, from SPSRs in mode USR. -/
theorem mode_invariant_adds :
    ∃ p, simulator.run (armCreate
        { (ArmCore.load 0 []).reg with spsr := fun _ => 0x10 } (Memory.image [0xE2900001]))
        [.step 0] = some p ∧
      p.reg.currentMode = modeField p.reg.cpsr ∧ ValidMode p.reg.currentMode := by
  obtain ⟨p, hp⟩ := Option.isSome_iff_exists.mp
    (show (simulator.run (armCreate { (ArmCore.load 0 []).reg with spsr := fun _ => 0x10 }
      (Memory.image [0xE2900001])) [.step 0]).isSome = true by decide)
  have husr : ValidMode (modeField 0x10) := by decide
  refine ⟨p, hp, (mode_invariant _ _ _ p hp).2 (fun _ => husr) ?_⟩
  simp [Event.Architectural]

/-- `MOVS pc, lr` after a reset, with 0 in the SPSR of SVC: the mode is then `255`. -/
theorem mode_invariant_counterexample :
    ¬ ∀ (reg : Registers) (mem : Memory) (events : List Event) (p : ArmCore),
      simulator.run (armCreate reg mem) events = some p →
        p.reg.currentMode = modeField p.reg.cpsr ∧ ValidMode p.reg.currentMode := by
  intro h
  have hmode : (simulator.run (armCreate (ArmCore.load 0 []).reg (Memory.image [0xE1B0F00E]))
      [.step 0]).map (fun p => p.reg.currentMode) = some 255 := by decide
  obtain ⟨p, hrun, hp⟩ := Option.map_eq_some_iff.mp hmode
  have hvalid := (h _ _ _ p hrun).2
  rw [hp] at hvalid
  exact not_validMode_255 hvalid

end ArmSimulator
