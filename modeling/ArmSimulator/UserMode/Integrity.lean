import ArmSimulator.Effects
import ArmSimulator.Results
import ArmSimulator.Library.Machine

/-!
# Integrity of the privileged state in user mode

A program in mode USR cannot change what belongs to the other modes: as long as `arm_step` returns
0, the processor stays in USR, and bits 27 … 0 of the CPSR, the five SPSRs and the registers banked
for the other modes keep their values.

The invariant is `UserMode`, what a step respects is `UserFrame`; both are proved for one `Effect`
and carried over a step and a run.  The argument uses that USR has no SPSR, hence no exception
return, and that MSR never returns 0.

Three levels follow one another.

* One effect.  A register write in USR names a register that USR can see (`userVisible_of_slot`), a
  flag update keeps bits 27 … 0, a change of memory touches no register, and the fourth kind of
  effect needs an SPSR, which USR does not have.
* One step that returns 0.  It is the fetch, a sequence of effects, and possibly the `putchar` of a
  software interrupt, which changes no register (`armStep_of_zero`); an MSR is none, since it
  returns another number.
* A run.  The relation between its ends is reflexive and transitive, and every step that returns 0
  keeps the invariant and respects it, so the relational rule of machines gives the result for runs
  of any length.

That a step returns 0 is the condition for a program to be running at all.  A step that returns
something else has entered an exception, where the mode and the banks change by design.
-/

namespace ArmSimulator

/-- Mode USR, in the cached copy and in the CPSR.  In a reachable state one follows from the other.
-/
def UserMode (p : ArmCore) : Prop :=
  p.reg.currentMode = USR ∧ getBits p.reg.cpsr 4 0 = 0x10

/-- The privileged state is unchanged from `p` to `q`: bits 27 … 0 of the CPSR, the SPSRs, and every
physical register that mode USR cannot name. -/
structure UserFrame (p q : ArmCore) : Prop where
  cpsr : BitField.SameBelow 28 q.reg.cpsr p.reg.cpsr
  spsr : q.reg.spsr = p.reg.spsr
  banked : ∀ s : Slot, ¬ s.UserVisible → q.reg.get s = p.reg.get s

namespace UserFrame

variable {p q r : ArmCore}

@[refl] theorem refl (p : ArmCore) : UserFrame p p := ⟨.refl _ _, rfl, fun _ _ => rfl⟩

theorem trans (h₁ : UserFrame p q) (h₂ : UserFrame q r) : UserFrame p r :=
  ⟨h₂.cpsr.trans h₁.cpsr, h₂.spsr.trans h₁.spsr,
    fun s hs => (h₂.banked s hs).trans (h₁.banked s hs)⟩

/-- Only the register file matters. -/
theorem of_reg_eq (h : q.reg = p.reg) : UserFrame p q := by
  constructor <;> rw [h]
  exact fun _ _ => rfl

end UserFrame

/-! ## One effect

The four kinds of effect, each from a state in mode USR. -/

/-- A mode without an SPSR names only user-visible registers. -/
theorem userVisible_of_slot {reg mode : Byte} {s : Slot} (hmode : spsrIndex mode = none)
    (h : slot reg mode = some s) : s.UserVisible := by
  have hmid : r8Bank mode = 0 := by
    unfold spsrIndex at hmode
    unfold r8Bank
    split_ifs at hmode ⊢
    rfl
  have hhigh : ∀ bank, r13Bank mode = some bank → bank = 0 := by
    intro bank hbank
    unfold spsrIndex at hmode
    unfold r13Bank at hbank
    split_ifs at hmode hbank
    exact (Option.some.inj hbank).symm
  unfold slot at h
  split_ifs at h
  · cases h
    trivial
  · cases h
    trivial
  · cases h
    exact hmid
  · obtain ⟨bank, hbank, rfl⟩ := Option.map_eq_some_iff.mp h
    exact hhigh bank hbank

theorem modeUpdate_of_user {cpsr : Word} (h : getBits cpsr 4 0 = 0x10) :
    modeUpdate cpsr = USR := by
  have hfield : modeField cpsr = USR := by
    rw [modeField, h]
    rfl
  rw [modeUpdate_of_valid ⟨.usr, hfield⟩, hfield]

/-- **One effect in user mode** stays in user mode and respects the frame.  The fourth kind of
effect needs an SPSR, and there is none. -/
theorem userMode_effect {p q : ArmCore} (hp : UserMode p) (h : Effect p q) :
    UserMode q ∧ UserFrame p q := by
  obtain ⟨hmode, hfield⟩ := hp
  cases h with
  | register reg value =>
      refine ⟨⟨by simpa using hmode, by simpa using hfield⟩, ?_, ?_, ?_⟩
      · rw [armWriteRegister_cpsr]
      · exact armWriteRegister_spsr p reg value
      · intro s hs
        rw [get_armWriteRegister, if_neg]
        intro hslot
        exact hs (userVisible_of_slot (by rw [hmode]; rfl) hslot)
  | flags cpsr hcpsr =>
      have hfield' : getBits cpsr 4 0 = 0x10 := by
        rw [← hfield, getBits_eq_field, getBits_eq_field]
        exact hcpsr.field_eq (Nat.zero_le 4) (by decide)
      exact ⟨⟨modeUpdate_of_user hfield', hfield'⟩, hcpsr, rfl,
        fun s _ => get_armWriteCpsr p cpsr s⟩
  | memory mem => exact ⟨⟨hmode, hfield⟩, .refl _ _, rfl, fun _ _ => rfl⟩
  | restore hspsr =>
      -- USR has no SPSR to restore
      rw [armCurrentModeHasSpsr, registersCurrentModeHasSpsr, registersGetMode, hmode] at hspsr
      exact absurd hspsr (by decide)

theorem userMode_effects {p q : ArmCore} (hp : UserMode p) (h : Effects p q) :
    UserMode q ∧ UserFrame p q := by
  refine h.rel (P := fun a => UserMode a ∧ UserFrame p a) ?_ ⟨hp, UserFrame.refl p⟩
  rintro a b ⟨ha, hpa⟩ hab
  obtain ⟨hb, hstep⟩ := userMode_effect ha hab
  exact ⟨hb, hpa.trans hstep⟩

/-! ## One step

A step adds a fetch before the effects and an exception after them. -/

theorem userMode_fetched {p : ArmCore} (hp : UserMode p) :
    UserMode p.fetched ∧ UserFrame p p.fetched := by
  obtain ⟨hmode, hfield⟩ := hp
  refine ⟨⟨by simpa using hmode, by simpa using hfield⟩, ?_, by simp, ?_⟩
  · rw [fetched_cpsr]
  · intro s hs
    rw [get_fetched, if_neg]
    rintro rfl
    exact hs trivial

/-- `arm_exception` returns 0 for the exception number 0 and for the `putchar`
software interrupt, and then the register file and the memory are unchanged. -/
theorem armException_of_zero {p q : ArmCore} {exception : Byte} {junk : Word}
    (h : armException p exception junk = (0, q)) :
    (exception = 0 ∨ exception = 8) ∧ q.reg = p.reg ∧ q.mem = p.mem := by
  have hnumber : exception = 0 ∨ exception = 8 := by
    have hresult : (armException p exception junk).1 = 0 := congrArg Prod.fst h
    have hzero : (exception.toNat : Int) = 0 → exception = 0 ∨ exception = 8 := fun hnum =>
      Or.inl (BitVec.eq_of_toNat_eq (by exact_mod_cast hnum))
    unfold armException at hresult
    dsimp only at hresult
    split_ifs at hresult with hswi hend hput
    · exact absurd (show END_SIMULATION = 0 from hresult) (by decide)
    · rw [SOFTWARE_INTERRUPT] at hswi
      exact Or.inr (BitVec.eq_of_toNat_eq (by exact_mod_cast hswi))
    · exact hzero hresult
    · exact hzero hresult
  obtain ⟨hreg, hmem, -⟩ := armException_snd p exception junk
  rw [h] at hreg hmem
  have hnone : takeException p exception = p := by
    rw [takeException_eq]
    rcases hnumber with rfl | rfl <;> rfl
  rw [hnone] at hreg hmem
  exact ⟨hnumber, hreg, hmem⟩

/-- **A step of `arm_step` that returns 0**, seen from the fetched state: a sequence of effects, and
possibly a `putchar`.  An exception that returns 0 is that `putchar`, or none.
-/
theorem armStep_of_zero {p q : ArmCore} {junk : Word} (h : armStep p junk = some (0, q)) :
    ∃ r, Effects p.fetched r ∧ q.reg = r.reg ∧ q.mem = r.mem := by
  obtain ⟨⟨result, r⟩, hexec, hstep⟩ := Option.map_eq_some_iff.mp h
  have hquiet : (result = 0 ∨ BitVec.ofInt 8 result = 0 ∨ BitVec.ofInt 8 result = 8) ∧
      q.reg = r.reg ∧ q.mem = r.mem := by
    dsimp only at hstep
    split_ifs at hstep with hzero
    · exact ⟨Or.inr (armException_of_zero hstep).1, (armException_of_zero hstep).2⟩
    · obtain ⟨-, rfl⟩ := Prod.mk.inj hstep
      exact ⟨Or.inl (not_not.mp hzero), rfl, rfl⟩
  refine ⟨r, ?_, hquiet.2⟩
  rcases armExecuteInstruction_cases hexec with ⟨-, hr⟩ | ⟨ins, -, ⟨-, hr⟩ | ⟨-, hdispatch⟩⟩
  · cases hr
    exact Effects.refl _
  · cases hr
    exact Effects.refl _
  · rcases dispatch_effects hdispatch with ⟨-, hmsr⟩ | heffects
    · -- MSR returns 7 or 2, and `arm_exception` gives that number back
      have hne := armDataProcessingImmediateMsr_result p.fetched ins
      rw [← hmsr] at hne
      rcases hne with rfl | rfl <;> exact absurd hquiet.1 (by decide)
    · exact heffects

/-- One step in user mode. -/
theorem userMode_armStep {p q : ArmCore} {junk : Word} (hp : UserMode p)
    (h : armStep p junk = some (0, q)) : UserMode q ∧ UserFrame p q := by
  obtain ⟨r, heffects, hreg, -⟩ := armStep_of_zero h
  obtain ⟨hfetched, hframe⟩ := userMode_fetched hp
  obtain ⟨hr, hframe'⟩ := userMode_effects hfetched heffects
  refine ⟨?_, (hframe.trans hframe').trans (UserFrame.of_reg_eq hreg)⟩
  rw [UserMode, hreg]
  exact hr

/-! ## Runs

The steps that return 0, as a machine of its own. -/

/-- The machine of the `arm_step` calls that return 0; an event is the contents of
the uninitialised local. -/
def quietStep : Machine ArmCore Word where
  step p junk := (armStep p junk).bind fun r => if r.1 = 0 then some r.2 else none

theorem quietStep_step {p q : ArmCore} {junk : Word}
    (h : quietStep.step p junk = some q) : armStep p junk = some (0, q) := by
  obtain ⟨⟨result, r⟩, hstep, hzero⟩ := Option.bind_eq_some_iff.mp h
  dsimp only at hzero
  split_ifs at hzero with hres
  cases hzero
  rw [hstep, hres]

/-- **User-mode integrity.**  Along every run of `arm_step` calls that all return 0, from a state in
mode USR, the processor stays in USR, and CPSR[27:0], the SPSRs, the FIQ bank of `R8 … R12` and
every `R13` and `R14` but those of USR are unchanged.  Nothing is assumed of the program in memory,
which may change itself. -/
theorem userMode_integrity {p q : ArmCore} {junks : List Word} (hp : UserMode p)
    (hrun : quietStep.run p junks = some q) :
    UserMode q ∧ getBits q.reg.cpsr 27 0 = getBits p.reg.cpsr 27 0 ∧
      q.reg.spsr = p.reg.spsr ∧
      (∀ i, q.reg.tabR8R12 i 1 = p.reg.tabR8R12 i 1) ∧
      ∀ i bank, bank ≠ 0 → q.reg.tabR13R14 i bank = p.reg.tabR13R14 i bank := by
  obtain ⟨hq, hframe⟩ := quietStep.run_rel UserFrame.refl UserFrame.trans
    (fun a junk b ha hab => userMode_armStep ha (quietStep_step hab)) hp hrun
  refine ⟨hq, ?_, hframe.spsr, fun i => hframe.banked (.mid i 1) (by simp [Slot.UserVisible]),
    fun i bank hbank => hframe.banked (.high i bank) hbank⟩
  rw [getBits_eq_field, getBits_eq_field]
  exact hframe.cpsr.field_eq (Nat.zero_le 27) (by decide)

/-- `MOVS r0, #2` and `STR r0, [r1]` in mode USR. -/
theorem userMode_integrity_movs_str :
    ∃ q, quietStep.run (ArmCore.load 0x10 [0xE3B00002, 0xE5810000]) [0, 0] = some q ∧
      UserMode q ∧ getBits q.reg.cpsr 27 0 = 0x10 := by
  obtain ⟨q, hq⟩ : ∃ q, quietStep.run (ArmCore.load 0x10 [0xE3B00002, 0xE5810000]) [0, 0]
      = some q := Option.isSome_iff_exists.mp (by decide)
  obtain ⟨hmode, hcpsr, -⟩ := userMode_integrity ⟨rfl, rfl⟩ hq
  exact ⟨q, hq, hmode, hcpsr⟩

end ArmSimulator
