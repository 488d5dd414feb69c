import ArmSimulator.Registers
import ArmSimulator.Library.LastWrite

/-!
# The register file over histories

The banking of the register file, as the processor manual has it, is a relation between names:
`SharedBy` says which modes name one physical register by one number, `HasSpsr` which modes have an
SPSR.  Reading a name after any sequence of writes gives the last value written under a name of the
same register, and CPSR writes do not count.

The numbers 0 … 15 and the seven modes are types here, so that nothing has to be assumed of a call.
The link to the arrays of the code is `slot_eq_iff`: the two `switch` statements lead two names to
one slot exactly when the manual identifies them.

The theorem about histories is an instance of the rule for last writes in the library: a call gives
new values to the names it writes and to no others (`exec_overwrite_names`), and what is found under
a name is then the last value given to it.  The steps before that are about one call: a register
read depends on the slots, an SPSR read on the SPSRs, and each of the three functions changes one of
these.
-/

namespace ArmSimulator

open LastWrite

/-! ## Names

What the manual speaks of, without arrays and indices. -/

/-- The modes `m` and `n` share the register `reg`: `R0` … `R7` and `R15` always, `R8` … `R12`
unless just one of them is FIQ, `R13` and `R14` if they are USR and SYS or the same. -/
def SharedBy (reg : Fin 16) (m n : Mode) : Prop :=
  (8 ≤ reg.val ∧ reg.val ≤ 12 → (m = .fiq ↔ n = .fiq)) ∧
  (13 ≤ reg.val ∧ reg.val ≤ 14 → m = n ∨ ((m = .usr ∨ m = .sys) ∧ (n = .usr ∨ n = .sys)))

/-- The modes with an SPSR of their own. -/
def HasSpsr (m : Mode) : Prop := m ≠ .usr ∧ m ≠ .sys

instance (reg : Fin 16) (m n : Mode) : Decidable (SharedBy reg m n) :=
  inferInstanceAs (Decidable (_ ∧ _))

instance (m : Mode) : Decidable (HasSpsr m) := inferInstanceAs (Decidable (_ ∧ _))

/-- What can be read of a register file: a register or the SPSR, in a mode. -/
inductive RegisterName
  | general (reg : Fin 16) (mode : Mode)
  | spsr (mode : Mode)

/-- A call of one of the three functions that write. -/
inductive RegisterCall
  | write (reg : Fin 16) (mode : Mode) (value : Word)
  | writeCpsr (value : Word)
  | writeSpsr (mode : Mode) (value : Word)

/-- `registers_read` and `registers_read_spsr`. -/
def RegisterName.read (r : Registers) : RegisterName → Word
  | general reg mode => registersRead r (BitVec.ofNat 8 reg.val) mode.number
  | spsr mode => registersReadSpsr r mode.number

namespace RegisterCall

/-- The call, carried out. -/
def exec (r : Registers) : RegisterCall → Registers
  | write reg mode value => registersWrite r (BitVec.ofNat 8 reg.val) mode.number value
  | writeCpsr value => registersWriteCpsr r value
  | writeSpsr mode value => registersWriteSpsr r mode.number value

/-- The names that a call gives a new value. -/
def writes : RegisterCall → RegisterName → Option Word
  | write reg mode value, .general reg' mode' =>
      if reg' = reg ∧ SharedBy reg mode mode' then some value else none
  | writeSpsr mode value, .spsr mode' =>
      if mode' = mode ∧ HasSpsr mode then some value else none
  | _, _ => none

end RegisterCall

/-- The register file after some calls. -/
def runRegisterCalls (r : Registers) (calls : List RegisterCall) : Registers :=
  calls.foldl RegisterCall.exec r

/-! ## Slots -/

theorem toNat_register (reg : Fin 16) : (BitVec.ofNat 8 reg.val).toNat = reg.val :=
  Nat.mod_eq_of_lt (Nat.lt_trans reg.isLt (by decide))

/-- Only the last register has the number 15. -/
theorem register_ne_pc {reg : Fin 16} (h : reg ≠ 15) : BitVec.ofNat 8 reg.val ≠ 15 := by
  intro heq
  have hval := congrArg BitVec.toNat heq
  rw [toNat_register] at hval
  exact h (Fin.ext hval)

/-- The slot of a register in a mode, without the `switch` statements. -/
theorem slot_register (reg : Fin 16) (m : Mode) :
    slot (BitVec.ofNat 8 reg.val) m.number =
      if reg.val = 15 then some .pc
      else if h : reg.val < 8 then some (.low ⟨reg.val, h⟩)
      else if h : reg.val ≤ 12 then some (.mid ⟨reg.val - 8, by omega⟩ (r8Bank m.number))
      else if h : reg.val ≤ 14 then some (.high ⟨reg.val - 13, by omega⟩ m.bank)
      else none := by
  unfold slot
  simp only [toNat_register, Mode.r13Bank_number, Option.map_some]

/-- The bank of `R8` … `R12` tells FIQ from the other modes. -/
theorem r8Bank_eq_iff (m n : Mode) :
    r8Bank m.number = r8Bank n.number ↔ (m = .fiq ↔ n = .fiq) := by
  cases m <;> cases n <;> decide

/-- The bank of `R13` and `R14` tells all modes apart but USR and SYS. -/
theorem bank_eq_iff (m n : Mode) :
    m.bank = n.bank ↔ m = n ∨ ((m = .usr ∨ m = .sys) ∧ (n = .usr ∨ n = .sys)) := by
  cases m <;> cases n <;> decide

/-- **Two names lead to one slot** exactly when they name one physical register. -/
theorem slot_eq_iff (reg reg' : Fin 16) (m n : Mode) :
    slot (BitVec.ofNat 8 reg.val) m.number = slot (BitVec.ofNat 8 reg'.val) n.number ↔
      reg' = reg ∧ SharedBy reg m n := by
  have hlt := reg.isLt
  have hlt' := reg'.isLt
  rw [slot_register, slot_register, SharedBy, Fin.ext_iff, ← r8Bank_eq_iff, ← bank_eq_iff]
  -- the two names are in the same range of numbers, or their slots are of different kinds
  split_ifs <;> grind

/-- Every register has a slot in every mode. -/
theorem slot_register_isSome (reg : Fin 16) (m : Mode) :
    ∃ s, slot (BitVec.ofNat 8 reg.val) m.number = some s := by
  have hlt := reg.isLt
  rw [slot_register]
  split_ifs with hpc hlow hmid hhigh
  · exact ⟨_, rfl⟩
  · exact ⟨_, rfl⟩
  · exact ⟨_, rfl⟩
  · exact ⟨_, rfl⟩
  · omega

/-- Every register exists in a valid mode. -/
theorem slot_isSome {reg mode : Byte} (hreg : reg.toNat < 16) (hmode : ValidMode mode) :
    ∃ s, slot reg mode = some s := by
  obtain ⟨m, rfl⟩ := hmode
  have hsome := slot_register_isSome ⟨reg.toNat, hreg⟩ m
  rwa [BitVec.ofNat_toNat, BitVec.setWidth_eq] at hsome

/-! ## What one call does

The effect of each of the three functions that write on each name that can be read. -/

section Calls

variable (r : Registers)

/-- A register read depends on the slots only. -/
theorem read_general_congr {q : Registers} (h : ∀ s, q.get s = r.get s) (reg : Fin 16)
    (m : Mode) : (RegisterName.general reg m).read q = (RegisterName.general reg m).read r := by
  have hget : q.get = r.get := funext h
  simp only [RegisterName.read, registersRead_eq, hget]

/-- An SPSR read depends on the SPSRs only. -/
theorem read_spsr_congr {q : Registers} (h : q.spsr = r.spsr) (m : Mode) :
    (RegisterName.spsr m).read q = (RegisterName.spsr m).read r := by
  simp only [RegisterName.read, registersReadSpsr_eq, h]

/-- The modes with an SPSR are those that have a place for it. -/
theorem hasSpsr_iff (m : Mode) : HasSpsr m ↔ ∃ i, m.spsr = some i := by
  cases m <;> simp [HasSpsr, Mode.spsr]

/-- What a register reads as after a write: the value in the modes that share the register with the
writer, and elsewhere what it was. -/
theorem write_read_general (reg reg' : Fin 16) (m n : Mode) (value : Word) :
    (RegisterName.general reg' n).read ((RegisterCall.write reg m value).exec r) =
      if reg' = reg ∧ SharedBy reg m n then value else (RegisterName.general reg' n).read r := by
  obtain ⟨s, hs⟩ := slot_register_isSome reg' n
  have hsame := slot_eq_iff reg reg' m n
  rw [hs] at hsame
  simp only [RegisterName.read, RegisterCall.exec, registersRead_eq, hs, Option.map_some,
    Option.getD_some, get_registersWrite, hsame]

/-- The same for an SPSR, which no two modes share. -/
theorem writeSpsr_read_spsr (m n : Mode) (value : Word) :
    (RegisterName.spsr n).read ((RegisterCall.writeSpsr m value).exec r) =
      if n = m ∧ HasSpsr m then value else (RegisterName.spsr n).read r := by
  simp only [RegisterName.read, RegisterCall.exec, registersReadSpsr_eq, registersWriteSpsr_eq,
    Mode.spsrIndex_number]
  cases hm : m.spsr with
  | none =>
      have hnone : ¬ HasSpsr m := fun h => by
        obtain ⟨i, hi⟩ := (hasSpsr_iff m).mp h
        rw [hm] at hi
        cases hi
      rw [if_neg (fun h => hnone h.2)]
      rfl
  | some i =>
      have hown : HasSpsr m := (hasSpsr_iff m).mpr ⟨i, hm⟩
      by_cases hn : n = m
      · rw [if_pos ⟨hn, hown⟩, hn, hm]
        exact Function.update_self i value r.spsr
      · rw [if_neg (fun h => hn h.1)]
        cases hn' : n.spsr with
        | none => rfl
        | some j =>
            have hne : j ≠ i := by
              rintro rfl
              exact Mode.spsr_ne (Ne.symm hn) hm hn'
            exact Function.update_of_ne hne value r.spsr

/-- An SPSR write changes no other register. -/
theorem get_registersWriteSpsr (mode : Byte) (value : Word) (s : Slot) :
    (registersWriteSpsr r mode value).get s = r.get s := by
  rw [registersWriteSpsr_eq]
  cases spsrIndex mode with
  | none => rfl
  | some i => cases s <;> rfl

/-- **Step lemma**: a call gives new values to the names it writes, and to no others. -/
theorem exec_overwrite_names (call : RegisterCall) :
    (fun name : RegisterName => name.read (call.exec r)) =
      overwrite (fun name => name.read r) call.writes := by
  funext name
  rw [overwrite]
  cases call with
  | write reg m value =>
      cases name with
      | general reg' n =>
          rw [write_read_general, RegisterCall.writes]
          split_ifs <;> rfl
      | spsr n => exact read_spsr_congr r (registersWrite_spsr ..) n
  | writeCpsr value =>
      cases name with
      | general reg n => exact read_general_congr r (fun s => by cases s <;> rfl) reg n
      | spsr n => exact read_spsr_congr r rfl n
  | writeSpsr m value =>
      cases name with
      | general reg n => exact read_general_congr r (get_registersWriteSpsr r m.number value) reg n
      | spsr n =>
          rw [writeSpsr_read_spsr, RegisterCall.writes]
          split_ifs <;> rfl

end Calls

/-! ## Histories -/

/-- **Banking over histories.**  After any sequence of writes a register or SPSR reads as
the last value written to the same physical register, or as it did at first; CPSR writes
alter none of them, and SPSR writes in USR and SYS alter nothing. -/
theorem registers_history (r : Registers) (calls : List RegisterCall) :
    (∀ name : RegisterName, name.read (runRegisterCalls r calls) =
      (lastWrite (calls.map RegisterCall.writes) name).getD (name.read r)) ∧
    (∀ (value : Word) (name : RegisterName),
      name.read ((RegisterCall.writeCpsr value).exec (runRegisterCalls r calls)) =
        name.read (runRegisterCalls r calls)) ∧
    (∀ (m : Mode) (value : Word), m = .usr ∨ m = .sys →
      (RegisterCall.writeSpsr m value).exec (runRegisterCalls r calls) =
        runRegisterCalls r calls) := by
  refine ⟨?_, fun value name => ?_, fun m value hm => ?_⟩
  · have hrun := foldl_view (P := fun _ => True) (E := fun _ => True)
      (fun (r : Registers) (name : RegisterName) => name.read r)
      (fun r call _ _ => ⟨trivial, exec_overwrite_names r call⟩) calls r (fun _ _ => trivial)
      trivial
    exact hrun.2
  · exact congrFun (exec_overwrite_names _ (.writeCpsr value)) name
  · rcases hm with rfl | rfl <;> rfl

/-- `R13` is one register in USR and SYS and another in SVC. -/
example (r : Registers) : (RegisterName.general 13 .sys).read
    (runRegisterCalls r [.write 13 .usr 1, .write 13 .svc 2, .writeCpsr 0x1f]) = 1 := rfl

end ArmSimulator
