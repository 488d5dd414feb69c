import ArmSimulator.Util
import Mathlib.Logic.Function.Basic
import Mathlib.Tactic.SplitIfs

/-!
# The register file (`registers.c`)

The structure `registers_data` keeps one copy of `R15` and of `R0 … R7`, two of `R8 … R12` (one for
FIQ), six of `R13` and `R14` (USR and SYS share one), five SPSRs, the CPSR, and a cached copy
`current_mode` of the mode bits of the CPSR.

The first half of the file is the C code, one definition for each function.  The two `switch`
statements on the mode that the functions repeat are definitions of their own, `r13Bank` and
`spsrIndex`.  Arrays are functions on `Fin`, and the accesses carry the proof that the index is
within them, as the chain of comparisons of the C code gives it.

The second half says what the file is for: a *physical register* is a `Slot`, a pair (register
number, mode) names at most one of them (`slot`), and reading and writing are reading and writing
that slot (`registersRead_eq`, `registersWrite_eq`).  A register number above 15, or `R13` or `R14`
in a mode that is none of the seven, names no slot: the read is `UINT32_MAX` and the write is
dropped.  Whatever comes later about registers is proved about slots, where a write changes one of
them and no other (`get_set`).

The cached mode is the other thing to know.  `mode_update` gives a valid mode field back and turns
every other one into 255 (`modeUpdate_eq`), so the cache is the mode of the CPSR when that has one,
and no mode at all when it has not.  That the cache and the CPSR agree is an invariant of whole runs
and is proved in `ModeInvariant`.

The pointer `r` is never `NULL`.
-/

namespace ArmSimulator

/-- `struct registers_data`.  The second index of `tabR8R12` is 1 for FIQ; the one of `tabR13R14`
and the index of `spsr` are in the order of the `switch` statements. -/
structure Registers where
  pc : Word
  tabR0R7 : Fin 8 → Word
  tabR8R12 : Fin 5 → Fin 2 → Word
  tabR13R14 : Fin 2 → Fin 6 → Word
  cpsr : Word
  spsr : Fin 5 → Word
  currentMode : Byte

/-- What a read gives when there is no register to read.  A caller cannot tell it from a register
that holds this value. -/
def UINT32_MAX : Word := 0xFFFFFFFF

/-! ## The functions of `registers.c` -/

/-- `registers_get_mode`. -/
def registersGetMode (r : Registers) : Byte := r.currentMode

/-- `registers_mode_has_spsr`: five of the seven modes, and none of the invalid ones. -/
def registersModeHasSpsr (mode : Byte) : Bool :=
  mode = SVC || mode = FIQ || mode = ABT || mode = UND || mode = IRQ

/-- `registers_current_mode_has_spsr`. -/
def registersCurrentModeHasSpsr (r : Registers) : Bool :=
  registersModeHasSpsr (registersGetMode r)

/-- `registers_in_a_privileged_mode`: SYS is not counted as privileged. -/
def registersInAPrivilegedMode (r : Registers) : Bool :=
  !(r.currentMode = USR || r.currentMode = SYS)

/-- The second index of `tab_r8_r12`. -/
def r8Bank (mode : Byte) : Fin 2 := if mode = FIQ then 1 else 0

/-- The second index of `tab_r13_r14`: the `switch (mode)` shared by
`registers_read` and `registers_write`. -/
def r13Bank (mode : Byte) : Option (Fin 6) :=
  if mode = USR ∨ mode = SYS then some 0
  else if mode = FIQ then some 1
  else if mode = IRQ then some 2
  else if mode = SVC then some 3
  else if mode = UND then some 4
  else if mode = ABT then some 5
  else none

/-- The index of `spsr`: the `switch (mode)` shared by `registers_read_spsr` and
`registers_write_spsr`. -/
def spsrIndex (mode : Byte) : Option (Fin 5) :=
  if mode = FIQ then some 0
  else if mode = IRQ then some 1
  else if mode = SVC then some 2
  else if mode = ABT then some 3
  else if mode = UND then some 4
  else none

/-- `registers_read`.  The register number and the mode come from the caller, who need not be in
that mode; `arm_read_register` gives the current one. -/
def registersRead (r : Registers) (reg mode : Byte) : Word :=
  if reg.toNat = 15 then r.pc
  else if h : reg.toNat < 8 then r.tabR0R7 ⟨reg.toNat, h⟩
  else if h : reg.toNat ≤ 12 then
    r.tabR8R12 ⟨reg.toNat - 8, by omega⟩ (r8Bank mode)
  else if h : reg.toNat ≤ 14 then
    match r13Bank mode with
    | some bank => r.tabR13R14 ⟨reg.toNat - 13, by omega⟩ bank
    | none => UINT32_MAX
  else UINT32_MAX

/-- `registers_read_cpsr`. -/
def registersReadCpsr (r : Registers) : Word := r.cpsr

/-- `registers_read_spsr`.  USR and SYS are tested first, as in the source; an invalid mode comes to
the default of the `switch`. -/
def registersReadSpsr (r : Registers) (mode : Byte) : Word :=
  if mode = USR ∨ mode = SYS then UINT32_MAX
  else
    match spsrIndex mode with
    | some i => r.spsr i
    | none => UINT32_MAX

/-- `registers_write`.  A number that names no register of the mode is ignored, and nothing tells
the caller so. -/
def registersWrite (r : Registers) (reg mode : Byte) (value : Word) : Registers :=
  if reg.toNat = 15 then { r with pc := value }
  else if h : reg.toNat < 8 then
    { r with tabR0R7 := Function.update r.tabR0R7 ⟨reg.toNat, h⟩ value }
  else if h : reg.toNat ≤ 12 then
    { r with tabR8R12 := fun i b =>
        if i = ⟨reg.toNat - 8, by omega⟩ ∧ b = r8Bank mode then value else r.tabR8R12 i b }
  else if h : reg.toNat ≤ 14 then
    match r13Bank mode with
    | some bank =>
        { r with tabR13R14 := fun i b =>
            if i = ⟨reg.toNat - 13, by omega⟩ ∧ b = bank then value else r.tabR13R14 i b }
    | none => r
  else r

/-- `mode_update`, converted to the `uint8_t` it is stored in: an invalid mode
field gives `-1`, which is stored as `255`. -/
def modeUpdate (cpsr : Word) : Byte :=
  let modeBits := u8 (getBits cpsr 4 0)
  if modeBits = USR ∨ modeBits = FIQ ∨ modeBits = IRQ ∨ modeBits = SVC ∨ modeBits = ABT ∨
      modeBits = UND ∨ modeBits = SYS then modeBits
  else 255

/-- `registers_write_cpsr`: the one place where the cached mode changes. -/
def registersWriteCpsr (r : Registers) (value : Word) : Registers :=
  { r with cpsr := value, currentMode := modeUpdate value }

/-- `registers_write_spsr`.  A write for a mode without an SPSR is dropped; the test before the
`switch` and the `switch` agree on which modes these are. -/
def registersWriteSpsr (r : Registers) (mode : Byte) (value : Word) : Registers :=
  if registersModeHasSpsr mode then
    match spsrIndex mode with
    | some i => { r with spsr := Function.update r.spsr i value }
    | none => r
  else r

/-! ## Modes

The modes of the architecture as a type of its own, so that a statement over all modes is a
statement over seven cases.  The code has bytes; `Mode.number` is the embedding, and the lemmas
about it let the `switch` statements on the byte be read as functions of the mode. -/

/-- The seven architectural modes. -/
inductive Mode
  | usr | fiq | irq | svc | abt | und | sys
  deriving DecidableEq, Repr

namespace Mode

/-- The number of a mode in `CPSR[4:0]`. -/
def number : Mode → Byte
  | usr => USR
  | fiq => FIQ
  | irq => IRQ
  | svc => SVC
  | abt => ABT
  | und => UND
  | sys => SYS

/-- The SPSR of a mode, if it has one: its index in `spsr`, in the order of the `switch`. -/
def spsr : Mode → Option (Fin 5)
  | usr | sys => none
  | fiq => some 0
  | irq => some 1
  | svc => some 2
  | abt => some 3
  | und => some 4

@[simp] theorem spsrIndex_number (m : Mode) : spsrIndex m.number = m.spsr := by
  cases m <;> rfl

/-- The test of the source for an SPSR, in the seven modes. -/
theorem hasSpsr_number (m : Mode) : registersModeHasSpsr m.number = m.spsr.isSome := by
  cases m <;> rfl

/-- No two modes share an SPSR. -/
theorem spsr_ne {m n : Mode} {i : Fin 5} (hne : m ≠ n) (h : m.spsr = some i) :
    n.spsr ≠ some i := by
  revert hne h
  revert i
  cases m <;> cases n <;> decide

/-- The bank of `R13` and `R14` of a mode.  USR and SYS have the same, the other modes each its own.
-/
def bank : Mode → Fin 6
  | usr | sys => 0
  | fiq => 1
  | irq => 2
  | svc => 3
  | und => 4
  | abt => 5

@[simp] theorem r13Bank_number (m : Mode) : r13Bank m.number = some m.bank := by
  cases m <;> rfl

end Mode

/-- A mode byte is *valid* when it is the number of an architectural mode.  The 255 of `mode_update`
is not, and neither are the mode fields that the architecture reserves. -/
def ValidMode (mode : Byte) : Prop := ∃ m : Mode, mode = m.number

/-- The modes with a bank for `R13` and `R14` are the valid ones. -/
theorem validMode_iff {mode : Byte} : ValidMode mode ↔ (r13Bank mode).isSome = true := by
  constructor
  · rintro ⟨m, rfl⟩
    simp
  · intro h
    unfold r13Bank at h
    split_ifs at h with h0 h1 h2 h3 h4 h5
    · exact h0.elim (fun h => ⟨.usr, h⟩) fun h => ⟨.sys, h⟩
    · exact ⟨.fiq, h1⟩
    · exact ⟨.irq, h2⟩
    · exact ⟨.svc, h3⟩
    · exact ⟨.und, h4⟩
    · exact ⟨.abt, h5⟩
    · cases h

instance decidableValidMode (mode : Byte) : Decidable (ValidMode mode) :=
  decidable_of_iff _ validMode_iff.symm

/-- The mode field of a status word. -/
def modeField (status : Word) : Byte := u8 (getBits status 4 0)

/-- `mode_update` keeps a valid mode field and turns every other one into `255`. -/
theorem modeUpdate_eq (cpsr : Word) :
    modeUpdate cpsr = if ValidMode (modeField cpsr) then modeField cpsr else 255 := by
  -- the cascade of `mode_update` lists the valid modes
  have hvalid : ∀ b : Byte, ValidMode b ↔
      (b = USR ∨ b = FIQ ∨ b = IRQ ∨ b = SVC ∨ b = ABT ∨ b = UND ∨ b = SYS) := by
    intro b
    constructor
    · rintro ⟨m, rfl⟩
      cases m <;> simp [Mode.number]
    · rintro (h | h | h | h | h | h | h)
      exacts [⟨.usr, h⟩, ⟨.fiq, h⟩, ⟨.irq, h⟩, ⟨.svc, h⟩, ⟨.abt, h⟩, ⟨.und, h⟩, ⟨.sys, h⟩]
  rw [modeUpdate]
  exact if_congr (hvalid _).symm rfl rfl

/-- The five bits of a valid mode are the mode. -/
theorem modeUpdate_of_valid {cpsr : Word} (h : ValidMode (modeField cpsr)) :
    modeUpdate cpsr = modeField cpsr := by
  rw [modeUpdate_eq, if_pos h]

/-- The value that `mode_update` gives for other bits is no mode. -/
theorem not_validMode_255 : ¬ ValidMode 255 := by decide

/-- So the result of `mode_update` says whether the bits were valid. -/
theorem validMode_modeUpdate {cpsr : Word} :
    ValidMode (modeUpdate cpsr) ↔ ValidMode (modeField cpsr) := by
  rw [modeUpdate_eq]
  split_ifs with h
  · rfl
  · exact iff_of_false not_validMode_255 h

/-- Status words that agree on their low five bits are in the same mode. -/
theorem modeUpdate_congr {x y : Word} (h : BitField.SameBelow 5 x y) :
    modeUpdate x = modeUpdate y := by
  simp only [modeUpdate, getBits_eq_field, h.field_eq (Nat.zero_le 4) (by decide)]

/-- The mode is in the lowest five bits of the status. -/
theorem getLsbD_modeField (status : Word) (i : ℕ) :
    (modeField status).getLsbD i = (decide (i < 5) && status.getLsbD i) := by
  rw [modeField, u8, getBits_eq_field, BitVec.getLsbD_setWidth, BitField.getLsbD_field,
    Nat.zero_add]
  by_cases hi : i < 5
  · simp [hi, Nat.lt_trans hi (by decide : 5 < 8)]
  · simp [hi]

/-- A mode is a number of five bits. -/
theorem Mode.getLsbD_number (m : Mode) {i : ℕ} (hi : 5 ≤ i) : m.number.getLsbD i = false := by
  by_cases h8 : i < 8
  · have hrange : i = 5 ∨ i = 6 ∨ i = 7 := by omega
    rcases hrange with rfl | rfl | rfl <;> cases m <;> rfl
  · exact BitVec.getLsbD_of_ge _ _ (Nat.le_of_not_lt h8)

/-- A status word is in a mode when its five low bits are the number of the mode. -/
theorem modeField_eq_number {status : Word} {m : Mode} :
    modeField status = m.number ↔ ∀ i < 5, status.getLsbD i = m.number.getLsbD i := by
  constructor
  · intro h i hi
    rw [← h, getLsbD_modeField]
    simp [hi]
  · intro h
    apply BitVec.eq_of_getLsbD_eq
    intro i _
    rw [getLsbD_modeField]
    by_cases hi : i < 5
    · simp [hi, h i hi]
    · simp [hi, m.getLsbD_number (Nat.le_of_not_lt hi)]

/-! ## Physical registers

`get` and `set` are the register file as an array over the slots.  Two register files with the same
slots, the same status registers and the same cached mode are equal (`ext_slots`), which is how the
results that restore a state are proved. -/

/-- A physical general register: `R15`, one of `R0 … R7`, one of `R8 … R12` in one of two banks,
`R13` or `R14` in one of six. -/
inductive Slot
  | pc
  | low (i : Fin 8)
  | mid (i : Fin 5) (bank : Fin 2)
  | high (i : Fin 2) (bank : Fin 6)
  deriving DecidableEq, Repr

/-- The physical registers that mode USR can name: all but the bank of FIQ and the `R13` and `R14`
of the five exception modes. -/
def Slot.UserVisible : Slot → Prop
  | .pc => True
  | .low _ => True
  | .mid _ bank => bank = 0
  | .high _ bank => bank = 0

/-- The physical register a register number names in a mode.  There is none for the numbers from 16
on, and none for `R13` and `R14` in an invalid mode. -/
def slot (reg mode : Byte) : Option Slot :=
  if reg.toNat = 15 then some .pc
  else if h : reg.toNat < 8 then some (.low ⟨reg.toNat, h⟩)
  else if h : reg.toNat ≤ 12 then some (.mid ⟨reg.toNat - 8, by omega⟩ (r8Bank mode))
  else if h : reg.toNat ≤ 14 then
    (r13Bank mode).map (.high ⟨reg.toNat - 13, by omega⟩)
  else none

/-- The register number of a slot. -/
def Slot.number : Slot → ℕ
  | .pc => 15
  | .low i => i.val
  | .mid i _ => 8 + i.val
  | .high i _ => 13 + i.val

/-- Only the number of a slot names it. -/
theorem toNat_of_slot {reg mode : Byte} {s : Slot} (h : slot reg mode = some s) :
    reg.toNat = s.number := by
  unfold slot at h
  split_ifs at h with hpc hlow hmid hhigh
  · cases h
    exact hpc
  · cases h
    rfl
  · cases h
    exact (Nat.add_sub_cancel' (Nat.le_of_not_lt hlow)).symm
  · obtain ⟨bank, -, rfl⟩ := Option.map_eq_some_iff.mp h
    exact (Nat.add_sub_cancel' (Nat.lt_of_not_le hmid)).symm

namespace Registers

/-- The contents of a physical register, by its place in the structure and whatever the mode is. -/
def get (r : Registers) : Slot → Word
  | .pc => r.pc
  | .low i => r.tabR0R7 i
  | .mid i b => r.tabR8R12 i b
  | .high i b => r.tabR13R14 i b

/-- The register file after a write to a physical register.  Nothing else in the structure changes.
-/
def set (r : Registers) (s : Slot) (value : Word) : Registers :=
  match s with
  | .pc => { r with pc := value }
  | .low i => { r with tabR0R7 := Function.update r.tabR0R7 i value }
  | .mid i b =>
      { r with tabR8R12 := fun i' b' => if i' = i ∧ b' = b then value else r.tabR8R12 i' b' }
  | .high i b =>
      { r with tabR13R14 := fun i' b' => if i' = i ∧ b' = b then value else r.tabR13R14 i' b' }

/-- Reading a register file after a write: the slot written, and no other. -/
theorem get_set (r : Registers) (s t : Slot) (value : Word) :
    (r.set s value).get t = if t = s then value else r.get t := by
  cases s <;> cases t <;> simp [set, get, Function.update_apply]

@[simp] theorem set_cpsr (r : Registers) (s : Slot) (value : Word) :
    (r.set s value).cpsr = r.cpsr := by
  cases s <;> rfl

@[simp] theorem set_spsr (r : Registers) (s : Slot) (value : Word) :
    (r.set s value).spsr = r.spsr := by
  cases s <;> rfl

@[simp] theorem set_currentMode (r : Registers) (s : Slot) (value : Word) :
    (r.set s value).currentMode = r.currentMode := by
  cases s <;> rfl

/-- A register file is its physical registers, its status registers and its mode. -/
theorem ext_slots {r q : Registers} (hslots : ∀ s, r.get s = q.get s)
    (hcpsr : r.cpsr = q.cpsr) (hspsr : r.spsr = q.spsr)
    (hmode : r.currentMode = q.currentMode) : r = q := by
  obtain ⟨pc, low, mid, high, cpsr, spsr, mode⟩ := r
  obtain ⟨pc', low', mid', high', cpsr', spsr', mode'⟩ := q
  obtain rfl : pc = pc' := hslots .pc
  obtain rfl : low = low' := funext fun i => hslots (.low i)
  obtain rfl : mid = mid' := funext fun i => funext fun b => hslots (.mid i b)
  obtain rfl : high = high' := funext fun i => funext fun b => hslots (.high i b)
  simp only at hcpsr hspsr hmode
  subst hcpsr hspsr hmode
  rfl

end Registers

/-- **Reads are reads of a slot.**  A number and a mode that name none read as `UINT32_MAX`. -/
theorem registersRead_eq (r : Registers) (reg mode : Byte) :
    registersRead r reg mode = ((slot reg mode).map r.get).getD UINT32_MAX := by
  unfold registersRead slot
  split_ifs
  · rfl
  · rfl
  · rfl
  · cases r13Bank mode <;> rfl
  · rfl

/-- **Writes are writes of a slot.**  A number and a mode that name none leave the register file as
it is. -/
theorem registersWrite_eq (r : Registers) (reg mode : Byte) (value : Word) :
    registersWrite r reg mode value =
      ((slot reg mode).map fun s => r.set s value).getD r := by
  unfold registersWrite slot
  split_ifs
  · rfl
  · rfl
  · rfl
  · cases r13Bank mode <;> rfl
  · rfl

@[simp] theorem registersWrite_cpsr (r : Registers) (reg mode : Byte) (value : Word) :
    (registersWrite r reg mode value).cpsr = r.cpsr := by
  rw [registersWrite_eq]
  cases slot reg mode <;> simp

@[simp] theorem registersWrite_spsr (r : Registers) (reg mode : Byte) (value : Word) :
    (registersWrite r reg mode value).spsr = r.spsr := by
  rw [registersWrite_eq]
  cases slot reg mode <;> simp

@[simp] theorem registersWrite_currentMode (r : Registers) (reg mode : Byte) (value : Word) :
    (registersWrite r reg mode value).currentMode = r.currentMode := by
  rw [registersWrite_eq]
  cases slot reg mode <;> simp

/-- A write reaches the slot it names and no other. -/
theorem get_registersWrite (r : Registers) (reg mode : Byte) (value : Word) (s : Slot) :
    (registersWrite r reg mode value).get s =
      if slot reg mode = some s then value else r.get s := by
  rw [registersWrite_eq]
  cases hslot : slot reg mode with
  | none => simp
  | some t =>
      simp only [Option.map_some, Option.getD_some, Option.some.injEq, Registers.get_set,
        eq_comm]

/-- `R15` is one physical register in every mode. -/
@[simp] theorem slot_pc (mode : Byte) : slot 15 mode = some .pc := rfl

/-- `R13` of an architectural mode. -/
@[simp] theorem slot_r13 (m : Mode) : slot 13 m.number = some (.high 0 m.bank) := by
  cases m <;> rfl

/-- `R14` of an architectural mode. -/
@[simp] theorem slot_r14 (m : Mode) : slot 14 m.number = some (.high 1 m.bank) := by
  cases m <;> rfl

/-- The stack pointer of a mode. -/
theorem registersRead_r13 (r : Registers) (m : Mode) :
    registersRead r 13 m.number = r.get (.high 0 m.bank) := by
  rw [registersRead_eq, slot_r13]
  rfl

/-- The link register of a mode. -/
theorem registersRead_r14 (r : Registers) (m : Mode) :
    registersRead r 14 m.number = r.get (.high 1 m.bank) := by
  rw [registersRead_eq, slot_r14]
  rfl

/-! ## Status registers -/

/-- An SPSR is read where the mode has one; elsewhere the value is the one for errors. -/
theorem registersReadSpsr_eq (r : Registers) (mode : Byte) :
    registersReadSpsr r mode = ((spsrIndex mode).map r.spsr).getD UINT32_MAX := by
  unfold registersReadSpsr
  split_ifs with h
  · rcases h with rfl | rfl <;> rfl
  · cases spsrIndex mode <;> rfl

/-- `registers_mode_has_spsr` agrees with the `switch` on the SPSR index. -/
theorem registersModeHasSpsr_eq (mode : Byte) :
    registersModeHasSpsr mode = (spsrIndex mode).isSome := by
  unfold registersModeHasSpsr spsrIndex
  split_ifs <;> simp_all

/-- Where the mode has none the write is dropped. -/
theorem registersWriteSpsr_eq (r : Registers) (mode : Byte) (value : Word) :
    registersWriteSpsr r mode value =
      ((spsrIndex mode).map fun i =>
        { r with spsr := Function.update r.spsr i value }).getD r := by
  unfold registersWriteSpsr
  rw [registersModeHasSpsr_eq]
  cases spsrIndex mode <;> rfl

end ArmSimulator
