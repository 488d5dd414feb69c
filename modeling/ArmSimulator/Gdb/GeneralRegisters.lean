import ArmSimulator.Gdb.Requests
import ArmSimulator.ModeInvariant

/-!
# The packets `g` and `G` (`gdb_protocol.c`)

The answer to `g` and the request `G` are one text of 42 fields of 8 characters: `R0` to `R15`, 25
fields for the registers of a floating point unit that is not simulated, and the CPSR.  The reader
prints the fields one over the terminator of the other into `packet`; the writer reads them at its
own offsets, the registers in the mode of the old CPSR.

* `readUint32` and `writeUint32`, a word as a field.  The first is `sscanf("%08x")` with all that it
  reads, on any text; `readUint32_append` says what it makes of digits.
* `readGeneralRegisters_spec` and `writeGeneralRegisters_spec`, what each sends, and what the writer
  leaves in the registers.
* `general_registers_identity`: a `G` of the answer to a `g` changes nothing.
* `general_registers_report_iff`: a `g` after a `G` reports the registers that were written, except
  the ones that another mode has and that hold something else.

The second result is where the order of the writer shows.  It writes the registers before it sets
the CPSR, so after a change of mode the values of `R13` and `R14`, and of `R8` to `R12` if one of
the modes is FIQ, are in the bank of the mode that was left.  The first result is not touched by it,
since there the mode does not change.
-/

namespace ArmSimulator

open CheckedArray TextFields

/-! ## The handlers

A word is printed in 8 digits and read from 8 characters.  The reader may be given any text: white
space, a sign and a prefix are read as `sscanf` reads them, and only the last two count for the
width. -/

/-- `snprintf(.., 9, "%08x", value)`, without the final NUL. -/
def hexWord (value : Word) : List Byte := (numeral 16 8 value.toNat).map digitChar

/-- `read_uint32`: `sscanf(data, "%08x", ..)`.  The width counts a sign, a prefix `0x` and the
digits, and not the white space before them; without a digit the value is uninitialised. -/
def readUint32 (data : List Byte) : Option Word :=
  (scanUnsigned ((data.dropWhile isSpace).take 8)).map Prod.fst

/-- `write_uint32`, into `packet`. -/
def writeUint32 (packet : Fin MAX_PACKET_SIZE → Byte) (position : ℕ) (value : Word) :
    Option (Fin MAX_PACKET_SIZE → Byte) :=
  writeList (hexWord value ++ [0]) position packet

namespace Gdb

/-- `read_register`: the field of a register in the current mode, at a place of `packet`; `none` at
its assertion. -/
def readRegister (g : Gdb) (packet : Fin MAX_PACKET_SIZE → Byte) (position reg : ℕ) :
    Option (Fin MAX_PACKET_SIZE → Byte) :=
  if reg < 16 then
    writeUint32 packet position
      (registersRead g.arm.reg (BitVec.ofNat 8 reg) (registersGetMode g.arm.reg))
  else none

/-- `read_general_registers`; the position is an index of `packet`. -/
def readGeneralRegisters : GdbHandler := fun g _ => do
  let s ← (List.range 16).foldlM
    (fun s i => (g.readRegister s.2 s.1 i).map fun packet => (s.1 + 8, packet)) (1, g.packet)
  -- eight registers of three words, then the status register of the unit
  let s ← (List.range 8).foldlM
    (fun s _ => (List.range 3).foldlM (fun s _ => writeField 0 8 s (str "xxxxxxxx")) s) s
  let s ← writeField 0 8 s (str "xxxxxxxx")
  let packet ← writeUint32 s.2 s.1 (registersReadCpsr g.arm.reg)
  gdbSendBuffer { g with packet := packet }

/-- `write_register`, on the text of the value.  The assertion on the number comes after the value
has been read. -/
def writeRegister (g : Gdb) (reg : ℕ) (data : List Byte) : Option Gdb := do
  let value ← readUint32 data
  let registers ← ArmSimulator.writeRegister g.arm.reg reg value
  some { g with arm := { g.arm with reg := registers } }

/-- `write_general_registers`, on the text of the fields.  Each field is read from its own offset,
and a text that is too short is read up to its end. -/
def writeGeneralRegisters : GdbHandler := fun g data => do
  let s ← (List.range 16).foldlM
    (fun s i => (s.1.writeRegister i s.2).map fun g => (g, s.2.drop 8)) (g, data)
  let position := (List.range 8).foldl
    (fun position _ => (List.range 3).foldl (fun position _ => position.drop 8) position) s.2
  let position := position.drop 8
  let value ← readUint32 position
  gdbSendData
    { s.1 with arm := { s.1.arm with reg := registersWriteCpsr s.1.arm.reg value } } (str "OK")

end Gdb

/-! ## Words in hexadecimal

A field of 8 digits and the word it stands for, both ways. -/

/-- A field of 8 hexadecimal digits. -/
structure IsHexField (digits : List Byte) : Prop where
  length : digits.length = 8
  digit : ∀ c ∈ digits, (hexDigit c).isSome

/-- The word that the digits stand for. -/
def hexValue (digits : List Byte) : Word :=
  BitVec.ofNat 32 (value 16 (digits.map fun c => (hexDigit c).getD 0) 0)

/-- A field of eight digits is a numeral. -/
theorem IsHexField.numeral {digits : List Byte} (h : IsHexField digits) : IsHexNumeral digits where
  ne_nil := List.ne_nil_of_length_pos (by rw [h.length]; decide)
  digit := h.digit

/-- Eight digits are a number below `2 ^ 32`. -/
theorem hexNumber_lt {digits : List Byte} (hdigits : IsHexNumeral digits)
    (hlength : digits.length ≤ 8) : hexNumber digits < 2 ^ 32 := by
  have hlt := digitsValue_lt hexDigit 16 (fun _ _ hd => hexDigit_lt hd) hdigits.digit
  exact hlt.trans_le (Nat.pow_le_pow_right (by decide) hlength)

/-- **`read_uint32` reads a numeral** that fills the width, or that ends before it. -/
theorem readUint32_append {digits rest : List Byte} (hdigits : IsHexNumeral digits)
    (hlength : digits.length ≤ 8)
    (hrest : digits.length = 8 ∨ ∀ c ∈ rest.head?, EndsNumeral c) :
    readUint32 (digits ++ rest) = some (hexValue digits) := by
  have hspace : (digits ++ rest).dropWhile isSpace = digits ++ rest := by
    obtain ⟨hne, hdigit⟩ := hdigits
    cases digits with
    | nil => exact absurd rfl hne
    | cons c digits =>
        have hplain := isPlain_of_hexDigit (hdigit c List.mem_cons_self)
        exact List.dropWhile_cons_of_neg (by rw [hplain.space]; decide)
  have htake : (digits ++ rest).take 8 = digits ++ rest.take (8 - digits.length) := by
    rw [List.take_append, List.take_of_length_le hlength]
  -- the width cuts the text, or leaves the character that ends the numeral
  have hends : ∀ c ∈ (rest.take (8 - digits.length)).head?, EndsNumeral c := by
    intro c hc
    rw [List.head?_take] at hc
    split_ifs at hc with hfull
    · exact absurd hc (Option.not_mem_none c)
    · exact hrest.resolve_left (fun h => hfull (by rw [h])) c hc
  have hlarge : ¬ 2 ^ 64 ≤ hexNumber digits := by
    have hlt := hexNumber_lt hdigits hlength
    omega
  rw [readUint32, hspace, htake, scanUnsigned_append hdigits hends, Option.map_some, toUnsigned,
    if_neg hlarge, if_neg (by decide)]
  rfl

/-- `read_uint32` reads a field. -/
theorem readUint32_eq {data : List Byte} (h : IsHexField (data.take 8)) :
    readUint32 data = some (hexValue (data.take 8)) := by
  have hread : readUint32 (data.take 8 ++ data.drop 8) = some (hexValue (data.take 8)) :=
    readUint32_append h.numeral h.length.le (Or.inl h.length)
  rwa [List.take_append_drop] at hread

-- a numeral may have a prefix and white space before it, and the width counts the prefix
example : readUint32 (str "  0x1234567") = some 0x123456 := by decide

/-- What the program writes for a word is a field. -/
theorem isHexField_hexWord (v : Word) : IsHexField (hexWord v) where
  length := by rw [hexWord, List.length_map, length_numeral]
  digit := by
    intro c hc
    obtain ⟨d, hd, rfl⟩ := List.mem_map.mp hc
    rw [hexDigit_digitChar d (lt_of_mem_numeral 16 (by decide) hd)]
    rfl

/-- **A printed word is read back.**  The digits are those of the word, the highest first. -/
theorem hexValue_hexWord (v : Word) : hexValue (hexWord v) = v := by
  have hdigits : (hexWord v).map (fun c => (hexDigit c).getD 0) = numeral 16 8 v.toNat := by
    rw [hexWord, List.map_map]
    refine (List.map_congr_left fun d hd => ?_).trans (List.map_id _)
    exact congrArg (·.getD 0) (hexDigit_digitChar d (lt_of_mem_numeral 16 (by decide) hd))
  have hfits : v.toNat % 16 ^ 8 = v.toNat := Nat.mod_eq_of_lt v.isLt
  rw [hexValue, hdigits, value_numeral, hfits, BitVec.ofNat_toNat, BitVec.setWidth_eq]

/-! ## The register file after `G`

The loop of the writer, without the texts.  A slot is written by at most one number in a given mode,
and the order of the writes does not matter: what is left in a slot is the value of its number, or
what it held. -/

/-- The registers after writes of the numbers `is`, in the mode of `r`. -/
def writeNumbers (r : Registers) (values : ℕ → Word) (is : List ℕ) : Registers :=
  is.foldl (fun r i => registersWrite r (BitVec.ofNat 8 i) (registersGetMode r) (values i)) r

section Numbers

variable (values : ℕ → Word)

/-- Writing general registers leaves the status registers and the mode. -/
theorem writeNumbers_status (is : List ℕ) (r : Registers) :
    SameStatus r (writeNumbers r values is) := by
  induction is generalizing r with
  | nil => exact ⟨rfl, rfl, rfl⟩
  | cons i is ih =>
      have hstep : SameStatus r
          (registersWrite r (BitVec.ofNat 8 i) (registersGetMode r) (values i)) :=
        ⟨registersWrite_cpsr .., registersWrite_spsr .., registersWrite_currentMode ..⟩
      exact hstep.trans (ih _)

/-- A number below 16 names a slot exactly if it is the number of the slot. -/
theorem slot_ofNat_iff {i : ℕ} (hi : i < 16) (mode : Byte) (s : Slot) :
    slot (BitVec.ofNat 8 i) mode = some s ↔
      i = s.number ∧ slot (BitVec.ofNat 8 s.number) mode = some s := by
  have hnat : (BitVec.ofNat 8 i).toNat = i := by
    rw [BitVec.toNat_ofNat]
    exact Nat.mod_eq_of_lt (hi.trans (by decide))
  constructor
  · intro h
    obtain rfl : i = s.number := hnat.symm.trans (toNat_of_slot h)
    exact ⟨rfl, h⟩
  · rintro ⟨rfl, h⟩
    exact h

/-- **What the writes leave**: in the slots that the numbers name in the mode, their values. -/
theorem get_writeNumbers (s : Slot) (is : List ℕ) (his : ∀ i ∈ is, i < 16) (r : Registers) :
    (writeNumbers r values is).get s =
      if s.number ∈ is ∧ slot (BitVec.ofNat 8 s.number) r.currentMode = some s then
        values s.number
      else r.get s := by
  induction is generalizing r with
  | nil => rw [if_neg fun h => List.not_mem_nil h.1]; rfl
  | cons i is ih =>
      have hrest := ih (fun j hj => his j (List.mem_cons_of_mem i hj))
        (registersWrite r (BitVec.ofNat 8 i) (registersGetMode r) (values i))
      rw [registersWrite_currentMode, get_registersWrite, registersGetMode,
        if_congr (slot_ofNat_iff (his i List.mem_cons_self) _ _) rfl rfl] at hrest
      refine hrest.trans ?_
      by_cases hslot : slot (BitVec.ofNat 8 s.number) r.currentMode = some s
      · by_cases hlater : s.number ∈ is
        · rw [if_pos ⟨hlater, hslot⟩, if_pos ⟨List.mem_cons_of_mem i hlater, hslot⟩]
        · by_cases hfirst : i = s.number
          · rw [if_neg fun h => hlater h.1, if_pos ⟨hfirst, hslot⟩, ← hfirst,
              if_pos ⟨List.mem_cons_self, hfirst ▸ hslot⟩]
          · have hnone : s.number ∉ i :: is := fun h =>
              (List.mem_cons.mp h).elim (fun heq => hfirst heq.symm) hlater
            rw [if_neg fun h => hlater h.1, if_neg fun h => hfirst h.1, if_neg fun h => hnone h.1]
      · rw [if_neg fun h => hslot h.2, if_neg fun h => hslot h.2, if_neg fun h => hslot h.2]

/-- The register file after a `G`: the writes in the mode of `r`, then the CPSR and its mode. -/
def afterGeneralRegisters (r : Registers) (cpsr : Word) : Registers :=
  registersWriteCpsr (writeNumbers r values (List.range 16)) cpsr

/-- The loop over the numbers is the one of the event. -/
theorem writeGeneralRegisters_eq (r : Registers) (cpsr : Word) :
    writeGeneralRegisters r (fun i => values i) cpsr =
      some (afterGeneralRegisters values r cpsr) := by
  have hloop : ∀ (is : List (Fin 16)) (r : Registers),
      is.foldlM (fun r (i : Fin 16) => writeRegister r i.val (values i)) r =
        some (writeNumbers r values (is.map Fin.val)) := by
    intro is
    induction is with
    | nil => exact fun _ => rfl
    | cons i is ih =>
        intro r
        have hstep : writeRegister r i.val (values i) =
            some (registersWrite r (BitVec.ofNat 8 i.val) (registersGetMode r) (values i)) :=
          if_pos i.isLt
        rw [List.foldlM_cons, hstep]
        exact ih _
  rw [writeGeneralRegisters, hloop, List.map_coe_finRange_eq_range]
  rfl

/-- A register of the new mode reads as the value that was written if the old mode names the same
slot, and as before if not. -/
theorem registersRead_afterGeneralRegisters (r : Registers) (cpsr : Word) {i : ℕ} (hi : i < 16)
    {mode : Byte} (hmode : ValidMode mode) :
    registersRead (afterGeneralRegisters values r cpsr) (BitVec.ofNat 8 i) mode =
      if slot (BitVec.ofNat 8 i) r.currentMode = slot (BitVec.ofNat 8 i) mode then values i
      else registersRead r (BitVec.ofNat 8 i) mode := by
  have hnamed : ∀ (m : Mode), ∀ i < 16, (slot (BitVec.ofNat 8 i) m.number).isSome = true := by
    intro m
    cases m <;> decide
  obtain ⟨m, rfl⟩ := hmode
  obtain ⟨s, hs⟩ := Option.isSome_iff_exists.mp (hnamed m i hi)
  obtain ⟨rfl, -⟩ := (slot_ofNat_iff hi _ s).mp hs
  have hget : (afterGeneralRegisters values r cpsr).get s =
      (writeNumbers r values (List.range 16)).get s := by
    cases s <;> rfl
  rw [registersRead_eq, registersRead_eq, hs, Option.map_some, Option.map_some, Option.getD_some,
    Option.getD_some, hget,
    get_writeNumbers values s (List.range 16) (fun j hj => List.mem_range.mp hj) r]
  exact if_congr (and_iff_right (List.mem_range.mpr hi)) rfl rfl

end Numbers

/-- **Writing back what is read** changes nothing when the mode is the one of the CPSR. -/
theorem afterGeneralRegisters_self {r : Registers} (hmode : r.currentMode = modeUpdate r.cpsr) :
    afterGeneralRegisters (fun i => registersRead r (BitVec.ofNat 8 i) r.currentMode) r r.cpsr =
      r := by
  have hstatus := writeNumbers_status
    (fun i => registersRead r (BitVec.ofNat 8 i) r.currentMode) (List.range 16) r
  have hsame : writeNumbers r (fun i => registersRead r (BitVec.ofNat 8 i) r.currentMode)
      (List.range 16) = r := by
    refine Registers.ext_slots (fun s => ?_) hstatus.cpsr hstatus.spsr hstatus.currentMode
    rw [get_writeNumbers _ s (List.range 16) (fun j hj => List.mem_range.mp hj) r]
    split_ifs with hslot
    · rw [registersRead_eq, hslot.2]
      rfl
    · rfl
  rw [afterGeneralRegisters, hsame, registersWriteCpsr, ← hmode]

/-! ## What the handlers do

The reader prints field after field into the buffer, each over the NUL of the one before, and so
leaves the fields joined with one NUL at the end.  The writer takes its fields at multiples of 8
from the beginning of the request, and skips the 25 that it does not have. -/

/-- The fields of the answer to `g`: the registers of the current mode, the 25 that are missing, and
the CPSR. -/
def registerFields (r : Registers) : List (List Byte) :=
  (List.range 16).map
      (fun i => hexWord (registersRead r (BitVec.ofNat 8 i) (registersGetMode r))) ++
    (List.replicate 25 (str "xxxxxxxx") ++ [hexWord (registersReadCpsr r)])

/-- The answer to `g`. -/
def registerText (r : Registers) : List Byte := (registerFields r).flatten

section Answer

variable (r : Registers)

/-- GDB counts 42 registers of this processor. -/
theorem length_registerFields : (registerFields r).length = 42 := by
  simp [registerFields]

/-- A field of the answer is a word, or 8 times `x`. -/
theorem mem_registerFields {digits : List Byte} (h : digits ∈ registerFields r) :
    (∃ v, digits = hexWord v) ∨ digits = str "xxxxxxxx" := by
  rw [registerFields, List.mem_append, List.mem_append, List.mem_map, List.mem_singleton] at h
  rcases h with ⟨i, -, rfl⟩ | h | rfl
  · exact Or.inl ⟨_, rfl⟩
  · exact Or.inr (List.eq_of_mem_replicate h)
  · exact Or.inl ⟨_, rfl⟩

/-- Each has eight digits. -/
theorem length_of_mem_registerFields : ∀ digits ∈ registerFields r, digits.length = 8 := by
  intro digits h
  rcases mem_registerFields r h with ⟨v, rfl⟩ | rfl
  · exact (isHexField_hexWord v).length
  · rfl

/-- The characters of the answer are digits, and `x`. -/
theorem mem_registerText {c : Byte} (h : c ∈ registerText r) :
    (∃ d < 16, c = digitChar d) ∨ c = chr 'x' := by
  obtain ⟨digits, hdigits, hc⟩ := List.mem_flatten.mp h
  rcases mem_registerFields r hdigits with ⟨v, rfl⟩ | rfl
  · obtain ⟨d, hd, rfl⟩ := List.mem_map.mp hc
    exact Or.inl ⟨d, lt_of_mem_numeral 16 (by decide) hd, rfl⟩
  · exact Or.inr (List.eq_of_mem_replicate (show c ∈ List.replicate 8 (chr 'x') from hc))

/-- Together they are 336 characters. -/
theorem length_registerText : (registerText r).length = 336 := by
  rw [registerText, length_flatten (length_of_mem_registerFields r), length_registerFields]

/-- The answer is a payload. -/
def registerPayload : Payload where
  bytes := registerText r
  ne_nil := List.ne_nil_of_length_pos (by rw [length_registerText]; decide)
  ne_nul := by
    intro c hc
    rcases mem_registerText r hc with ⟨d, hd, rfl⟩ | rfl
    · exact (digitChar_ne hd).1
    · decide
  ne_delimiter := by
    intro c hc
    rcases mem_registerText r hc with ⟨d, hd, rfl⟩ | rfl
    · exact (digitChar_ne hd).2
    · decide
  length_le := by rw [length_registerText]; decide

/-- The field of a register. -/
theorem field_register {i : ℕ} (hi : i < 16) (rest : List Byte) :
    field 8 (registerText r ++ rest) i =
      hexWord (registersRead r (BitVec.ofNat 8 i) r.currentMode) := by
  have hlength := length_registerFields r
  rw [registerText, field_flatten (length_of_mem_registerFields r) rest (by omega)]
  simp [registerFields, hi, registersGetMode]

/-- The field of the CPSR. -/
theorem field_cpsr (rest : List Byte) :
    field 8 (registerText r ++ rest) 41 = hexWord r.cpsr := by
  have hlength := length_registerFields r
  rw [registerText, field_flatten (length_of_mem_registerFields r) rest (by omega)]
  simp [registerFields, registersReadCpsr]

end Answer

namespace Gdb

section Reader

variable (g : Gdb)

/-- The loop over the registers prints their fields. -/
theorem readRegisters_eq (is : List ℕ) (his : ∀ i ∈ is, i < 16)
    (s : ℕ × (Fin MAX_PACKET_SIZE → Byte)) :
    is.foldlM (fun s i => (g.readRegister s.2 s.1 i).map fun packet => (s.1 + 8, packet)) s =
      (is.map fun i => hexWord (registersRead g.arm.reg (BitVec.ofNat 8 i)
        (registersGetMode g.arm.reg))).foldlM (writeField 0 8) s := by
  induction is generalizing s with
  | nil => rfl
  | cons i is ih =>
      rw [List.foldlM_cons, List.map_cons, List.foldlM_cons, readRegister,
        if_pos (his i List.mem_cons_self)]
      exact congrArg (Option.bind _)
        (funext fun s => ih (fun j hj => his j (List.mem_cons_of_mem i hj)) s)

/-- The loops over the missing registers print 24 times `x`. -/
theorem missingRegisters_eq (text : List Byte) (s : ℕ × (Fin MAX_PACKET_SIZE → Byte)) :
    (List.range 8).foldlM
        (fun s _ => (List.range 3).foldlM (fun s _ => writeField 0 8 s text) s) s =
      (List.replicate 24 text).foldlM (writeField 0 8) s := by
  have hblocks : ∀ n, (List.range n).foldlM
      (fun s _ => (List.range 3).foldlM (fun s _ => writeField 0 8 s text) s) s =
        (List.replicate (3 * n) text).foldlM (writeField 0 8) s := by
    intro n
    induction n with
    | zero => rfl
    | succ n ih =>
        rw [@List.range_succ n, List.foldlM_append, ih, Nat.mul_succ,
          ← List.replicate_append_replicate, List.foldlM_append]
        exact congrArg (Option.bind _) (funext fun s => bind_pure _)
  exact hblocks 8

/-- `read_general_registers` prints the 42 fields and sends the buffer. -/
theorem readGeneralRegisters_eq (request : List Byte) :
    g.readGeneralRegisters request =
      ((registerFields g.arm.reg).foldlM (writeField 0 8) (1, g.packet)).bind fun s =>
        gdbSendBuffer { g with packet := s.2 } := by
  have hregisters := readRegisters_eq g (List.range 16) (fun i hi => List.mem_range.mp hi)
  have hmissing : List.replicate 25 (str "xxxxxxxx") =
      List.replicate 24 (str "xxxxxxxx") ++ [str "xxxxxxxx"] := List.replicate_succ'
  have hlast : ∀ s : ℕ × (Fin MAX_PACKET_SIZE → Byte),
      (writeUint32 s.2 s.1 (registersReadCpsr g.arm.reg)).bind
          (fun packet => gdbSendBuffer { g with packet := packet }) =
        (writeField 0 8 s (hexWord (registersReadCpsr g.arm.reg))).bind
          fun s => gdbSendBuffer { g with packet := s.2 } := by
    intro s
    rw [writeField, Option.bind_map]
    rfl
  rw [registerFields, hmissing]
  simp only [readGeneralRegisters, hregisters, missingRegisters_eq, hlast, Option.bind_eq_bind,
    List.foldlM_append, List.foldlM_cons, List.foldlM_nil, Option.bind_assoc]
  rfl

/-- **The answer to `g`**: the text is sent, and nothing changes but the packet. -/
theorem readGeneralRegisters_spec (request : List Byte) :
    ∃ packet, g.readGeneralRegisters request = some { g with
      packet := packet
      len := (frame (registerText g.arm.reg)).length
      sent := g.sent ++ frame (registerText g.arm.reg) } := by
  have hlength := length_registerFields g.arm.reg
  obtain ⟨packet, hprint, hholds, -⟩ := writeFields_spec (0 : Byte) (registerFields g.arm.reg) 1
    g.packet (length_of_mem_registerFields g.arm.reg) (by rw [hlength]; decide)
    (fun h => absurd hlength (by rw [h]; decide))
  obtain ⟨packet', -, hsend⟩ := gdbSendBuffer_spec (registerPayload g.arm.reg)
    (g := { g with packet := packet }) hholds
  refine ⟨packet', ?_⟩
  rw [readGeneralRegisters_eq, hprint, Option.bind_some]
  exact hsend

end Reader

section Writer

variable (g : Gdb) (values : ℕ → Word) {data : List Byte}

/-- The loop over the registers. -/
theorem writeRegisters_eq (n : ℕ) (hn : n ≤ 16)
    (hvalues : ∀ i < 16, readUint32 (data.drop (8 * i)) = some (values i)) :
    (List.range n).foldlM
        (fun s i => (s.1.writeRegister i s.2).map fun g => (g, s.2.drop 8)) (g, data) =
      some ({ g with arm := { g.arm with reg := writeNumbers g.arm.reg values (List.range n) } },
        data.drop (8 * n)) := by
  induction n with
  | zero => rfl
  | succ n ih =>
      have hassert : n < 16 := hn
      rw [List.range_succ, List.foldlM_append, ih (Nat.le_of_succ_le hn), Nat.mul_succ,
        ← List.drop_drop]
      simp [writeRegister, hvalues n hassert, ArmSimulator.writeRegister, hassert, writeNumbers]

/-- The two loops of the source that skip the floating-point registers, as one number of characters.
-/
theorem skipFields (data : List Byte) :
    ((List.range 8).foldl
      (fun position _ => (List.range 3).foldl (fun position _ => position.drop 8) position)
      data).drop 8 = data.drop (8 * 25) := by
  simp [List.range_succ, List.drop_drop]

/-- **What `G` does**: the registers and the CPSR get the values of their fields, and the answer
is `OK`. -/
theorem writeGeneralRegisters_spec {cpsr : Word}
    (hvalues : ∀ i < 16, readUint32 (data.drop (8 * i)) = some (values i))
    (hcpsr : readUint32 (data.drop (8 * 41)) = some cpsr) :
    ∃ packet, g.writeGeneralRegisters data = some { g with
      arm := { g.arm with reg := afterGeneralRegisters values g.arm.reg cpsr }
      packet := packet
      len := (frame (str "OK")).length
      sent := g.sent ++ frame (str "OK") } := by
  have hloop := writeRegisters_eq g values 16 (Nat.le_refl 16) hvalues
  have hposition : readUint32 ((data.drop (8 * 16)).drop (8 * 25)) = some cpsr := by
    rw [List.drop_drop]
    exact hcpsr
  obtain ⟨packet, hsend⟩ := gdbSendData_spec okPayload { g with
    arm := { g.arm with reg := afterGeneralRegisters values g.arm.reg cpsr } }
  refine ⟨packet, ?_⟩
  simp only [writeGeneralRegisters, hloop, Option.bind_eq_bind, Option.bind_some, skipFields,
    hposition]
  exact hsend

end Writer

end Gdb

/-! ## Both packets

A `G` and a `g` in this order and in the other. -/

/-- A text has the register fields and the CPSR field of an answer, with the same values.  The 25
fields between them are the debugger's own, and the two sides may differ there. -/
def Reports (text data : List Byte) : Prop :=
  ∀ k, k < 16 ∨ k = 41 →
    IsHexField (field 8 text k) ∧ hexValue (field 8 text k) = hexValue (field 8 data k)

/-- A field is read as its value, whatever comes behind it. -/
theorem readUint32_field {data : List Byte} {k : ℕ} (h : IsHexField (field 8 data k)) :
    readUint32 (data.drop (8 * k)) = some (hexValue (field 8 data k)) :=
  readUint32_eq h

/-- The values in the answer. -/
theorem hexValue_registerText (r : Registers) (rest : List Byte) :
    (∀ i < 16, readUint32 ((registerText r ++ rest).drop (8 * i)) =
        some (registersRead r (BitVec.ofNat 8 i) r.currentMode)) ∧
      readUint32 ((registerText r ++ rest).drop (8 * 41)) = some r.cpsr := by
  have hword : ∀ {k : ℕ} {v : Word}, field 8 (registerText r ++ rest) k = hexWord v →
      readUint32 ((registerText r ++ rest).drop (8 * k)) = some v := by
    intro k v hfield
    rw [readUint32_field (hfield ▸ isHexField_hexWord v), hfield, hexValue_hexWord]
  exact ⟨fun i hi => hword (field_register r hi rest), hword (field_cpsr r rest)⟩

/-- **`g` and `G` are the identity.**  In every reachable state a `g` is answered by a text, and a
`G` of that text leaves the processor as it is and is answered by `OK`.  What a reachable state has,
and another may not, is a mode that is the one of its CPSR. -/
theorem general_registers_identity {g : Gdb} (hg : Reachable g.arm) (request : List Byte) :
    ∃ g₁ text, g.readGeneralRegisters request = some g₁ ∧ g₁.arm = g.arm ∧
      g₁.sent = g.sent ++ frame text ∧
      ∀ rest, ∃ g₂, g₁.writeGeneralRegisters (text ++ 0 :: rest) = some g₂ ∧ g₂.arm = g.arm ∧
        g₂.breakpoints = g.breakpoints ∧ g₂.targetException = g.targetException ∧
        g₂.sent = g₁.sent ++ frame (str "OK") := by
  obtain ⟨packet, hread⟩ := g.readGeneralRegisters_spec request
  refine ⟨_, registerText g.arm.reg, hread, rfl, rfl, fun rest => ?_⟩
  obtain ⟨hvalues, hcpsr⟩ := hexValue_registerText g.arm.reg (0 :: rest)
  obtain ⟨packet', hwrite⟩ := Gdb.writeGeneralRegisters_spec
    { g with
      packet := packet
      len := (frame (registerText g.arm.reg)).length
      sent := g.sent ++ frame (registerText g.arm.reg) } _ hvalues hcpsr
  have hself := afterGeneralRegisters_self (Reachable.consistent hg)
  exact ⟨_, hwrite, congrArg (fun r => { g.arm with reg := r }) hself, rfl, rfl, rfl⟩

/-- `mov r0, r0` at address 0, in mode SVC after `arm_create`: a program to step through. -/
def identitySample : ArmCore :=
  armCreate (ArmCore.load 0x1d3 [0xE1A00000]).reg (ArmCore.load 0x1d3 [0xE1A00000]).mem

/-- After `R5` and `LR_svc` have been written, and a step. -/
theorem general_registers_identity_step :
    ∃ arm g₁ text, simulator.run identitySample
        [.writeRegister 5 0xDEADBEEF, .writeRegister 14 0x8000, .step 0] = some arm ∧
      arm.reg.pc = 4 ∧ armReadRegister arm 5 = 0xDEADBEEF ∧
      (gdbInitData arm (fun _ => 0) fun _ => 0).readGeneralRegisters [] = some g₁ ∧
      ∀ rest, ∃ g₂, g₁.writeGeneralRegisters (text ++ 0 :: rest) = some g₂ ∧ g₂.arm = arm := by
  have hrun : (simulator.run identitySample
      [.writeRegister 5 0xDEADBEEF, .writeRegister 14 0x8000, .step 0]).map
        (fun arm => (arm.reg.pc, armReadRegister arm 5)) = some (4, 0xDEADBEEF) := by
    decide +kernel
  obtain ⟨arm, harm, hvalues⟩ := Option.map_eq_some_iff.mp hrun
  obtain ⟨hpc, hvalue⟩ := Prod.mk.inj hvalues
  obtain ⟨g₁, text, hread, -, -, hwrite⟩ := general_registers_identity
    (g := gdbInitData arm (fun _ => 0) fun _ => 0) ⟨_, _, _, harm⟩ []
  refine ⟨arm, g₁, text, harm, hpc, hvalue, hread, fun rest => ?_⟩
  obtain ⟨g₂, hwritten, hsame, -⟩ := hwrite rest
  exact ⟨g₂, hwritten, hsame⟩

/-- The framing shows the payload. -/
theorem frame_inj {text text' : List Byte} (h : frame text = frame text') : text = text' := by
  rw [frame, frame, packetText, packetText, List.cons_inj_right] at h
  exact List.append_inj_left' h rfl

/-- Registers other than `R8` to `R14` have no banks. -/
theorem slot_unbanked {i : ℕ} (hi : i < 8 ∨ i = 15) (mode mode' : Byte) :
    slot (BitVec.ofNat 8 i) mode = slot (BitVec.ofNat 8 i) mode' := by
  have hnat : (BitVec.ofNat 8 i).toNat = i := by
    rw [BitVec.toNat_ofNat]
    omega
  rcases hi with hlow | rfl
  · have hregister : (BitVec.ofNat 8 i).toNat < 8 := by
      rw [hnat]
      exact hlow
    unfold slot
    rw [dif_pos hregister, dif_pos hregister]
  · rfl

/-- An answer has the values of a request when the registers of its mode hold them. -/
theorem reports_registerText_iff (r : Registers) (data : List Byte) :
    Reports (registerText r) data ↔
      (∀ i < 16, registersRead r (BitVec.ofNat 8 i) r.currentMode = hexValue (field 8 data i)) ∧
        r.cpsr = hexValue (field 8 data 41) := by
  have hregister : ∀ i < 16, field 8 (registerText r) i =
      hexWord (registersRead r (BitVec.ofNat 8 i) r.currentMode) := by
    intro i hi
    rw [← field_register r hi [], List.append_nil]
  have hcpsr : field 8 (registerText r) 41 = hexWord r.cpsr := by
    rw [← field_cpsr r [], List.append_nil]
  constructor
  · intro h
    refine ⟨fun i hi => ?_, ?_⟩
    · rw [← (h i (Or.inl hi)).2, hregister i hi, hexValue_hexWord]
    · rw [← (h 41 (Or.inr rfl)).2, hcpsr, hexValue_hexWord]
  · rintro ⟨hvalues, hstatus⟩ k (hk | rfl)
    · rw [hregister k hk, hexValue_hexWord]
      exact ⟨isHexField_hexWord _, hvalues k hk⟩
    · rw [hcpsr, hexValue_hexWord]
      exact ⟨isHexField_hexWord _, hstatus⟩

/-- The answer to a `g` after a `G` is the text of the registers that the `G` leaves. -/
theorem report_iff (g : Gdb) {data : List Byte} (request : List Byte)
    (hfields : ∀ k, k < 16 ∨ k = 41 → IsHexField (field 8 data k)) :
    (∃ g₁ g₂ text, g.writeGeneralRegisters data = some g₁ ∧
        g₁.readGeneralRegisters request = some g₂ ∧ g₂.sent = g₁.sent ++ frame text ∧
        Reports text data) ↔
      Reports (registerText (afterGeneralRegisters (fun k => hexValue (field 8 data k)) g.arm.reg
        (hexValue (field 8 data 41)))) data := by
  obtain ⟨packet, hwrite⟩ := g.writeGeneralRegisters_spec (fun k => hexValue (field 8 data k))
    (fun i hi => readUint32_field (hfields i (Or.inl hi)))
    (readUint32_field (hfields 41 (Or.inr rfl)))
  generalize afterGeneralRegisters (fun k => hexValue (field 8 data k)) g.arm.reg
    (hexValue (field 8 data 41)) = r at hwrite ⊢
  obtain ⟨packet', hread⟩ := Gdb.readGeneralRegisters_spec
    { g with
      arm := { g.arm with reg := r }
      packet := packet
      len := (frame (str "OK")).length
      sent := g.sent ++ frame (str "OK") } request
  constructor
  · rintro ⟨g₁, g₂, text, hg₁, hg₂, hsent, hreports⟩
    obtain rfl := Option.some.inj (hwrite.symm.trans hg₁)
    obtain rfl := Option.some.inj (hread.symm.trans hg₂)
    rw [frame_inj (List.append_cancel_left hsent)]
    exact hreports
  · exact fun h => ⟨_, _, _, hwrite, hread, rfl, h⟩

/-- Which registers are reported with the value that was written. -/
theorem reports_after_iff (r : Registers) {data : List Byte}
    (hmode : ValidMode (modeField (hexValue (field 8 data 41)))) :
    Reports (registerText (afterGeneralRegisters (fun k => hexValue (field 8 data k)) r
        (hexValue (field 8 data 41)))) data ↔
      ∀ i < 16, slot (BitVec.ofNat 8 i) r.currentMode =
          slot (BitVec.ofNat 8 i) (modeField (hexValue (field 8 data 41))) ∨
        registersRead r (BitVec.ofNat 8 i) (modeField (hexValue (field 8 data 41))) =
          hexValue (field 8 data i) := by
  have hcurrent : (afterGeneralRegisters (fun k => hexValue (field 8 data k)) r
      (hexValue (field 8 data 41))).currentMode = modeField (hexValue (field 8 data 41)) :=
    modeUpdate_of_valid hmode
  have hcpsr : (afterGeneralRegisters (fun k => hexValue (field 8 data k)) r
      (hexValue (field 8 data 41))).cpsr = hexValue (field 8 data 41) := rfl
  rw [reports_registerText_iff, and_iff_left hcpsr, hcurrent]
  refine forall_congr' fun i => forall_congr' fun hi => ?_
  rw [registersRead_afterGeneralRegisters _ _ _ hi hmode, ite_eq_left_iff, or_iff_not_imp_left]

/-- **What a `g` reports after a `G`.**  In every state and for every request whose register and
CPSR fields are hexadecimal digits, and whose CPSR is in a mode, the answer has the values of the
request exactly if each of `R8` to `R14` is one physical register in the old mode and in the new
one, or the one of the new mode holds the value before. -/
theorem general_registers_report_iff (g : Gdb) {data : List Byte} (request : List Byte)
    (hfields : ∀ k, k < 16 ∨ k = 41 → IsHexField (field 8 data k))
    (hmode : ValidMode (modeField (hexValue (field 8 data 41)))) :
    (∃ g₁ g₂ text, g.writeGeneralRegisters data = some g₁ ∧
        g₁.readGeneralRegisters request = some g₂ ∧ g₂.sent = g₁.sent ++ frame text ∧
        Reports text data) ↔
      ∀ i, 8 ≤ i → i ≤ 14 →
        slot (BitVec.ofNat 8 i) g.arm.reg.currentMode =
            slot (BitVec.ofNat 8 i) (modeField (hexValue (field 8 data 41))) ∨
          registersRead g.arm.reg (BitVec.ofNat 8 i) (modeField (hexValue (field 8 data 41))) =
            hexValue (field 8 data i) := by
  rw [report_iff g request hfields, reports_after_iff g.arm.reg hmode]
  constructor
  · exact fun h i _ hhigh => h i (by omega)
  · intro h i hi
    by_cases hbanked : 8 ≤ i ∧ i ≤ 14
    · exact h i hbanked.1 hbanked.2
    · exact Or.inl (slot_unbanked (by omega) _ _)

section Requests

variable (word cpsr : Word)

/-- A request for `word` in all registers. -/
def requestText : List Byte := (List.replicate 41 (hexWord word) ++ [hexWord cpsr]).flatten

/-- The fields of a request that has one word in all registers but the last. -/
theorem field_requestText {k : ℕ} (hk : k < 42) :
    field 8 (requestText word cpsr) k = if k < 41 then hexWord word else hexWord cpsr := by
  have hlength : ∀ digits ∈ List.replicate 41 (hexWord word) ++ [hexWord cpsr],
      digits.length = 8 := by
    intro digits h
    rcases List.mem_append.mp h with h | h
    · rw [List.eq_of_mem_replicate h, (isHexField_hexWord word).length]
    · rw [List.mem_singleton.mp h, (isHexField_hexWord cpsr).length]
  have hfield := field_flatten hlength [] (k := k) (by simpa using hk)
  rw [List.append_nil] at hfield
  rw [requestText, hfield, List.getElem_append]
  simp only [List.length_replicate, List.getElem_replicate, List.getElem_singleton, dite_eq_ite]

/-- It is well formed. -/
theorem isHexField_requestText {k : ℕ} (hk : k < 42) :
    IsHexField (field 8 (requestText word cpsr) k) := by
  rw [field_requestText word cpsr hk]
  split_ifs <;> exact isHexField_hexWord _

/-- And its values are the two words. -/
theorem hexValue_requestText {k : ℕ} (hk : k < 42) :
    hexValue (field 8 (requestText word cpsr) k) = if k < 41 then word else cpsr := by
  rw [field_requestText word cpsr hk, apply_ite hexValue, hexValue_hexWord, hexValue_hexWord]

end Requests

/-- A request to a processor in mode SVC that stays there. -/
theorem general_registers_report_iff_svc :
    (∃ g₁ g₂ text, okGdb.writeGeneralRegisters (requestText 1 0x1d3) = some g₁ ∧
        g₁.readGeneralRegisters [] = some g₂ ∧ g₂.sent = g₁.sent ++ frame text ∧
        Reports text (requestText 1 0x1d3)) ↔
      ∀ i, 8 ≤ i → i ≤ 14 →
        slot (BitVec.ofNat 8 i) okGdb.arm.reg.currentMode =
            slot (BitVec.ofNat 8 i) (modeField (hexValue (field 8 (requestText 1 0x1d3) 41))) ∨
          registersRead okGdb.arm.reg (BitVec.ofNat 8 i)
              (modeField (hexValue (field 8 (requestText 1 0x1d3) 41))) =
            hexValue (field 8 (requestText 1 0x1d3) i) := by
  have hmode : ValidMode (modeField (hexValue (field 8 (requestText 1 0x1d3) 41))) := by
    rw [hexValue_requestText _ _ (by decide)]
    decide
  exact general_registers_report_iff okGdb [] (fun k hk => isHexField_requestText _ _ (by omega))
    hmode

/-- A request to a processor in mode SVC that changes to mode USR: 1 goes to `R13` of SVC. -/
theorem general_registers_report_counterexample :
    ¬ ∀ (g : Gdb) (data request : List Byte),
      (∀ k, k < 16 ∨ k = 41 → IsHexField (field 8 data k)) →
        ValidMode (modeField (hexValue (field 8 data 41))) →
          ∃ g₁ g₂ text, g.writeGeneralRegisters data = some g₁ ∧
            g₁.readGeneralRegisters request = some g₂ ∧ g₂.sent = g₁.sent ++ frame text ∧
            Reports text data := by
  intro h
  have hfields : ∀ k, k < 16 ∨ k = 41 → IsHexField (field 8 (requestText 1 0x10) k) :=
    fun k hk => isHexField_requestText _ _ (by omega)
  have hcpsr := hexValue_requestText 1 0x10 (k := 41) (by decide)
  have hvalue := hexValue_requestText 1 0x10 (k := 13) (by decide)
  have hmode : ValidMode (modeField (hexValue (field 8 (requestText 1 0x10) 41))) := by
    rw [hcpsr]
    decide
  have hreports := (report_iff okGdb [] hfields).mp (h okGdb _ [] hfields hmode)
  have hr13 := (reports_after_iff okGdb.arm.reg hmode).mp hreports 13 (by decide)
  rw [hcpsr, hvalue] at hr13
  exact absurd hr13 (by decide)

end ArmSimulator
