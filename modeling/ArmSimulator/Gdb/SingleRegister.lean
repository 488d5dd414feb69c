import ArmSimulator.Gdb.GeneralRegisters

/-!
# The packets `p` and `P` (`gdb_protocol.c`)

A request `p n` is answered by the register `n`, and a request `P n=v` writes it.  The reader takes
the number with `atoi` and passes it as a `uint8_t`, the writer takes it with `%x` as an `unsigned
int`; both end in an assertion that it is below 16.

A debugger writes register numbers in hexadecimal.  For `p a` the reader finds no decimal digit and
answers `R0`, while `P a=v` writes `R10`; and `P 10=v` reaches the assertion of the writer, where `p
10` would have read `R10`.

* `readSingleRegister_eq` and `writeSingleRegister_eq`, the handlers with their assertion.
* `single_register_iff`: for which numerals both pass the assertion, and a `p` after a `P` answers
  the value.  The numerals are any digits, of any length.

The condition is on the number and, for 10 to 15, on the value and on `R0`: the answer may be right
by chance.
-/

namespace ArmSimulator

open CheckedArray TextFields

/-! ## The handlers

Both read the number first and end at an assertion.  The assertion of the reader is on a `uint8_t`,
to which its number has been truncated, the one of the writer on all of its number. -/

namespace Gdb

/-- `read_single_register`; `read_register` is `none` at its assertion. -/
def readSingleRegister : GdbHandler := fun g data => do
  let reg := u8 (atoi data)
  let packet ← g.readRegister g.packet 1 reg.toNat
  gdbSendBuffer { g with packet := packet }

/-- `write_single_register`; `write_register` is `none` at its assertion. -/
def writeSingleRegister : GdbHandler := fun g data => do
  let reg ← scanUnsigned data
  let value ← afterIndex (chr '=') data
  let g ← g.writeRegister reg.1.toNat value
  gdbSendData g (str "OK")

end Gdb

/-! ## The texts

What the two requests look like, for any digits. -/

/-- The text of a `p`, after its first character. -/
def readRegisterText (number rest : List Byte) : List Byte := number ++ 0 :: rest

/-- The text of a `P`, after its first character. -/
def writeRegisterText (number digits rest : List Byte) : List Byte :=
  number ++ chr '=' :: (digits ++ 0 :: rest)

section Texts

variable {number digits : List Byte}

/-- A value of at most 8 digits is read. -/
theorem readUint32_numeral (hdigits : IsHexNumeral digits) (hlength : digits.length ≤ 8)
    (rest : List Byte) : readUint32 (digits ++ 0 :: rest) = some (hexValue digits) :=
  readUint32_append hdigits hlength (Or.inr fun _ hc => Option.some.inj hc ▸ endsNumeral_nul)

/-- The value begins after the sign `=`. -/
theorem afterIndex_writeRegisterText (hnumber : IsHexNumeral number) (rest : List Byte) :
    afterIndex (chr '=') (writeRegisterText number digits rest) = some (digits ++ 0 :: rest) := by
  exact afterIndex_append (fun b hb => ⟨(hnumber.plain hb).equals, (hnumber.plain hb).nul⟩) _

end Texts

/-! ## What the handlers do

A failed assertion is the only way in which they do not answer. -/

/-- An answer shows the word. -/
theorem hexWord_inj {v w : Word} (h : hexWord v = hexWord w) : v = w := by
  rw [← hexValue_hexWord v, h, hexValue_hexWord]

/-- The answer to a `p`. -/
def wordPayload (v : Word) : Payload where
  bytes := hexWord v
  ne_nil := List.ne_nil_of_length_pos (by rw [(isHexField_hexWord v).length]; decide)
  ne_nul := by
    intro c hc
    obtain ⟨d, hd, rfl⟩ := List.mem_map.mp hc
    exact (digitChar_ne (lt_of_mem_numeral 16 (by decide) hd)).1
  ne_delimiter := by
    intro c hc
    obtain ⟨d, hd, rfl⟩ := List.mem_map.mp hc
    exact (digitChar_ne (lt_of_mem_numeral 16 (by decide) hd)).2
  length_le := by rw [(isHexField_hexWord v).length]; decide

namespace Gdb

variable (g : Gdb)

/-- The register file after a `P`. -/
def registerWritten (reg : ℕ) (value : Word) : Registers :=
  registersWrite g.arm.reg (BitVec.ofNat 8 reg) (registersGetMode g.arm.reg) value

/-- **`p`** answers the register that `atoi` names, if the assertion holds, and ends the process if
not. -/
theorem readSingleRegister_eq (data : List Byte) :
    g.readSingleRegister data =
      if (u8 (atoi data)).toNat < 16 then
        gdbSendData g (hexWord (registersRead g.arm.reg (BitVec.ofNat 8 (u8 (atoi data)).toNat)
          (registersGetMode g.arm.reg)))
      else none := by
  simp only [readSingleRegister, readRegister, Option.bind_eq_bind]
  split_ifs
  · rfl
  · rfl

/-- **`P`** writes the register that `%x` names, if the assertion holds. -/
theorem writeSingleRegister_eq {number digits : List Byte} (hnumber : IsHexNumeral number)
    (hdigits : IsHexNumeral digits) (hlength : digits.length ≤ 8) (rest : List Byte) :
    g.writeSingleRegister (writeRegisterText number digits rest) =
      if (toUnsigned false (hexNumber number)).toNat < 16 then
        gdbSendData { g with arm := { g.arm with
          reg := g.registerWritten (toUnsigned false (hexNumber number)).toNat
            (hexValue digits) } } (str "OK")
      else none := by
  have hscan := scanUnsigned_numeral hnumber (c := chr '=') (by decide) (digits ++ 0 :: rest)
  rw [← writeRegisterText] at hscan
  simp only [writeSingleRegister, writeRegister, Option.bind_eq_bind, hscan, Option.bind_some,
    afterIndex_writeRegisterText hnumber, readUint32_numeral hdigits hlength]
  rw [ArmSimulator.writeRegister]
  split_ifs
  · rfl
  · rfl

/-- The answer to a `p`. -/
theorem readSingleRegister_spec {data : List Byte} (hassert : (u8 (atoi data)).toNat < 16) :
    ∃ g', g.readSingleRegister data = some g' ∧
      g'.sent = g.sent ++ frame (hexWord (registersRead g.arm.reg
        (BitVec.ofNat 8 (u8 (atoi data)).toNat) (registersGetMode g.arm.reg))) := by
  obtain ⟨packet, hsend⟩ := gdbSendData_spec (wordPayload (registersRead g.arm.reg
    (BitVec.ofNat 8 (u8 (atoi data)).toNat) (registersGetMode g.arm.reg))) g
  have hread := g.readSingleRegister_eq data
  rw [if_pos hassert] at hread
  exact ⟨_, hread.trans hsend, rfl⟩

theorem readSingleRegister_isSome_iff (data : List Byte) :
    (g.readSingleRegister data).isSome ↔ (u8 (atoi data)).toNat < 16 := by
  by_cases hassert : (u8 (atoi data)).toNat < 16
  · obtain ⟨g', hread, -⟩ := g.readSingleRegister_spec hassert
    exact iff_of_true (Option.isSome_iff_exists.mpr ⟨g', hread⟩) hassert
  · rw [readSingleRegister_eq, if_neg hassert]
    exact iff_of_false (by decide) hassert

section Writer

variable {number digits : List Byte} (hnumber : IsHexNumeral number)
  (hdigits : IsHexNumeral digits) (hlength : digits.length ≤ 8) (rest : List Byte)

include hnumber hdigits hlength

/-- What a `P` leaves. -/
theorem writeSingleRegister_spec (hassert : (toUnsigned false (hexNumber number)).toNat < 16) :
    ∃ g', g.writeSingleRegister (writeRegisterText number digits rest) = some g' ∧
      g'.arm.reg = g.registerWritten (toUnsigned false (hexNumber number)).toNat
        (hexValue digits) := by
  obtain ⟨packet, hsend⟩ := gdbSendData_spec okPayload { g with arm := { g.arm with
    reg := g.registerWritten (toUnsigned false (hexNumber number)).toNat (hexValue digits) } }
  have hwrite := g.writeSingleRegister_eq hnumber hdigits hlength rest
  rw [if_pos hassert] at hwrite
  exact ⟨_, hwrite.trans hsend, rfl⟩

theorem writeSingleRegister_isSome_iff :
    (g.writeSingleRegister (writeRegisterText number digits rest)).isSome ↔
      (toUnsigned false (hexNumber number)).toNat < 16 := by
  by_cases hassert : (toUnsigned false (hexNumber number)).toNat < 16
  · obtain ⟨g', hwrite, -⟩ :=
      g.writeSingleRegister_spec hnumber hdigits hlength rest hassert
    exact iff_of_true (Option.isSome_iff_exists.mpr ⟨g', hwrite⟩) hassert
  · rw [g.writeSingleRegister_eq hnumber hdigits hlength, if_neg hassert]
    exact iff_of_false (by decide) hassert

end Writer

end Gdb

/-! ## A register that is written and read

`R0` to `R9` are there in every mode, of the sixteen registers the ones that `atoi` can name with
one digit. -/

section Registers

variable (r : Registers) {i : ℕ} (mode : Byte) (v : Word)

/-- The registers below 10 are there in every mode. -/
theorem slot_isSome_of_lt (hi : i < 10) : (slot (BitVec.ofNat 8 i) mode).isSome := by
  have hnat : (BitVec.ofNat 8 i).toNat = i := by
    rw [BitVec.toNat_ofNat]
    omega
  unfold slot
  split_ifs with hpc hlow hmid hhigh
  · rfl
  · rfl
  · rfl
  · omega
  · omega

theorem registersRead_write_same (hi : i < 10) :
    registersRead (registersWrite r (BitVec.ofNat 8 i) mode v) (BitVec.ofNat 8 i) mode = v := by
  obtain ⟨s, hs⟩ := Option.isSome_iff_exists.mp (slot_isSome_of_lt mode hi)
  rw [registersRead_eq, hs, Option.map_some, get_registersWrite, if_pos hs, Option.getD_some]

theorem registersRead_write_zero (hlow : 0 < i) (hi : i < 16) :
    registersRead (registersWrite r (BitVec.ofNat 8 i) mode v) 0 mode = registersRead r 0 mode := by
  have hzero : slot 0 mode = some (.low 0) := rfl
  have hother : slot (BitVec.ofNat 8 i) mode ≠ some (.low 0) := by
    rw [Ne, slot_ofNat_iff hi]
    exact fun h => absurd h.1 (Nat.ne_of_gt hlow)
  rw [registersRead_eq, registersRead_eq, hzero, Option.map_some, Option.map_some,
    get_registersWrite, if_neg hother]

end Registers

section Answer

variable (g : Gdb) {number digits : List Byte}

/-- The answer to a `p` after a `P` with a number below 16 is the register that `atoi` names. -/
theorem answer_iff (hnumber : IsHexNumeral number) (hdigits : IsHexNumeral digits)
    (hlength : digits.length ≤ 8) (hlt : hexNumber number < 16) (hdec : decNumber number < 16)
    (rest rest' : List Byte) :
    (∃ g₁ g₂, g.writeSingleRegister (writeRegisterText number digits rest) = some g₁ ∧
        g₁.readSingleRegister (readRegisterText number rest') = some g₂ ∧
        g₂.sent = g₁.sent ++ frame (hexWord (hexValue digits))) ↔
      registersRead (g.registerWritten (hexNumber number) (hexValue digits))
        (BitVec.ofNat 8 (decNumber number)) (registersGetMode g.arm.reg) = hexValue digits := by
  have hreg : (toUnsigned false (hexNumber number)).toNat = hexNumber number := by
    rw [toUnsigned, if_neg (by omega), if_neg (by decide), BitVec.toNat_ofNat]
    omega
  have hatoi : (u8 (atoi (readRegisterText number rest'))).toNat = decNumber number := by
    rw [readRegisterText, atoi_numeral hnumber, toSigned, if_neg (by decide), u8,
      BitVec.toNat_setWidth, BitVec.toNat_ofNat]
    omega
  have hmode : registersGetMode (g.registerWritten (hexNumber number) (hexValue digits)) =
      registersGetMode g.arm.reg := registersWrite_currentMode ..
  obtain ⟨g₁, hwrite, hregisters⟩ := g.writeSingleRegister_spec hnumber hdigits hlength rest
    (by rw [hreg]; exact hlt)
  have hassert : (u8 (atoi (readRegisterText number rest'))).toNat < 16 := by
    rw [hatoi]
    exact hdec
  obtain ⟨g₂, hread, hanswer⟩ := g₁.readSingleRegister_spec hassert
  rw [hreg] at hregisters
  rw [hatoi, hregisters, hmode] at hanswer
  constructor
  · rintro ⟨g₁', g₂', hg₁, hg₂, hsent⟩
    obtain rfl := Option.some.inj (hwrite.symm.trans hg₁)
    obtain rfl := Option.some.inj (hread.symm.trans hg₂)
    exact hexWord_inj (frame_inj (List.append_cancel_left (hanswer.symm.trans hsent)))
  · intro hvalue
    refine ⟨g₁, g₂, hwrite, hread, ?_⟩
    rw [hanswer, hvalue]

end Answer

/-- **Which registers `p` and `P` name alike.**  In every state, for every numeral and every value:
both handlers pass their assertion, and if the number is below 16 a `p` after a `P` answers the
value, exactly if `%x` and `atoi` leave less than 16 in their integers, and, when the number is one
of 10 … 15, `R0` holds the value before. -/
theorem single_register_iff (g : Gdb) {number digits : List Byte} (hnumber : IsHexNumeral number)
    (hdigits : IsHexNumeral digits) (hlength : digits.length ≤ 8) (rest rest' : List Byte) :
    ((g.writeSingleRegister (writeRegisterText number digits rest)).isSome ∧
        (g.readSingleRegister (readRegisterText number rest')).isSome ∧
        (hexNumber number < 16 →
          ∃ g₁ g₂, g.writeSingleRegister (writeRegisterText number digits rest) = some g₁ ∧
            g₁.readSingleRegister (readRegisterText number rest') = some g₂ ∧
            g₂.sent = g₁.sent ++ frame (hexWord (hexValue digits)))) ↔
      (hexNumber number < 2 ^ 64 ∧ hexNumber number % 2 ^ 32 < 16) ∧
        (decNumber number < 2 ^ 63 ∧ decNumber number % 2 ^ 8 < 16) ∧
        (10 ≤ hexNumber number → hexNumber number < 16 →
          registersRead g.arm.reg 0 (registersGetMode g.arm.reg) = hexValue digits) := by
  rw [g.writeSingleRegister_isSome_iff hnumber hdigits hlength, g.readSingleRegister_isSome_iff,
    toUnsigned_lt_iff, readRegisterText, atoi_numeral hnumber, toSigned_lt_iff,
    ← readRegisterText]
  refine and_congr_right fun _ => and_congr_right fun _ => ?_
  by_cases hlt : hexNumber number < 16
  · have hdec := decNumber_of_lt hnumber hlt
    by_cases hten : hexNumber number < 10
    · rw [if_pos hten] at hdec
      refine iff_of_true (fun _ => ?_) fun h _ => absurd hten (Nat.not_lt.mpr h)
      rw [answer_iff g hnumber hdigits hlength hlt (by rw [hdec]; exact hlt), hdec]
      exact registersRead_write_same g.arm.reg _ _ hten
    · rw [if_neg hten] at hdec
      rw [forall_prop_of_true hlt, forall_prop_of_true (Nat.le_of_not_lt hten),
        forall_prop_of_true hlt,
        answer_iff g hnumber hdigits hlength hlt (by rw [hdec]; decide), hdec]
      have hkept := registersRead_write_zero g.arm.reg (registersGetMode g.arm.reg)
        (hexValue digits) (Nat.pos_of_ne_zero fun h => hten (by rw [h]; decide)) hlt
      rw [← hkept]
      rfl
  · exact iff_of_true (fun h => absurd h hlt) fun _ h => absurd h hlt

/-- `P 5=2a` and `p 5`. -/
theorem single_register_iff_five :
    ((okGdb.writeSingleRegister (writeRegisterText (str "5") (str "2a") [])).isSome ∧
        (okGdb.readSingleRegister (readRegisterText (str "5") [])).isSome ∧
        (hexNumber (str "5") < 16 →
          ∃ g₁ g₂, okGdb.writeSingleRegister (writeRegisterText (str "5") (str "2a") []) =
              some g₁ ∧
            g₁.readSingleRegister (readRegisterText (str "5") []) = some g₂ ∧
            g₂.sent = g₁.sent ++ frame (hexWord (hexValue (str "2a"))))) ↔
      (hexNumber (str "5") < 2 ^ 64 ∧ hexNumber (str "5") % 2 ^ 32 < 16) ∧
        (decNumber (str "5") < 2 ^ 63 ∧ decNumber (str "5") % 2 ^ 8 < 16) ∧
        (10 ≤ hexNumber (str "5") → hexNumber (str "5") < 16 →
          registersRead okGdb.arm.reg 0 (registersGetMode okGdb.arm.reg) =
            hexValue (str "2a")) :=
  single_register_iff okGdb ⟨by decide, by decide⟩ ⟨by decide, by decide⟩ (by decide) [] []

/-- `P 10=0`: 16 reaches the assertion of the writer. -/
theorem single_register_counterexample :
    ¬ ∀ (g : Gdb) (number digits rest rest' : List Byte), IsHexNumeral number →
      IsHexNumeral digits → digits.length ≤ 8 →
        (g.writeSingleRegister (writeRegisterText number digits rest)).isSome ∧
          (g.readSingleRegister (readRegisterText number rest')).isSome ∧
          (hexNumber number < 16 →
            ∃ g₁ g₂, g.writeSingleRegister (writeRegisterText number digits rest) = some g₁ ∧
              g₁.readSingleRegister (readRegisterText number rest') = some g₂ ∧
              g₂.sent = g₁.sent ++ frame (hexWord (hexValue digits))) := by
  intro h
  have hnumber : IsHexNumeral (str "10") := ⟨by decide, by decide⟩
  have hdigits : IsHexNumeral (str "0") := ⟨by decide, by decide⟩
  have hsome := (h okGdb (str "10") (str "0") [] [] hnumber hdigits (by decide)).1
  rw [okGdb.writeSingleRegister_isSome_iff hnumber hdigits (by decide)] at hsome
  exact absurd hsome (by decide)

end ArmSimulator
