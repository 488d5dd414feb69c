import ArmSimulator.Core
import ArmSimulator.Assembly.Syntax
import ArmSimulator.Library.BitPattern

/-!
# Assembly: words and the machine

A word is an instruction by one of nine bit patterns below its condition.  `encode` fills the
pattern of an instruction and `decode` reads the one that the word asks for; they are inverse
(`decode_eq_some_iff`).  What a pattern says about the fields that the code reads with `get_bits` is
stated for each of them, and is all that later files use.

The patterns are data, lists of fixed bits and of fields, and writing and reading by a pattern are
the library's; that the two are inverse for one pattern is proved there once.  What is left here is
the choice of the pattern: `decode` looks at the category and at the bits 4 and 7, and the round
trip says that this choice is right.

The machine fetches a word, decodes it, and carries out the instruction if its condition holds.  For
the simulator an instruction whose condition fails is an interrupt, so that the machine stops there.
-/

namespace ArmSimulator.Assembly

open BitPattern

/-! ## Codes

The numbers of conditions, operations and shifts, both ways. -/

/-- The condition field. -/
def Condition.code : Condition → BitVec 4
  | eq => 0
  | ne => 1
  | mi => 4
  | pl => 5
  | al => 14

/-- The condition of a condition field. -/
def Condition.ofCode (code : BitVec 4) : Option Condition :=
  [Condition.eq, .ne, .mi, .pl, .al].find? fun c => c.code = code

/-- The opcode field. -/
def Opcode.code : Opcode → BitVec 4
  | and => 0
  | eor => 1
  | sub => 2
  | rsb => 3
  | add => 4
  | tst => 8
  | cmp => 10
  | cmn => 11
  | orr => 12
  | mov => 13
  | bic => 14
  | mvn => 15

/-- The operation of an opcode field. -/
def Opcode.ofCode (code : BitVec 4) : Option Opcode :=
  [Opcode.and, .eor, .sub, .rsb, .add, .tst, .cmp, .cmn, .orr, .mov, .bic, .mvn].find? fun o =>
    o.code = code

/-- The type of a shift. -/
def kindCode : Shifter.Kind → BitVec 2
  | .lsl => 0
  | .lsr => 1
  | .asr => 2
  | .ror => 3

/-- The shift of a type. -/
def kindOfCode (code : BitVec 2) : Shifter.Kind :=
  if code = 0 then .lsl else if code = 1 then .lsr else if code = 2 then .asr else .ror

/-- Decoding a condition and encoding it are inverse. -/
theorem Condition.ofCode_eq_some_iff {code : BitVec 4} {condition : Condition} :
    ofCode code = some condition ↔ condition.code = code := by
  revert code
  cases condition <;> decide

/-- The same for the opcodes. -/
theorem Opcode.ofCode_eq_some_iff {code : BitVec 4} {opcode : Opcode} :
    ofCode code = some opcode ↔ opcode.code = code := by
  revert code
  cases opcode <;> decide

/-- Every code of two bits is one kind of shift. -/
theorem kindOfCode_eq_iff {code : BitVec 2} {kind : Shifter.Kind} :
    kindOfCode code = kind ↔ kindCode kind = code := by
  revert code
  cases kind <;> decide

/-! ## Patterns

The nine patterns, from the highest bit to the lowest, below the condition. -/

/-- `001`, opcode, S, `Rn`, `Rd`, rotation, byte. -/
def immediatePattern : Pattern :=
  [.bits 3 1, .field 4, .flag, .field 4, .field 4, .field 4, .field 8]

/-- `000`, opcode, S, `Rn`, `Rd`, amount, type, `0`, `Rm`. -/
def shiftedPattern : Pattern :=
  [.bits 3 0, .field 4, .flag, .field 4, .field 4, .field 5, .field 2, .bits 1 0, .field 4]

/-- `000`, opcode, S, `Rn`, `Rd`, `Rs`, `0`, type, `1`, `Rm`. -/
def shiftedByPattern : Pattern :=
  [.bits 3 0, .field 4, .flag, .field 4, .field 4, .field 4, .bits 1 0, .field 2, .bits 1 1,
    .field 4]

/-- `010`, `1`, U, B, W, L, `Rn`, `Rd`, offset. -/
def transferPattern : Pattern :=
  [.bits 3 2, .bits 1 1, .flag, .flag, .flag, .flag, .field 4, .field 4, .field 12]

/-- `011`, `1`, U, B, W, L, `Rn`, `Rd`, amount, type, `0`, `Rm`. -/
def transferShiftedPattern : Pattern :=
  [.bits 3 3, .bits 1 1, .flag, .flag, .flag, .flag, .field 4, .field 4, .field 5, .field 2,
    .bits 1 0, .field 4]

/-- `000`, `1`, U, `1`, W, L, `Rn`, `Rd`, high half, `1011`, low half. -/
def halfPattern : Pattern :=
  [.bits 3 0, .bits 1 1, .flag, .bits 1 1, .flag, .flag, .field 4, .field 4, .field 4,
    .bits 4 11, .field 4]

/-- `100`, P, U, `0`, W, L, `Rn`, `0`, list. -/
def multiplePattern : Pattern :=
  [.bits 3 4, .flag, .flag, .bits 1 0, .flag, .flag, .field 4, .bits 1 0, .field 15]

/-- `101`, L, offset. -/
def branchPattern : Pattern := [.bits 3 5, .flag, .field 24]

/-- `00010010111111111111`, `00`, L, `1`, `Rm`. -/
def exchangePattern : Pattern := [.bits 20 0x12FFF, .bits 2 0, .flag, .bits 1 1, .field 4]

/-! ## Encoding and decoding -/

/-- The bits of an instruction below its condition. -/
def encodeInstruction : Instruction → BitVec 28
  | .dataProcessing opcode s rn rd (.immediate rotation value) =>
      word 28 immediatePattern ((), opcode.code, s, rn, rd, rotation, value, ())
  | .dataProcessing opcode s rn rd (.shifted kind amount rm) =>
      word 28 shiftedPattern ((), opcode.code, s, rn, rd, amount, kindCode kind, (), rm, ())
  | .dataProcessing opcode s rn rd (.shiftedBy kind rs rm) =>
      word 28 shiftedByPattern ((), opcode.code, s, rn, rd, rs, (), kindCode kind, (), rm, ())
  | .transfer l b u w rn rd (.immediate value) =>
      word 28 transferPattern ((), (), u, b, w, l, rn, rd, value, ())
  | .transfer l b u w rn rd (.shifted kind amount rm) =>
      word 28 transferShiftedPattern
        ((), (), u, b, w, l, rn, rd, amount, kindCode kind, (), rm, ())
  | .transferHalf l u w rn rd offset =>
      word 28 halfPattern
        ((), (), u, (), w, l, rn, rd, offset.extractLsb' 4 4, (), offset.extractLsb' 0 4, ())
  | .multiple l p u w rn regList =>
      word 28 multiplePattern ((), p, u, (), w, l, rn, (), regList, ())
  | .branch l offset => word 28 branchPattern ((), l, offset, ())
  | .exchange l rm => word 28 exchangePattern ((), (), l, (), rm, ())

/-- The word of an instruction: its condition above the 28 bits of its pattern. -/
def encode (condition : Condition) (instruction : Instruction) : Word :=
  condition.code ++ encodeInstruction instruction

/-- The instruction that a word is below its condition, chosen by its category and by bits 4 and
7. -/
def decodeInstruction (ins : Word) : Option Instruction :=
  match (getBits ins 27 25).toNat with
  | 0 =>
      if getBit ins 4 = 0 then
        (read shiftedPattern ins.toNat).bind fun (_, code, s, rn, rd, amount, kind, _, rm, _) =>
          (Opcode.ofCode code).map fun opcode =>
            .dataProcessing opcode s rn rd (.shifted (kindOfCode kind) amount rm)
      else if getBit ins 7 = 1 then
        (read halfPattern ins.toNat).map fun (_, _, u, _, w, l, rn, rd, high, _, low, _) =>
          .transferHalf l u w rn rd (high ++ low)
      else if getBits ins 27 20 = 18 then
        (read exchangePattern ins.toNat).map fun (_, _, l, _, rm, _) => .exchange l rm
      else
        (read shiftedByPattern ins.toNat).bind fun (_, code, s, rn, rd, rs, _, kind, _, rm, _) =>
          (Opcode.ofCode code).map fun opcode =>
            .dataProcessing opcode s rn rd (.shiftedBy (kindOfCode kind) rs rm)
  | 1 =>
      (read immediatePattern ins.toNat).bind fun (_, code, s, rn, rd, rotation, value, _) =>
        (Opcode.ofCode code).map fun opcode =>
          .dataProcessing opcode s rn rd (.immediate rotation value)
  | 2 =>
      (read transferPattern ins.toNat).map fun (_, _, u, b, w, l, rn, rd, value, _) =>
        .transfer l b u w rn rd (.immediate value)
  | 3 =>
      (read transferShiftedPattern ins.toNat).map
        fun (_, _, u, b, w, l, rn, rd, amount, kind, _, rm, _) =>
          .transfer l b u w rn rd (.shifted (kindOfCode kind) amount rm)
  | 4 =>
      (read multiplePattern ins.toNat).map fun (_, p, u, _, w, l, rn, _, regList, _) =>
        .multiple l p u w rn regList
  | 5 => (read branchPattern ins.toNat).map fun (_, l, offset, _) => .branch l offset
  | _ => none

/-- The condition and the instruction of a word; `none` for a word that is not in the language. -/
def decode (ins : Word) : Option (Condition × Instruction) :=
  (Condition.ofCode (ins.extractLsb' 28 4)).bind fun condition =>
    (decodeInstruction ins).map (Prod.mk condition)

/-! ## The fields of a word

What a pattern says, in the words of the code: the values of `get_bits` and `get_bit` at the places
where the handlers read them. -/

/-- The number of a register, as the code passes it on. -/
def Register.number (r : Register) : Byte := r.setWidth 8

/-- No operation has the number of TEQ. -/
theorem Opcode.code_ne_nine (opcode : Opcode) : opcode.code.toNat ≠ 9 := by
  cases opcode <;> decide

section Fields

variable {ins : Word} {rn rd rs rm : Register} {code rotation high low : BitVec 4}
  {kind : BitVec 2} {amount : BitVec 5} {s p u b w l : Bool}

/-- A flag of a word. -/
theorem getBit_of_flag {n : ℕ} (h : ins.toNat / 2 ^ n % 2 ^ 1 = s.toNat) :
    getBit ins n = truth s := by
  apply BitVec.eq_of_toNat_eq
  rw [toNat_getBit]
  cases s <;> exact h

/-- A field of a word. -/
theorem getBits_of_field {h l n : ℕ} {x : BitVec n} (hfield : ins.toNat / 2 ^ l % 2 ^ n = x.toNat)
    (hwidth : h - l + 1 = n) : (getBits ins h l).toNat = x.toNat := by
  rw [toNat_getBits, hwidth, hfield]

/-- A register of a word. -/
theorem number_of_field {h l : ℕ} {r : Register} (hfield : ins.toNat / 2 ^ l % 2 ^ 4 = r.toNat)
    (hwidth : h - l + 1 = 4) : u8 (getBits ins h l) = r.number := by
  apply BitVec.eq_of_toNat_eq
  rw [u8, BitVec.toNat_setWidth, getBits_of_field hfield hwidth, Register.number,
    BitVec.toNat_setWidth]

/-- The fields of data processing. -/
structure DataProcessingFields (ins : Word) (category : ℕ) (code : BitVec 4) (s : Bool)
    (rn rd : Register) : Prop where
  category : (getBits ins 27 25).toNat = category
  code : (getBits ins 24 21).toNat = code.toNat
  s : getBit ins 20 = truth s
  rn : u8 (getBits ins 19 16) = rn.number
  rd : u8 (getBits ins 15 12) = rd.number

/-- The fields of a shift by a constant. -/
structure ShiftFields (ins : Word) (amount : BitVec 5) (kind : BitVec 2) (rm : Register) :
    Prop where
  amount : (getBits ins 11 7).toNat = amount.toNat
  kind : (getBits ins 6 5).toNat = kind.toNat
  bit4 : getBit ins 4 = 0
  rm : u8 (getBits ins 3 0) = rm.number

/-- The fields of a shift by a register. -/
structure ShiftByFields (ins : Word) (rs : Register) (kind : BitVec 2) (rm : Register) :
    Prop where
  rs : u8 (getBits ins 11 8) = rs.number
  bit7 : getBit ins 7 = 0
  kind : (getBits ins 6 5).toNat = kind.toNat
  bit4 : getBit ins 4 = 1
  rm : u8 (getBits ins 3 0) = rm.number

/-- The fields of a single transfer. -/
structure TransferFields (ins : Word) (category : ℕ) (u b w l : Bool) (rn rd : Register) :
    Prop where
  category : (getBits ins 27 25).toNat = category
  p : getBit ins 24 = 1
  u : getBit ins 23 = truth u
  b : getBit ins 22 = truth b
  w : getBit ins 21 = truth w
  l : getBit ins 20 = truth l
  rn : u8 (getBits ins 19 16) = rn.number
  rd : u8 (getBits ins 15 12) = rd.number

/-- The fields of a multiple transfer. -/
structure MultipleFields (ins : Word) (p u w l : Bool) (rn : Register) (regList : BitVec 15) :
    Prop where
  category : (getBits ins 27 25).toNat = 4
  p : getBit ins 24 = truth p
  u : getBit ins 23 = truth u
  w : getBit ins 21 = truth w
  l : getBit ins 20 = truth l
  rn : (getBits ins 19 16).toNat = rn.toNat
  regList : getBits ins 15 0 = regList.setWidth 32

/-- What the source extracts from a word that has the pattern, for each of the patterns: here data
processing with a constant. -/
theorem fields_immediate {value : BitVec 8} (h : read immediatePattern ins.toNat =
    some ((), code, s, rn, rd, rotation, value, ())) :
    DataProcessingFields ins 1 code s rn rd ∧ (getBits ins 11 8).toNat = rotation.toNat ∧
      (getBits ins 7 0).toNat = value.toNat := by
  obtain ⟨hcategory, hcode, hs, hrn, hrd, hrotation, hvalue, -⟩ :=
    (read_eq_some_iff_fits ..).mp h
  exact ⟨⟨getBits_of_field hcategory rfl, getBits_of_field hcode rfl, getBit_of_flag hs,
    number_of_field hrn rfl, number_of_field hrd rfl⟩, getBits_of_field hrotation rfl,
    getBits_of_field hvalue rfl⟩

/-- A shift by a constant. -/
theorem fields_shifted (h : read shiftedPattern ins.toNat =
    some ((), code, s, rn, rd, amount, kind, (), rm, ())) :
    DataProcessingFields ins 0 code s rn rd ∧ ShiftFields ins amount kind rm := by
  obtain ⟨hcategory, hcode, hs, hrn, hrd, hamount, hkind, hbit4, hrm, -⟩ :=
    (read_eq_some_iff_fits ..).mp h
  exact ⟨⟨getBits_of_field hcategory rfl, getBits_of_field hcode rfl, getBit_of_flag hs,
    number_of_field hrn rfl, number_of_field hrd rfl⟩, getBits_of_field hamount rfl,
    getBits_of_field hkind rfl, @getBit_of_flag _ false _ hbit4, number_of_field hrm rfl⟩

/-- A shift by a register. -/
theorem fields_shiftedBy (h : read shiftedByPattern ins.toNat =
    some ((), code, s, rn, rd, rs, (), kind, (), rm, ())) :
    DataProcessingFields ins 0 code s rn rd ∧ ShiftByFields ins rs kind rm := by
  obtain ⟨hcategory, hcode, hs, hrn, hrd, hrs, hbit7, hkind, hbit4, hrm, -⟩ :=
    (read_eq_some_iff_fits ..).mp h
  exact ⟨⟨getBits_of_field hcategory rfl, getBits_of_field hcode rfl, getBit_of_flag hs,
    number_of_field hrn rfl, number_of_field hrd rfl⟩, number_of_field hrs rfl,
    @getBit_of_flag _ false _ hbit7, getBits_of_field hkind rfl, @getBit_of_flag _ true _ hbit4,
    number_of_field hrm rfl⟩

/-- A transfer with a constant offset. -/
theorem fields_transfer {value : BitVec 12} (h : read transferPattern ins.toNat =
    some ((), (), u, b, w, l, rn, rd, value, ())) :
    TransferFields ins 2 u b w l rn rd ∧ (getBits ins 11 0).toNat = value.toNat := by
  obtain ⟨hcategory, hp, hu, hb, hw, hl, hrn, hrd, hvalue, -⟩ :=
    (read_eq_some_iff_fits ..).mp h
  exact ⟨⟨getBits_of_field hcategory rfl, @getBit_of_flag _ true _ hp, getBit_of_flag hu,
    getBit_of_flag hb, getBit_of_flag hw, getBit_of_flag hl, number_of_field hrn rfl,
    number_of_field hrd rfl⟩, getBits_of_field hvalue rfl⟩

/-- A transfer with a shifted register as its offset. -/
theorem fields_transferShifted (h : read transferShiftedPattern ins.toNat =
    some ((), (), u, b, w, l, rn, rd, amount, kind, (), rm, ())) :
    TransferFields ins 3 u b w l rn rd ∧ ShiftFields ins amount kind rm := by
  obtain ⟨hcategory, hp, hu, hb, hw, hl, hrn, hrd, hamount, hkind, hbit4, hrm, -⟩ :=
    (read_eq_some_iff_fits ..).mp h
  exact ⟨⟨getBits_of_field hcategory rfl, @getBit_of_flag _ true _ hp, getBit_of_flag hu,
    getBit_of_flag hb, getBit_of_flag hw, getBit_of_flag hl, number_of_field hrn rfl,
    number_of_field hrd rfl⟩, getBits_of_field hamount rfl, getBits_of_field hkind rfl,
    @getBit_of_flag _ false _ hbit4, number_of_field hrm rfl⟩

/-- A transfer of a half word; its offset is in two fields. -/
theorem fields_half (h : read halfPattern ins.toNat =
    some ((), (), u, (), w, l, rn, rd, high, (), low, ())) :
    TransferFields ins 0 u true w l rn rd ∧ (getBits ins 11 8).toNat = high.toNat ∧
      (getBits ins 7 4).toNat = 11 ∧ (getBits ins 3 0).toNat = low.toNat := by
  obtain ⟨hcategory, hp, hu, hb, hw, hl, hrn, hrd, hhigh, hmiddle, hlow, -⟩ :=
    (read_eq_some_iff_fits ..).mp h
  exact ⟨⟨getBits_of_field hcategory rfl, @getBit_of_flag _ true _ hp, getBit_of_flag hu,
    @getBit_of_flag _ true _ hb, getBit_of_flag hw, getBit_of_flag hl, number_of_field hrn rfl,
    number_of_field hrd rfl⟩, getBits_of_field hhigh rfl, getBits_of_field hmiddle rfl,
    getBits_of_field hlow rfl⟩

/-- A transfer of several registers, without the program counter. -/
theorem fields_multiple {regList : BitVec 15} (h : read multiplePattern ins.toNat =
    some ((), p, u, (), w, l, rn, (), regList, ())) : MultipleFields ins p u w l rn regList := by
  obtain ⟨hcategory, hp, hu, -, hw, hl, hrn, hlast, hlist, -⟩ :=
    (read_eq_some_iff_fits ..).mp h
  have hlast' : ins.toNat / 2 ^ 15 % 2 ^ 1 = 0 := hlast
  have hlist' : ins.toNat / 2 ^ 0 % 2 ^ 15 = regList.toNat := hlist
  refine ⟨getBits_of_field hcategory rfl, getBit_of_flag hp, getBit_of_flag hu,
    getBit_of_flag hw, getBit_of_flag hl, getBits_of_field hrn rfl, ?_⟩
  apply BitVec.eq_of_toNat_eq
  rw [toNat_getBits, BitVec.toNat_setWidth]
  omega

/-- A branch, with or without a link. -/
theorem fields_branch {offset : BitVec 24} (h : read branchPattern ins.toNat =
    some ((), l, offset, ())) :
    (getBits ins 27 25).toNat = 5 ∧ getBit ins 24 = truth l ∧ ins.setWidth 24 = offset := by
  obtain ⟨hcategory, hl, hoffset, -⟩ := (read_eq_some_iff_fits ..).mp h
  have hoffset' : ins.toNat / 2 ^ 0 % 2 ^ 24 = offset.toNat := hoffset
  refine ⟨getBits_of_field hcategory rfl, getBit_of_flag hl, ?_⟩
  apply BitVec.eq_of_toNat_eq
  rw [BitVec.toNat_setWidth]
  omega

/-- A branch to the address in a register. -/
theorem fields_exchange (h : read exchangePattern ins.toNat = some ((), (), l, (), rm, ())) :
    getBits ins 27 20 = 18 ∧ getBits ins 7 4 = (if l then 3 else 1) ∧
      u8 (getBits ins 3 0) = rm.number := by
  obtain ⟨hbits, hzero, hl, hone, hrm, -⟩ := (read_eq_some_iff_fits ..).mp h
  have hbits' : ins.toNat / 2 ^ 8 % 2 ^ 20 = 0x12FFF := hbits
  have hzero' : ins.toNat / 2 ^ 6 % 2 ^ 2 = 0 := hzero
  have hl' : ins.toNat / 2 ^ 5 % 2 ^ 1 = l.toNat := hl
  have hone' : ins.toNat / 2 ^ 4 % 2 ^ 1 = 1 := hone
  refine ⟨getBits_eq_iff.mpr ?_, getBits_eq_iff.mpr ?_, number_of_field hrm rfl⟩
  · show _ = 18
    omega
  · cases l
    · show _ = 1
      rw [Bool.toNat_false] at hl'
      omega
    · show _ = 3
      rw [Bool.toNat_true] at hl'
      omega

end Fields

/-! ## The round trip

A word that is decoded is the encoding of what it is decoded to, and an encoding is decoded to what
it encodes. -/

section RoundTrip

variable {ins : Word} {i : Instruction}

/-- A pattern of 28 bits describes the words below their condition. -/
theorem read_iff {ps : Pattern} (h : BitPattern.width ps = 28) {fs : Fields ps} :
    read ps ins.toNat = some fs ↔ word 28 ps fs = ins.setWidth 28 := by
  rw [read_eq_some_iff h, BitVec.ofNat_toNat]

/-- What is decoded is encoded. -/
theorem encodeInstruction_of_decode (h : decodeInstruction ins = some i) :
    encodeInstruction i = ins.setWidth 28 := by
  have hopcode : ∀ {code opcode}, Opcode.ofCode code = some opcode → opcode.code = code :=
    fun h => Opcode.ofCode_eq_some_iff.mp h
  have hkind : ∀ kind, kindCode (kindOfCode kind) = kind := fun _ => kindOfCode_eq_iff.mp rfl
  unfold decodeInstruction at h
  split at h
  · split_ifs at h
    · obtain ⟨⟨_, code, s, rn, rd, amount, kind, _, rm, _⟩, hread, hmap⟩ :=
        Option.bind_eq_some_iff.mp h
      obtain ⟨opcode, hcode, rfl⟩ := Option.map_eq_some_iff.mp hmap
      rw [encodeInstruction, hopcode hcode, hkind]
      exact (read_iff rfl).mp hread
    · obtain ⟨⟨_, _, u, _, w, l, rn, rd, high, _, low, _⟩, hread, rfl⟩ :=
        Option.map_eq_some_iff.mp h
      rw [encodeInstruction, BitVec.extractLsb'_append_eq_left, BitVec.extractLsb'_append_eq_right]
      exact (read_iff rfl).mp hread
    · obtain ⟨⟨_, _, l, _, rm, _⟩, hread, rfl⟩ := Option.map_eq_some_iff.mp h
      exact (read_iff rfl).mp hread
    · obtain ⟨⟨_, code, s, rn, rd, rs, _, kind, _, rm, _⟩, hread, hmap⟩ :=
        Option.bind_eq_some_iff.mp h
      obtain ⟨opcode, hcode, rfl⟩ := Option.map_eq_some_iff.mp hmap
      rw [encodeInstruction, hopcode hcode, hkind]
      exact (read_iff rfl).mp hread
  · obtain ⟨⟨_, code, s, rn, rd, rotation, value, _⟩, hread, hmap⟩ :=
      Option.bind_eq_some_iff.mp h
    obtain ⟨opcode, hcode, rfl⟩ := Option.map_eq_some_iff.mp hmap
    rw [encodeInstruction, hopcode hcode]
    exact (read_iff rfl).mp hread
  · obtain ⟨⟨_, _, u, b, w, l, rn, rd, value, _⟩, hread, rfl⟩ := Option.map_eq_some_iff.mp h
    exact (read_iff rfl).mp hread
  · obtain ⟨⟨_, _, u, b, w, l, rn, rd, amount, kind, _, rm, _⟩, hread, rfl⟩ :=
      Option.map_eq_some_iff.mp h
    rw [encodeInstruction, hkind]
    exact (read_iff rfl).mp hread
  · obtain ⟨⟨_, p, u, _, w, l, rn, _, regList, _⟩, hread, rfl⟩ := Option.map_eq_some_iff.mp h
    exact (read_iff rfl).mp hread
  · obtain ⟨⟨_, l, offset, _⟩, hread, rfl⟩ := Option.map_eq_some_iff.mp h
    exact (read_iff rfl).mp hread
  · cases h

/-- A shift by a register is not taken for BX. -/
theorem not_exchange_of_opcode {opcode : Opcode}
    (h : (getBits ins 24 21).toNat = opcode.code.toNat) : getBits ins 27 20 ≠ 18 := by
  rw [toNat_getBits] at h
  rw [Ne, getBits_eq_iff]
  intro h18
  have h18' : ins.toNat / 2 ^ 20 % 2 ^ 8 = 18 := h18
  exact opcode.code_ne_nine (by omega)

/-- What is encoded is decoded. -/
theorem decodeInstruction_of_encode (h : encodeInstruction i = ins.setWidth 28) :
    decodeInstruction ins = some i := by
  have hopcode : ∀ opcode : Opcode, Opcode.ofCode opcode.code = some opcode :=
    fun _ => Opcode.ofCode_eq_some_iff.mpr rfl
  have hkind : ∀ kind, kindOfCode (kindCode kind) = kind := fun _ => kindOfCode_eq_iff.mpr rfl
  have hone : ¬ (1 : Word) = 0 := by decide
  have hzero : ¬ (0 : Word) = 1 := by decide
  match i with
  | .dataProcessing opcode s rn rd (.immediate rotation value) =>
      have hread := (read_iff rfl).mpr h
      obtain ⟨hfields, -⟩ := fields_immediate hread
      rw [decodeInstruction, hfields.category, hread]
      show Option.map _ (Opcode.ofCode opcode.code) = _
      rw [hopcode, Option.map_some]
  | .dataProcessing opcode s rn rd (.shifted kind amount rm) =>
      have hread := (read_iff rfl).mpr h
      obtain ⟨hfields, hshift⟩ := fields_shifted hread
      rw [decodeInstruction, hfields.category, if_pos hshift.bit4, hread]
      show Option.map _ (Opcode.ofCode opcode.code) = _
      rw [hopcode, Option.map_some, hkind]
  | .dataProcessing opcode s rn rd (.shiftedBy kind rs rm) =>
      have hread := (read_iff rfl).mpr h
      obtain ⟨hfields, hshift⟩ := fields_shiftedBy hread
      rw [decodeInstruction, hfields.category, hshift.bit4, hshift.bit7, if_neg hone, if_neg hzero,
        if_neg (not_exchange_of_opcode hfields.code), hread]
      show Option.map _ (Opcode.ofCode opcode.code) = _
      rw [hopcode, Option.map_some, hkind]
  | .transfer l b u w rn rd (.immediate value) =>
      have hread := (read_iff rfl).mpr h
      obtain ⟨hfields, -⟩ := fields_transfer hread
      rw [decodeInstruction, hfields.category, hread]
      rfl
  | .transfer l b u w rn rd (.shifted kind amount rm) =>
      have hread := (read_iff rfl).mpr h
      obtain ⟨hfields, -⟩ := fields_transferShifted hread
      rw [decodeInstruction, hfields.category, hread]
      show some (Instruction.transfer l b u w rn rd (.shifted (kindOfCode (kindCode kind)) _ _)) = _
      rw [hkind]
  | .transferHalf l u w rn rd offset =>
      have hread := (read_iff rfl).mpr h
      obtain ⟨hfields, -, hmiddle, -⟩ := fields_half hread
      rw [toNat_getBits] at hmiddle
      have h4 : getBit ins 4 = 1 := getBit_eq_iff.mpr (by show _ = 1; omega)
      have h7 : getBit ins 7 = 1 := getBit_eq_iff.mpr (by show _ = 1; omega)
      rw [decodeInstruction, hfields.category, h4, if_neg hone, if_pos h7, hread]
      exact congrArg (fun x => some (Instruction.transferHalf l u w rn rd x))
        BitVec.extractLsb'_append_extractLsb'
  | .multiple l p u w rn regList =>
      have hread := (read_iff rfl).mpr h
      rw [decodeInstruction, (fields_multiple hread).category, hread]
      rfl
  | .branch l offset =>
      have hread := (read_iff rfl).mpr h
      obtain ⟨hcategory, -⟩ := fields_branch hread
      rw [decodeInstruction, hcategory, hread]
      rfl
  | .exchange l rm =>
      have hread := (read_iff rfl).mpr h
      obtain ⟨hbits, hlow, -⟩ := fields_exchange hread
      have hbits' := getBits_eq_iff.mp hbits
      have hlow' : ins.toNat / 2 ^ 4 % 2 ^ 4 = if l then 3 else 1 := by
        rw [getBits_eq_iff] at hlow
        cases l <;> exact hlow
      have hcategory : (getBits ins 27 25).toNat = 0 := by
        rw [toNat_getBits]
        simp only [BitVec.ofNat_eq_ofNat, BitVec.toNat_ofNat] at hbits'
        omega
      have h4 : getBit ins 4 = 1 := getBit_eq_iff.mpr (by show _ = 1; split_ifs at hlow' <;> omega)
      have h7 : getBit ins 7 = 0 := getBit_eq_iff.mpr (by show _ = 0; split_ifs at hlow' <;> omega)
      rw [decodeInstruction, hcategory, h4, h7, if_neg hone, if_neg hzero, if_pos hbits, hread]
      rfl

/-- The condition of a word is its highest four bits. -/
theorem encode_eq_iff (condition : Condition) (i : Instruction) :
    encode condition i = ins ↔
      condition.code = ins.extractLsb' 28 4 ∧ encodeInstruction i = ins.setWidth 28 := by
  rw [encode]
  constructor
  · rintro rfl
    exact ⟨by rw [BitVec.extractLsb'_append_eq_left], by rw [BitVec.setWidth_append_eq_right]⟩
  · rintro ⟨hcondition, hinstruction⟩
    rw [hcondition, hinstruction, BitVec.setWidth_eq_extractLsb' (by decide)]
    exact BitVec.extractLsb'_append_extractLsb'

/-- **Encoding and decoding are inverse**: a word is the instruction that it decodes to, and no
other. -/
theorem decode_eq_some_iff {condition : Condition} :
    decode ins = some (condition, i) ↔ encode condition i = ins := by
  rw [encode_eq_iff, ← Condition.ofCode_eq_some_iff]
  constructor
  · intro h
    obtain ⟨condition', hcondition, hmap⟩ := Option.bind_eq_some_iff.mp h
    obtain ⟨i', hdecode, heq⟩ := Option.map_eq_some_iff.mp hmap
    obtain ⟨rfl, rfl⟩ := Prod.mk.inj heq
    exact ⟨hcondition, encodeInstruction_of_decode hdecode⟩
  · rintro ⟨hcondition, hinstruction⟩
    rw [decode, hcondition, decodeInstruction_of_encode hinstruction]
    rfl

end RoundTrip

/-! ## The machine

Instructions one after the other.  It is deterministic, and a run of `n` instructions is a partial
function of the state. -/

/-- The word at `R15`, an address of a word inside memory. -/
def fetch (s : State) : Option Word :=
  if WordAligned (s.reg 15) ∧ (s.reg 15).toNat + 4 ≤ s.mem.capacity.toNat then
    some (s.load (s.reg 15) 4)
  else none

/-- The machine; its events carry nothing. -/
def machine : Machine State Unit where
  step s _ := (fetch s).bind fun ins => (decode ins).bind fun (condition, i) =>
    if condition.holds s then exec s i else none

/-- The state after `n` instructions, or `none` when one of them has no meaning. -/
def run (n : ℕ) (s : State) : Option State := machine.run s (List.replicate n ())

/-- One instruction of a run is a step of the machine. -/
theorem run_one_eq (s : State) : run 1 s = machine.step s () := by
  show (machine.step s ()).bind some = machine.step s ()
  cases machine.step s () <;> rfl

/-- A run in two parts. -/
theorem run_add (m n : ℕ) (s : State) : run (m + n) s = (run m s).bind (run n) := by
  rw [run, List.replicate_add, Machine.run_append]
  rfl

/-- **What a step does**: a word that encodes an instruction is fetched, its condition holds, and
the instruction is carried out. -/
theorem machine_step_eq_some {s t : State} : machine.step s () = some t ↔
    ∃ condition i, fetch s = some (encode condition i) ∧ condition.holds s = true ∧
      exec s i = some t := by
  constructor
  · intro h
    obtain ⟨ins, hfetch, hrest⟩ := Option.bind_eq_some_iff.mp h
    obtain ⟨⟨condition, i⟩, hdecode, hexec⟩ := Option.bind_eq_some_iff.mp hrest
    dsimp only at hexec
    split_ifs at hexec with hcondition
    refine ⟨condition, i, ?_, hcondition, hexec⟩
    rw [hfetch, decode_eq_some_iff.mp hdecode]
  · rintro ⟨condition, i, hfetch, hcondition, hexec⟩
    show (fetch s).bind _ = some t
    rw [hfetch, Option.bind_some, decode_eq_some_iff.mpr rfl, Option.bind_some]
    dsimp only
    rw [if_pos hcondition, hexec]

end ArmSimulator.Assembly
