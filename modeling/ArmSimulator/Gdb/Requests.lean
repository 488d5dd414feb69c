import ArmSimulator.Gdb.Framing
import ArmSimulator.Library.TextFields

/-!
# The texts of requests (`gdb_protocol.c`)

The handlers read their requests with the C library: `sscanf` with `%x`, which reads more than
digits, `atoi`, and `index`.  They are modelled on all texts, as the GNU library computes them where
`long` has 64 bits: white space and a sign are allowed before a number, `%x` allows a prefix `0x`, a
number that does not fit in a `long` is the greatest one, and the result is truncated to an `int`.

The first half of the file is the model.  It has to be right on every text, since a debugger may
send any.  The second half is what the theorems use of it: on a *numeral*, digits that something
else follows, all of this comes down to the number that the digits stand for.

* `scanUnsigned_append`, `scanPair_numerals` and `atoi_signed`, what is read of a text that begins
  with hexadecimal digits, or with a sign before them.
* `afterIndex_append`, the text after the first place of a character.
* `digits_of_hexNumber_lt` and `decNumber_of_lt`, what the two conversions read of a number below
  16.

An uninitialised variable is a failure: where `sscanf` finds no number, the code goes on with what
the stack held, and the model is `none`.
-/

namespace ArmSimulator

open TextFields

/-! ## The C library

Each function takes the text from its place on, to the end of memory that is known of it, and stops
by itself.  None looks behind the NUL of a string. -/

/-- `isspace`. -/
def isSpace (c : Byte) : Bool := c = chr ' ' ∨ chr '\t' ≤ c ∧ c ≤ chr '\r'

/-- A sign, true when it is `-`, and the text that follows it. -/
def scanSign : List Byte → Bool × List Byte
  | [] => (false, [])
  | c :: cs =>
      if c = chr '-' then (true, cs) else if c = chr '+' then (false, cs) else (false, c :: cs)

/-- The letter of a prefix `0x` is skipped, also when no digit follows it. -/
def skipBase : List Byte → List Byte
  | zero :: x :: cs =>
      if zero = chr '0' ∧ (x = chr 'x' ∨ x = chr 'X') then zero :: cs else zero :: x :: cs
  | cs => cs

/-- `strtoul` of the number `v`, as an `unsigned int`: a number of 64 bits or more is the greatest
one, a sign is a negation, and the high half is dropped. -/
def toUnsigned (negative : Bool) (v : ℕ) : Word :=
  if 2 ^ 64 ≤ v then 0xFFFFFFFF
  else if negative then -BitVec.ofNat 32 v
  else BitVec.ofNat 32 v

/-- `%x` in `sscanf`, and the text that follows; `none` when there is no digit, where `sscanf`
leaves its variable alone. -/
def scanUnsigned (data : List Byte) : Option (Word × List Byte) :=
  let sign := scanSign (data.dropWhile isSpace)
  let text := skipBase sign.2
  (text.head?.bind hexDigit).map fun _ =>
    let number := scan hexDigit 16 text 0
    (toUnsigned sign.1 number.1, number.2)

/-- `sscanf(data, "%x,%x", ..)`; `none` when one of the two is left uninitialised. -/
def scanPair (data : List Byte) : Option (Word × Word) := do
  let (first, data) ← scanUnsigned data
  if data.head? = some (chr ',') then
    let (second, _) ← scanUnsigned data.tail
    some (first, second)
  else none

/-- `index(data, c) + 1`; `none` when the string has no `c`, or has no end. -/
def afterIndex (c : Byte) : List Byte → Option (List Byte)
  | [] => none
  | b :: data =>
      if b = c then some data else if b = 0 then none else afterIndex c data

/-- The value of a decimal digit. -/
def decimalDigit (c : Byte) : Option ℕ :=
  if chr '0' ≤ c ∧ c ≤ chr '9' then some (c.toNat - (chr '0').toNat) else none

/-- `strtol` of the number `v`, as an `int`: a number that does not fit is the greatest one or the
least, and the high half is dropped. -/
def toSigned (negative : Bool) (v : ℕ) : Word :=
  if negative then -BitVec.ofNat 32 (min v (2 ^ 63))
  else BitVec.ofNat 32 (min v (2 ^ 63 - 1))

/-- `atoi`: white space, a sign and decimal digits; without digits it is 0. -/
def atoi (data : List Byte) : Word :=
  let sign := scanSign (data.dropWhile isSpace)
  toSigned sign.1 (scan decimalDigit 10 sign.2 0).1

/-! ## Numerals

A numeral is a list of digits that is not empty, and it is read to its end if what follows cannot
continue it.  A NUL, a comma, a colon and an equals sign end every numeral; so does any character
that is neither a digit nor an `x`. -/

/-- A number in hexadecimal digits. -/
structure IsHexNumeral (digits : List Byte) : Prop where
  ne_nil : digits ≠ []
  digit : ∀ c ∈ digits, (hexDigit c).isSome

/-- The number. -/
def hexNumber (digits : List Byte) : ℕ := digitsValue hexDigit 16 digits

/-- A character after which no number goes on: neither a digit nor the letter of a prefix, which `0`
may have before it. -/
structure EndsNumeral (c : Byte) : Prop where
  digit : hexDigit c = none
  base : c ≠ chr 'x' ∧ c ≠ chr 'X'

/-- The test for the character behind a numeral, in a form that can be decided. -/
theorem endsNumeral_iff (c : Byte) :
    EndsNumeral c ↔ hexDigit c = none ∧ c ≠ chr 'x' ∧ c ≠ chr 'X' :=
  ⟨fun h => ⟨h.digit, h.base⟩, fun h => ⟨h.1, h.2⟩⟩

instance decidableEndsNumeral (c : Byte) : Decidable (EndsNumeral c) :=
  decidable_of_iff _ (endsNumeral_iff c).symm

/-- The NUL of a string ends its last number. -/
theorem endsNumeral_nul : EndsNumeral 0 := by decide

/-- A character with no other meaning for the library and in requests.  The digits are such
characters, and a request that consists of them and of one separator has one reading. -/
structure IsPlain (c : Byte) : Prop where
  space : isSpace c = false
  sign : c ≠ chr '-' ∧ c ≠ chr '+'
  base : c ≠ chr 'x' ∧ c ≠ chr 'X'
  colon : c ≠ chr ':'
  equals : c ≠ chr '='
  nul : c ≠ 0

/-- The digits are such characters. -/
theorem isPlain_of_hexDigit {c : Byte} (h : (hexDigit c).isSome) : IsPlain c := by
  have hdigits : ∀ c : Byte, (hexDigit c).isSome →
      isSpace c = false ∧ (c ≠ chr '-' ∧ c ≠ chr '+') ∧ (c ≠ chr 'x' ∧ c ≠ chr 'X') ∧
        c ≠ chr ':' ∧ c ≠ chr '=' ∧ c ≠ 0 := forall_byte (by decide +kernel)
  obtain ⟨hspace, hsign, hbase, hcolon, hequals, hnul⟩ := hdigits c h
  exact ⟨hspace, hsign, hbase, hcolon, hequals, hnul⟩

/-- Digits need no escape. -/
theorem IsHexNumeral.plain {digits : List Byte} (h : IsHexNumeral digits) {c : Byte}
    (hc : c ∈ digits) : IsPlain c := isPlain_of_hexDigit (h.digit c hc)

/-- A text that begins with a digit has no spaces and no sign before it. -/
theorem scanSign_of_digit {c : Byte} (h : (hexDigit c).isSome) (cs : List Byte) :
    scanSign ((c :: cs).dropWhile isSpace) = (false, c :: cs) := by
  have hplain := isPlain_of_hexDigit h
  rw [List.dropWhile_cons_of_neg (by rw [hplain.space]; decide), scanSign,
    if_neg hplain.sign.1, if_neg hplain.sign.2]

/-- `%x` reads a numeral, and stops after it or at the end of the text. -/
theorem scanUnsigned_append {digits rest : List Byte} (hdigits : IsHexNumeral digits)
    (hrest : ∀ c ∈ rest.head?, EndsNumeral c) :
    scanUnsigned (digits ++ rest) = some (toUnsigned false (hexNumber digits), rest) := by
  obtain ⟨hne, hdigit⟩ := hdigits
  cases digits with
  | nil => exact absurd rfl hne
  | cons d digits =>
      have hd : (hexDigit d).isSome := hdigit d List.mem_cons_self
      have hsign : scanSign ((d :: (digits ++ rest)).dropWhile isSpace) =
          (false, d :: (digits ++ rest)) := scanSign_of_digit hd _
      -- what comes after the first digit is a digit, or ends the numeral, or is missing
      have hbase : skipBase (d :: (digits ++ rest)) = d :: (digits ++ rest) := by
        cases digits with
        | nil =>
            cases rest with
            | nil => rfl
            | cons c rest =>
                have hc := (hrest c rfl).base
                exact if_neg fun h => h.2.elim hc.1 hc.2
        | cons e digits =>
            have hplain := isPlain_of_hexDigit
              (hdigit e (List.mem_cons_of_mem d List.mem_cons_self))
            exact if_neg fun h => h.2.elim hplain.base.1 hplain.base.2
      have hstops : Stops hexDigit rest := fun c hc => (hrest c hc).digit
      have hscan := scan_append hexDigit 16 hdigit hstops 0
      rw [List.cons_append] at hscan
      obtain ⟨v, hv⟩ := Option.isSome_iff_exists.mp hd
      rw [List.cons_append, scanUnsigned]
      simp only [hsign, hbase, hscan, List.head?_cons, Option.bind_some, hv, Option.map_some]
      rfl

/-- `%x` reads a numeral up to a character that is no part of one. -/
theorem scanUnsigned_numeral {digits : List Byte} (hdigits : IsHexNumeral digits) {c : Byte}
    (hc : EndsNumeral c) (rest : List Byte) :
    scanUnsigned (digits ++ c :: rest) =
      some (toUnsigned false (hexNumber digits), c :: rest) :=
  scanUnsigned_append hdigits fun _ he => Option.some.inj he ▸ hc

/-- Two numerals with a comma between them. -/
theorem scanPair_numerals {first second : List Byte} (hfirst : IsHexNumeral first)
    (hsecond : IsHexNumeral second) {c : Byte} (hc : EndsNumeral c) (rest : List Byte) :
    scanPair (first ++ chr ',' :: (second ++ c :: rest)) =
      some (toUnsigned false (hexNumber first), toUnsigned false (hexNumber second)) := by
  have hcomma : EndsNumeral (chr ',') := by decide
  simp [scanPair, scanUnsigned_numeral hfirst hcomma, scanUnsigned_numeral hsecond hc]

/-- A number that fits is read as it is. -/
theorem toUnsigned_word (v : Word) : toUnsigned false v.toNat = v := by
  have hlt := v.isLt
  rw [toUnsigned, if_neg (by omega), if_neg (by decide), BitVec.ofNat_toNat, BitVec.setWidth_eq]

/-- The text after the first place of a character. -/
theorem afterIndex_append {c : Byte} {text : List Byte} (htext : ∀ b ∈ text, b ≠ c ∧ b ≠ 0)
    (rest : List Byte) : afterIndex c (text ++ c :: rest) = some rest := by
  induction text with
  | nil => exact if_pos rfl
  | cons b text ih =>
      obtain ⟨hc, hnul⟩ := htext b List.mem_cons_self
      rw [List.cons_append, afterIndex, if_neg hc, if_neg hnul]
      exact ih fun b' hb' => htext b' (List.mem_cons_of_mem b hb')

/-- The number of the decimal digits at the head of a numeral. -/
def decNumber (digits : List Byte) : ℕ := (scan decimalDigit 10 digits 0).1

/-- The sign of a number; the one of a number that is not negative is left out. -/
def signText (negative : Bool) : List Byte := if negative then [chr '-'] else []

/-- `atoi` reads a sign and the decimal digits at the head of a numeral. -/
theorem atoi_signed (negative : Bool) {digits : List Byte} (hdigits : IsHexNumeral digits)
    (rest : List Byte) :
    atoi (signText negative ++ (digits ++ 0 :: rest)) =
      toSigned negative (decNumber digits) := by
  obtain ⟨hne, hdigit⟩ := hdigits
  have hstops : Stops decimalDigit (0 :: rest) := by
    intro c hc
    obtain rfl := Option.some.inj hc
    decide
  have hscan := scan_append_fst decimalDigit 10 digits hstops 0
  cases digits with
  | nil => exact absurd rfl hne
  | cons d digits =>
      have hsign : scanSign ((signText negative ++ (d :: digits ++ 0 :: rest)).dropWhile isSpace) =
          (negative, d :: digits ++ 0 :: rest) := by
        cases negative with
        | false => exact scanSign_of_digit (hdigit d List.mem_cons_self) _
        | true => rfl
      rw [atoi, decNumber]
      simp only [hsign, hscan]

/-- `atoi` reads a numeral up to the end of the string. -/
theorem atoi_numeral {digits : List Byte} (hdigits : IsHexNumeral digits) (rest : List Byte) :
    atoi (digits ++ 0 :: rest) = toSigned false (decNumber digits) :=
  atoi_signed false hdigits rest

/-- A number in decimal digits. -/
structure IsDecNumeral (digits : List Byte) : Prop where
  ne_nil : digits ≠ []
  digit : ∀ c ∈ digits, (decimalDigit c).isSome

/-- The decimal digits are hexadecimal digits. -/
theorem IsDecNumeral.hex {digits : List Byte} (h : IsDecNumeral digits) : IsHexNumeral digits := by
  have hdigits : ∀ c : Byte, (decimalDigit c).isSome → (hexDigit c).isSome :=
    forall_byte (by decide +kernel)
  exact ⟨h.ne_nil, fun c hc => hdigits c (h.digit c hc)⟩

/-- All of its digits are read. -/
theorem IsDecNumeral.decNumber {digits : List Byte} (h : IsDecNumeral digits) :
    decNumber digits = digitsValue decimalDigit 10 digits := by
  have hscan := scan_append decimalDigit 10 h.digit (stops_nil decimalDigit) 0
  rw [List.append_nil] at hscan
  rw [ArmSimulator.decNumber, hscan]
  rfl

/-- An `int` in which the number fits. -/
theorem toInt_toSigned (negative : Bool) {v : ℕ} (hv : v < 2 ^ 31) :
    (toSigned negative v).toInt = if negative then -(v : ℤ) else v := by
  cases negative with
  | false =>
      rw [toSigned, if_neg (by decide), if_neg (by decide), Nat.min_eq_left (by omega),
        BitVec.toInt_ofNat', Int.bmod_def]
      split_ifs <;> omega
  | true =>
      rw [toSigned, if_pos rfl, if_pos rfl, Nat.min_eq_left (by omega), BitVec.toInt_neg,
        BitVec.toInt_ofNat', Int.bmod_def, Int.bmod_def]
      split_ifs <;> omega

/-! ## Numbers that name a register

The packet `p` reads a register number with `atoi`, the packet `P` with `%x`.  The two agree below
10 and nowhere else below 16: a digit `a` to `f` ends a decimal number, and `10` is sixteen for one
of them. -/

/-- The number that `%x` leaves in an `unsigned int`. -/
theorem toUnsigned_lt_iff (v : ℕ) :
    (toUnsigned false v).toNat < 16 ↔ v < 2 ^ 64 ∧ v % 2 ^ 32 < 16 := by
  by_cases hlarge : 2 ^ 64 ≤ v
  · rw [toUnsigned, if_pos hlarge]
    exact iff_of_false (by decide) fun h => absurd h.1 (Nat.not_lt.mpr hlarge)
  · rw [toUnsigned, if_neg hlarge, if_neg (by decide), BitVec.toNat_ofNat,
      and_iff_right (Nat.lt_of_not_le hlarge)]

/-- The number that `atoi` leaves in a `uint8_t`. -/
theorem toSigned_lt_iff (v : ℕ) :
    (u8 (toSigned false v)).toNat < 16 ↔ v < 2 ^ 63 ∧ v % 2 ^ 8 < 16 := by
  rw [toSigned, if_neg (by decide), u8, BitVec.toNat_setWidth, BitVec.toNat_ofNat]
  omega

/-- The decimal digits are the hexadecimal digits below 10. -/
theorem decimalDigit_of_hexDigit {c : Byte} {d : ℕ} (h : hexDigit c = some d) :
    decimalDigit c = if d < 10 then some d else none := by
  have hdigits : ∀ c : Byte, ∀ d ∈ hexDigit c,
      decimalDigit c = if d < 10 then some d else none := forall_byte (by decide +kernel)
  exact hdigits c d h

/-- **Numbers below 16** have one digit, after zeros. -/
theorem digits_of_hexNumber_lt {digits : List Byte} (hdigits : IsHexNumeral digits)
    (hlt : hexNumber digits < 16) :
    ∃ zeros c, digits = zeros ++ [c] ∧ (∀ z ∈ zeros, hexDigit z = some 0) ∧
      hexDigit c = some (hexNumber digits) := by
  obtain ⟨hne, hdigit⟩ := hdigits
  obtain rfl | ⟨zeros, c, rfl⟩ := List.eq_nil_or_concat' digits
  · exact absurd rfl hne
  · obtain ⟨d, hd⟩ := Option.isSome_iff_exists.mp
      (hdigit c (List.mem_append_right _ (List.mem_singleton_self c)))
    rw [hexNumber, digitsValue, List.map_append, List.map_singleton, hd, Option.getD_some]
      at hlt ⊢
    obtain ⟨hzeros, hvalue⟩ := zeros_of_value_lt 16 hlt
    refine ⟨zeros, c, rfl, fun z hz => ?_, by rw [hvalue, hd]⟩
    obtain ⟨e, he⟩ := Option.isSome_iff_exists.mp (hdigit z (List.mem_append_left _ hz))
    have hzero := hzeros _ (List.mem_map_of_mem hz)
    rw [he, Option.getD_some] at hzero
    rw [he, hzero]

/-- Zeros in decimal. -/
theorem value_decimalZeros {zeros : List Byte} (hzeros : ∀ z ∈ zeros, decimalDigit z = some 0) :
    value 10 (zeros.map fun c => (decimalDigit c).getD 0) 0 = 0 := by
  rw [value_eq_zero_iff 10 (by decide)]
  intro e he
  obtain ⟨z, hz, rfl⟩ := List.mem_map.mp he
  rw [hzeros z hz, Option.getD_some]

/-- `atoi` reads the digit of such a number if it is below 10. -/
theorem decNumber_of_lt {digits : List Byte} (hdigits : IsHexNumeral digits)
    (hlt : hexNumber digits < 16) :
    decNumber digits = if hexNumber digits < 10 then hexNumber digits else 0 := by
  obtain ⟨zeros, c, hsplit, hhexZeros, hc⟩ := digits_of_hexNumber_lt hdigits hlt
  have hzeros : ∀ z ∈ zeros, decimalDigit z = some 0 := fun z hz =>
    decimalDigit_of_hexDigit (hhexZeros z hz)
  have hsome : ∀ z ∈ zeros, (decimalDigit z).isSome := fun z hz => by rw [hzeros z hz]; rfl
  have hlast := decimalDigit_of_hexDigit hc
  rw [decNumber, hsplit]
  rw [hsplit] at hlast
  by_cases hdecimal : hexNumber (zeros ++ [c]) < 10
  · rw [if_pos hdecimal] at hlast ⊢
    have hall : ∀ z ∈ zeros ++ [c], (decimalDigit z).isSome := by
      intro z hz
      rcases List.mem_append.mp hz with hz | hz
      · exact hsome z hz
      · rw [List.mem_singleton.mp hz, hlast]
        rfl
    have hscan := scan_append decimalDigit 10 hall (stops_nil decimalDigit) 0
    rw [List.append_nil] at hscan
    rw [hscan, List.map_append, List.map_singleton, hlast, value_concat,
      value_decimalZeros hzeros, Option.getD_some, Nat.mul_zero, Nat.zero_add]
  · rw [if_neg hdecimal] at hlast ⊢
    have hstops : Stops decimalDigit [c] := fun e he => by rw [← Option.some.inj he, hlast]
    rw [scan_append decimalDigit 10 hsome hstops 0, value_decimalZeros hzeros]

end ArmSimulator
