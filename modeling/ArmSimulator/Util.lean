import ArmSimulator.Library.BitField

/-!
# Words, bit macros and constants

The integer types of the simulator and the macros and functions of `util.h` and `util.c`, with the
constants of `arm_constants.h`.

A C `uint32_t` is a `Word`, a `uint8_t` a `Byte`.  Conversion to `uint8_t` is `u8`, the promotion
back `u32`.  An `int` that carries an exception number or an error code is an `Int`.  All arithmetic
on words is that of `BitVec`, so it wraps where C wraps; nothing here is a natural number but bit
numbers, which are written out in the source.

### Shift counts

C leaves a 32-bit shift by 32 or more undefined, and `ror` with rotation `0` contains one (`value <<
32`).  The processor the simulator is compiled for takes the count modulo 32, and so do `shl` and
`shr`.  No result below depends on that choice except the value of `ror` at rotation `0`, which is
then `value`.  Which shifts of the data-processing path are defined is a question of its own;
`ShiftAmounts` answers it on a copy of the code that writes down every count.

### What is proved here

* `getBits_eq_field`, `getBit_eq_truth`: the macros that read are the fields and the bits of a word.
  The proofs about instructions use these and never unfold a macro.
* `getLsbD_setBits`: the bits that `set_bits` leaves, for every word, field and number.
* `bitFields_lens`: `get_bits` and `set_bits` are a lens on every field below bit 31.  At bit 31 the
  masks of the macros would shift by 32.
-/

namespace ArmSimulator

/-- `uint8_t`. -/
abbrev Byte := BitVec 8

/-- `uint16_t`. -/
abbrev Half := BitVec 16

/-- `uint32_t`. -/
abbrev Word := BitVec 32

/-- Conversion to `uint8_t`: the low eight bits.  Register numbers, amounts of shifts and modes are
kept in such a variable, and are cut where they are stored in it. -/
def u8 (x : Word) : Byte := x.setWidth 8

/-- Conversion of a `uint8_t` to `uint32_t`. -/
def u32 (b : Byte) : Word := b.setWidth 32

/-- A C truth value: `0` or `1`.  Comparisons are used as numbers in many places, for a flag or as a
mask. -/
def truth (b : Bool) : Word := if b then 1#32 else 0#32

/-! ## The macros of `util.h` -/

/-- `get_bit(x, i)`: the word is shifted down, and its lowest bit is left. -/
def getBit (x : Word) (i : ℕ) : Word := (x >>> i) &&& 1#32

/-- `set_bit(x, i)`. -/
def setBit (x : Word) (i : ℕ) : Word := x ||| (1#32 <<< i)

/-- `clr_bit(x, i)`. -/
def clrBit (x : Word) (i : ℕ) : Word := x &&& ~~~(1#32 <<< i)

/-- `get_bits(x, h, l)`: the word is shifted down, and a mask of `h - l + 1` ones cuts the rest off.
-/
def getBits (x : Word) (h l : ℕ) : Word :=
  (x >>> l) &&& ~~~((BitVec.allOnes 32 >>> (h - l + 1)) <<< (h - l + 1))

/-- `set_bits(x, h, l, bits)`; the `~0` of its first mask is a signed `int`, and the shift to the
right keeps its sign.  The number is not cut to the width of the field: bits of it above the field
are or-ed into the word. -/
def setBits (x : Word) (h l : ℕ) (bits : Word) : Word :=
  (x &&& ~~~(((BitVec.allOnes 32).sshiftRight l) <<< l)) |||
    (x &&& ((BitVec.allOnes 32 >>> (h + 1)) <<< (h + 1))) ||| (bits <<< l)

/-! ## The functions of `util.c` -/

/-- `value << count` on the compiled machine.  The count is taken modulo 32, as x86 does it; the C
standard leaves a count from 32 on undefined, and that no such count occurs where it must not is a
result of its own. -/
def shl (value : Word) (count : Byte) : Word := value <<< (count.toNat % 32)

/-- `value >> count` on the compiled machine, with the count modulo 32 as in `shl`. -/
def shr (value : Word) (count : Byte) : Word := value >>> (count.toNat % 32)

/-- `asr`: arithmetic shift right.  The signs are or-ed in by a shift to the left by `32 - shift`,
in which the subtraction is one of bytes. -/
def asr (value : Word) (shift : Byte) : Word :=
  shr value shift |||
    (if getBit value 31 ≠ 0 then shl (BitVec.allOnes 32) (32#8 - shift) else 0)

/-- `ror`: rotate right, the two parts of the word or-ed together. -/
def ror (value : Word) (rotation : Byte) : Word :=
  shr value rotation ||| shl value (32#8 - rotation)

/-- `logical_shift_right`. -/
def logicalShiftRight (value : Word) (shift : Byte) : Word := shr value shift

/-- `logical_shift_left`. -/
def logicalShiftLeft (value : Word) (shift : Byte) : Word := shl value shift

/-! ## The constants of `arm_constants.h`

The numbers of the modes are the contents of `CPSR[4:0]`; the numbers of the exceptions are what an
instruction returns and `arm_exception` is given; the last four are the numbers of the condition
flags in the CPSR. -/

section Modes

def USR : Byte := 0x10
def FIQ : Byte := 0x11
def IRQ : Byte := 0x12
def SVC : Byte := 0x13
def ABT : Byte := 0x17
def UND : Byte := 0x1b
def SYS : Byte := 0x1f

end Modes

section Exceptions

def RESET : Int := 1
def DATA_ABORT : Int := 2
def FAST_INTERRUPT : Int := 3
def INTERRUPT : Int := 4
def PREFETCH_ABORT : Int := 6
def UNDEFINED_INSTRUCTION : Int := 7
def SOFTWARE_INTERRUPT : Int := 8
def END_SIMULATION : Int := 9

end Exceptions

section StatusBits

def N : ℕ := 31
def Z : ℕ := 30
def C : ℕ := 29
def V : ℕ := 28

end StatusBits

/-! ## What the macros compute

A field is a number, `x / 2^l` modulo a power of two, and a bit is such a field of width 1.
Conditions on instruction words are read with these lemmas, in the form that `omega` closes. -/

theorem toNat_u8 {x : Word} (h : x.toNat < 256) : (u8 x).toNat = x.toNat := by
  rw [u8, BitVec.toNat_setWidth, Nat.mod_eq_of_lt h]

theorem u8_inj {x y : Word} (hx : x.toNat < 256) (hy : y.toNat < 256) (h : u8 x = u8 y) :
    x = y := by
  apply BitVec.eq_of_toNat_eq
  rw [← toNat_u8 hx, ← toNat_u8 hy, h]

theorem u8_ofNat (n : ℕ) : u8 (BitVec.ofNat 32 n) = BitVec.ofNat 8 n := by
  apply BitVec.eq_of_toNat_eq
  rw [u8, BitVec.toNat_setWidth, BitVec.toNat_ofNat, BitVec.toNat_ofNat]
  omega

/-- `get_bits` is the bit field `h … l`. -/
theorem getBits_eq_field (x : Word) (h l : ℕ) :
    getBits x h l = BitField.field x h l := by
  -- shifted down and up again, the ones lose exactly the bits of the field
  have hmask : ~~~((BitVec.allOnes 32 >>> (h - l + 1)) <<< (h - l + 1))
      = BitField.lowMask 32 (h - l + 1) := by
    apply BitVec.eq_of_getLsbD_eq
    intro i hi
    simp only [BitVec.getLsbD_not, BitVec.getLsbD_shiftLeft, BitVec.getLsbD_ushiftRight,
      BitVec.getLsbD_allOnes, BitField.getLsbD_lowMask]
    by_cases hn : i < h - l + 1
    · simp [hi, hn]
    · have hback : h - l + 1 + (i - (h - l + 1)) = i := by omega
      simp [hi, hn, hback]
  rw [getBits, BitField.field, hmask]

/-- The value of a field: `(x / 2^l) mod 2^(h-l+1)`. -/
theorem toNat_getBits (x : Word) (h l : ℕ) :
    (getBits x h l).toNat = x.toNat / 2 ^ l % 2 ^ (h - l + 1) := by
  rw [getBits_eq_field, BitField.toNat_field]

/-- A register field has four bits. -/
theorem toNat_registerField (ins : Word) (l : ℕ) : (getBits ins (l + 3) l).toNat < 16 := by
  rw [toNat_getBits, Nat.add_sub_cancel_left]
  exact Nat.mod_lt _ (by decide)

/-- Register fields that name one register are equal. -/
theorem registerField_inj (ins : Word) (l l' : ℕ)
    (h : u8 (getBits ins (l + 3) l) = u8 (getBits ins (l' + 3) l')) :
    getBits ins (l + 3) l = getBits ins (l' + 3) l' := by
  have hlt := toNat_registerField ins l
  have hlt' := toNat_registerField ins l'
  exact u8_inj (by omega) (by omega) h

/-- A register field that is not 15 does not name `R15`. -/
theorem registerField_ne_pc (ins : Word) (l : ℕ) (h : getBits ins (l + 3) l ≠ 15) :
    u8 (getBits ins (l + 3) l) ≠ 15 := by
  have hlt := toNat_registerField ins l
  exact fun heq => h (u8_inj (by omega) (by decide) heq)

/-- The field of an immediate shift has five bits. -/
theorem toNat_shiftField (ins : Word) : (getBits ins 11 7).toNat < 32 := by
  rw [toNat_getBits]
  exact Nat.mod_lt _ (by decide)

/-- A field is compared with a number as numbers. -/
theorem getBits_eq_iff {x n : Word} {h l : ℕ} :
    getBits x h l = n ↔ x.toNat / 2 ^ l % 2 ^ (h - l + 1) = n.toNat := by
  rw [← BitVec.toNat_inj, toNat_getBits]

/-- The value of a bit: `(x / 2^i) mod 2`. -/
theorem toNat_getBit (x : Word) (i : ℕ) : (getBit x i).toNat = x.toNat / 2 ^ i % 2 := by
  rw [getBit, BitVec.toNat_and, BitVec.toNat_ushiftRight, Nat.shiftRight_eq_div_pow]
  exact Nat.and_one_is_mod _

theorem getBit_eq_iff {x n : Word} {i : ℕ} :
    getBit x i = n ↔ x.toNat / 2 ^ i % 2 = n.toNat := by
  rw [← BitVec.toNat_inj, toNat_getBit]

/-- A bit read by the macro is the bit of the word. -/
theorem getBit_eq_truth (x : Word) (i : ℕ) : getBit x i = truth (x.getLsbD i) := by
  apply BitVec.eq_of_getLsbD_eq
  intro j hj
  rw [getBit, BitVec.getLsbD_and, BitVec.getLsbD_ushiftRight]
  rcases Nat.eq_zero_or_pos j with rfl | hpos
  · cases x.getLsbD i <;> simp [truth]
  · have hone : (1#32).getLsbD j = false := by
      rw [BitVec.getLsbD_one]
      simp [Nat.ne_of_gt hpos]
    cases x.getLsbD i <;> simp [truth, hone]

@[simp] theorem truth_eq_one (b : Bool) : truth b = 1 ↔ b = true := by
  cases b <;> simp [truth]

@[simp] theorem truth_eq_zero (b : Bool) : truth b = 0 ↔ b = false := by
  cases b <;> simp [truth]

theorem getBit_eq_one {x : Word} {i : ℕ} : getBit x i = 1 ↔ x.getLsbD i = true := by
  rw [getBit_eq_truth, truth_eq_one]

theorem getBit_eq_zero {x : Word} {i : ℕ} : getBit x i = 0 ↔ x.getLsbD i = false := by
  rw [getBit_eq_truth, truth_eq_zero]

/-- A bit that is not 0 is 1. -/
theorem getBit_ne_zero {x : Word} {i : ℕ} : getBit x i ≠ 0 ↔ getBit x i = 1 := by
  rw [Ne, getBit_eq_zero, getBit_eq_one, Bool.not_eq_false]

/-- What holds of the bits of a word is a matter of 32 of them. -/
theorem forall_getBit {x : Word} {P : ℕ → Prop} (h : ∀ i < 32, getBit x i = 1 → P i) (i : ℕ)
    (hbit : getBit x i = 1) : P i := by
  refine h i (Nat.lt_of_not_le fun hle => ?_) hbit
  rw [getBit_eq_one, BitVec.getLsbD_of_ge x i hle] at hbit
  cases hbit

theorem getBit_cases (x : Word) (i : ℕ) : getBit x i = 0 ∨ getBit x i = 1 := by
  rw [← getBit_ne_zero]
  exact em _

/-- The bits of a truth value moved to bit `k`. -/
theorem getLsbD_truth_shiftLeft (b : Bool) {k : ℕ} (hk : k < 32) (i : ℕ) :
    (truth b <<< k).getLsbD i = (b && decide (i = k)) := by
  cases b
  · simp [truth]
  · have hbit : truth true <<< k = BitVec.twoPow 32 k := (BitVec.twoPow_eq 32 k).symm
    rw [hbit, BitVec.getLsbD_twoPow, Bool.true_and]
    simp only [hk, decide_true, Bool.true_and, eq_comm]

theorem getLsbD_setBit (x : Word) {k : ℕ} (hk : k < 32) (i : ℕ) :
    (setBit x k).getLsbD i = (x.getLsbD i || decide (i = k)) := by
  have hbit : (1#32) <<< k = truth true <<< k := rfl
  rw [setBit, BitVec.getLsbD_or, hbit, getLsbD_truth_shiftLeft _ hk, Bool.true_and]

theorem getLsbD_clrBit (x : Word) {k : ℕ} (hk : k < 32) (i : ℕ) :
    (clrBit x k).getLsbD i = (x.getLsbD i && !decide (i = k)) := by
  have hbit : (1#32) <<< k = truth true <<< k := rfl
  rw [clrBit, BitVec.getLsbD_and, BitVec.getLsbD_not, hbit, getLsbD_truth_shiftLeft _ hk,
    Bool.true_and]
  by_cases hi : i < 32
  · simp [hi]
  · simp [BitVec.getLsbD_of_ge x i (Nat.le_of_not_lt hi)]

/-- The bits that `set_bits` leaves: those below and above the field, and the bits inserted. -/
theorem getLsbD_setBits (x bits : Word) {h l : ℕ} (hlow : l ≤ h) (hhigh : h < 32) (i : ℕ) :
    (setBits x h l bits).getLsbD i =
      if i < l then x.getLsbD i
      else (decide (h < i) && x.getLsbD i) || (decide (i < 32) && bits.getLsbD (i - l)) := by
  by_cases hi : i < 32
  · have hup : (BitVec.allOnes 32 >>> (h + 1) <<< (h + 1)).getLsbD i = decide (h < i) := by
      rw [BitVec.getLsbD_shiftLeft, BitVec.getLsbD_ushiftRight, BitVec.getLsbD_allOnes]
      by_cases hh : h < i
      · have hback : h + 1 + (i - (h + 1)) = i := by omega
        simp [hh, hi, hback, Nat.not_lt.mpr (Nat.succ_le_of_lt hh)]
      · simp [hh, Nat.lt_succ_of_le (Nat.le_of_not_lt hh)]
    have hones : (BitVec.allOnes 32).sshiftRight l = BitVec.allOnes 32 := by
      apply BitVec.eq_of_getLsbD_eq
      intro j hj
      have hsign : (BitVec.allOnes 32).msb = true := by decide
      rw [BitVec.getLsbD_sshiftRight, BitVec.getLsbD_allOnes, BitVec.getLsbD_allOnes, hsign,
        decide_eq_false (Nat.not_le.mpr hj), decide_eq_true hj]
      split_ifs with hlt
      · rw [decide_eq_true hlt]
        rfl
      · rfl
    have hdown : ((BitVec.allOnes 32).sshiftRight l <<< l).getLsbD i = decide (l ≤ i) := by
      rw [hones, BitVec.getLsbD_shiftLeft, BitVec.getLsbD_allOnes]
      by_cases hl : l ≤ i
      · have hback : i - l < 32 := by omega
        simp [hl, hi, hback, Nat.not_lt.mpr hl]
      · simp [hl, Nat.lt_of_not_le hl]
    rw [setBits, BitVec.getLsbD_or, BitVec.getLsbD_or, BitVec.getLsbD_and, BitVec.getLsbD_and,
      BitVec.getLsbD_not, hup, hdown, BitVec.getLsbD_shiftLeft]
    by_cases hl : i < l
    · have hh : ¬ h < i := by omega
      simp [hl, hi, hh]
    · have hle : l ≤ i := Nat.le_of_not_lt hl
      simp [hl, hi, hle, Bool.and_comm]
  · rw [BitVec.getLsbD_of_ge _ i (Nat.le_of_not_lt hi),
      BitVec.getLsbD_of_ge x i (Nat.le_of_not_lt hi)]
    simp [hi]

/-! ## Fields that are written and read

The section variables are a word, a number and the bounds of a field.  The hypothesis that the
number fits is stated once, as `b.toNat < 2 ^ (h - l + 1)`; the code never checks it. -/

section Lens

variable (x : Word) {b : Word} {h l : ℕ}

/-- A number that fits a field has no bit above it. -/
theorem getLsbD_of_fits (hlow : l ≤ h) (hb : b.toNat < 2 ^ (h - l + 1)) {i : ℕ} (hi : h < i) :
    b.getLsbD (i - l) = false := by
  have hpow : 2 ^ (h - l + 1) ≤ 2 ^ (i - l) := Nat.pow_le_pow_right (by decide) (by omega)
  exact BitVec.testBit_toNat b ▸ Nat.testBit_lt_two_pow (hb.trans_le hpow)

/-- Outside the field `set_bits` leaves the word alone. -/
theorem getLsbD_setBits_outside (hlow : l ≤ h) (hhigh : h < 32) (hb : b.toNat < 2 ^ (h - l + 1))
    {i : ℕ} (hi : i < l ∨ h < i) : (setBits x h l b).getLsbD i = x.getLsbD i := by
  rw [getLsbD_setBits x b hlow hhigh]
  rcases hi with hbelow | habove
  · rw [if_pos hbelow]
  · rw [if_neg (by omega), getLsbD_of_fits hlow hb habove, decide_eq_true habove, Bool.true_and,
      Bool.and_false, Bool.or_false]

/-- What is written is read. -/
theorem getBits_setBits (hlow : l ≤ h) (hhigh : h < 32) (hb : b.toNat < 2 ^ (h - l + 1)) :
    getBits (setBits x h l b) h l = b := by
  apply BitVec.eq_of_getLsbD_eq
  intro i _
  rw [getBits_eq_field, BitField.getLsbD_field, getLsbD_setBits x b hlow hhigh,
    if_neg (Nat.not_lt.mpr (Nat.le_add_right l i)), Nat.add_sub_cancel_left]
  by_cases hfield : i < h - l + 1
  · have hin : ¬ h < l + i := by omega
    have hword : l + i < 32 := by omega
    simp [hfield, hin, hword]
  · have hlost := getLsbD_of_fits hlow hb (show h < l + i by omega)
    rw [Nat.add_sub_cancel_left] at hlost
    simp [hfield, hlost]

/-- Writing what is read changes nothing. -/
theorem setBits_getBits (hlow : l ≤ h) (hhigh : h < 32) : setBits x h l (getBits x h l) = x := by
  apply BitVec.eq_of_getLsbD_eq
  intro i hi
  rw [getLsbD_setBits x _ hlow hhigh, getBits_eq_field, BitField.getLsbD_field]
  split_ifs with hbelow
  · rfl
  · have hback : l + (i - l) = i := by omega
    by_cases habove : h < i
    · have hout : ¬ i - l < h - l + 1 := by omega
      simp [habove, hout]
    · have hin : i - l < h - l + 1 := by omega
      simp [habove, hin, hi, hback]

/-- The last write counts. -/
theorem setBits_setBits (hlow : l ≤ h) (hhigh : h < 32) (hb : b.toNat < 2 ^ (h - l + 1))
    (b' : Word) : setBits (setBits x h l b) h l b' = setBits x h l b' := by
  apply BitVec.eq_of_getLsbD_eq
  intro i _
  rw [getLsbD_setBits _ b' hlow hhigh, getLsbD_setBits x b' hlow hhigh]
  split_ifs with hbelow
  · exact getLsbD_setBits_outside x hlow hhigh hb (Or.inl hbelow)
  · by_cases habove : h < i
    · rw [getLsbD_setBits_outside x hlow hhigh hb (Or.inr habove)]
    · simp [habove]

/-- **The macros of bit fields are a lens.**  For every word and every field `h … l` below bit 31,
`get_bits` is the number of the field, and `set_bits` of a number that fits writes it and nothing
else. -/
theorem bitFields_lens (hlow : l ≤ h) (hhigh : h ≤ 30) (hb : b.toNat < 2 ^ (h - l + 1)) :
    (getBits x h l).toNat = x.toNat / 2 ^ l % 2 ^ (h - l + 1) ∧
      getBits (setBits x h l b) h l = b ∧
      (∀ i, i < l ∨ h < i → (setBits x h l b).getLsbD i = x.getLsbD i) ∧
      setBits x h l (getBits x h l) = x ∧
      ∀ b' : Word, setBits (setBits x h l b) h l b' = setBits x h l b' := by
  have hword : h < 32 := by omega
  exact ⟨toNat_getBits x h l, getBits_setBits x hlow hword hb,
    fun i hi => getLsbD_setBits_outside x hlow hword hb hi, setBits_getBits x hlow hword,
    setBits_setBits x hlow hword hb⟩

end Lens

/-- The sign of a branch offset: six ones in bits 29 … 24. -/
theorem bitFields_lens_offset :
    getBits (setBits 0x00800000 29 24 0x3F) 29 24 = 0x3F ∧
      setBits (setBits 0x00800000 29 24 0x3F) 29 24 0 = setBits 0x00800000 29 24 0 :=
  have h := @bitFields_lens 0x00800000 0x3F 29 24 (by decide) (by decide) (by decide)
  ⟨h.2.1, h.2.2.2.2 0⟩

/-! ## Signs and low bits

Bit 31 is the sign of a word read as an `int`, and bit 1 is what a read of `R15` clears. -/

/-- Bit 31 is the sign. -/
theorem getLsbD_31 (x : Word) : x.getLsbD 31 = decide (x.toInt < 0) := by
  rw [← BitVec.msb_eq_toInt, BitVec.msb_eq_getLsbD_last]

theorem toNat_and_two (x : Word) : (x &&& 2#32).toNat = 2 * (x.toNat / 2 % 2) := by
  have hpow : (2#32).toNat = 2 ^ 1 := rfl
  rw [BitVec.toNat_and, hpow, Nat.and_two_pow, Nat.testBit_eq_decide_div_mod_eq, Nat.pow_one]
  rcases Nat.mod_two_eq_zero_or_one (x.toNat / 2) with h | h <;> simp [h]

theorem add_four_and_two (x : Word) : (x + 4) &&& 2#32 = x &&& 2#32 := by
  apply BitVec.eq_of_toNat_eq
  rw [toNat_and_two, toNat_and_two, BitVec.toNat_add]
  have hlt := x.isLt
  simp only [BitVec.ofNat_eq_ofNat, BitVec.toNat_ofNat]
  omega

/-- Clearing bit 1 subtracts it. -/
theorem and_not_two (x : Word) : x &&& 0xFFFFFFFD = x - (x &&& 2#32) := by
  -- the two parts have no bit in common, so their sum is their or
  have hsplit : x = (x &&& 0xFFFFFFFD#32) + (x &&& 2#32) := by
    rw [BitVec.add_eq_or_of_and_eq_zero]
    · rw [← BitVec.and_or_distrib_left]
      exact (BitVec.and_allOnes (x := x)).symm
    · rw [BitVec.and_comm x 2#32, BitVec.and_assoc, ← BitVec.and_assoc _ 2#32]
      simp
  exact BitVec.eq_sub_iff_add_eq.mpr hsplit.symm

end ArmSimulator
