import Mathlib.Data.Nat.Bitwise
import Mathlib.Tactic.Common

/-!
# Bit patterns

A pattern lists the parts of a word from its highest bit down: runs of bits that have one value, and
fields that hold any value.  It is read in two directions.

* `fill` — the number that the values of the parts make, and `word`, the same as a word.
* `read` — the values of the parts of a number, if the bits that are given agree.

The two are inverse (`read_eq_some_iff`), so that a pattern describes its words exactly, each of
them once.  `Fits` is the same part by part.

A decoder and an encoder that are written with the same patterns are inverse by that theorem alone,
whatever the words are about.  The type of the fields is computed from the pattern, so a decoder
gets as many values as the pattern has fields, each of the width of its part; a run of given bits
holds nothing, and a part of one bit holds a truth value.
-/

namespace BitPattern

/-! ## Parts

One part as a pair of functions between what it holds and its bits. -/

/-- A run of bits of a word. -/
inductive Part
  /-- Bits with a given value. -/
  | bits (n : ℕ) (value : BitVec n)
  /-- Bits with any value. -/
  | field (n : ℕ)
  /-- One bit, a truth value. -/
  | flag

namespace Part

/-- The number of bits. -/
def width : Part → ℕ
  | bits n _ | field n => n
  | flag => 1

/-- What a part can hold. -/
@[reducible] def Value : Part → Type
  | bits _ _ => Unit
  | field n => BitVec n
  | flag => Bool

/-- The bits of a value. -/
def toNat : (p : Part) → p.Value → ℕ
  | bits _ value, _ => value.toNat
  | field _, value => value.toNat
  | flag, value => value.toNat

/-- The value with the lowest bits of a number, if the part allows them. -/
def ofNat : (p : Part) → ℕ → Option p.Value
  | bits n value, x => if x % 2 ^ n = value.toNat then some () else none
  | field n, x => some (BitVec.ofNat n x)
  | flag, x => some (x.testBit 0)

theorem toNat_lt : (p : Part) → (value : p.Value) → p.toNat value < 2 ^ p.width
  | bits _ value, _ => value.isLt
  | field _, value => value.isLt
  | flag, value => value.toNat_lt

/-- **A part holds what it is given.** -/
theorem ofNat_eq_some_iff : (p : Part) → (x : ℕ) → (value : p.Value) →
    (p.ofNat x = some value ↔ x % 2 ^ p.width = p.toNat value)
  | bits n value, x, () => by
      simp only [ofNat, width, toNat]
      split_ifs with h <;> simp [h]
  | field n, x, value => by
      rw [ofNat, Option.some.injEq, ← BitVec.toNat_inj, BitVec.toNat_ofNat]
      rfl
  | flag, x, value => by
      rw [ofNat, Option.some.injEq, Nat.testBit_zero, width, toNat]
      rcases Nat.mod_two_eq_zero_or_one x with h | h <;> cases value <;> simp [h]

end Part

/-! ## Patterns

The parts one after the other: the bits of the first are above those of the rest. -/

/-- The parts of a word, the highest first. -/
abbrev Pattern := List Part

/-- The number of bits of a pattern. -/
def width : Pattern → ℕ
  | [] => 0
  | p :: ps => p.width + width ps

/-- The values of the parts. -/
@[reducible] def Fields : Pattern → Type
  | [] => Unit
  | p :: ps => p.Value × Fields ps

/-- The number whose parts have the given values. -/
def fill : (ps : Pattern) → Fields ps → ℕ
  | [], _ => 0
  | p :: ps, fs => 2 ^ width ps * p.toNat fs.1 + fill ps fs.2

/-- The values of the parts of a number.  Bits above the width of the pattern are not looked at. -/
def read : (ps : Pattern) → ℕ → Option (Fields ps)
  | [], _ => some ()
  | p :: ps, x => (p.ofNat (x / 2 ^ width ps)).bind fun value => (read ps x).map (Prod.mk value)

theorem fill_lt : (ps : Pattern) → (fs : Fields ps) → fill ps fs < 2 ^ width ps
  | [], _ => Nat.one_pos
  | p :: ps, fs => by
      have hvalue := p.toNat_lt fs.1
      have hrest := fill_lt ps fs.2
      calc 2 ^ width ps * p.toNat fs.1 + fill ps fs.2
          < 2 ^ width ps * p.toNat fs.1 + 2 ^ width ps := Nat.add_lt_add_left hrest _
        _ = 2 ^ width ps * (p.toNat fs.1 + 1) := (Nat.mul_succ ..).symm
        _ ≤ 2 ^ width ps * 2 ^ p.width := Nat.mul_le_mul_left _ hvalue
        _ = 2 ^ width (p :: ps) := by rw [width, Nat.add_comm, Nat.pow_add]

/-- The parts of a number have the given values, one by one. -/
def Fits : (ps : Pattern) → ℕ → Fields ps → Prop
  | [], _, _ => True
  | p :: ps, x, fs => x / 2 ^ width ps % 2 ^ p.width = p.toNat fs.1 ∧ Fits ps x fs.2

/-- What is read is what the parts hold. -/
theorem read_eq_some_iff_fits : (ps : Pattern) → (x : ℕ) → (fs : Fields ps) →
    (read ps x = some fs ↔ Fits ps x fs)
  | [], _, () => by simp [read, Fits]
  | p :: ps, x, (value, fs) => by
      rw [Fits, ← p.ofNat_eq_some_iff, ← read_eq_some_iff_fits ps]
      constructor
      · intro h
        obtain ⟨value', hvalue, hrest⟩ := Option.bind_eq_some_iff.mp h
        obtain ⟨fs', hfs, heq⟩ := Option.map_eq_some_iff.mp hrest
        obtain ⟨rfl, rfl⟩ := Prod.mk.inj heq
        exact ⟨hvalue, hfs⟩
      · rintro ⟨hvalue, hfs⟩
        rw [read, hvalue, hfs]
        rfl

/-- The parts of a number have the values that make it up. -/
theorem fits_iff : (ps : Pattern) → (x : ℕ) → (fs : Fields ps) →
    (Fits ps x fs ↔ x % 2 ^ width ps = fill ps fs)
  | [], x, () => by simp [Fits, width, fill, Nat.mod_one]
  | p :: ps, x, (value, fs) => by
      have hlow := Nat.mod_lt x (Nat.two_pow_pos (width ps))
      have hfill := fill_lt ps fs
      rw [Fits, fits_iff ps, width, fill, Nat.add_comm p.width, Nat.pow_add, Nat.mod_mul]
      constructor
      · rintro ⟨hvalue, hrest⟩
        rw [hvalue, hrest, Nat.add_comm]
      · intro h
        -- the quotients and the remainders of the two sums
        rw [Nat.add_comm] at h
        have hquotient := congrArg (· / 2 ^ width ps) h
        have hremainder := congrArg (· % 2 ^ width ps) h
        simp only [Nat.mul_add_div (Nat.two_pow_pos _), Nat.mul_add_mod,
          Nat.div_eq_of_lt hlow, Nat.div_eq_of_lt hfill, Nat.add_zero, Nat.mod_mod,
          Nat.mod_eq_of_lt hfill] at hquotient hremainder
        exact ⟨hquotient, hremainder⟩

/-! ## Words -/

section Words

variable {n : ℕ} {ps : Pattern}

/-- The word whose parts have the given values. -/
def word (n : ℕ) (ps : Pattern) (fs : Fields ps) : BitVec n := BitVec.ofNat n (fill ps fs)

/-- **Reading is the inverse of filling**: a pattern as wide as a word describes it by its fields,
in one way. -/
theorem read_eq_some_iff (h : width ps = n) (x : ℕ) (fs : Fields ps) :
    read ps x = some fs ↔ word n ps fs = BitVec.ofNat n x := by
  subst h
  rw [read_eq_some_iff_fits, fits_iff, word, ← BitVec.toNat_inj, BitVec.toNat_ofNat,
    BitVec.toNat_ofNat, Nat.mod_eq_of_lt (fill_lt ps fs)]
  exact eq_comm

end Words

end BitPattern
