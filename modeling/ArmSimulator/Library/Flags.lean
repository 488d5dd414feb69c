import Mathlib.Algebra.Group.Nat.Defs
import Mathlib.Algebra.Ring.Int.Defs
import Mathlib.Tactic.Common

/-!
# The flags of additions and subtractions

Four flags describe the result of an addition or a subtraction of two words: its sign, whether it is
zero, the carry out of the highest bit, and whether the signed result fits.  A subtraction sets its
carry when it does *not* borrow.

Programs that compute the flags see only the wrapped result.  The rules here say what can be read
off from it: the carry by a comparison (`uaddOverflow_eq_lt`, `usubOverflow_eq_lt`) or from the
three signs (`usubOverflow_eq_signs`), and when the result keeps the sign of the first operand
(`msb_add_eq_iff`, `msb_sub_eq_iff`).

The last section is about sums with a carry in: the carry out is `BitVec.carry`, and chained through
the carry they add up numbers of several words (`add_append_append`).

The specification of the flags is in the terms of the standard library, where `uaddOverflow` and its
like are defined on the unwrapped numbers.  Every rule here is an equation or an equivalence, so it
can be used to refute a formula as well as to confirm it.
-/

namespace WordArithmetic

variable {v w : ℕ}

/-- Negative, zero, carry, overflow. -/
structure Flags where
  n : Bool
  z : Bool
  c : Bool
  v : Bool
  deriving DecidableEq, Repr

/-- The flags of `x + y`. -/
def Flags.ofSum (x y : BitVec w) : Flags where
  n := (x + y).msb
  z := x + y = 0#w
  c := x.uaddOverflow y
  v := x.saddOverflow y

/-- The flags of `x - y`. -/
def Flags.ofDifference (x y : BitVec w) : Flags where
  n := (x - y).msb
  z := x - y = 0#w
  c := !x.usubOverflow y
  v := x.ssubOverflow y

/-! ## The carry

The carry out of the highest bit, from what is left below it. -/

/-- A sum that wraps is below both of its terms. -/
theorem uaddOverflow_eq_lt (x y : BitVec w) : x.uaddOverflow y = decide (x + y < x) := by
  have hx := x.isLt
  have hy := y.isLt
  rw [BitVec.uaddOverflow, decide_eq_decide, BitVec.lt_def, BitVec.toNat_add]
  by_cases h : 2 ^ w ≤ x.toNat + y.toNat
  · rw [Nat.mod_eq_sub_mod h, Nat.mod_eq_of_lt (by omega)]
    omega
  · rw [Nat.mod_eq_of_lt (by omega)]
    omega

/-- A difference that borrows is above its first term. -/
theorem usubOverflow_eq_lt (x y : BitVec w) : x.usubOverflow y = decide (x < x - y) := by
  have hx := x.isLt
  have hy := y.isLt
  rw [BitVec.usubOverflow, decide_eq_decide, BitVec.lt_def, BitVec.toNat_sub]
  by_cases h : x.toNat < y.toNat
  · rw [Nat.mod_eq_of_lt (by omega)]
    omega
  · rw [Nat.mod_eq_sub_mod (by omega), Nat.mod_eq_of_lt (by omega)]
    omega

/-! ## Signs

A word by its sign is a number in the lower or in the upper half of its range. -/

/-- A word of positive width by its sign: the value, the number, and the size of a half. -/
theorem msb_cases (hw : 0 < w) (x : BitVec w) :
    (x.msb = false ∧ x.toInt = x.toNat ∧ x.toNat < 2 ^ (w - 1)) ∨
      (x.msb = true ∧ x.toInt = x.toNat - 2 * (2 ^ (w - 1) : ℕ) ∧ 2 ^ (w - 1) ≤ x.toNat) := by
  have hpow : 2 ^ w = 2 * 2 ^ (w - 1) := by
    rw [← Nat.pow_succ', Nat.succ_eq_add_one, Nat.sub_add_cancel hw]
  have hmsb := x.msb_eq_decide
  rw [BitVec.toInt_eq_toNat_cond, hpow]
  by_cases h : 2 ^ (w - 1) ≤ x.toNat
  · refine Or.inr ⟨by rw [hmsb, decide_eq_true h], ?_, h⟩
    rw [if_neg (by omega)]
    omega
  · refine Or.inl ⟨by rw [hmsb, decide_eq_false h], ?_, Nat.lt_of_not_le h⟩
    rw [if_pos (by omega)]

/-- The borrow of a subtraction, from the signs of its terms and of the difference. -/
theorem usubOverflow_eq_signs (x y : BitVec w) :
    x.usubOverflow y = ((!x.msb && y.msb) || ((!x.msb || y.msb) && (x - y).msb)) := by
  rcases Nat.eq_zero_or_pos w with rfl | hw
  · revert x y
    decide
  have hpow : 2 ^ w = 2 * 2 ^ (w - 1) := by
    rw [← Nat.pow_succ', Nat.succ_eq_add_one, Nat.sub_add_cancel hw]
  have hx := x.isLt
  have hy := y.isLt
  have hsub : x.toNat < y.toNat ∧ (x - y).toNat = x.toNat + 2 ^ w - y.toNat ∨
      y.toNat ≤ x.toNat ∧ (x - y).toNat = x.toNat - y.toNat := by
    rw [BitVec.toNat_sub]
    by_cases h : x.toNat < y.toNat
    · rw [Nat.mod_eq_of_lt (by omega)]
      omega
    · rw [Nat.mod_eq_sub_mod (by omega), Nat.mod_eq_of_lt (by omega)]
      omega
  rw [BitVec.usubOverflow]
  rcases msb_cases hw x with ⟨hmx, -, hnx⟩ | ⟨hmx, -, hnx⟩ <;>
    rcases msb_cases hw y with ⟨hmy, -, hny⟩ | ⟨hmy, -, hny⟩ <;>
    rcases msb_cases hw (x - y) with ⟨hm, -, hn⟩ | ⟨hm, -, hn⟩ <;>
    simp only [hmx, hmy, hm, Bool.not_true, Bool.not_false, Bool.and_true, Bool.and_false,
      Bool.or_true, Bool.or_false, decide_eq_true_eq, decide_eq_false_iff_not] <;>
    omega

theorem msb_iff_toInt (x : BitVec w) : x.msb = true ↔ x.toInt < 0 := by
  rw [BitVec.msb_eq_toInt, decide_eq_true_eq]

/-- With a negative second term a sum has the sign of the first one unless it passes zero or
leaves the range. -/
theorem msb_add_eq_iff {x y : BitVec w} (hy : y.msb = true) :
    (x + y).msb = x.msb ↔ (0 ≤ x.toInt ∧ 0 ≤ x.toInt + y.toInt) ∨
      (x.toInt < 0 ∧ -2 ^ (w - 1) ≤ x.toInt + y.toInt) := by
  have hover := BitVec.saddOverflow_eq x y
  have hneg := (msb_iff_toInt y).mp hy
  have hhalf : (0 : Int) < 2 ^ (w - 1) := Int.pow_pos (by decide)
  cases hx : x.msb with
  | true =>
      have hxneg := (msb_iff_toInt x).mp hx
      have hkeep : (x + y).msb = true ↔ x.saddOverflow y = false := by
        rw [hover, hx, hy]
        cases (x + y).msb <;> decide
      rw [hkeep, BitVec.saddOverflow, Bool.or_eq_false_iff, decide_eq_false_iff_not,
        decide_eq_false_iff_not]
      omega
  | false =>
      have hxpos : ¬ x.toInt < 0 := by rw [← msb_iff_toInt, hx]; decide
      have hfits : ¬ x.saddOverflow y := by simp [hover, hx, hy]
      have hkeep : (x + y).msb = false ↔ ¬ (x + y).toInt < 0 := by
        rw [← msb_iff_toInt, Bool.not_eq_true]
      rw [hkeep, BitVec.toInt_add_of_not_saddOverflow hfits]
      omega

/-- With a second term that is not negative a difference has the sign of the first one unless it
passes zero or leaves the range. -/
theorem msb_sub_eq_iff {x y : BitVec w} (hy : y.msb = false) :
    (x - y).msb = x.msb ↔ (0 ≤ x.toInt ∧ 0 ≤ x.toInt - y.toInt) ∨
      (x.toInt < 0 ∧ -2 ^ (w - 1) ≤ x.toInt - y.toInt) := by
  have hover := BitVec.ssubOverflow_eq x y
  have hpos : ¬ y.toInt < 0 := by rw [← msb_iff_toInt, hy]; decide
  have hhalf : (0 : Int) < 2 ^ (w - 1) := Int.pow_pos (by decide)
  cases hx : x.msb with
  | true =>
      have hxneg := (msb_iff_toInt x).mp hx
      have hkeep : (x - y).msb = true ↔ x.ssubOverflow y = false := by
        rw [hover, hx, hy]
        cases (x - y).msb <;> decide
      rw [hkeep, BitVec.ssubOverflow, Bool.or_eq_false_iff, decide_eq_false_iff_not,
        decide_eq_false_iff_not]
      omega
  | false =>
      have hxpos : ¬ x.toInt < 0 := by rw [← msb_iff_toInt, hx]; decide
      have hfits : ¬ x.ssubOverflow y := by simp [hover, hx, hy]
      have hkeep : (x - y).msb = false ↔ ¬ (x - y).toInt < 0 := by
        rw [← msb_iff_toInt, Bool.not_eq_true]
      rw [hkeep, BitVec.toInt_sub_of_not_ssubOverflow hfits]
      omega

/-! ## Three terms

Sums of two words and a carry, and of several words in a chain. -/

/-- A sum with a carry: the word that is kept and the carry out are the digits of the number. -/
theorem toNat_add_carry (x y : BitVec w) (c : Bool) :
    (x + y + BitVec.ofNat w c.toNat).toNat + 2 ^ w * (BitVec.carry w x y c).toNat =
      x.toNat + y.toNat + c.toNat := by
  have hx := x.isLt
  have hy := y.isLt
  have hc := c.toNat_le
  have hkept : (x + y + BitVec.ofNat w c.toNat).toNat =
      (x.toNat + y.toNat + c.toNat) % 2 ^ w := by
    rw [BitVec.toNat_add, BitVec.toNat_add, BitVec.toNat_ofNat, Nat.mod_add_mod, Nat.add_mod_mod]
  have hcarried : (BitVec.carry w x y c).toNat = (x.toNat + y.toNat + c.toNat) / 2 ^ w := by
    rw [BitVec.carry_width]
    by_cases h : 2 ^ w ≤ x.toNat + y.toNat + c.toNat
    · rw [decide_eq_true h, Nat.div_eq_sub_div (Nat.two_pow_pos w) h, Nat.div_eq_of_lt (by omega)]
      rfl
    · rw [decide_eq_false h, Nat.div_eq_of_lt (Nat.lt_of_not_le h)]
      rfl
  rw [hkept, hcarried]
  exact Nat.mod_add_div _ _

/-- Two words side by side, as a number. -/
theorem toNat_append_eq (xh : BitVec v) (xl : BitVec w) :
    (xh ++ xl).toNat = xl.toNat + 2 ^ w * xh.toNat := by
  rw [BitVec.toNat_append, ← Nat.shiftLeft_add_eq_or_of_lt xl.isLt, Nat.shiftLeft_eq,
    Nat.add_comm, Nat.mul_comm]

/-- Digits are unique. -/
theorem digits_inj {b r r' q q' : ℕ} (hr : r < b) (hr' : r' < b)
    (h : r + b * q = r' + b * q') : r = r' ∧ q = q' := by
  have hmod := congrArg (· % b) h
  have hdiv := congrArg (· / b) h
  simp only [Nat.add_mul_mod_self_left, Nat.mod_eq_of_lt hr, Nat.mod_eq_of_lt hr'] at hmod
  have hb := Nat.zero_lt_of_lt hr
  simp only [Nat.add_mul_div_left _ _ hb, Nat.div_eq_of_lt hr, Nat.div_eq_of_lt hr',
    Nat.zero_add] at hdiv
  exact ⟨hmod, hdiv⟩

/-- **A sum in two words**: the carry of the low words goes into the sum of the high words, and
the carry of that sum is the carry of the whole. -/
theorem add_append_append (xh yh : BitVec v) (xl yl : BitVec w) (c : Bool) :
    (xh + yh + BitVec.ofNat v (BitVec.carry w xl yl c).toNat) ++
          (xl + yl + BitVec.ofNat w c.toNat) =
        (xh ++ xl) + (yh ++ yl) + BitVec.ofNat (v + w) c.toNat ∧
      BitVec.carry v xh yh (BitVec.carry w xl yl c) =
        BitVec.carry (v + w) (xh ++ xl) (yh ++ yl) c := by
  have hlow := toNat_add_carry xl yl c
  have hhigh := toNat_add_carry xh yh (BitVec.carry w xl yl c)
  have hwhole := toNat_add_carry (xh ++ xl) (yh ++ yl) c
  generalize BitVec.carry w xl yl c = carried at *
  generalize hrl : xl + yl + BitVec.ofNat w c.toNat = rl at *
  generalize hrh : xh + yh + BitVec.ofNat v carried.toNat = rh at *
  have hsum : (rh ++ rl).toNat + 2 ^ (v + w) * (BitVec.carry v xh yh carried).toNat =
      (xh ++ xl).toNat + (yh ++ yl).toNat + c.toNat := by
    have hpow : 2 ^ (v + w) = 2 ^ w * 2 ^ v := by rw [Nat.pow_add, Nat.mul_comm]
    have hscaled := congrArg (2 ^ w * ·) hhigh
    simp only [Nat.mul_add, ← Nat.mul_assoc] at hscaled
    rw [toNat_append_eq, toNat_append_eq, toNat_append_eq, hpow]
    omega
  obtain ⟨hkept, hcarried⟩ := digits_inj (rh ++ rl).isLt (BitVec.isLt _) (hsum.trans hwhole.symm)
  have hbit : ∀ a b : Bool, a.toNat = b.toNat → a = b := by decide
  exact ⟨BitVec.eq_of_toNat_eq hkept, hbit _ _ hcarried⟩

end WordArithmetic
