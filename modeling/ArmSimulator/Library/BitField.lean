import Mathlib.Data.Nat.Bitwise
import Mathlib.Tactic.Common

/-!
# Bit fields of a fixed-width word

A *field* of a word is the run of bits `h … l`.  Reading it is a shift followed by a mask, writing
it is a mask followed by an `or`, and every fact about such code reduces to which bits of a constant
mask are set.  This file settles that once, over an arbitrary width.

* `lowMask` — the word whose `n` low bits are set, with its bits (`getLsbD_lowMask`).
* `field` — the bits `h … l` of a word, with its bits (`getLsbD_field`) and its value
  (`toNat_field`).
* `SameBelow` — two words agree below bit `n`.  It is an equivalence, and a field that ends below
  `n` does not tell the two words apart (`SameBelow.field_eq`).
* `merge` — a word with the bits of a mask taken from another word, and which words it can be
  (`merge_eq_iff`).

A statement about bits is best used in one of two forms.  Code that tests fields is read through
`toNat_field`, which makes a field a number and leaves the rest to linear arithmetic; code that
updates a word is read bit by bit, and `SameBelow` says in one word that nothing below a place has
been touched.
-/

namespace BitField

variable {w : ℕ}

/-- The word of width `w` whose `n` low bits are set. -/
def lowMask (w n : ℕ) : BitVec w := (BitVec.allOnes n).setWidth w

@[simp] theorem getLsbD_lowMask (n i : ℕ) :
    (lowMask w n).getLsbD i = (decide (i < w) && decide (i < n)) := by
  simp [lowMask]

@[simp] theorem getElem_lowMask (n i : ℕ) (h : i < w) :
    (lowMask w n)[i] = decide (i < n) := by
  simp [lowMask]

/-- The bits `h … l` of a word, moved down to bit `0`. -/
def field (x : BitVec w) (h l : ℕ) : BitVec w := (x >>> l) &&& lowMask w (h - l + 1)

/-- The bits of a field are those of the word, from the lowest place of the field on. -/
theorem getLsbD_field (x : BitVec w) (h l i : ℕ) :
    (field x h l).getLsbD i = (decide (i < h - l + 1) && x.getLsbD (l + i)) := by
  by_cases hi : i < w
  · simp [field, hi, Bool.and_comm]
  · have hx : x.getLsbD (l + i) = false := BitVec.getLsbD_of_ge _ _ (by omega)
    simp [hx, BitVec.getLsbD_of_ge _ i (Nat.le_of_not_lt hi)]

/-- The value of a field: shift down by `l`, keep `h - l + 1` bits. -/
theorem toNat_field (x : BitVec w) (h l : ℕ) :
    (field x h l).toNat = x.toNat / 2 ^ l % 2 ^ (h - l + 1) := by
  apply Nat.eq_of_testBit_eq
  intro i
  rw [BitVec.testBit_toNat, getLsbD_field, Nat.testBit_mod_two_pow, Nat.testBit_div_two_pow,
    BitVec.testBit_toNat, Nat.add_comm i l]

/-! ## Agreement below a bit

The relation that updates of the high bits of a word keep. -/

/-- Two words agree on every bit below `n`. -/
def SameBelow (n : ℕ) (x y : BitVec w) : Prop := ∀ i < n, x.getLsbD i = y.getLsbD i

namespace SameBelow

variable {n m : ℕ} {x y z : BitVec w}

@[refl] theorem refl (n : ℕ) (x : BitVec w) : SameBelow n x x := fun _ _ => rfl

@[symm] theorem symm (h : SameBelow n x y) : SameBelow n y x := fun i hi => (h i hi).symm

@[trans] theorem trans (h₁ : SameBelow n x y) (h₂ : SameBelow n y z) : SameBelow n x z :=
  fun i hi => (h₁ i hi).trans (h₂ i hi)

theorem mono (hmn : m ≤ n) (h : SameBelow n x y) : SameBelow m x y :=
  fun i hi => h i (Nat.lt_of_lt_of_le hi hmn)

/-- A field that ends below `n` cannot tell apart words that agree below `n`. -/
theorem field_eq {hi lo : ℕ} (h : SameBelow n x y) (hlo : lo ≤ hi) (hn : hi < n) :
    field x hi lo = field y hi lo := by
  apply BitVec.eq_of_getLsbD_eq
  intro i _
  rw [getLsbD_field, getLsbD_field]
  by_cases hb : i < hi - lo + 1
  · rw [h (lo + i) (by omega)]
  · simp [hb]

/-- Replacing bits from `n` up leaves the bits below `n` alone: the shape
`(x & low mask) | new` of a flag update. -/
theorem and_or (hmask : ∀ i < n, (y : BitVec w).getLsbD i = true)
    (hnew : ∀ i < n, (z : BitVec w).getLsbD i = false) :
    SameBelow n ((x &&& y) ||| z) x := by
  intro i hi
  simp [hmask i hi, hnew i hi]

end SameBelow

/-! ## Masked updates

An update that takes the bits of a mask from one word and the others from another. -/

section Merge

variable (mask old new : BitVec w)

/-- The word `old` with the bits of `mask` taken from `new`. -/
def merge : BitVec w := (old &&& ~~~mask) ||| (new &&& mask)

/-- The mask decides bit by bit which word is taken. -/
theorem getLsbD_merge (i : ℕ) :
    (merge mask old new).getLsbD i =
      if mask.getLsbD i then new.getLsbD i else old.getLsbD i := by
  rw [merge, BitVec.getLsbD_or, BitVec.getLsbD_and, BitVec.getLsbD_and, BitVec.getLsbD_not]
  by_cases hi : i < w
  · cases mask.getLsbD i <;> simp [hi]
  · have hlarge : w ≤ i := Nat.le_of_not_lt hi
    simp [BitVec.getLsbD_of_ge _ i hlarge]

@[simp] theorem merge_self : merge mask old old = old := by
  apply BitVec.eq_of_getLsbD_eq
  intro i _
  rw [getLsbD_merge, ite_self]

/-- **An update is a given word** when the old word agrees with it outside the mask and the new one
within. -/
theorem merge_eq_iff {x : BitVec w} :
    merge mask old new = x ↔ old &&& ~~~mask = x &&& ~~~mask ∧ new &&& mask = x &&& mask := by
  constructor
  · rintro rfl
    constructor
    all_goals
      apply BitVec.eq_of_getLsbD_eq
      intro i _
      simp only [BitVec.getLsbD_and, BitVec.getLsbD_not, getLsbD_merge]
      cases mask.getLsbD i <;> simp
  · rintro ⟨hold, hnew⟩
    rw [merge, hold, hnew]
    exact merge_self mask x

end Merge

end BitField
