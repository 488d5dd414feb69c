import Mathlib.Data.Nat.Digits.Defs
import Mathlib.Tactic.Common

/-!
# Numbers as bytes, in two orders

A number below `256 ^ n` is `n` bytes, written from the least significant one (`little`) or from the
most significant one (`big`).  The two orders are the two ways of reading one list, so every fact is
proved for `little` and carried over by reversing.

* `digits` and `value` — the bytes of a number and the number of some bytes, least significant
  first; `value_digits` and `digits_value` are the two round trips.
* `encode` and `decode` — the same in a given order, with the same round trips.
* `decode_swap` — reading with the other order is reversing the bytes of the number.

The number is any natural number, and `n` bytes of it are those of its residue modulo `256 ^ n`; a
program that stores the low bytes of a wider word is covered without a side condition.
-/

namespace ByteOrder

/-- Which byte comes first. -/
inductive Order
  | little | big
  deriving DecidableEq, Repr

/-- The other order. -/
def Order.swap : Order → Order
  | little => big
  | big => little

/-! ## Least significant first

Digits in base 256. -/

/-- The `n` low bytes of a number, least significant first. -/
def digits : ℕ → ℕ → List (BitVec 8)
  | 0, _ => []
  | n + 1, v => BitVec.ofNat 8 v :: digits n (v / 256)

/-- The number of a list of bytes, least significant first. -/
def value (bs : List (BitVec 8)) : ℕ := Nat.ofDigits 256 (bs.map BitVec.toNat)

@[simp] theorem value_nil : value [] = 0 := rfl

@[simp] theorem value_cons (b : BitVec 8) (bs : List (BitVec 8)) :
    value (b :: bs) = b.toNat + 256 * value bs := rfl

@[simp] theorem length_digits (n v : ℕ) : (digits n v).length = n := by
  induction n generalizing v with
  | zero => rfl
  | succ n ih => rw [digits, List.length_cons, ih]

/-- The bytes above the `n` low ones do not matter. -/
theorem digits_mod (n v : ℕ) : digits n (v % 256 ^ n) = digits n v := by
  induction n generalizing v with
  | zero => rfl
  | succ n ih =>
      have hlow : BitVec.ofNat 8 (v % 256 ^ (n + 1)) = BitVec.ofNat 8 v := by
        apply BitVec.eq_of_toNat_eq
        rw [BitVec.toNat_ofNat, BitVec.toNat_ofNat, Nat.pow_succ']
        exact Nat.mod_mul_right_mod v 256 (256 ^ n)
      have hrest : v % 256 ^ (n + 1) / 256 = v / 256 % 256 ^ n := by
        rw [Nat.pow_succ', Nat.mod_mul_right_div_self]
      rw [digits, digits, hlow, hrest, ih]

/-- Bytes are digits to the base `256`. -/
theorem value_lt (bs : List (BitVec 8)) : value bs < 256 ^ bs.length := by
  have hlt : ∀ x ∈ bs.map BitVec.toNat, x < 256 := by
    intro x hx
    obtain ⟨b, -, rfl⟩ := List.mem_map.mp hx
    exact b.isLt
  have h := Nat.ofDigits_lt_base_pow_length (by decide : 1 < 256) hlt
  rwa [List.length_map] at h

/-- The number is kept up to what `n` digits can hold. -/
theorem value_digits (n v : ℕ) : value (digits n v) = v % 256 ^ n := by
  induction n generalizing v with
  | zero => simp [digits, Nat.mod_one]
  | succ n ih =>
      rw [digits, value_cons, ih, Nat.pow_succ', Nat.mod_mul]
      rfl

/-- Any bytes are the digits of their number. -/
theorem digits_value (bs : List (BitVec 8)) : digits bs.length (value bs) = bs := by
  induction bs with
  | nil => rfl
  | cons b bs ih =>
      have hb := b.isLt
      have hdiv : value (b :: bs) / 256 = value bs := by
        rw [value_cons]
        omega
      have hmod : BitVec.ofNat 8 (value (b :: bs)) = b := by
        apply BitVec.eq_of_toNat_eq
        rw [BitVec.toNat_ofNat, value_cons]
        omega
      rw [List.length_cons, digits, hdiv, hmod, ih]

/-! ## In an order

An order arranges the digits, and arranging twice is the identity. -/

/-- A list of bytes, least significant first, in the order `o`; and back. -/
def arrange : Order → List (BitVec 8) → List (BitVec 8)
  | .little, bs => bs
  | .big, bs => bs.reverse

@[simp] theorem length_arrange (o : Order) (bs : List (BitVec 8)) :
    (arrange o bs).length = bs.length := by
  cases o
  · rfl
  · exact List.length_reverse

@[simp] theorem arrange_arrange (o : Order) (bs : List (BitVec 8)) :
    arrange o (arrange o bs) = bs := by
  cases o
  · rfl
  · exact List.reverse_reverse bs

/-- The `n` low bytes of a number. -/
def encode (o : Order) (n v : ℕ) : List (BitVec 8) := arrange o (digits n v)

/-- The number of a list of bytes. -/
def decode (o : Order) (bs : List (BitVec 8)) : ℕ := value (arrange o bs)

@[simp] theorem length_encode (o : Order) (n v : ℕ) : (encode o n v).length = n := by
  rw [encode, length_arrange, length_digits]

/-- Only the part of the number that fits is encoded. -/
theorem encode_mod (o : Order) (n v : ℕ) : encode o n (v % 256 ^ n) = encode o n v := by
  rw [encode, encode, digits_mod]

/-- In either order, `n` bytes are a number below `256 ^ n`. -/
theorem decode_lt (o : Order) (bs : List (BitVec 8)) : decode o bs < 256 ^ bs.length := by
  have h := value_lt (arrange o bs)
  rwa [length_arrange] at h

/-- **Reading what was written.** -/
theorem decode_encode (o : Order) (n v : ℕ) : decode o (encode o n v) = v % 256 ^ n := by
  rw [decode, encode, arrange_arrange, value_digits]

/-- **Writing what was read.** -/
theorem encode_decode (o : Order) (bs : List (BitVec 8)) :
    encode o bs.length (decode o bs) = bs := by
  rw [encode, decode]
  conv_lhs => rw [← length_arrange o bs, digits_value, arrange_arrange]

/-- The number whose `n` bytes are those of `v` in reverse. -/
def reverseBytes (n v : ℕ) : ℕ := value (digits n v).reverse

/-- **Reading with the other order** reverses the bytes of the number read. -/
theorem decode_swap (o : Order) (bs : List (BitVec 8)) :
    decode o.swap bs = reverseBytes bs.length (decode o bs) := by
  have hdigits : digits bs.length (decode o bs) = arrange o bs := by
    have hencode := congrArg (arrange o) (encode_decode o bs)
    rwa [encode, arrange_arrange] at hencode
  rw [reverseBytes, hdigits, decode]
  cases o
  · rfl
  · exact congrArg value (List.reverse_reverse bs).symm

end ByteOrder
