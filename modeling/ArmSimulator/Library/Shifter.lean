import Mathlib.Data.Nat.Bitwise
import Mathlib.Tactic.Common

/-!
# A shifter with carry

A shifter moves the bits of a word and reports, as its *carry*, the last bit that was moved out.
There are four kinds of movement and two ways to give the amount.

* `register` — the amount is any number.  By `0` nothing moves and the carry is the one that came
  in; a left or a logical right shift by more than the width leaves nothing.
* `immediate` — the amount is a constant.  Where `0` would be useless it means something else: the
  whole width for the two right shifts, a rotation through the carry for `ror`. Elsewhere the two
  ways agree (`immediate_eq_register`).

The last section says when a left shift is the same as a rotation to the right: the bits must vanish
at the top and repeat (`register_lsl_eq_ror_iff`).  A rotation moves no bit out of the word, so its
carry is a bit that stays; a left shift that is to agree with it in both results has to move out
zeros only, and then a bit that is moved up by the one is moved down by the other, all the way round
the word.

The width is arbitrary and the amounts are natural numbers, so no amount is undefined here.
-/

namespace Shifter

variable {w : ℕ}

/-- The four kinds of movement. -/
inductive Kind
  | lsl | lsr | asr | ror
  deriving DecidableEq, Repr

/-- The word all of whose bits are the sign bit of `v`. -/
def signs (v : BitVec w) : BitVec w := if v.msb then BitVec.allOnes w else 0#w

/-- A rotation by one bit through the carry `c`: the carry goes in at the top, and the lowest bit
comes out. -/
def rotateExtend (v : BitVec w) (c : Bool) : BitVec w :=
  (BitVec.ofBool c).setWidth w <<< (w - 1) ||| v >>> 1

/-- Carry and result, the amount given by a register. -/
def register (kind : Kind) (v : BitVec w) (s : ℕ) (c : Bool) : Bool × BitVec w :=
  if s = 0 then (c, v)
  else
    match kind with
    | .lsl =>
        if s < w then (v.getLsbD (w - s), v <<< s)
        else if s = w then (v.getLsbD 0, 0#w) else (false, 0#w)
    | .lsr =>
        if s < w then (v.getLsbD (s - 1), v >>> s)
        else if s = w then (v.msb, 0#w) else (false, 0#w)
    | .asr => if s < w then (v.getLsbD (s - 1), v.sshiftRight s) else (v.msb, signs v)
    | .ror =>
        if s % w = 0 then (v.msb, v) else (v.getLsbD (s % w - 1), v.rotateRight (s % w))

/-- Carry and result, the amount given by a constant. -/
def immediate (kind : Kind) (v : BitVec w) (n : ℕ) (c : Bool) : Bool × BitVec w :=
  match kind with
  | .lsl => if n = 0 then (c, v) else (v.getLsbD (w - n), v <<< n)
  | .lsr => if n = 0 then (v.msb, 0#w) else (v.getLsbD (n - 1), v >>> n)
  | .asr => if n = 0 then (v.msb, signs v) else (v.getLsbD (n - 1), v.sshiftRight n)
  | .ror => if n = 0 then (v.getLsbD 0, rotateExtend v c)
      else (v.getLsbD (n - 1), v.rotateRight n)

/-- **The two ways agree** on the amounts that mean the same in both. -/
theorem immediate_eq_register (kind : Kind) (v : BitVec w) {n : ℕ} (c : Bool) (hn : n < w)
    (h : n = 0 → kind = .lsl) : immediate kind v n c = register kind v n c := by
  by_cases hzero : n = 0
  · rw [h hzero, hzero]
    rfl
  · have hmod : n % w = n := Nat.mod_eq_of_lt hn
    cases kind <;> simp [immediate, register, hzero, hn, hmod]

/-- Only a rotation through the carry depends on the carry that came in. -/
theorem immediate_snd {kind : Kind} {n : ℕ} (h : ¬ (kind = .ror ∧ n = 0)) (v : BitVec w)
    (c c' : Bool) : (immediate kind v n c).2 = (immediate kind v n c').2 := by
  cases kind with
  | ror =>
      have hn : n ≠ 0 := fun hzero => h ⟨rfl, hzero⟩
      simp only [immediate, if_neg hn]
  | lsl | lsr | asr => unfold immediate; split_ifs <;> rfl

/-- No result depends on it when the amount is in a register. -/
theorem register_snd (kind : Kind) (v : BitVec w) (s : ℕ) (c c' : Bool) :
    (register kind v s c).2 = (register kind v s c').2 := by
  unfold register
  split_ifs <;> rfl

/-! ## The result bit by bit

Rotations to the right in terms of places modulo the width. -/

/-- A rotation to the right brings bit `(i + r) % w` to bit `i`. -/
theorem getLsbD_rotateRight_mod (v : BitVec w) (r : ℕ) {i : ℕ} (hi : i < w) :
    (v.rotateRight r).getLsbD i = v.getLsbD ((i + r) % w) := by
  have hr : r % w < w := Nat.mod_lt r (Nat.zero_lt_of_lt hi)
  rw [BitVec.getLsbD_rotateRight, ← Nat.add_mod_mod]
  by_cases hlow : i < w - r % w
  · have hindex : (i + r % w) % w = r % w + i := by
      rw [Nat.mod_eq_of_lt (by omega), Nat.add_comm]
    simp [hlow, hindex]
  · have hindex : (i + r % w) % w = i - (w - r % w) := by
      rw [Nat.mod_eq_sub_mod (by omega), Nat.mod_eq_of_lt (by omega)]
      omega
    simp [hlow, hi, hindex]

/-- Only the word without bits is rotated to it. -/
theorem rotateRight_eq_zero_iff (v : BitVec w) (r : ℕ) : v.rotateRight r = 0#w ↔ v = 0#w := by
  constructor
  · intro h
    refine BitVec.eq_of_getLsbD_eq fun i hi => ?_
    -- bit `i` has gone to the position `r` places below it
    have hw : 0 < w := Nat.zero_lt_of_lt hi
    have hr : r % w < w := Nat.mod_lt r hw
    have hplace : ((i + (w - r % w)) % w + r) % w = i := by
      rw [Nat.mod_add_mod, ← Nat.add_mod_mod, Nat.add_assoc, Nat.sub_add_cancel hr.le,
        Nat.add_mod_right, Nat.mod_eq_of_lt hi]
    have hbit := congrArg (BitVec.getLsbD · ((i + (w - r % w)) % w)) h
    simp only [getLsbD_rotateRight_mod v r (Nat.mod_lt _ hw), hplace] at hbit
    simpa using hbit
  · rintro rfl
    refine BitVec.eq_of_getLsbD_eq fun i hi => ?_
    rw [getLsbD_rotateRight_mod _ r hi, BitVec.getLsbD_zero, BitVec.getLsbD_zero]

/-! ## Left shifts that are rotations to the right -/

/-- A predicate that is carried `d` places up, all the way round a cycle of `w` places,
is carried back as well. -/
theorem periodic_of_carried {P : ℕ → Prop} {w d : ℕ} (hw : 0 < w) (hcycle : ∀ k, P (k + w) ↔ P k)
    (hup : ∀ k, P (k + d) → P k) (k : ℕ) : P k → P (k + d) := by
  have hround : ∀ n k, P (k + n * w) ↔ P k := by
    intro n
    induction n with
    | zero => intro k; rw [Nat.zero_mul, Nat.add_zero]
    | succ n ih => intro k; rw [Nat.succ_mul, ← Nat.add_assoc, hcycle, ih]
  have hdown : ∀ n k, P (k + n * d) → P k := by
    intro n
    induction n with
    | zero => intro k h; rwa [Nat.zero_mul, Nat.add_zero] at h
    | succ n ih =>
        intro k h
        rw [Nat.succ_mul, ← Nat.add_assoc] at h
        exact ih k (hup _ h)
  intro h
  -- `d` steps of `w` are `w` steps of `d`, the first of which is the one wanted
  have hall : k + d * w = k + d + (w - 1) * d := by
    obtain ⟨m, rfl⟩ := Nat.exists_eq_succ_of_ne_zero hw.ne'
    rw [Nat.succ_sub_one, Nat.mul_succ, Nat.mul_comm d m]
    omega
  have hfar := (hround d k).mpr h
  rw [hall] at hfar
  exact hdown (w - 1) (k + d) hfar

/-- A place in the upper part of the word comes round to the lower one. -/
theorem place_wraps {w s j : ℕ} (hlow : w - s ≤ j) (hs : s < w) :
    (j + 2 * s) % w = (j + s - w + s) % w := by
  rw [← Nat.add_mod_right (j + s - w + s) w]
  exact congrArg (· % w) (by omega)

/-- The bits that a left shift by `s` moves out are zero, and the word repeats every `2 * s`
places. -/
def Repeats (v : BitVec w) (s : ℕ) : Prop :=
  (∀ i < w, w - s ≤ i → v.getLsbD i = false) ∧ v.rotateRight (2 * s) = v

instance decidableRepeats (v : BitVec w) (s : ℕ) : Decidable (Repeats v s) :=
  inferInstanceAs (Decidable (_ ∧ _))

section Repeats

variable {v : BitVec w} {s : ℕ}

theorem repeats_of_shiftLeft_eq (hs : s < w) (heq : v <<< s = v.rotateRight s) :
    Repeats v s := by
  have hw : 0 < w := Nat.zero_lt_of_lt hs
  have hbit : ∀ i, i < w → (!decide (i < s) && v.getLsbD (i - s)) = v.getLsbD ((i + s) % w) := by
    intro i hi
    have h := congrArg (BitVec.getLsbD · i) heq
    simpa only [BitVec.getLsbD_shiftLeft, hi, decide_true, Bool.true_and,
      getLsbD_rotateRight_mod v s hi] using h
  -- two places further on there is a zero or the same bit again
  have hzero : ∀ j, w - s ≤ j → j < w → v.getLsbD ((j + 2 * s) % w) = false := by
    intro j hlow hhigh
    have hsmall : j + s - w < s := by omega
    rw [place_wraps hlow hs, ← hbit (j + s - w) (by omega)]
    simp [hsmall]
  have hsame : ∀ j, j < w - s → v.getLsbD ((j + 2 * s) % w) = v.getLsbD j := by
    intro j hj
    have h := hbit (j + s) (by omega)
    have hplace : j + s + s = j + 2 * s := by omega
    rw [hplace, Nat.add_sub_cancel] at h
    rw [← h]
    simp
  have hback := periodic_of_carried (P := fun k => v.getLsbD (k % w) = true) (d := 2 * s) hw
    (fun k => by rw [Nat.add_mod_right]) (by
      intro k h
      have hk := Nat.mod_lt k hw
      rw [← Nat.mod_add_mod] at h
      by_cases hlow : k % w < w - s
      · rwa [hsame _ hlow] at h
      · rw [hzero _ (Nat.le_of_not_lt hlow) hk] at h
        cases h)
  have htop : ∀ i < w, w - s ≤ i → v.getLsbD i = false := by
    intro i hi hlow
    rw [← Bool.not_eq_true]
    intro hset
    have h := hback i (by rwa [Nat.mod_eq_of_lt hi])
    rw [hzero i hlow hi] at h
    cases h
  refine ⟨htop, BitVec.eq_of_getLsbD_eq fun i hi => ?_⟩
  rw [getLsbD_rotateRight_mod v _ hi]
  by_cases hlow : i < w - s
  · exact hsame i hlow
  · rw [hzero i (Nat.le_of_not_lt hlow) hi, htop i hi (Nat.le_of_not_lt hlow)]

theorem Repeats.shiftLeft_eq (hs : s < w) (h : Repeats v s) : v <<< s = v.rotateRight s := by
  obtain ⟨htop, hrot⟩ := h
  have hplace : ∀ j, j < w → v.getLsbD ((j + 2 * s) % w) = v.getLsbD j := by
    intro j hj
    rw [← getLsbD_rotateRight_mod v _ hj, hrot]
  refine BitVec.eq_of_getLsbD_eq fun i hi => ?_
  rw [BitVec.getLsbD_shiftLeft, getLsbD_rotateRight_mod v s hi]
  by_cases hlow : i < s
  · have hbit := hplace (w - s + i) (by omega)
    have hindex : w - s + i + s - w + s = i + s := by omega
    rw [place_wraps (Nat.le_add_right _ _) hs, hindex,
      htop _ (by omega) (Nat.le_add_right _ _)] at hbit
    rw [hbit]
    simp [hlow]
  · have hbit := hplace (i - s) (by omega)
    have hindex : i - s + 2 * s = i + s := by omega
    rw [hindex] at hbit
    rw [hbit]
    simp [hi, hlow]

/-- **When a left shift passes for a rotation**, carry included: nothing is moved, the word is
zero, or it repeats and the bit that the rotation reports is zero. -/
theorem register_lsl_eq_ror_iff (v : BitVec w) (s : ℕ) (c : Bool) :
    register .lsl v s c = register .ror v s c ↔
      s = 0 ∨ v = 0#w ∨ (s < w ∧ v.getLsbD (s - 1) = false ∧ Repeats v s) := by
  by_cases hzero : s = 0
  · simp [register, hzero]
  by_cases hs : s < w
  · have hmod : s % w = s := Nat.mod_eq_of_lt hs
    have hlost : Repeats v s → v.getLsbD (w - s) = false :=
      fun h => h.1 (w - s) (by omega) (Nat.le_refl _)
    have hword : v = 0#w → v.getLsbD (s - 1) = false ∧ Repeats v s := by
      rintro rfl
      exact ⟨BitVec.getLsbD_zero, fun _ _ _ => BitVec.getLsbD_zero,
        (rotateRight_eq_zero_iff _ _).mpr rfl⟩
    simp only [register, hzero, hs, hmod, if_false, if_true, Prod.mk.injEq, false_or, true_and]
    constructor
    · rintro ⟨hcarry, hresult⟩
      have hrep := repeats_of_shiftLeft_eq hs hresult
      exact Or.inr ⟨hcarry.symm.trans (hlost hrep), hrep⟩
    · intro h
      obtain ⟨hbit, hrep⟩ := h.elim hword id
      exact ⟨(hlost hrep).trans hbit.symm, hrep.shiftLeft_eq hs⟩
  · -- nothing is left of the word, whereas a rotation keeps every bit
    have hnot : ¬ (s < w ∧ v.getLsbD (s - 1) = false ∧ Repeats v s) := fun h => hs h.1
    have hleft : (register .lsl v s c).2 = 0#w := by
      simp only [register, hzero, hs, if_false]
      split_ifs <;> rfl
    have hright : (register .ror v s c).2 = 0#w ↔ v = 0#w := by
      simp only [register, hzero, if_false]
      split_ifs
      · rfl
      · exact rotateRight_eq_zero_iff _ _
    simp only [hzero, hnot, false_or, or_false]
    constructor
    · intro h
      rw [← hright, ← h, hleft]
    · rintro rfl
      refine Prod.ext ?_ (hleft.trans (hright.mpr rfl).symm)
      simp only [register, hzero, hs, if_false]
      split_ifs <;> simp [BitVec.msb_zero]

end Repeats

end Shifter
