import Mathlib.Data.List.Induction
import Mathlib.Data.Nat.ModEq
import Mathlib.Tactic.Common

/-!
# Texts of fields of one width

A record may be a text: fields of one width, one after the other, some of them numbers in a fixed
base.  Programs find a field by its offset and read its digits from the left.

* `field`, the field at a place; `field_flatten` finds it in a text that was made of fields, and
  `drop_flatten` the text from there on.
* `numeral`, a number in a fixed count of digits; `value_numeral` reads it back.
* `scan`, the number at the head of a text; `scan_append` says what it reads and what it leaves.

The base and the digits are parameters: a digit is a character with a value, and a character without
one ends a number.  A number in a text is therefore written in many ways, with zeros before it, and
all of them have the same value; the lemmas are about the value of the digits and not about one way
of writing it.
-/

universe u

namespace TextFields

/-! ## Fields

A text of fields is the list of its fields, flattened; what follows it is any text. -/

section Fields

variable {α : Type u} {w : ℕ}

/-- The field number `k` of a text. -/
def field (w : ℕ) (text : List α) (k : ℕ) : List α := (text.drop (w * k)).take w

/-- Fields of one width, put together. -/
theorem length_flatten {fields : List (List α)} (hw : ∀ f ∈ fields, f.length = w) :
    fields.flatten.length = w * fields.length := by
  induction fields with
  | nil => rfl
  | cons f fields ih =>
      rw [List.flatten_cons, List.length_append, ih fun g hg => hw g (List.mem_cons_of_mem f hg),
        hw f List.mem_cons_self, List.length_cons, Nat.mul_succ, Nat.add_comm]

/-- The text from the field `k` on. -/
theorem drop_flatten {fields : List (List α)} (hw : ∀ f ∈ fields, f.length = w) (rest : List α)
    {k : ℕ} (hk : k ≤ fields.length) :
    (fields.flatten ++ rest).drop (w * k) = (fields.drop k).flatten ++ rest := by
  induction fields generalizing k with
  | nil =>
      obtain rfl : k = 0 := Nat.le_zero.mp hk
      rfl
  | cons f fields ih =>
      cases k with
      | zero => rfl
      | succ k =>
          have hrest := ih (fun g hg => hw g (List.mem_cons_of_mem f hg))
            (Nat.le_of_succ_le_succ hk)
          have hf : f.length = w := hw f List.mem_cons_self
          rw [List.flatten_cons, List.append_assoc, Nat.mul_succ, Nat.add_comm, ← List.drop_drop,
            ← hf, List.drop_left, hf, hrest, List.drop_succ_cons]

/-- **The fields of a text** are the ones that it was made of. -/
theorem field_flatten {fields : List (List α)} (hw : ∀ f ∈ fields, f.length = w) (rest : List α)
    {k : ℕ} (hk : k < fields.length) : field w (fields.flatten ++ rest) k = fields[k] := by
  have hf : fields[k].length = w := hw _ (List.getElem_mem hk)
  rw [field, drop_flatten hw rest hk.le, List.drop_eq_getElem_cons hk, List.flatten_cons,
    List.append_assoc, ← hf, List.take_left]

end Fields

/-! ## Numbers

The most significant digit comes first, and reading goes on from a number that has been read. -/

section Numbers

variable (b : ℕ)

/-- The `k` last digits of a number, the most significant one first. -/
def numeral : ℕ → ℕ → List ℕ
  | 0, _ => []
  | k + 1, n => numeral k (n / b) ++ [n % b]

/-- The number of a list of digits, after `v` has been read. -/
def value (digits : List ℕ) (v : ℕ) : ℕ := digits.foldl (fun v d => b * v + d) v

/-- A numeral has as many digits as it was asked for, with leading zeros. -/
theorem length_numeral (k n : ℕ) : (numeral b k n).length = k := by
  induction k generalizing n with
  | zero => rfl
  | succ k ih => rw [numeral, List.length_append, ih, List.length_singleton]

/-- All its digits are digits of the base. -/
theorem lt_of_mem_numeral (hb : 0 < b) {k n d : ℕ} (h : d ∈ numeral b k n) : d < b := by
  induction k generalizing n with
  | zero => exact absurd h List.not_mem_nil
  | succ k ih =>
      rw [numeral, List.mem_append, List.mem_singleton] at h
      rcases h with h | rfl
      · exact ih h
      · exact Nat.mod_lt n hb

/-- **A numeral is read back**, modulo the numbers that it has room for. -/
theorem value_numeral (k n : ℕ) : value b (numeral b k n) 0 = n % b ^ k := by
  induction k generalizing n with
  | zero => exact (Nat.mod_one n).symm
  | succ k ih =>
      have hlast : value b (numeral b k (n / b) ++ [n % b]) 0 =
          b * value b (numeral b k (n / b)) 0 + n % b := by
        rw [value, List.foldl_append]
        rfl
      rw [numeral, hlast, ih, Nat.pow_succ', Nat.mod_mul, Nat.add_comm]

/-- The last digit. -/
theorem value_concat (digits : List ℕ) (d v : ℕ) :
    value b (digits ++ [d]) v = b * value b digits v + d := by
  rw [value, List.foldl_append]
  rfl

/-- A number has room in its digits. -/
theorem value_lt {digits : List ℕ} (hdigits : ∀ d ∈ digits, d < b) (v : ℕ) :
    value b digits v < b ^ digits.length * (v + 1) := by
  induction digits generalizing v with
  | nil => exact (Nat.one_mul (v + 1)).symm ▸ Nat.lt_succ_self v
  | cons d digits ih =>
      have hd : d + 1 ≤ b := hdigits d List.mem_cons_self
      have hrest := ih (fun e he => hdigits e (List.mem_cons_of_mem d he)) (b * v + d)
      calc value b (d :: digits) v
          < b ^ digits.length * (b * v + d + 1) := hrest
        _ ≤ b ^ digits.length * (b * (v + 1)) :=
            Nat.mul_le_mul_left _ (by rw [Nat.mul_succ]; omega)
        _ = b ^ (d :: digits).length * (v + 1) := by
            rw [List.length_cons, Nat.pow_succ, Nat.mul_assoc]

/-- **Zeros.**  A number is 0 if and only if its digits are. -/
theorem value_eq_zero_iff (hb : 0 < b) (digits : List ℕ) :
    value b digits 0 = 0 ↔ ∀ d ∈ digits, d = 0 := by
  induction digits using List.reverseRecOn with
  | nil => exact iff_of_true rfl fun d hd => absurd hd List.not_mem_nil
  | append_singleton digits d ih =>
      have hzero : b * value b digits 0 + d = 0 ↔ value b digits 0 = 0 ∧ d = 0 := by
        rw [Nat.add_eq_zero_iff, Nat.mul_eq_zero, or_iff_right hb.ne']
      rw [value_concat, hzero, ih]
      constructor
      · rintro ⟨hzeros, rfl⟩ e he
        exact (List.mem_append.mp he).elim (hzeros e) List.mem_singleton.mp
      · exact fun h => ⟨fun e he => h e (List.mem_append_left _ he),
          h d (List.mem_append_right _ (List.mem_singleton_self d))⟩

/-- A number below the base is its last digit, after zeros. -/
theorem zeros_of_value_lt {digits : List ℕ} {d : ℕ} (hlt : value b (digits ++ [d]) 0 < b) :
    (∀ e ∈ digits, e = 0) ∧ value b (digits ++ [d]) 0 = d := by
  rw [value_concat] at hlt ⊢
  have hzero : value b digits 0 = 0 := by
    by_contra hne
    have hle : b * 1 ≤ b * value b digits 0 := Nat.mul_le_mul_left b (Nat.pos_of_ne_zero hne)
    omega
  have hb : 0 < b := Nat.zero_lt_of_lt hlt
  rw [hzero]
  exact ⟨(value_eq_zero_iff b hb digits).mp hzero, by rw [Nat.mul_zero, Nat.zero_add]⟩

end Numbers

/-! ## Scanning

A number at the head of a text ends at the first character that is no digit. -/

section Scanning

variable {α : Type u} (digit : α → Option ℕ) (b : ℕ)

/-- The number of the digits at the head of a text, after `v` has been read, and the text that
follows them. -/
def scan : List α → ℕ → ℕ × List α
  | [], v => (v, [])
  | c :: cs, v =>
      match digit c with
      | some d => scan cs (b * v + d)
      | none => (v, c :: cs)

/-- The number that a text of digits stands for. -/
def digitsValue (digits : List α) : ℕ := value b (digits.map fun c => (digit c).getD 0) 0

/-- A text of `n` digits is a number with `n` digits. -/
theorem digitsValue_lt (hdigit : ∀ c, ∀ d ∈ digit c, d < b) {digits : List α}
    (hdigits : ∀ c ∈ digits, (digit c).isSome) :
    digitsValue digit b digits < b ^ digits.length := by
  have hlt : ∀ d ∈ digits.map fun c => (digit c).getD 0, d < b := by
    intro e he
    obtain ⟨c, hc, rfl⟩ := List.mem_map.mp he
    obtain ⟨d, hd⟩ := Option.isSome_iff_exists.mp (hdigits c hc)
    rw [hd, Option.getD_some]
    exact hdigit c d hd
  have hvalue := value_lt b hlt 0
  rw [List.length_map, Nat.zero_add, Nat.mul_one] at hvalue
  exact hvalue

/-- A text that does not begin with a digit. -/
def Stops (rest : List α) : Prop := ∀ c ∈ rest.head?, digit c = none

theorem stops_nil : Stops digit [] := fun c hc => by cases hc

/-- Nothing is read where no digit comes first. -/
theorem scan_of_stops {rest : List α} (hstops : Stops digit rest) (v : ℕ) :
    scan digit b rest v = (v, rest) := by
  cases rest with
  | nil => rfl
  | cons c cs => rw [scan, hstops c rfl]

/-- **Digits are read** up to the first character that is none. -/
theorem scan_append {digits rest : List α} (hdigits : ∀ c ∈ digits, (digit c).isSome)
    (hstops : Stops digit rest) (v : ℕ) :
    scan digit b (digits ++ rest) v =
      (value b (digits.map fun c => (digit c).getD 0) v, rest) := by
  induction digits generalizing v with
  | nil => exact scan_of_stops digit b hstops v
  | cons c digits ih =>
      obtain ⟨d, hd⟩ := Option.isSome_iff_exists.mp (hdigits c List.mem_cons_self)
      have hrest := ih (fun c' hc' => hdigits c' (List.mem_cons_of_mem c hc')) (b * v + d)
      rw [List.cons_append, scan, hd, List.map_cons, hd]
      exact hrest

/-- What stops a number has no part in it. -/
theorem scan_append_fst (text : List α) {rest : List α} (hstops : Stops digit rest) (v : ℕ) :
    (scan digit b (text ++ rest) v).1 = (scan digit b text v).1 := by
  induction text generalizing v with
  | nil => rw [List.nil_append, scan_of_stops digit b hstops, scan]
  | cons c text ih =>
      rw [List.cons_append, scan, scan]
      cases digit c with
      | none => rfl
      | some d => exact ih (b * v + d)

end Scanning

end TextFields
