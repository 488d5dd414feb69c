import Mathlib.Logic.Function.Basic
import Mathlib.Data.List.Basic
import Mathlib.Tactic.Common

/-!
# Arrays with checked indices

A C array of a fixed size is a function on `Fin n`.  Programs index it with integers; an access is
`some` inside the array and `none` outside, so that a program that is never `none` never leaves its
arrays.

* `read`, `write` and `entry`, the contents at an index that is known to be inside.
* `writeList` and `readList`, runs of accesses; `writeList_spec` says what a run of writes leaves,
  and `readList_of_holds` reads it back.
* `writeField`, a text with its terminator where the last one ended; `writeFields_spec` says what a
  run of them leaves, and `writeFields_eq_none` when there is no room.

The contents of an array are spoken of through `Holds`: from an index on, the array holds a list.
It can be put together and taken apart along the list, it depends on the indices of the run alone,
and a run of reads is determined by it.  Functions that fill a buffer piece by piece are then
described by the list they have written so far, and their bounds by its length.
-/

universe u

namespace CheckedArray

variable {α : Type u} {n : ℕ}

/-- `f[i]`. -/
def read (f : Fin n → α) (i : ℕ) : Option α := if h : i < n then some (f ⟨i, h⟩) else none

/-- `f[i] = a`. -/
def write (f : Fin n → α) (i : ℕ) (a : α) : Option (Fin n → α) :=
  if h : i < n then some (Function.update f ⟨i, h⟩ a) else none

theorem read_isSome {f : Fin n → α} {i : ℕ} (h : i < n) : ∃ a, read f i = some a :=
  ⟨_, dif_pos h⟩

/-- **A write** inside the array sets its index and leaves the others. -/
theorem write_spec (f : Fin n → α) {i : ℕ} (a : α) (h : i < n) :
    ∃ g, write f i a = some g ∧ ∀ k, read g k = if k = i then some a else read f k := by
  refine ⟨_, dif_pos h, fun k => ?_⟩
  by_cases hk : k < n
  · rw [read, read, dif_pos hk, dif_pos hk, Function.update_apply]
    by_cases heq : k = i
    · rw [if_pos (Fin.ext heq), if_pos heq]
    · rw [if_neg (fun hfin => heq (Fin.mk.inj hfin)), if_neg heq]
  · have hne : k ≠ i := fun heq => hk (heq ▸ h)
    rw [if_neg hne, read, read, dif_neg hk, dif_neg hk]

/-! ## Runs

Accesses at consecutive indices. -/

/-- `f[i] = as[0]; f[i + 1] = as[1]; …` -/
def writeList : List α → ℕ → (Fin n → α) → Option (Fin n → α)
  | [], _, f => some f
  | a :: as, i, f => (write f i a).bind (writeList as (i + 1))

/-- `f[i], …, f[i + count - 1]`. -/
def readList (f : Fin n → α) : ℕ → ℕ → Option (List α)
  | 0, _ => some []
  | count + 1, i => (read f i).bind fun a => (readList f count (i + 1)).map (a :: ·)

/-- The array holds `as` from index `i` on.  A run that leaves the array is not held. -/
def Holds (f : Fin n → α) (i : ℕ) (as : List α) : Prop :=
  ∀ k, (h : k < as.length) → read f (i + k) = some as[k]

theorem Holds.cons {f : Fin n → α} {i : ℕ} {a : α} {as : List α} (ha : read f i = some a)
    (has : Holds f (i + 1) as) : Holds f i (a :: as) := by
  intro k hk
  cases k with
  | zero => exact ha
  | succ k =>
      rw [← Nat.add_assoc, Nat.add_right_comm]
      exact has k (Nat.lt_of_succ_lt_succ hk)

/-- What is held is held from its second element on. -/
theorem Holds.tail {f : Fin n → α} {i : ℕ} {a : α} {as : List α} (h : Holds f i (a :: as)) :
    Holds f (i + 1) as := by
  intro k hk
  rw [Nat.add_right_comm, Nat.add_assoc]
  exact h (k + 1) (Nat.succ_lt_succ hk)

theorem Holds.head {f : Fin n → α} {i : ℕ} {a : α} {as : List α} (h : Holds f i (a :: as)) :
    read f i = some a := h 0 (Nat.succ_pos _)

/-- What is held in two runs, one after the other, is held in one. -/
theorem Holds.append {f : Fin n → α} {i : ℕ} {as bs : List α} (has : Holds f i as)
    (hbs : Holds f (i + as.length) bs) : Holds f i (as ++ bs) := by
  induction as generalizing i with
  | nil => exact hbs
  | cons a as ih =>
      refine Holds.cons has.head (ih has.tail ?_)
      rwa [Nat.add_right_comm, Nat.add_assoc]

theorem Holds.left {f : Fin n → α} {i : ℕ} {as bs : List α} (h : Holds f i (as ++ bs)) :
    Holds f i as := by
  intro k hk
  have hlong : k < (as ++ bs).length := by
    rw [List.length_append]
    exact Nat.lt_of_lt_of_le hk (Nat.le_add_right _ _)
  rw [h k hlong, List.getElem_append_left hk]

/-- What is held depends on the indices of the run alone. -/
theorem Holds.congr {f g : Fin n → α} {i : ℕ} {as : List α} (h : Holds f i as)
    (hfg : ∀ k, i ≤ k → k < i + as.length → read g k = read f k) : Holds g i as := by
  intro k hk
  rw [hfg (i + k) (Nat.le_add_right i k) (Nat.add_lt_add_left hk i)]
  exact h k hk

/-- **A run of writes** inside the array leaves the run, and everything outside it. -/
theorem writeList_spec (as : List α) :
    ∀ (i : ℕ) (f : Fin n → α), i + as.length ≤ n →
      ∃ g, writeList as i f = some g ∧ Holds g i as ∧
        ∀ k, k < i ∨ i + as.length ≤ k → read g k = read f k := by
  induction as with
  | nil => exact fun i f _ => ⟨f, rfl, fun k hk => absurd hk (Nat.not_lt_zero k), fun _ _ => rfl⟩
  | cons a as ih =>
      intro i f hfits
      rw [List.length_cons] at hfits
      obtain ⟨g, hwrite, hread⟩ := write_spec f (i := i) a (by omega)
      obtain ⟨g', hrest, hholds, hframe⟩ := ih (i + 1) g (by omega)
      refine ⟨g', ?_, Holds.cons ?_ hholds, fun k hk => ?_⟩
      · rw [writeList, hwrite, Option.bind_some, hrest]
      · rw [hframe i (Or.inl (Nat.lt_succ_self i)), hread, if_pos rfl]
      · rw [List.length_cons] at hk
        rw [hframe k (by omega), hread, if_neg (by omega)]

/-- A run of writes that leaves the array fails. -/
theorem writeList_eq_none {as : List α} (hne : as ≠ []) :
    ∀ {i : ℕ} (f : Fin n → α), n < i + as.length → writeList as i f = none := by
  induction as with
  | nil => exact absurd rfl hne
  | cons a as ih =>
      intro i f hlong
      rw [List.length_cons] at hlong
      by_cases hi : i < n
      · have hrest : as ≠ [] := by
          rintro rfl
          exact absurd hlong (by rw [List.length_nil]; omega)
        rw [writeList, write, dif_pos hi, Option.bind_some, ih hrest _ (by omega)]
      · rw [writeList, write, dif_neg hi, Option.bind_none]

/-- **A run of reads** gives what the array holds. -/
theorem readList_of_holds {f : Fin n → α} {as : List α} {i : ℕ} (h : Holds f i as) :
    readList f as.length i = some as := by
  induction as generalizing i with
  | nil => rfl
  | cons a as ih => rw [List.length_cons, readList, h.head, Option.bind_some, ih h.tail]; rfl

/-! ## Texts with a terminator

A text is written behind the last one, over its terminator, as the C functions for strings do. -/

/-- `as` and the terminator `stop`, from the index that the state holds on; the next text overwrites
the terminator. -/
def writeField (stop : α) (width : ℕ) (s : ℕ × (Fin n → α)) (as : List α) :
    Option (ℕ × (Fin n → α)) :=
  (writeList (as ++ [stop]) s.1 s.2).map fun f => (s.1 + width, f)

/-- **A run of texts** of one width inside the array leaves the texts, with one terminator. -/
theorem writeFields_spec (stop : α) {width : ℕ} (fields : List (List α)) :
    ∀ (i : ℕ) (f : Fin n → α), (∀ as ∈ fields, as.length = width) →
      i + width * fields.length + 1 ≤ n → (fields = [] → read f i = some stop) →
      ∃ g, fields.foldlM (writeField stop width) (i, f) = some (i + width * fields.length, g) ∧
        Holds g i (fields.flatten ++ [stop]) ∧ ∀ k < i, read g k = read f k := by
  induction fields with
  | nil =>
      intro i f _ _ hstop
      exact ⟨f, rfl, Holds.cons (hstop rfl) fun k hk => absurd hk (Nat.not_lt_zero k),
        fun _ _ => rfl⟩
  | cons as fields ih =>
      intro i f hwidth hfits _
      have has : as.length = width := hwidth as List.mem_cons_self
      have hlength : (as ++ [stop]).length = width + 1 := by
        rw [List.length_append, has, List.length_singleton]
      rw [List.length_cons, Nat.mul_succ] at hfits
      obtain ⟨f₁, hwrite, hholds, hframe⟩ := writeList_spec (as ++ [stop]) i f (by omega)
      have hstop : read f₁ (i + width) = some stop := by
        have hlast := hholds width (by omega)
        rw [hlast, List.getElem_append_right (by omega)]
        simp [has]
      obtain ⟨g, hrest, hgholds, hgframe⟩ := ih (i + width) f₁
        (fun bs hbs => hwidth bs (List.mem_cons_of_mem as hbs)) (by omega) fun _ => hstop
      refine ⟨g, ?_, ?_, fun k hk => ?_⟩
      · have hstep : writeField stop width (i, f) as = some (i + width, f₁) := by
          rw [writeField, hwrite, Option.map_some]
        rw [List.foldlM_cons, hstep, List.length_cons, Nat.mul_succ, Nat.add_comm (width * _),
          ← Nat.add_assoc]
        exact hrest
      · rw [List.flatten_cons, List.append_assoc]
        refine Holds.append (hholds.left.congr fun k _ hk => hgframe k (by omega)) ?_
        rw [has]
        exact hgholds
      · rw [hgframe k (by omega), hframe k (Or.inl hk)]

/-- A run of texts that leaves the array fails. -/
theorem writeFields_eq_none (stop : α) {width : ℕ} {fields : List (List α)} (hne : fields ≠ [])
    (hwidth : ∀ as ∈ fields, as.length = width) :
    ∀ {i : ℕ} (f : Fin n → α), n < i + width * fields.length + 1 →
      fields.foldlM (writeField stop width) (i, f) = none := by
  induction fields with
  | nil => exact absurd rfl hne
  | cons as fields ih =>
      intro i f hlong
      have hlength : (as ++ [stop]).length = width + 1 := by
        rw [List.length_append, hwidth as List.mem_cons_self, List.length_singleton]
      rw [List.length_cons, Nat.mul_succ] at hlong
      rw [List.foldlM_cons]
      by_cases hfirst : i + (width + 1) ≤ n
      · have hrest : fields ≠ [] := by
          rintro rfl
          exact absurd hlong (by rw [List.length_nil]; omega)
        obtain ⟨g, hwrite, -⟩ := writeList_spec (as ++ [stop]) i f (by omega)
        rw [writeField, hwrite]
        exact ih hrest (fun bs hbs => hwidth bs (List.mem_cons_of_mem as hbs)) g (by omega)
      · have hnone : writeList (as ++ [stop]) i f = none :=
          writeList_eq_none (List.append_ne_nil_of_right_ne_nil as (List.cons_ne_nil stop [])) f
            (by omega)
        rw [writeField, hnone]
        rfl

end CheckedArray
