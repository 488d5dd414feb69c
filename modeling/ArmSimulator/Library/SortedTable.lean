import Mathlib.Data.Finset.Card
import Mathlib.Data.Finset.Image
import Mathlib.Data.Set.Monotone
import Mathlib.Order.Interval.Set.Defs
import Mathlib.Tactic.Common

/-!
# Finite sets as sorted tables

A finite set of a linear order can be kept as the first `n` entries of a table, in strictly
increasing order.  This file has what programs on such a table need, whatever their loops look like:

* `entries` — the set that a table stands for; a strictly increasing table of `n` entries stands for
  a set of `n` elements (`card_entries`).
* `SearchRange` — the invariant of a binary search for `a`: what is below the interval is smaller
  than `a`, what is above it larger.  Both halvings keep it, and an empty interval means that `a` is
  not in the set (`SearchRange.notMem`).
* `insertAt` — the table with `a` put at the place the search has found, everything after it moved
  up by one; and `removeAt`, the reverse.  Both keep the order, and they insert and erase.

A table is a function on all indices, of which the first `n` count; the bounds of the array that a
program keeps it in are a matter of that program.  A loop that shifts entries is compared with
`insertAt` or `removeAt` as a whole, after which nothing is left of the loop but the table it has
made.
-/

universe u

namespace SortedTable

variable {α : Type u} [LinearOrder α] {f g : ℕ → α} {n k : ℕ} {a : α}

/-- The set of the first `n` entries of a table. -/
def entries (f : ℕ → α) (n : ℕ) : Finset α := (Finset.range n).image f

/-- An entry is a value at one of the first `n` places. -/
theorem mem_entries : a ∈ entries f n ↔ ∃ i < n, f i = a := by
  simp only [entries, Finset.mem_image, Finset.mem_range]

/-- The entries beyond the `n`-th do not count. -/
theorem entries_congr (h : ∀ i < n, f i = g i) : entries f n = entries g n :=
  Finset.image_congr fun i hi => h i (Finset.mem_range.mp hi)

/-- Strictly increasing entries are all different. -/
theorem card_entries (h : StrictMonoOn f (Set.Iio n)) : (entries f n).card = n := by
  have hinj : Set.InjOn f (Finset.range n) := by
    rw [Finset.coe_range]
    exact h.injOn
  rw [entries, Finset.card_image_of_injOn hinj, Finset.card_range]

/-! ## Search

The invariant says nothing of how the middle is chosen. -/

/-- The element `a` can only be at an index from `low` to `high - 1`. -/
structure SearchRange (f : ℕ → α) (n : ℕ) (a : α) (low high : ℕ) : Prop where
  le : low ≤ high
  high_le : high ≤ n
  below : ∀ i < low, f i < a
  above : ∀ i, high ≤ i → i < n → a < f i

namespace SearchRange

variable {low high middle : ℕ}

/-- At first nothing is excluded. -/
theorem start (f : ℕ → α) (n : ℕ) (a : α) : SearchRange f n a 0 n :=
  ⟨Nat.zero_le n, Nat.le_refl n, fun i hi => absurd hi (Nat.not_lt_zero i),
    fun _ hle hlt => absurd hlt (Nat.not_lt.mpr hle)⟩

/-- A larger entry in the middle: go on below it. -/
theorem left (h : SearchRange f n a low high) (hmono : StrictMonoOn f (Set.Iio n))
    (hlow : low ≤ middle) (hhigh : middle < high) (hlt : a < f middle) :
    SearchRange f n a low middle := by
  have hmiddle : middle < n := Nat.lt_of_lt_of_le hhigh h.high_le
  refine ⟨hlow, Nat.le_of_lt hmiddle, h.below, fun i hle hi => ?_⟩
  exact lt_of_lt_of_le hlt (hmono.monotoneOn hmiddle hi hle)

/-- A smaller entry in the middle: go on above it. -/
theorem right (h : SearchRange f n a low high) (hmono : StrictMonoOn f (Set.Iio n))
    (hhigh : middle < high) (hlt : f middle < a) : SearchRange f n a (middle + 1) high := by
  have hmiddle : middle < n := Nat.lt_of_lt_of_le hhigh h.high_le
  refine ⟨hhigh, h.high_le, fun i hi => ?_, h.above⟩
  have hle : i ≤ middle := Nat.le_of_lt_succ hi
  exact lt_of_le_of_lt (hmono.monotoneOn (Nat.lt_of_le_of_lt hle hmiddle) hmiddle hle) hlt

/-- Nothing left: the element is not there. -/
theorem notMem (h : SearchRange f n a low high) (hempty : high ≤ low) : a ∉ entries f n := by
  rw [mem_entries]
  rintro ⟨i, hi, rfl⟩
  rcases Nat.lt_or_ge i low with hlow | hhigh
  · exact lt_irrefl _ (h.below i hlow)
  · exact lt_irrefl _ (h.above i (Nat.le_trans hempty hhigh) hi)

end SearchRange

/-! ## Insertion

The place is one at which the search has ended without finding the element. -/

/-- The table with `a` at index `k`, and the entries from there on one index higher. -/
def insertAt (f : ℕ → α) (k : ℕ) (a : α) (i : ℕ) : α :=
  if i < k then f i else if i = k then a else f (i - 1)

/-- Put where the search ends, the new value keeps the table sorted. -/
theorem strictMonoOn_insertAt (hmono : StrictMonoOn f (Set.Iio n)) (h : SearchRange f n a k k) :
    StrictMonoOn (insertAt f k a) (Set.Iio (n + 1)) := by
  have hkn := h.high_le
  intro i _ j hj hij
  have hj' : j < n + 1 := hj
  unfold insertAt
  split_ifs with hik hjk hjk' hik' hjk hjk'
  · exact hmono (Nat.lt_of_lt_of_le hik hkn) (Nat.lt_of_lt_of_le hjk hkn) hij
  · exact h.below i hik
  · exact hmono (Nat.lt_of_lt_of_le hik hkn) (show j - 1 < n by omega) (by omega)
  · omega
  · omega
  · exact h.above (j - 1) (by omega) (by omega)
  · omega
  · omega
  · exact hmono (show i - 1 < n by omega) (show j - 1 < n by omega) (by omega)

/-- Inserting adds one entry and loses none, wherever the place is. -/
theorem entries_insertAt (hk : k ≤ n) :
    entries (insertAt f k a) (n + 1) = insert a (entries f n) := by
  ext b
  rw [Finset.mem_insert, mem_entries, mem_entries]
  constructor
  · rintro ⟨i, hi, rfl⟩
    unfold insertAt
    split_ifs with hlt heq
    · exact Or.inr ⟨i, by omega, rfl⟩
    · exact Or.inl rfl
    · exact Or.inr ⟨i - 1, by omega, rfl⟩
  · rintro (rfl | ⟨i, hi, rfl⟩)
    · refine ⟨k, Nat.lt_succ_of_le hk, ?_⟩
      rw [insertAt, if_neg (Nat.lt_irrefl k), if_pos rfl]
    · rcases Nat.lt_or_ge i k with hlt | hge
      · exact ⟨i, Nat.lt_succ_of_lt hi, if_pos hlt⟩
      · refine ⟨i + 1, Nat.succ_lt_succ hi, ?_⟩
        rw [insertAt, if_neg (by omega), if_neg (by omega), Nat.add_sub_cancel]

/-! ## Removal

The index is any one of the table. -/

/-- The table without index `k`, and the entries after it one index lower. -/
def removeAt (f : ℕ → α) (k : ℕ) (i : ℕ) : α := if i < k then f i else f (i + 1)

/-- A table stays sorted when a place is taken out of it. -/
theorem strictMonoOn_removeAt (hmono : StrictMonoOn f (Set.Iio (n + 1))) :
    StrictMonoOn (removeAt f k) (Set.Iio n) := by
  intro i _ j hj hij
  have hj' : j < n := hj
  unfold removeAt
  split_ifs with hik hjk
  · exact hmono (show i < n + 1 by omega) (show j < n + 1 by omega) hij
  · exact hmono (show i < n + 1 by omega) (show j + 1 < n + 1 by omega) (by omega)
  · omega
  · exact hmono (show i + 1 < n + 1 by omega) (show j + 1 < n + 1 by omega) (by omega)

/-- Removing takes away one entry; a sorted table holds it only once, so it is gone. -/
theorem entries_removeAt (hmono : StrictMonoOn f (Set.Iio (n + 1))) (hk : k < n + 1) :
    entries (removeAt f k) n = (entries f (n + 1)).erase (f k) := by
  have hne : ∀ i, i < n + 1 → i ≠ k → f i ≠ f k := fun i hi hik hf =>
    hik (hmono.injOn hi hk hf)
  ext b
  rw [Finset.mem_erase, mem_entries, mem_entries]
  constructor
  · rintro ⟨i, hi, rfl⟩
    unfold removeAt
    split_ifs with hlt
    · exact ⟨hne i (by omega) (by omega), i, by omega, rfl⟩
    · exact ⟨hne (i + 1) (by omega) (by omega), i + 1, by omega, rfl⟩
  · rintro ⟨hb, i, hi, rfl⟩
    have hik : i ≠ k := fun hik => hb (by rw [hik])
    rcases Nat.lt_or_ge i k with hlt | hge
    · exact ⟨i, by omega, if_pos hlt⟩
    · refine ⟨i - 1, by omega, ?_⟩
      rw [removeAt, if_neg (by omega), Nat.sub_add_cancel (by omega)]

end SortedTable
