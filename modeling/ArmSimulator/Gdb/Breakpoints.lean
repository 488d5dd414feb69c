import ArmSimulator.Util
import ArmSimulator.Library.CheckedArray
import ArmSimulator.Library.Machine
import ArmSimulator.Library.SortedTable

/-!
# Breakpoints (`gdb_protocol.c`)

The debugger's breakpoints are kept in an array of 1024 addresses, the first `breakpoints_number` of
which count and are in strictly increasing order: they are searched by halving, and shifted to make
or to close a gap.

An access to the array is `some` below 1024 and `none` beyond, where the C code leaves the array.
The loops are bounded: `gdb_find_breakpoint` by one round for each entry, and one more; the shifts
by the number of entries they move.  A search that ran out of rounds would be `none` as well.  So a
result that is `some` says two things at once, that the array was not left and that the loop has
ended.

The table is seen as a finite set of addresses.  `Sorted` is the invariant, `breakpointSet` the set,
and each of the three functions has one lemma that says what it does to the set; the facts about a
sorted array behind them, where an element goes and what a shift leaves, hold of any linear order
and are in the library.

* `breakpoints_finite_set` — after any sequence of calls the table behaves as the set that the calls
  have made: searching finds exactly its elements, adding and removing do what they do to a set, and
  a table is full at 1024.
* `add_idempotent_iff` — adding an address again changes nothing, except when it was the last one
  that there was room for: the code tests for room before it searches.
-/

namespace ArmSimulator

open SortedTable

/-- Addresses are compared as unsigned numbers. -/
instance linearOrderWord : LinearOrder Word where
  le_refl _ := Nat.le_refl _
  le_trans _ _ _ := Nat.le_trans
  lt_iff_le_not_ge x y := (lt_iff_le_not_ge : x.toNat < y.toNat ↔ _)
  le_antisymm _ _ := BitVec.le_antisymm
  le_total x y := Nat.le_total x.toNat y.toNat
  toDecidableLE := inferInstance
  toDecidableLT := inferInstance
  toDecidableEq := inferInstance

def MAX_BREAKPOINTS_NUMBER : ℕ := 1024

/-- The fields `breakpoints` and `breakpoints_number` of `struct gdb_protocol_data`. -/
structure BreakpointTable where
  breakpoints : Fin MAX_BREAKPOINTS_NUMBER → Word
  breakpointsNumber : ℕ

namespace BreakpointTable

/-- `breakpoints[i]`. -/
def read (t : BreakpointTable) (i : ℕ) : Option Word := CheckedArray.read t.breakpoints i

/-- `breakpoints[i] = value`. -/
def write (t : BreakpointTable) (i : ℕ) (value : Word) : Option BreakpointTable :=
  (CheckedArray.write t.breakpoints i value).map fun entries => { t with breakpoints := entries }

/-- The loop of `gdb_find_breakpoint`, at most `fuel` times round. -/
def findLoop (t : BreakpointTable) (address : Word) : ℕ → ℕ → ℕ → Option Int
  | 0, _, _ => none
  | fuel + 1, first, last =>
      if first < last then
        let middle := (first + last) >>> 1
        (t.read middle).bind fun entry =>
          if address < entry then t.findLoop address fuel first middle
          else if entry < address then t.findLoop address fuel (middle + 1) last
          else some middle
      else some (-1)

/-- `gdb_find_breakpoint`: the index of the address, or -1. -/
def gdbFindBreakpoint (t : BreakpointTable) (address : Word) : Option Int :=
  t.findLoop address (t.breakpointsNumber + 1) 0 t.breakpointsNumber

/-- The loop of `gdb_add_breakpoint` from index `j` down: it moves the larger entries up
and returns the index that is free. -/
def shiftUp (address : Word) : ℕ → BreakpointTable → Option (ℕ × BreakpointTable)
  | 0, t => some (0, t)
  | j + 1, t =>
      (t.read j).bind fun entry =>
        if address < entry then (t.write (j + 1) entry).bind (shiftUp address j)
        else some (j + 1, t)

/-- `gdb_add_breakpoint`.  The test for room comes first, so a full table refuses an address that it
has. -/
def gdbAddBreakpoint (t : BreakpointTable) (address : Word) : Option (Int × BreakpointTable) :=
  if t.breakpointsNumber < MAX_BREAKPOINTS_NUMBER then
    (t.gdbFindBreakpoint address).bind fun position =>
      if position ≠ -1 then some (1, t)
      else
        let j := t.breakpointsNumber
        (shiftUp address j { t with breakpointsNumber := t.breakpointsNumber + 1 }).bind
          fun r => (r.2.write r.1 address).map fun t => (1, t)
  else some (0, t)

/-- The loop of `gdb_remove_breakpoint`: `count` entries from index `j` on move down. -/
def shiftDown : ℕ → ℕ → BreakpointTable → Option BreakpointTable
  | 0, _, t => some t
  | count + 1, j, t =>
      (t.read (j + 1)).bind fun entry => (t.write j entry).bind (shiftDown count (j + 1))

/-- `gdb_remove_breakpoint`.  What stays behind the last entry is the old last one, which no longer
counts. -/
def gdbRemoveBreakpoint (t : BreakpointTable) (address : Word) : Option (Int × BreakpointTable) :=
  (t.gdbFindBreakpoint address).bind fun position =>
    if position = -1 then some (0, t)
    else
      let last := t.breakpointsNumber - 1
      (shiftDown (last - position.toNat) position.toNat
        { t with breakpointsNumber := last }).map fun t => (1, t)

/-! ## The table as a function

The library speaks of functions on numbers.  Reading and writing an index below 1024 is evaluation
and update of `entry`. -/

/-- The entries of the table, for the arguments of the library. -/
def entry (t : BreakpointTable) (i : ℕ) : Word := (t.read i).getD 0

theorem read_eq {t : BreakpointTable} {i : ℕ} (h : i < MAX_BREAKPOINTS_NUMBER) :
    t.read i = some (t.entry i) := by
  obtain ⟨value, hread⟩ := CheckedArray.read_isSome (f := t.breakpoints) h
  rw [entry, read, hread]
  rfl

theorem write_eq (t : BreakpointTable) {i : ℕ} (value : Word) (h : i < MAX_BREAKPOINTS_NUMBER) :
    ∃ t', t.write i value = some t' ∧ t'.breakpointsNumber = t.breakpointsNumber ∧
      ∀ k, t'.entry k = if k = i then value else t.entry k := by
  obtain ⟨entries, hwrite, hread⟩ := CheckedArray.write_spec t.breakpoints value h
  refine ⟨{ t with breakpoints := entries }, ?_, rfl, fun k => ?_⟩
  · rw [write, hwrite, Option.map_some]
  · rw [entry, entry, read, read, hread]
    split_ifs <;> rfl

/-- The breakpoints: the entries that count, as a set. -/
def breakpointSet (t : BreakpointTable) : Finset Word := entries t.entry t.breakpointsNumber

/-- **Invariant**: the entries fit in the array and are strictly increasing. -/
structure Sorted (t : BreakpointTable) : Prop where
  number_le : t.breakpointsNumber ≤ MAX_BREAKPOINTS_NUMBER
  increasing : StrictMonoOn t.entry (Set.Iio t.breakpointsNumber)

/-! ## Search

The search narrows a range that contains the address if the table does. -/

section Search

variable {t : BreakpointTable}

/-- **The loop of the search** narrows the range, and has rounds enough.  The induction is on the
fuel; a round halves the range. -/
theorem findLoop_spec (address : Word) (hsorted : t.Sorted) :
    ∀ (fuel first last : ℕ), last - first < fuel →
      SearchRange t.entry t.breakpointsNumber address first last →
      (∃ i : ℕ, i < t.breakpointsNumber ∧ t.entry i = address ∧
          t.findLoop address fuel first last = some (i : Int)) ∨
        (address ∉ t.breakpointSet ∧ t.findLoop address fuel first last = some (-1)) := by
  intro fuel
  induction fuel with
  | zero => exact fun first last h => absurd h (Nat.not_lt_zero _)
  | succ fuel ih =>
      intro first last hfuel hrange
      rw [findLoop]
      by_cases hlt : first < last
      · have hmiddle : (first + last) >>> 1 = (first + last) / 2 := Nat.shiftRight_one _
        have hlow : first ≤ (first + last) / 2 := by omega
        have hhigh : (first + last) / 2 < last := by omega
        have hnumber : (first + last) / 2 < t.breakpointsNumber :=
          Nat.lt_of_lt_of_le hhigh hrange.high_le
        have hread := read_eq (t := t) (Nat.lt_of_lt_of_le hnumber hsorted.number_le)
        rw [if_pos hlt, hmiddle]
        dsimp only
        rw [hread, Option.bind_some]
        rcases lt_trichotomy address (t.entry ((first + last) / 2)) with hless | heq | hgreater
        · rw [if_pos hless]
          exact ih _ _ (by omega) (hrange.left hsorted.increasing hlow hhigh hless)
        · rw [if_neg heq.not_lt, if_neg heq.not_gt]
          exact Or.inl ⟨_, hnumber, heq.symm, rfl⟩
        · rw [if_neg hgreater.not_gt, if_pos hgreater]
          exact ih _ _ (by omega) (hrange.right hsorted.increasing hhigh hgreater)
      · rw [if_neg hlt]
        exact Or.inr ⟨hrange.notMem (Nat.le_of_not_lt hlt), rfl⟩

/-- **`gdb_find_breakpoint`** finds the breakpoints and nothing else. -/
theorem gdbFindBreakpoint_spec (address : Word) (hsorted : t.Sorted) :
    (∃ i : ℕ, i < t.breakpointsNumber ∧ t.entry i = address ∧
        t.gdbFindBreakpoint address = some (i : Int)) ∨
      (address ∉ t.breakpointSet ∧ t.gdbFindBreakpoint address = some (-1)) :=
  findLoop_spec address hsorted _ _ _ (by omega) (SearchRange.start _ _ _)

end Search

/-! ## Insertion

The number of entries is raised first and the shift goes down from the new last index, so the loop
is described on a table that has one entry more than are in order. -/

/-- **The loop of the insertion** frees the index `k` above the entries that are not
larger, and moves the others up. -/
theorem shiftUp_spec (address : Word) :
    ∀ (j : ℕ) (t : BreakpointTable), j < MAX_BREAKPOINTS_NUMBER →
      ∃ k t', shiftUp address j t = some (k, t') ∧ k ≤ j ∧
        t'.breakpointsNumber = t.breakpointsNumber ∧
        (k = 0 ∨ ¬ address < t.entry (k - 1)) ∧
        (∀ i, k ≤ i → i < j → address < t.entry i) ∧
        ∀ i, i ≠ k →
          t'.entry i = if i < k ∨ j < i then t.entry i else t.entry (i - 1) := by
  intro j
  induction j with
  | zero =>
      intro t _
      refine ⟨0, t, rfl, Nat.le_refl 0, rfl, Or.inl rfl,
        fun i _ hi => absurd hi (Nat.not_lt_zero i), fun i hne => ?_⟩
      rw [if_pos (Or.inr (Nat.pos_of_ne_zero hne))]
  | succ j ih =>
      intro t hj
      rw [shiftUp, read_eq (Nat.lt_of_succ_lt hj), Option.bind_some]
      by_cases hlt : address < t.entry j
      · obtain ⟨t₁, hwrite, hnumber, hentry⟩ := write_eq t (t.entry j) hj
        obtain ⟨k, t', hshift, hk, hnumber', hstop, hlarger, hmoved⟩ := ih t₁ (Nat.lt_of_succ_lt hj)
        -- below index `j + 1` the write has changed nothing
        have hsame : ∀ i, i ≤ j → t₁.entry i = t.entry i := by
          intro i hi
          rw [hentry i, if_neg (by omega)]
        rw [if_pos hlt, hwrite, Option.bind_some]
        refine ⟨k, t', hshift, Nat.le_succ_of_le hk, hnumber'.trans hnumber, ?_, ?_, ?_⟩
        · rcases hstop with hzero | hstop
          · exact Or.inl hzero
          · rw [hsame (k - 1) (by omega)] at hstop
            exact Or.inr hstop
        · intro i hki hi
          rcases Nat.lt_succ_iff_lt_or_eq.mp hi with hij | rfl
          · rw [← hsame i (Nat.le_of_lt hij)]
            exact hlarger i hki hij
          · exact hlt
        · intro i hne
          rw [hmoved i hne]
          rcases Nat.lt_trichotomy i (j + 1) with hlow | rfl | hhigh
          · by_cases hik : i < k
            · rw [if_pos (Or.inl hik), if_pos (Or.inl hik), hsame i (by omega)]
            · rw [if_neg (by omega), if_neg (by omega), hsame (i - 1) (by omega)]
          · rw [if_pos (Or.inr (Nat.lt_succ_self j)), if_neg (by omega), hentry, if_pos rfl]
            rfl
          · rw [if_pos (Or.inr (by omega)), if_pos (Or.inr hhigh), hentry i, if_neg (by omega)]
      · rw [if_neg hlt]
        refine ⟨j + 1, t, rfl, Nat.le_refl _, rfl, Or.inr hlt, fun i hle hi => by omega,
          fun i hne => ?_⟩
        rw [if_pos (by omega)]

/-- Adding a breakpoint again, to a table that is not full. -/
theorem gdbAddBreakpoint_of_mem {t : BreakpointTable} {address : Word} (hsorted : t.Sorted)
    (hroom : t.breakpointsNumber < MAX_BREAKPOINTS_NUMBER) (hmem : address ∈ t.breakpointSet) :
    t.gdbAddBreakpoint address = some (1, t) := by
  rcases gdbFindBreakpoint_spec address hsorted with ⟨i, -, -, hfind⟩ | ⟨hnot, -⟩
  · have hne : (i : Int) ≠ -1 := by omega
    rw [gdbAddBreakpoint, if_pos hroom, hfind, Option.bind_some, if_pos hne]
  · exact absurd hmem hnot

/-- Adding an address that is not there, to a table that is not full. -/
theorem gdbAddBreakpoint_of_notMem {t : BreakpointTable} {address : Word} (hsorted : t.Sorted)
    (hroom : t.breakpointsNumber < MAX_BREAKPOINTS_NUMBER) (hnot : address ∉ t.breakpointSet) :
    ∃ t', t.gdbAddBreakpoint address = some (1, t') ∧ t'.Sorted ∧
      t'.breakpointSet = insert address t.breakpointSet := by
  have hfind : t.gdbFindBreakpoint address = some (-1) := by
    rcases gdbFindBreakpoint_spec address hsorted with ⟨i, hi, hentry, -⟩ | ⟨-, h⟩
    · exact absurd (mem_entries.mpr ⟨i, hi, hentry⟩) hnot
    · exact h
  obtain ⟨k, t₁, hshift, hk, hnumber₁, hstop, hlarger, hmoved⟩ := shiftUp_spec address
    t.breakpointsNumber { t with breakpointsNumber := t.breakpointsNumber + 1 } hroom
  obtain ⟨t₂, hwrite, hnumber₂, hentry₂⟩ := write_eq t₁ address
    (Nat.lt_of_le_of_lt hk hroom)
  have hnumber : t₂.breakpointsNumber = t.breakpointsNumber + 1 := hnumber₂.trans hnumber₁
  -- the free index is where the search for the address has ended
  have hrange : SearchRange t.entry t.breakpointsNumber address k k := by
    refine ⟨Nat.le_refl k, hk, fun i hi => ?_, hlarger⟩
    rcases hstop with rfl | hstop
    · exact absurd hi (Nat.not_lt_zero i)
    · have hle : t.entry i ≤ t.entry (k - 1) :=
        hsorted.increasing.monotoneOn (show i < t.breakpointsNumber by omega)
          (show k - 1 < t.breakpointsNumber by omega) (by omega)
      refine lt_of_le_of_ne (hle.trans (not_lt.mp hstop)) fun heq => hnot ?_
      exact mem_entries.mpr ⟨i, by omega, heq⟩
  have hentries : ∀ i < t.breakpointsNumber + 1,
      insertAt t.entry k address i = t₂.entry i := by
    intro i hi
    rw [hentry₂ i, insertAt]
    split_ifs with hlt heq heq
    · omega
    · rw [hmoved i heq, if_pos (Or.inl hlt)]
      rfl
    · rfl
    · rw [hmoved i heq, if_neg (by omega)]
      rfl
  refine ⟨t₂, ?_, ⟨?_, ?_⟩, ?_⟩
  · rw [gdbAddBreakpoint, if_pos hroom, hfind, Option.bind_some, if_neg (not_not.mpr rfl)]
    dsimp only
    rw [hshift, Option.bind_some, hwrite, Option.map_some]
  · rw [hnumber]
    exact hroom
  · rw [hnumber]
    exact (strictMonoOn_insertAt hsorted.increasing hrange).congr fun i hi => hentries i hi
  · rw [breakpointSet, hnumber, ← entries_congr hentries]
    exact entries_insertAt hk

/-- **`gdb_add_breakpoint`** adds the address, or returns 0 because the table is full. -/
theorem gdbAddBreakpoint_spec {t : BreakpointTable} (hsorted : t.Sorted) (address : Word) :
    (∃ t', t.gdbAddBreakpoint address = some (1, t') ∧ t'.Sorted ∧
        t.breakpointsNumber < MAX_BREAKPOINTS_NUMBER ∧
        t'.breakpointSet = insert address t.breakpointSet) ∨
      (t.gdbAddBreakpoint address = some (0, t) ∧
        t.breakpointsNumber = MAX_BREAKPOINTS_NUMBER) := by
  by_cases hroom : t.breakpointsNumber < MAX_BREAKPOINTS_NUMBER
  · left
    by_cases hmem : address ∈ t.breakpointSet
    · exact ⟨t, gdbAddBreakpoint_of_mem hsorted hroom hmem, hsorted, hroom,
        (Finset.insert_eq_self.mpr hmem).symm⟩
    · obtain ⟨t', hadd, hsorted', hset⟩ := gdbAddBreakpoint_of_notMem hsorted hroom hmem
      exact ⟨t', hadd, hsorted', hroom, hset⟩
  · right
    exact ⟨if_neg hroom, Nat.le_antisymm hsorted.number_le (Nat.le_of_not_lt hroom)⟩

/-! ## Removal

The entry is overwritten by the ones above it, each moved down by one. -/

/-- **The loop of the removal** moves `count` entries down. -/
theorem shiftDown_spec :
    ∀ (count j : ℕ) (t : BreakpointTable), j + count < MAX_BREAKPOINTS_NUMBER →
      ∃ t', shiftDown count j t = some t' ∧ t'.breakpointsNumber = t.breakpointsNumber ∧
        ∀ i, t'.entry i = if j ≤ i ∧ i < j + count then t.entry (i + 1) else t.entry i := by
  intro count
  induction count with
  | zero =>
      intro j t _
      refine ⟨t, rfl, rfl, fun i => ?_⟩
      rw [if_neg (by omega)]
  | succ count ih =>
      intro j t hj
      obtain ⟨t₁, hwrite, hnumber, hentry⟩ := write_eq t (i := j)
        (t.entry (j + 1)) (by omega)
      obtain ⟨t', hshift, hnumber', hmoved⟩ := ih (j + 1) t₁ (by omega)
      refine ⟨t', ?_, hnumber'.trans hnumber, fun i => ?_⟩
      · rw [shiftDown, read_eq (by omega), Option.bind_some, hwrite, Option.bind_some, hshift]
      · rw [hmoved i]
        rcases Nat.lt_trichotomy i j with hlt | rfl | hgt
        · rw [if_neg (by omega), if_neg (by omega), hentry i, if_neg (by omega)]
        · rw [if_neg (by omega), if_pos (by omega), hentry i, if_pos rfl]
        · by_cases hin : i < j + (count + 1)
          · rw [if_pos (by omega), if_pos (by omega), hentry (i + 1),
              if_neg (by omega)]
          · rw [if_neg (by omega), if_neg (by omega), hentry i, if_neg (by omega)]

/-- **`gdb_remove_breakpoint`** removes a breakpoint, and returns 0 for any other address. -/
theorem gdbRemoveBreakpoint_spec {t : BreakpointTable} (hsorted : t.Sorted) (address : Word) :
    (address ∈ t.breakpointSet ∧ ∃ t', t.gdbRemoveBreakpoint address = some (1, t') ∧ t'.Sorted ∧
        t'.breakpointSet = t.breakpointSet.erase address) ∨
      (address ∉ t.breakpointSet ∧ t.gdbRemoveBreakpoint address = some (0, t)) := by
  rcases gdbFindBreakpoint_spec address hsorted with
    ⟨position, hposition, hentry, hfind⟩ | ⟨hnot, hfind⟩
  · left
    have hle := hsorted.number_le
    obtain ⟨last, hlast⟩ : ∃ last, t.breakpointsNumber = last + 1 :=
      Nat.exists_eq_succ_of_ne_zero (by omega)
    rw [hlast] at hposition hle
    obtain ⟨t', hshift, hnumber, hmoved⟩ := shiftDown_spec (last - position) position
      { t with breakpointsNumber := last } (by omega)
    have hincreasing := hsorted.increasing
    rw [hlast] at hincreasing
    have hentries : ∀ i < last, removeAt t.entry position i = t'.entry i := by
      intro i hi
      rw [hmoved i, removeAt]
      split_ifs with hlt hmove hmove
      · omega
      · rfl
      · rfl
      · omega
    refine ⟨mem_entries.mpr ⟨position, by omega, hentry⟩, t', ?_, ⟨?_, ?_⟩, ?_⟩
    · have hne : (position : Int) ≠ -1 := by omega
      rw [gdbRemoveBreakpoint, hfind, Option.bind_some, if_neg hne, hlast]
      dsimp only
      rw [Int.toNat_natCast, Nat.add_sub_cancel, hshift, Option.map_some]
    · rw [hnumber]
      exact Nat.le_of_succ_le hle
    · rw [hnumber]
      exact (strictMonoOn_removeAt hincreasing).congr fun i hi => hentries i hi
    · rw [breakpointSet, breakpointSet, hnumber, hlast, ← entries_congr hentries, ← hentry]
      exact entries_removeAt hincreasing hposition
  · refine Or.inr ⟨hnot, ?_⟩
    rw [gdbRemoveBreakpoint, hfind, Option.bind_some, if_pos rfl]

end BreakpointTable

/-! ## Histories

Sequences of insertions and removals, from the table that `gdb_init_data` leaves.  The abstract side
is a set of at most 1024 addresses, with the full set refusing an insertion. -/

/-- A request of the debugger that concerns breakpoints. -/
inductive BreakpointCall
  | add (address : Word)
  | remove (address : Word)

/-- The breakpoint table as a machine. -/
def breakpointMachine : Machine BreakpointTable BreakpointCall where
  step t
    | .add address => (t.gdbAddBreakpoint address).map Prod.snd
    | .remove address => (t.gdbRemoveBreakpoint address).map Prod.snd

/-- The table that `gdb_init_data` leaves: no breakpoints, and in the array whatever
`malloc` has found. -/
def gdbInitBreakpoints (contents : Fin MAX_BREAKPOINTS_NUMBER → Word) : BreakpointTable where
  breakpoints := contents
  breakpointsNumber := 0

/-- What the calls should do to a set of at most 1024 addresses. -/
def BreakpointCall.apply (s : Finset Word) : BreakpointCall → Finset Word
  | add address => if s.card < MAX_BREAKPOINTS_NUMBER then insert address s else s
  | remove address => s.erase address

/-- The breakpoints after some calls. -/
def breakpointsAfter (calls : List BreakpointCall) : Finset Word :=
  calls.foldl BreakpointCall.apply ∅

/-- The table behaves as the set `s`: what the three functions return, and what they do to the set.
Nothing in it is about the places of the array, but that a search returns one. -/
structure IsFiniteSet (t : BreakpointTable) (s : Finset Word) : Prop where
  number_le : t.breakpointsNumber ≤ MAX_BREAKPOINTS_NUMBER
  increasing : StrictMonoOn t.entry (Set.Iio t.breakpointsNumber)
  find_mem : ∀ a ∈ s, ∃ i : ℕ, i < t.breakpointsNumber ∧
    t.gdbFindBreakpoint a = some (i : Int) ∧ t.read i = some a
  find_notMem : ∀ a, a ∉ s → t.gdbFindBreakpoint a = some (-1)
  add : ∀ a, (∃ t', t.gdbAddBreakpoint a = some (1, t') ∧ t'.breakpointSet = insert a s) ∨
    (t.gdbAddBreakpoint a = some (0, t) ∧ t.breakpointsNumber = MAX_BREAKPOINTS_NUMBER)
  remove_mem : ∀ a ∈ s, ∃ t', t.gdbRemoveBreakpoint a = some (1, t') ∧
    t'.breakpointSet = s.erase a
  remove_notMem : ∀ a, a ∉ s → t.gdbRemoveBreakpoint a = some (0, t)

namespace BreakpointTable

theorem Sorted.card {t : BreakpointTable} (h : t.Sorted) :
    t.breakpointSet.card = t.breakpointsNumber := card_entries h.increasing

/-- A sorted table behaves as its set of entries. -/
theorem Sorted.isFiniteSet {t : BreakpointTable} (h : t.Sorted) :
    IsFiniteSet t t.breakpointSet where
  number_le := h.number_le
  increasing := h.increasing
  find_mem a ha := by
    rcases gdbFindBreakpoint_spec a h with ⟨i, hi, hentry, hfind⟩ | ⟨hnot, -⟩
    · refine ⟨i, hi, hfind, ?_⟩
      rw [read_eq (Nat.lt_of_lt_of_le hi h.number_le), hentry]
    · exact absurd ha hnot
  find_notMem a ha := by
    rcases gdbFindBreakpoint_spec a h with ⟨i, hi, hentry, -⟩ | ⟨-, hfind⟩
    · exact absurd (mem_entries.mpr ⟨i, hi, hentry⟩) ha
    · exact hfind
  add a := by
    rcases gdbAddBreakpoint_spec h a with ⟨t', hadd, -, -, hset⟩ | hfull
    · exact Or.inl ⟨t', hadd, hset⟩
    · exact Or.inr hfull
  remove_mem a ha := by
    rcases gdbRemoveBreakpoint_spec h a with ⟨-, t', hremove, -, hset⟩ | ⟨hnot, -⟩
    · exact ⟨t', hremove, hset⟩
    · exact absurd ha hnot
  remove_notMem a ha := by
    rcases gdbRemoveBreakpoint_spec h a with ⟨hmem, -⟩ | ⟨-, hremove⟩
    · exact absurd hmem ha
    · exact hremove

/-- **Step lemma**: a call succeeds, keeps the order, and does to the set what it
should. -/
theorem Sorted.step {t : BreakpointTable} (h : t.Sorted) (call : BreakpointCall) :
    ∃ t', breakpointMachine.step t call = some t' ∧ t'.Sorted ∧
      t'.breakpointSet = call.apply t.breakpointSet := by
  cases call with
  | add a =>
      rcases gdbAddBreakpoint_spec h a with ⟨t', hadd, hsorted, hroom, hset⟩ | ⟨hadd, hfull⟩
      · refine ⟨t', congrArg (Option.map Prod.snd) hadd, hsorted, ?_⟩
        rw [BreakpointCall.apply, h.card, if_pos hroom, hset]
      · refine ⟨t, congrArg (Option.map Prod.snd) hadd, h, ?_⟩
        rw [BreakpointCall.apply, h.card, if_neg (by rw [hfull]; exact lt_irrefl _)]
  | remove a =>
      rcases gdbRemoveBreakpoint_spec h a with ⟨-, t', hremove, hsorted, hset⟩ | ⟨hnot, hremove⟩
      · exact ⟨t', congrArg (Option.map Prod.snd) hremove, hsorted, hset⟩
      · exact ⟨t, congrArg (Option.map Prod.snd) hremove, h,
          (Finset.erase_eq_of_notMem hnot).symm⟩

/-- **Run lemma.**  Every sequence of calls succeeds and leaves a sorted table, with the set that
the calls make. -/
theorem Sorted.run : ∀ {t : BreakpointTable} (calls : List BreakpointCall), t.Sorted →
    ∃ t', breakpointMachine.run t calls = some t' ∧ t'.Sorted ∧
      t'.breakpointSet = calls.foldl BreakpointCall.apply t.breakpointSet := by
  intro t calls
  induction calls generalizing t with
  | nil => exact fun h => ⟨t, rfl, h, rfl⟩
  | cons call calls ih =>
      intro h
      obtain ⟨t₁, hstep, hsorted₁, hset₁⟩ := h.step call
      obtain ⟨t', hrun, hsorted', hset'⟩ := ih hsorted₁
      refine ⟨t', ?_, hsorted', ?_⟩
      · rw [Machine.run_cons, hstep, Option.bind_some, hrun]
      · rw [hset', hset₁, List.foldl_cons]

/-- The table of `gdb_init_data` is sorted, and empty. -/
theorem sorted_gdbInitBreakpoints (contents : Fin MAX_BREAKPOINTS_NUMBER → Word) :
    (gdbInitBreakpoints contents).Sorted :=
  ⟨Nat.zero_le _, fun _ hi => absurd hi (Nat.not_lt_zero _)⟩

end BreakpointTable

/-- **The breakpoint table is a finite set.**  After every sequence of calls from
`gdb_init_data`, none of which leaves the array or loops, the table behaves as the set of
breakpoints that the calls have made. -/
theorem breakpoints_finite_set (contents : Fin MAX_BREAKPOINTS_NUMBER → Word)
    (calls : List BreakpointCall) :
    ∃ t, breakpointMachine.run (gdbInitBreakpoints contents) calls = some t ∧
      t.breakpointSet = breakpointsAfter calls ∧ IsFiniteSet t (breakpointsAfter calls) := by
  obtain ⟨t, hrun, hsorted, hset⟩ :=
    (BreakpointTable.sorted_gdbInitBreakpoints contents).run calls
  have hafter : t.breakpointSet = breakpointsAfter calls := hset
  refine ⟨t, hrun, hafter, ?_⟩
  rw [← hafter]
  exact hsorted.isFiniteSet

/-! ## Insertion twice

A table that has just become full answers the same insertion by 0, where before it was 1. -/

section Twice

open BreakpointTable

/-- An address that has been added can be added again, and nothing changes, unless it has filled
the table: the test for room comes before the search. -/
theorem BreakpointTable.Sorted.add_again_iff {t : BreakpointTable} (h : t.Sorted) (a : Word) :
    (∀ t', t.gdbAddBreakpoint a = some (1, t') → t'.gdbAddBreakpoint a = some (1, t')) ↔
      (t.breakpointsNumber + 1 = MAX_BREAKPOINTS_NUMBER → a ∈ t.breakpointSet) := by
  by_cases hroom : t.breakpointsNumber < MAX_BREAKPOINTS_NUMBER
  · by_cases hmem : a ∈ t.breakpointSet
    · have hadd := gdbAddBreakpoint_of_mem h hroom hmem
      refine iff_of_true (fun t' ht' => ?_) fun _ => hmem
      rw [hadd] at ht'
      cases ht'
      exact hadd
    · obtain ⟨t₁, hadd, hsorted, hset⟩ := gdbAddBreakpoint_of_notMem h hroom hmem
      have hnumber : t₁.breakpointsNumber = t.breakpointsNumber + 1 := by
        rw [← hsorted.card, hset, Finset.card_insert_of_notMem hmem, h.card]
      have hmem₁ : a ∈ t₁.breakpointSet := by
        rw [hset]
        exact Finset.mem_insert_self a _
      constructor
      · intro hagain hlast
        -- the table is full now
        have hfull : ¬ t₁.breakpointsNumber < MAX_BREAKPOINTS_NUMBER := by omega
        have hzero : t₁.gdbAddBreakpoint a = some (0, t₁) := if_neg hfull
        have hone := hzero.symm.trans (hagain t₁ hadd)
        exact absurd (congrArg (Option.map Prod.fst) hone) (by simp)
      · intro hlast t' ht'
        rw [hadd] at ht'
        cases ht'
        have hne : t.breakpointsNumber + 1 ≠ MAX_BREAKPOINTS_NUMBER := fun heq => hmem (hlast heq)
        exact gdbAddBreakpoint_of_mem hsorted (by omega) hmem₁
  · have hzero : t.gdbAddBreakpoint a = some (0, t) := if_neg hroom
    refine iff_of_true (fun t' ht' => ?_) fun hlast => by omega
    rw [hzero] at ht'
    exact absurd (congrArg (Option.map Prod.fst) ht') (by simp)

/-- **Insertion is idempotent, except of the last address that a table has room for.**  In every
table that the calls make, for every address. -/
theorem add_idempotent_iff (contents : Fin MAX_BREAKPOINTS_NUMBER → Word)
    (calls : List BreakpointCall) :
    ∃ t, breakpointMachine.run (gdbInitBreakpoints contents) calls = some t ∧
      ∀ a, (∀ t', t.gdbAddBreakpoint a = some (1, t') → t'.gdbAddBreakpoint a = some (1, t')) ↔
        (t.breakpointsNumber + 1 = MAX_BREAKPOINTS_NUMBER → a ∈ t.breakpointSet) := by
  obtain ⟨t, hrun, hsorted, -⟩ := (sorted_gdbInitBreakpoints contents).run calls
  exact ⟨t, hrun, hsorted.add_again_iff⟩

/-- The calls that add the addresses below `n`. -/
def addBelow (n : ℕ) : List BreakpointCall :=
  (List.range n).map fun i => .add (BitVec.ofNat 32 i)

/-- They make the breakpoints that they name, while there is room. -/
theorem breakpointsAfter_addBelow {n : ℕ} (hn : n ≤ MAX_BREAKPOINTS_NUMBER) :
    breakpointsAfter (addBelow n) = (Finset.range n).image (BitVec.ofNat 32) := by
  induction n with
  | zero => rfl
  | succ n ih =>
      have hcard : ((Finset.range n).image (BitVec.ofNat 32)).card < MAX_BREAKPOINTS_NUMBER :=
        Nat.lt_of_le_of_lt (Finset.card_image_le.trans_eq (Finset.card_range n)) hn
      have hlast : breakpointsAfter (addBelow (n + 1)) =
          BreakpointCall.apply (breakpointsAfter (addBelow n)) (.add (BitVec.ofNat 32 n)) := by
        rw [breakpointsAfter, breakpointsAfter, addBelow, addBelow, List.range_succ,
          List.map_append, List.foldl_append]
        rfl
      rw [hlast, ih (Nat.le_of_succ_le hn), BreakpointCall.apply, if_pos hcard,
        Finset.range_add_one, Finset.image_insert]

/-- A table of the first `n` addresses. -/
theorem run_addBelow (contents : Fin MAX_BREAKPOINTS_NUMBER → Word) {n : ℕ}
    (hn : n ≤ MAX_BREAKPOINTS_NUMBER) :
    ∃ t, breakpointMachine.run (gdbInitBreakpoints contents) (addBelow n) = some t ∧ t.Sorted ∧
      t.breakpointsNumber = n ∧ ∀ i < MAX_BREAKPOINTS_NUMBER,
        BitVec.ofNat 32 i ∈ t.breakpointSet ↔ i < n := by
  obtain ⟨t, hrun, hsorted, hset⟩ := (sorted_gdbInitBreakpoints contents).run (addBelow n)
  have himage : t.breakpointSet = (Finset.range n).image (BitVec.ofNat 32) :=
    Eq.trans hset (breakpointsAfter_addBelow hn)
  rw [MAX_BREAKPOINTS_NUMBER] at hn
  have hinj : ∀ i < 1024, ∀ j < 1024, BitVec.ofNat 32 i = BitVec.ofNat 32 j → i = j := by
    intro i hi j hj hij
    have hnat := congrArg BitVec.toNat hij
    simp only [BitVec.toNat_ofNat] at hnat
    omega
  refine ⟨t, hrun, hsorted, ?_, fun i hi => ?_⟩
  · rw [← hsorted.card, himage, Finset.card_image_of_injOn, Finset.card_range]
    intro i hi j hj hij
    exact hinj i ((Finset.mem_range.mp hi).trans_le hn) j ((Finset.mem_range.mp hj).trans_le hn) hij
  · rw [himage, Finset.mem_image]
    constructor
    · rintro ⟨j, hj, heq⟩
      have hlt := Finset.mem_range.mp hj
      rw [← hinj j (hlt.trans_le hn) i hi heq]
      exact hlt
    · exact fun hlt => ⟨i, Finset.mem_range.mpr hlt, rfl⟩

/-- With 1023 breakpoints, at 0 to 1022: 1023 can be added once. -/
theorem add_idempotent_counterexample :
    ¬ ∀ (contents : Fin MAX_BREAKPOINTS_NUMBER → Word) (calls : List BreakpointCall)
        (t t' : BreakpointTable) (a : Word),
      breakpointMachine.run (gdbInitBreakpoints contents) calls = some t →
        t.gdbAddBreakpoint a = some (1, t') → t'.gdbAddBreakpoint a = some (1, t') := by
  intro h
  have hn : 1023 ≤ MAX_BREAKPOINTS_NUMBER := by decide
  obtain ⟨t, hrun, hsorted, hnumber, hmem⟩ := run_addBelow (fun _ => 0) hn
  have hlast : t.breakpointsNumber + 1 = MAX_BREAKPOINTS_NUMBER := by rw [hnumber]; rfl
  have hin := (hsorted.add_again_iff (BitVec.ofNat 32 1023)).mp (fun t' => h _ _ t t' _ hrun) hlast
  exact absurd ((hmem 1023 (by decide)).mp hin) (by decide)

end Twice

end ArmSimulator
