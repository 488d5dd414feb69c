import ArmSimulator.MemoryAccess

/-!
# Memory bounds

Each accessor should succeed exactly when `address + width ≤ capacity`, computed without wrapping,
and then touch no byte beyond the capacity.  Its guard is written in machine arithmetic: `capacity -
1` and `capacity - 3` wrap when the capacity is smaller, and `address + 1` wraps at the top of the
address space.  `bounds_exact_iff` says for which capacities and addresses this shows.

The result is for all six accessors at once: a call knows its guard (`MemoryCall.Refused`), and
behind it `MemoryCall.exec_eq` says what is touched.  What is left is a question for each guard
about numbers, with `MemoryAccess` giving the cases in which nothing wraps and `guard_iff` the few
others.  A capacity of 0, 1 or 2 lets nearly every word access through; the simulator's own memory
has 32768 bytes, where only the half-word store at the last address is wrong.
-/

namespace ArmSimulator

/-- The call succeeds if and only if its bytes are within the capacity, fails with `-1`, and indexes
no byte at or beyond the capacity.  The last part is memory safety of the accessor: an index is what
the C code uses on `data`. -/
structure BoundsExact (mem : Memory) (call : MemoryCall) : Prop where
  succeeds : (call.exec mem).result = 0 ↔
    call.address.toNat + call.width ≤ mem.capacity.toNat
  fails : (call.exec mem).result ≠ 0 → (call.exec mem).result = -1
  indices : (call.exec mem).result = 0 →
    ∀ k < call.width, (call.address + BitVec.ofNat 32 k).toNat < mem.capacity.toNat

/-- The capacities and addresses at which the arithmetic of the guard does not wrap, or wraps
without harm. -/
def GuardExact (capacity : ℕ) : MemoryCall → Prop
  | .readByte _ | .writeByte _ _ => True
  | .readHalf _ _ => capacity ≠ 0
  | .readWord _ _ | .writeWord _ _ _ => 3 ≤ capacity
  | .writeHalf address _ _ => address ≠ 0xFFFFFFFF ∨ capacity = 0 ∨ 2 ^ 32 < capacity

namespace MemoryCall

variable {mem : Memory} {call : MemoryCall}

theorem exec_result : (call.exec mem).result = 0 ↔ ¬ call.Refused mem := by
  obtain ⟨hrefused, hdone⟩ := exec_eq mem call
  by_cases h : call.Refused mem
  · rw [hrefused h]
    exact iff_of_false (show (-1 : Int) ≠ 0 by decide) (not_not.mpr h)
  · rw [hdone h]
    cases call.bytes <;> exact iff_of_true rfl h

/-- A call that does not succeed fails with `-1` and changes nothing. -/
theorem exec_of_failed (h : (call.exec mem).result ≠ 0) :
    call.exec mem = ⟨-1, mem, none⟩ :=
  (exec_eq mem call).1 (not_not.mp (fun hrefused => h (exec_result.mpr hrefused)))

/-- **The guard is exact** where its arithmetic does not wrap. -/
theorem guard_iff : (¬ call.Refused mem ↔ call.address.toNat + call.width ≤ mem.capacity.toNat) ↔
    GuardExact mem.capacity.toNat call := by
  -- a wrapped subtraction leaves a capacity above every address
  have hwrap : ∀ (n : BitVec 64) (a : Word), n.toNat ≤ 3 → mem.capacity.toNat < n.toNat →
      ¬ mem.capacity - n ≤ size a := by
    intro n a hn hlt
    rw [BitVec.not_le, BitVec.lt_def, toNat_size, BitVec.toNat_sub]
    have ha := a.isLt
    omega
  have hword : ∀ a : Word, (¬ mem.capacity - 3 ≤ size a ↔ a.toNat + 4 ≤ mem.capacity.toNat) ↔
      3 ≤ mem.capacity.toNat := by
    intro a
    by_cases h : 3 ≤ mem.capacity.toNat
    · exact iff_of_true (guard_word mem a h) h
    · refine iff_of_false (fun hiff => ?_) h
      have hfits := hiff.mp (hwrap 3 a (by decide) (Nat.lt_of_not_le h))
      omega
  cases call with
  | readByte a => exact iff_of_true (guard_byte mem a) trivial
  | writeByte a value => exact iff_of_true (guard_byte mem a) trivial
  | readWord a be => exact hword a
  | writeWord a value be => exact hword a
  | readHalf a be =>
      rw [Refused, GuardExact, address, width]
      by_cases h : mem.capacity = 0
      · have hzero : mem.capacity.toNat = 0 := congrArg BitVec.toNat h
        refine iff_of_false (fun hiff => ?_) (not_not.mpr hzero)
        have hfits := hiff.mp (hwrap 1 a (by decide) (by rw [hzero]; decide))
        omega
      · have hne : mem.capacity.toNat ≠ 0 := fun hzero => h (BitVec.eq_of_toNat_eq hzero)
        exact iff_of_true (guard_readHalf mem a h) hne
  | writeHalf a value be =>
      rw [Refused, GuardExact, address, width]
      by_cases ha : a = 0xFFFFFFFF
      · -- `address + 1` is 0: any capacity but 0 is accepted
        have hguard : ¬ mem.capacity ≤ size (a + 1) ↔ 0 + 1 ≤ mem.capacity.toNat := by
          rw [guard_byte, ha]
          rfl
        have hexact : (a ≠ 0xFFFFFFFF ∨ mem.capacity.toNat = 0 ∨ 2 ^ 32 < mem.capacity.toNat) ↔
            (mem.capacity.toNat = 0 ∨ 2 ^ 32 < mem.capacity.toNat) :=
          or_iff_right (not_not.mpr ha)
        have haddress : a.toNat = 2 ^ 32 - 1 := by rw [ha]; rfl
        rw [hguard, hexact, haddress]
        omega
      · exact iff_of_true (guard_writeHalf mem a ha) (Or.inl ha)

end MemoryCall

/-- **When memory bounds are exact.**  The single bytes always; `memory_read_half` unless
the capacity is 0; the words unless it is below 3; `memory_write_half` unless the address
is `0xFFFFFFFF` and the capacity between 1 and `2 ^ 32`. -/
theorem bounds_exact_iff (mem : Memory) (call : MemoryCall) :
    BoundsExact mem call ↔ GuardExact mem.capacity.toNat call := by
  rw [← MemoryCall.guard_iff, ← MemoryCall.exec_result]
  constructor
  · exact fun h => h.succeeds
  · intro h
    refine ⟨h, fun hfailed => by rw [MemoryCall.exec_of_failed hfailed], fun hdone k hk => ?_⟩
    have hfits := h.mp hdone
    calc (call.address + BitVec.ofNat 32 k).toNat
        ≤ call.address.toNat + k := by
          rw [BitVec.toNat_add, BitVec.toNat_ofNat]
          exact (Nat.mod_le _ _).trans (Nat.add_le_add_left (Nat.mod_le _ _) _)
      _ < call.address.toNat + call.width := Nat.add_lt_add_left hk _
      _ ≤ mem.capacity.toNat := hfits

/-- A half-word stored at the last address of a memory of 32768 bytes: the guard lets it
through, and the first of its bytes is out of bounds. -/
theorem bounds_exact_counterexample :
    ¬ ∀ (mem : Memory) (call : MemoryCall), BoundsExact mem call := by
  intro h
  have hindex := (h (Memory.image []) (.writeHalf 0xFFFFFFFF 0 1)).indices rfl 0 (by decide)
  exact absurd hindex (by decide)

end ArmSimulator
