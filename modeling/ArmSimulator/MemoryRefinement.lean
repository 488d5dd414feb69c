import ArmSimulator.MemoryBounds
import ArmSimulator.Library.LastWrite

/-!
# The memory is a flat byte array

A memory of at least 4 bytes and at most `2 ^ 32`, used through its accessors only, is an array of
bytes: a call that fits succeeds, a store overwrites the bytes of its window, and a load combines
what was last stored in each byte of its window, in the order it asks for. The one call that breaks
the array is a half-word store at `0xFFFFFFFF`, whose guard wraps; it is excluded here.

The abstract side is `lastStored`, which looks at the history of calls and at nothing of the code;
`memory_refines_flatArray` connects the two at every moment of every history.  The general part,
that the last write to a cell is what is found in it, is the rule of the library module on last
writes, and what is proved here is its hypothesis: one call overwrites the array by the write it
stands for (`exec_overwrite`).  The histories mix all widths and both byte orders freely, and a load
may lie across several stores.

The opposite byte order is part of the statement: the same load with the other flag gives the same
bytes reversed.
-/

namespace ArmSimulator

open ByteOrder LastWrite

namespace MemoryCall

/-! ## The flat array

What a call means for an array, without its guards and its shifts. -/

/-- The call fits in an array of `c` bytes. -/
def Fits (c : ℕ) (call : MemoryCall) : Prop := call.address.toNat + call.width ≤ c

instance (c : ℕ) (call : MemoryCall) : Decidable (call.Fits c) :=
  inferInstanceAs (Decidable (_ ≤ _))

/-- The write to an array of `c` bytes that a call stands for: a store that fits gives
each byte of its window a new value. -/
def write (c : ℕ) (call : MemoryCall) (i : Word) : Option Byte :=
  match call.bytes with
  | some bs =>
      if call.Fits c ∧ call.address ≤ i then bs[i.toNat - call.address.toNat]? else none
  | none => none

/-- A half-word store at the last address. -/
def IsTopHalfStore : MemoryCall → Prop
  | writeHalf address _ _ => address = 0xFFFFFFFF
  | _ => False

/-- The same load with the opposite endianness flag. -/
inductive Opposite : MemoryCall → MemoryCall → Prop
  | half (address : Word) {be be' : Byte} (h : be = 0 ↔ be' ≠ 0) :
      Opposite (readHalf address be) (readHalf address be')
  | word (address : Word) {be be' : Byte} (h : be = 0 ↔ be' ≠ 0) :
      Opposite (readWord address be) (readWord address be')

theorem length_bytes {call : MemoryCall} {bs : List Byte} (h : call.bytes = some bs) :
    bs.length = call.width := by
  cases call <;> cases h <;> exact length_encode ..

end MemoryCall

/-- The memory after some calls. -/
def runCalls (mem : Memory) (calls : List MemoryCall) : Memory :=
  calls.foldl (fun m call => (call.exec m).mem) mem

/-- The byte last stored at an address by some calls; the initial one if none did.  Calls that do
not fit store nothing. -/
def lastStored (mem : Memory) (calls : List MemoryCall) (i : Word) : Byte :=
  (lastWrite (calls.map (MemoryCall.write mem.capacity.toNat)) i).getD (mem.data i)

/-- A call on the memory `m` of a history behaves as on a flat array. -/
structure FlatArrayCall (mem : Memory) (before : List MemoryCall) (call : MemoryCall)
    (m : Memory) : Prop where
  succeeds : (call.exec m).result = 0 ↔ call.Fits mem.capacity.toNat
  failed : (call.exec m).result ≠ 0 → (call.exec m).mem = m
  stored : (call.exec m).result = 0 → ∀ bs, call.bytes = some bs → ∀ i,
    (call.exec m).mem.data i =
      if call.address ≤ i ∧ i.toNat < call.address.toNat + call.width
      then bs.getD (i.toNat - call.address.toNat) 0 else m.data i
  loaded : (call.exec m).result = 0 → call.bytes = none →
    (call.exec m).mem = m ∧ (call.exec m).value =
      some (decode call.byteOrder ((List.range call.width).map fun k =>
        lastStored mem before (call.address + BitVec.ofNat 32 k)))
  opposite : ∀ other, call.Opposite other →
    (other.exec m).value = (call.exec m).value.map (reverseBytes call.width)

/-! ## What one call does -/

section Calls

variable {m : Memory} {call : MemoryCall}

/-- The conditions on the memory and on the call: the guards are exact. -/
theorem exact_of_capacity (hlow : 4 ≤ m.capacity.toNat) (htop : ¬ call.IsTopHalfStore) :
    GuardExact m.capacity.toNat call := by
  cases call with
  | readByte a => trivial
  | writeByte a value => trivial
  | readHalf a be => exact (show m.capacity.toNat ≠ 0 by omega)
  | readWord a be => exact (show 3 ≤ m.capacity.toNat by omega)
  | writeWord a value be => exact (show 3 ≤ m.capacity.toNat by omega)
  | writeHalf a value be => exact Or.inl htop

/-- In a window that fits, the distance to the first byte does not wrap. -/
theorem getElem?_window {a i : Word} {bs : List Byte} (h : a.toNat + bs.length ≤ 2 ^ 32) :
    bs[(i - a).toNat]? = if a ≤ i then bs[i.toNat - a.toNat]? else none := by
  split_ifs with hle
  · rw [BitVec.toNat_sub_of_le hle]
  · rw [BitVec.not_le, BitVec.lt_def] at hle
    refine List.getElem?_eq_none ?_
    have hi := i.isLt
    have ha := a.isLt
    rw [BitVec.toNat_sub]
    omega

/-- **Step lemma**: a call overwrites the array by the write it stands for. -/
theorem exec_overwrite (hlow : 4 ≤ m.capacity.toNat) (hhigh : m.capacity.toNat ≤ 2 ^ 32)
    (htop : ¬ call.IsTopHalfStore) :
    (call.exec m).mem.capacity = m.capacity ∧
      (call.exec m).mem.data = overwrite m.data (call.write m.capacity.toNat) := by
  have hguard := MemoryCall.guard_iff.mpr (exact_of_capacity hlow htop)
  obtain ⟨hrefused, hdone⟩ := call.exec_eq m
  by_cases hfits : call.Refused m
  · have hnot : ¬ call.Fits m.capacity.toNat := fun h => hguard.mpr h hfits
    rw [hrefused hfits]
    refine ⟨rfl, funext fun i => ?_⟩
    rw [overwrite, MemoryCall.write]
    cases call.bytes with
    | none => rfl
    | some bs =>
        dsimp only
        rw [if_neg (fun h => hnot h.1)]
        rfl
  · have hfit : call.Fits m.capacity.toNat := hguard.mp hfits
    rw [hdone hfits]
    cases hbytes : call.bytes with
    | none =>
        refine ⟨rfl, funext fun i => ?_⟩
        rw [overwrite, MemoryCall.write, hbytes]
        rfl
    | some bs =>
        refine ⟨m.storeBytes_capacity call.address bs, funext fun i => ?_⟩
        have hlength := MemoryCall.length_bytes hbytes
        have hwindow : call.address.toNat + bs.length ≤ 2 ^ 32 := by
          rw [hlength]
          exact Nat.le_trans hfit hhigh
        dsimp only
        rw [m.data_storeBytes call.address bs (by omega) i, getElem?_window hwindow, overwrite,
          MemoryCall.write, hbytes]
        dsimp only
        simp only [hfit, true_and]

end Calls

/-! ## Histories -/

/-- **Run lemma**: after a history without half-word stores at the top, the capacity is
the initial one and every byte is the one last stored. -/
theorem runCalls_data {mem : Memory} {calls : List MemoryCall}
    (hlow : 4 ≤ mem.capacity.toNat) (hhigh : mem.capacity.toNat ≤ 2 ^ 32)
    (htop : ∀ call ∈ calls, ¬ call.IsTopHalfStore) :
    (runCalls mem calls).capacity = mem.capacity ∧
      ∀ i, (runCalls mem calls).data i = lastStored mem calls i := by
  refine foldl_view Memory.data (P := fun m => m.capacity = mem.capacity) ?_ calls mem htop rfl
  intro m call hcall hm
  obtain ⟨hcapacity, hdata⟩ := exec_overwrite (m := m) (by rw [hm]; exact hlow)
    (by rw [hm]; exact hhigh) hcall
  exact ⟨hcapacity.trans hm, by rw [hdata, hm]⟩

/-- Opposite flags ask for opposite orders. -/
theorem order_opposite {be be' : Byte} (h : be = 0 ↔ be' ≠ 0) : order be' = (order be).swap := by
  rw [order, order]
  by_cases hbe : be = 0
  · rw [if_pos hbe, if_neg (h.mp hbe)]
    rfl
  · rw [if_neg hbe, if_pos (not_not.mp (mt h.mpr hbe))]
    rfl

/-- The same load with the opposite flag decodes the same bytes in the other order. -/
theorem opposite_exec {m : Memory} {call other : MemoryCall} (h : call.Opposite other) :
    (other.exec m).value = (call.exec m).value.map (reverseBytes call.width) := by
  obtain ⟨hrefused, hdone⟩ := call.exec_eq m
  obtain ⟨hrefused', hdone'⟩ := other.exec_eq m
  have hsame : other.Refused m ↔ call.Refused m := by
    cases h <;> exact Iff.rfl
  have hloads : call.bytes = none ∧ other.bytes = none ∧ other.width = call.width ∧
      other.address = call.address ∧ other.byteOrder = call.byteOrder.swap := by
    cases h with
    | half a hbe => exact ⟨rfl, rfl, rfl, rfl, order_opposite hbe⟩
    | word a hbe => exact ⟨rfl, rfl, rfl, rfl, order_opposite hbe⟩
  obtain ⟨hcall, hother, hwidth, haddress, horder⟩ := hloads
  by_cases hfits : call.Refused m
  · rw [hrefused hfits, hrefused' (hsame.mpr hfits)]
    rfl
  · rw [hdone hfits, hdone' (mt hsame.mp hfits), hcall, hother, hwidth, haddress, horder]
    dsimp only
    rw [decode_swap, Memory.length_bytesAt]
    rfl

/-- **The memory refines a flat byte array**, at every call of every history.  The calls before it
and the call itself are any, but for half-word stores at the top. -/
theorem memory_refines_flatArray {mem : Memory} {before : List MemoryCall} {call : MemoryCall}
    (hlow : 4 ≤ mem.capacity.toNat) (hhigh : mem.capacity.toNat ≤ 2 ^ 32)
    (hbefore : ∀ c ∈ before, ¬ c.IsTopHalfStore) (hcall : ¬ call.IsTopHalfStore) :
    FlatArrayCall mem before call (runCalls mem before) := by
  obtain ⟨hcapacity, hdata⟩ := runCalls_data hlow hhigh hbefore
  generalize runCalls mem before = m at hcapacity hdata ⊢
  have hguard := MemoryCall.guard_iff.mpr
    (exact_of_capacity (m := m) (by rw [hcapacity]; exact hlow) hcall)
  have hresult : (call.exec m).result = 0 ↔ call.Fits mem.capacity.toNat := by
    rw [MemoryCall.exec_result, hguard, hcapacity]
    rfl
  refine ⟨hresult, fun hfailed => ?_, fun hdone bs hbytes i => ?_, fun hdone hbytes => ?_,
    fun other => opposite_exec⟩
  · rw [MemoryCall.exec_of_failed hfailed]
  · have hfits : call.Fits mem.capacity.toNat := hresult.mp hdone
    have hlength := MemoryCall.length_bytes hbytes
    have hwindow : call.address.toNat + bs.length ≤ 2 ^ 32 := by
      rw [hlength]
      exact Nat.le_trans hfits hhigh
    rw [(call.exec_eq m).2 (MemoryCall.exec_result.mp hdone), hbytes]
    dsimp only
    rw [m.data_storeBytes call.address bs (by omega) i, getElem?_window hwindow, ← hlength]
    by_cases hle : call.address ≤ i
    · rw [if_pos hle]
      have hnat : call.address.toNat ≤ i.toNat := BitVec.le_def.mp hle
      by_cases hlt : i.toNat < call.address.toNat + bs.length
      · have hindex : i.toNat - call.address.toNat < bs.length := by omega
        rw [if_pos ⟨hle, hlt⟩, List.getElem?_eq_getElem hindex, List.getD_eq_getElem _ _ hindex]
        rfl
      · rw [if_neg (fun h => hlt h.2), List.getElem?_eq_none (by omega)]
        rfl
    · rw [if_neg hle, if_neg (fun h => hle h.1)]
      rfl
  · rw [(call.exec_eq m).2 (MemoryCall.exec_result.mp hdone), hbytes]
    refine ⟨rfl, ?_⟩
    have hbytes : m.bytesAt call.address call.width =
        (List.range call.width).map fun k =>
          lastStored mem before (call.address + BitVec.ofNat 32 k) :=
      List.map_congr_left fun k _ => hdata _
    dsimp only
    rw [hbytes]

/-- Two stores that overlap, and a load across them: the second store wins where they
overlap. -/
theorem memory_refines_flatArray_overlap :
    FlatArrayCall (Memory.image []) [.writeWord 0 0x01020304 1, .writeHalf 1 0xA0B0 0]
      (.readWord 0 1)
      (runCalls (Memory.image []) [.writeWord 0 0x01020304 1, .writeHalf 1 0xA0B0 0]) := by
  refine memory_refines_flatArray (by decide) (by decide) ?_ id
  intro c hc htop
  simp only [List.mem_cons, List.not_mem_nil, or_false] at hc
  rcases hc with rfl | rfl
  · exact htop
  · exact absurd (show (1 : Word) = 0xFFFFFFFF from htop) (by decide)

example : ((MemoryCall.readWord 0 1).exec (runCalls (Memory.image [])
    [.writeWord 0 0x01020304 1, .writeHalf 1 0xA0B0 0])).value = some 0x01B0A004 := by decide

end ArmSimulator
