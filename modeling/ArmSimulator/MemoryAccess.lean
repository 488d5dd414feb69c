import ArmSimulator.Memory
import ArmSimulator.Library.ByteOrder

/-!
# The six accessors of the memory

A *call* is one use of an accessor, with its arguments.  It names an address, a width and, for all
but the single bytes, a byte order.  Behind its guard every accessor does the same thing: a load
decodes the bytes at `address … address + width - 1` (`Memory.bytesAt`), a store puts the bytes of
its value there (`Memory.storeBytes`), with addresses taken modulo `2 ^ 32`.  `MemoryCall.exec_eq`
says so for all six at once.

The shifts and ors of the C code are turned into numbers in the first sections: the value of a word
is that of its four bytes in base 256 (`word_of_bytes`), and each byte of a word is one of its
digits (`byte_of_word`).  From there on everything about byte orders comes from the library module
on them, which knows nothing of this memory.

* `Memory.data_storeBytes`: what a run of stores leaves in every byte of the memory, at once the
  effect and the frame of a store.
* `memoryReadWord_memoryWriteWord`: a word that was written is read back.
* `MemoryCall.exec_eq`: what every accessor does, and that a refused call changes nothing.

The guards are the subject of the last section: each is compared there with `address + width ≤
capacity`, computed in natural numbers, under the condition that its own subtraction or addition
does not wrap.
-/

namespace ArmSimulator

open ByteOrder

/-! ## Runs of bytes

A run of bytes begins at an address and goes on modulo `2 ^ 32`.  A run longer than the address
space would meet itself, so the lemmas bound its length; the runs of the accessors have at most four
bytes, those of the debugger at most one packet. -/

namespace Memory

variable (mem : Memory)

/-- The bytes `data[address], …, data[address + n - 1]`. -/
def bytesAt (address : Word) (n : ℕ) : List Byte :=
  (List.range n).map fun k => mem.data (address + BitVec.ofNat 32 k)

@[simp] theorem length_bytesAt (address : Word) (n : ℕ) :
    (mem.bytesAt address n).length = n := by
  rw [bytesAt, List.length_map, List.length_range]

/-- `data[address] = bs[0]; data[address + 1] = bs[1]; …` -/
def storeBytes (mem : Memory) (address : Word) : List Byte → Memory
  | [] => mem
  | b :: bs => (mem.store address b).storeBytes (address + 1) bs

@[simp] theorem storeBytes_capacity (address : Word) (bs : List Byte) :
    (mem.storeBytes address bs).capacity = mem.capacity := by
  induction bs generalizing mem address with
  | nil => rfl
  | cons b bs ih => exact ih (mem.store address b) (address + 1)

/-- **What a run of stores leaves** in each byte: the byte of the run that falls on it, or
what was there. -/
theorem data_storeBytes (address : Word) (bs : List Byte) (h : bs.length ≤ 2 ^ 32) (i : Word) :
    (mem.storeBytes address bs).data i = (bs[(i - address).toNat]?).getD (mem.data i) := by
  induction bs generalizing mem address with
  | nil => simp [storeBytes]
  | cons b bs ih =>
      rw [List.length_cons] at h
      rw [storeBytes, ih (mem.store address b) (address + 1) (by omega)]
      by_cases hi : i = address
      · -- the stores that follow do not come round to the first byte
        have hzero : (i - address).toNat = 0 := by rw [hi, BitVec.sub_self]; rfl
        have hlast : bs.length ≤ (i - (address + 1)).toNat := by bv_omega
        rw [hzero, List.getElem?_eq_none hlast, List.getElem?_cons_zero]
        exact if_pos hi
      · have hnext : (i - address).toNat = (i - (address + 1)).toNat + 1 := by bv_omega
        rw [hnext, List.getElem?_cons_succ, store]
        dsimp only
        rw [if_neg hi]

/-- A byte of the run. -/
theorem data_storeBytes_add {bs : List Byte} (h : bs.length ≤ 2 ^ 32) (address : Word) {k : ℕ}
    (hk : k < bs.length) :
    (mem.storeBytes address bs).data (address + BitVec.ofNat 32 k) = bs[k] := by
  have hindex : (address + BitVec.ofNat 32 k - address).toNat = k := by
    rw [BitVec.add_comm, BitVec.add_sub_cancel, BitVec.toNat_ofNat]
    exact Nat.mod_eq_of_lt (Nat.lt_of_lt_of_le hk h)
  rw [mem.data_storeBytes address bs h, hindex, List.getElem?_eq_getElem hk, Option.getD_some]

/-- What was stored is read again, as long as the bytes do not come round to themselves. -/
theorem bytesAt_storeBytes (address : Word) (bs : List Byte) (h : bs.length ≤ 2 ^ 32) :
    (mem.storeBytes address bs).bytesAt address bs.length = bs := by
  refine List.ext_getElem (length_bytesAt _ _ _) fun k _ hk => ?_
  rw [← mem.data_storeBytes_add h address hk]
  simp only [bytesAt, List.getElem_map, List.getElem_range]

/-- The bytes from an address on, one by one. -/
theorem bytesAt_succ (address : Word) (n : ℕ) :
    mem.bytesAt address (n + 1) = mem.data address :: mem.bytesAt (address + 1) n := by
  have hnext : ∀ k, address + BitVec.ofNat 32 (k + 1) = address + 1 + BitVec.ofNat 32 k := by
    intro k
    rw [BitVec.add_assoc, BitVec.add_comm 1, BitVec.ofNat_add]
    rfl
  rw [bytesAt, List.range_succ_eq_map, List.map_cons, List.map_map, bytesAt, BitVec.add_zero]
  exact congrArg _ (List.map_congr_left fun k _ => congrArg mem.data (hnext k))

/-- A byte that is not in the run. -/
theorem data_storeBytes_of_ne {bs : List Byte} (h : bs.length ≤ 2 ^ 32) {address i : Word}
    (hi : ∀ k < bs.length, i ≠ address + BitVec.ofNat 32 k) :
    (mem.storeBytes address bs).data i = mem.data i := by
  -- an address at a distance below the length would be one of the run
  have hfar : bs.length ≤ (i - address).toNat := by
    by_contra hnear
    refine hi (i - address).toNat (Nat.lt_of_not_le hnear) ?_
    rw [BitVec.ofNat_toNat, BitVec.setWidth_eq, BitVec.add_comm, BitVec.sub_add_cancel]
  rw [mem.data_storeBytes address bs h, List.getElem?_eq_none hfar, Option.getD_none]

/-- Storing what is there changes nothing. -/
theorem store_data (address : Word) : mem.store address (mem.data address) = mem := by
  have hdata : (fun i => if i = address then mem.data address else mem.data i) = mem.data := by
    funext i
    split_ifs with hi
    · rw [hi]
    · rfl
  rw [store, hdata]

/-- The same for several bytes. -/
theorem storeBytes_bytesAt (address : Word) (n : ℕ) :
    mem.storeBytes address (mem.bytesAt address n) = mem := by
  induction n generalizing address with
  | zero => rfl
  | succ n ih => rw [bytesAt_succ, storeBytes, store_data, ih]

/-- **Stores that change nothing** are the ones of the bytes that are there. -/
theorem storeBytes_eq_self_iff {bs : List Byte} (h : bs.length ≤ 2 ^ 32) (address : Word) :
    mem.storeBytes address bs = mem ↔ bs = mem.bytesAt address bs.length := by
  constructor
  · intro hsame
    have hread := mem.bytesAt_storeBytes address bs h
    rw [hsame] at hread
    exact hread.symm
  · intro hbytes
    rw [hbytes]
    exact mem.storeBytes_bytesAt address _

end Memory

/-! ## The values of loads and stores

Bytes, half-words and words as numbers in base 256, least significant digit first. -/

/-- The byte order an `uint8_t be` asks for. -/
def order (be : Byte) : Order := if be = 0 then .little else .big

/-- A byte put above the low `k` bits of a word. -/
theorem toNat_or_byte {w k : ℕ} {x : BitVec w} {b : Byte} (hx : x.toNat < 2 ^ k)
    (hk : k + 8 ≤ w) : (x ||| b.setWidth w <<< k).toNat = x.toNat + 2 ^ k * b.toNat := by
  have hb := b.isLt
  have hbyte : 2 ^ k * b.toNat < 2 ^ w := by
    calc 2 ^ k * b.toNat < 2 ^ k * 2 ^ 8 := Nat.mul_lt_mul_of_pos_left hb (Nat.two_pow_pos k)
      _ = 2 ^ (k + 8) := (Nat.pow_add 2 k 8).symm
      _ ≤ 2 ^ w := Nat.pow_le_pow_right (by decide) hk
  have hwidth : (b.setWidth w).toNat = b.toNat := BitVec.toNat_setWidth_of_le (by omega)
  rw [BitVec.toNat_or, BitVec.toNat_shiftLeft, hwidth, Nat.shiftLeft_eq, Nat.mul_comm b.toNat,
    Nat.mod_eq_of_lt hbyte, Nat.or_comm, ← Nat.two_pow_add_eq_or_of_lt hx, Nat.add_comm]

/-- The half-word of two bytes, least significant first. -/
theorem half_of_bytes (b₀ b₁ : Byte) :
    (b₀.setWidth 16 ||| b₁.setWidth 16 <<< 8 : Half) = BitVec.ofNat 16 (value [b₀, b₁]) := by
  have h₀ := b₀.isLt
  have h₁ := b₁.isLt
  have hwidth : (b₀.setWidth 16).toNat = b₀.toNat := BitVec.toNat_setWidth_of_le (by decide)
  apply BitVec.eq_of_toNat_eq
  rw [toNat_or_byte (by omega) (by decide), hwidth, BitVec.toNat_ofNat]
  simp only [value_cons, value_nil]
  omega

/-- The word of four bytes, least significant first. -/
theorem word_of_bytes (b₀ b₁ b₂ b₃ : Byte) :
    u32 b₀ ||| u32 b₁ <<< 8 ||| u32 b₂ <<< 16 ||| u32 b₃ <<< 24 =
      BitVec.ofNat 32 (value [b₀, b₁, b₂, b₃]) := by
  have h₀ := b₀.isLt
  have h₁ := b₁.isLt
  have h₂ := b₂.isLt
  have h₃ := b₃.isLt
  have hwidth : (u32 b₀).toNat = b₀.toNat := BitVec.toNat_setWidth_of_le (by decide)
  have hor : ∀ {k : ℕ} {x : Word} (b : Byte), x.toNat < 2 ^ k → k + 8 ≤ 32 →
      (x ||| u32 b <<< k).toNat = x.toNat + 2 ^ k * b.toNat := fun _ => toNat_or_byte
  have hone : (u32 b₀ ||| u32 b₁ <<< 8).toNat = b₀.toNat + 2 ^ 8 * b₁.toNat := by
    rw [hor b₁ (by omega) (by decide), hwidth]
  have htwo : (u32 b₀ ||| u32 b₁ <<< 8 ||| u32 b₂ <<< 16).toNat =
      b₀.toNat + 2 ^ 8 * b₁.toNat + 2 ^ 16 * b₂.toNat := by
    rw [hor b₂ (by omega) (by decide), hone]
  apply BitVec.eq_of_toNat_eq
  rw [hor b₃ (by omega) (by decide), htwo, BitVec.toNat_ofNat]
  simp only [value_cons, value_nil]
  omega

/-- Byte `i` of a word, as the stores compute it. -/
theorem byte_of_word (value : Word) (i : ℕ) :
    u8 (value >>> (8 * i)) = BitVec.ofNat 8 (value.toNat / 256 ^ i) := by
  apply BitVec.eq_of_toNat_eq
  rw [u8, BitVec.toNat_setWidth, BitVec.toNat_ushiftRight, BitVec.toNat_ofNat,
    Nat.shiftRight_eq_div_pow, Nat.pow_mul]

/-- The bytes of a word, least significant first. -/
theorem digits_word (value : Word) :
    digits 4 value.toNat = [u8 (value >>> (8 * 0)), u8 (value >>> (8 * 1)),
      u8 (value >>> (8 * 2)), u8 (value >>> (8 * 3))] := by
  rw [byte_of_word, byte_of_word, byte_of_word, byte_of_word]
  simp [digits, Nat.div_div_eq_div_mul]

/-- The bytes of a half-word, least significant first. -/
theorem digits_half (value : Half) :
    digits 2 value.toNat = [value.setWidth 8, (value >>> 8).setWidth 8] := by
  have hlow : BitVec.ofNat 8 value.toNat = value.setWidth 8 := BitVec.ofNat_toNat 8 value
  have hhigh : BitVec.ofNat 8 (value.toNat / 256) = (value >>> 8).setWidth 8 := by
    apply BitVec.eq_of_toNat_eq
    rw [BitVec.toNat_setWidth, BitVec.toNat_ushiftRight, BitVec.toNat_ofNat,
      Nat.shiftRight_eq_div_pow]
  rw [digits, digits, digits, hlow, hhigh]

/-! ## The accessors

One equation for each accessor: its guard, and what is behind it in terms of runs of bytes. -/

section Accessors

variable (mem : Memory) (address : Word) (be : Byte)

/-- The functions of the source in terms of byte lists, each with its own test of the bounds:
reading a byte. -/
theorem memoryReadByte_eq :
    memoryReadByte mem address = if mem.capacity ≤ size address then none
      else some (BitVec.ofNat 8 (decode .little (mem.bytesAt address 1))) := by
  have hbyte : mem.data address = BitVec.ofNat 8 (decode .little (mem.bytesAt address 1)) := by
    have hdecode : decode .little (mem.bytesAt address 1) = (mem.data (address + 0)).toNat := rfl
    have hzero : address + 0 = address := BitVec.add_zero address
    rw [hdecode, hzero, BitVec.ofNat_toNat, BitVec.setWidth_eq]
  rw [memoryReadByte, hbyte]

/-- Reading a half word; the bound is computed with `size_t`, and wraps for a memory of no bytes. -/
theorem memoryReadHalf_eq :
    memoryReadHalf mem address be = if mem.capacity - 1 ≤ size address then none
      else some (BitVec.ofNat 16 (decode (order be) (mem.bytesAt address 2))) := by
  have hlittle := half_of_bytes (mem.data (address + 0)) (mem.data (address + 1))
  have hbig := half_of_bytes (mem.data (address + 1)) (mem.data (address + 0))
  rw [memoryReadHalf, order]
  dsimp only
  rw [hlittle, hbig]
  split_ifs <;> rfl

/-- Reading a word; here the bound wraps below three bytes. -/
theorem memoryReadWord_eq :
    memoryReadWord mem address be = if mem.capacity - 3 ≤ size address then none
      else some (BitVec.ofNat 32 (decode (order be) (mem.bytesAt address 4))) := by
  have hlittle := word_of_bytes (mem.data (address + 0)) (mem.data (address + 1))
    (mem.data (address + 2)) (mem.data (address + 3))
  have hbig := word_of_bytes (mem.data (address + 3)) (mem.data (address + 2))
    (mem.data (address + 1)) (mem.data (address + 0))
  -- the big-endian word puts the same bytes together from the other end
  have hcomm : ∀ x y z t : Word, x ||| y ||| z ||| t = t ||| z ||| y ||| x := by
    intro x y z t
    ac_rfl
  rw [memoryReadWord, order]
  dsimp only
  rw [hlittle, hcomm, hbig]
  split_ifs <;> rfl

/-- Writing a byte. -/
theorem memoryWriteByte_eq (value : Byte) :
    memoryWriteByte mem address value = if mem.capacity ≤ size address then none
      else some (mem.storeBytes address (encode .little 1 value.toNat)) := by
  have hbytes : encode .little 1 value.toNat = [value] := by
    have hdigit : encode .little 1 value.toNat = [BitVec.ofNat 8 value.toNat] := rfl
    rw [hdigit, BitVec.ofNat_toNat, BitVec.setWidth_eq]
  rw [memoryWriteByte, hbytes]
  rfl

/-- Writing a half word.  It is the address that is raised in this test, and a sum of 32 bits wraps.
-/
theorem memoryWriteHalf_eq (value : Half) :
    memoryWriteHalf mem address value be = if mem.capacity ≤ size (address + 1) then none
      else some (mem.storeBytes address (encode (order be) 2 value.toNat)) := by
  rw [memoryWriteHalf, order, encode, digits_half]
  split_ifs <;> rfl

/-- Writing a word, with the bound of the reading. -/
theorem memoryWriteWord_eq (value : Word) :
    memoryWriteWord mem address value be = if mem.capacity - 3 ≤ size address then none
      else some (mem.storeBytes address (encode (order be) 4 value.toNat)) := by
  have htwo : address + 1 + 1 = address + 2 := BitVec.add_assoc address 1 1
  have hthree : address + 2 + 1 = address + 3 := BitVec.add_assoc address 2 1
  have hstore : ∀ b₀ b₁ b₂ b₃ : Byte, mem.storeBytes address [b₀, b₁, b₂, b₃] =
      (((mem.store address b₀).store (address + 1) b₁).store (address + 2) b₂).store
        (address + 3) b₃ := by
    intro b₀ b₁ b₂ b₃
    simp only [Memory.storeBytes, htwo, hthree]
  rw [memoryWriteWord, order, encode, digits_word]
  dsimp only
  rw [← hstore, ← hstore]
  split_ifs <;> rfl

/-- **A word that was written is read back.** -/
theorem memoryReadWord_memoryWriteWord {mem' : Memory} {value : Word}
    (h : memoryWriteWord mem address value be = some mem') :
    memoryReadWord mem' address be = some value := by
  rw [memoryWriteWord_eq] at h
  split_ifs at h with hguard
  cases h
  have hlength := length_encode (order be) 4 value.toNat
  have hbytes := mem.bytesAt_storeBytes address (encode (order be) 4 value.toNat)
    (by rw [hlength]; decide)
  rw [hlength] at hbytes
  rw [memoryReadWord_eq, Memory.storeBytes_capacity, if_neg hguard, hbytes, decode_encode,
    Nat.mod_eq_of_lt (show value.toNat < 256 ^ 4 from value.isLt), BitVec.ofNat_toNat,
    BitVec.setWidth_eq]

end Accessors

/-! ## Calls

The six accessors as one type of calls, for the results that are about sequences of accesses of all
widths in both byte orders. -/

/-- A call of one of the accessors, with the arguments that it is given. -/
inductive MemoryCall
  | readByte (address : Word)
  | readHalf (address : Word) (be : Byte)
  | readWord (address : Word) (be : Byte)
  | writeByte (address : Word) (value : Byte)
  | writeHalf (address : Word) (value : Half) (be : Byte)
  | writeWord (address : Word) (value : Word) (be : Byte)

/-- What a call returns, the memory it leaves, and what it stores through the pointer
`value`. -/
structure CallResult where
  result : Int
  mem : Memory
  value : Option ℕ

namespace MemoryCall

/-- The result of a load. -/
def loaded {w : ℕ} (mem : Memory) : Option (BitVec w) → CallResult
  | some value => ⟨0, mem, some value.toNat⟩
  | none => ⟨-1, mem, none⟩

/-- The result of a store. -/
def stored (mem : Memory) : Option Memory → CallResult
  | some mem => ⟨0, mem, none⟩
  | none => ⟨-1, mem, none⟩

/-- The call, carried out. -/
def exec (mem : Memory) : MemoryCall → CallResult
  | readByte address => loaded mem (memoryReadByte mem address)
  | readHalf address be => loaded mem (memoryReadHalf mem address be)
  | readWord address be => loaded mem (memoryReadWord mem address be)
  | writeByte address value => stored mem (memoryWriteByte mem address value)
  | writeHalf address value be => stored mem (memoryWriteHalf mem address value be)
  | writeWord address value be => stored mem (memoryWriteWord mem address value be)

/-- The address of a call. -/
def address : MemoryCall → Word
  | readByte a | readHalf a _ | readWord a _ => a
  | writeByte a _ | writeHalf a _ _ | writeWord a _ _ => a

/-- The number of bytes it accesses. -/
def width : MemoryCall → ℕ
  | readByte _ | writeByte _ _ => 1
  | readHalf _ _ | writeHalf _ _ _ => 2
  | readWord _ _ | writeWord _ _ _ => 4

/-- The order it accesses them in; for a single byte either will do. -/
def byteOrder : MemoryCall → Order
  | readByte _ | writeByte _ _ => .little
  | readHalf _ be | readWord _ be | writeHalf _ _ be | writeWord _ _ be => order be

/-- The bytes that a store puts at its address; `none` for a load. -/
def bytes : MemoryCall → Option (List Byte)
  | readByte _ | readHalf _ _ | readWord _ _ => none
  | writeByte _ value => some (encode .little 1 value.toNat)
  | writeHalf _ value be => some (encode (order be) 2 value.toNat)
  | writeWord _ value be => some (encode (order be) 4 value.toNat)

/-- The guard of the accessor, as the code has it. -/
def Refused (mem : Memory) : MemoryCall → Prop
  | readByte a | writeByte a _ => mem.capacity ≤ size a
  | readHalf a _ => mem.capacity - 1 ≤ size a
  | writeHalf a _ _ => mem.capacity ≤ size (a + 1)
  | readWord a _ | writeWord a _ _ => mem.capacity - 3 ≤ size a

/-- **What every accessor does** behind its guard: a refused call returns -1 and changes nothing,
and every other one returns 0 and loads or stores exactly the bytes of its run. -/
theorem exec_eq (mem : Memory) (call : MemoryCall) :
    (call.Refused mem → call.exec mem = ⟨-1, mem, none⟩) ∧
      (¬ call.Refused mem → call.exec mem =
        match call.bytes with
        | some bs => ⟨0, mem.storeBytes call.address bs, none⟩
        | none =>
            ⟨0, mem, some (decode call.byteOrder (mem.bytesAt call.address call.width))⟩) := by
  have hvalue : ∀ (o : Order) (a : Word) (n w : ℕ), 256 ^ n = 2 ^ w →
      (BitVec.ofNat w (decode o (mem.bytesAt a n))).toNat = decode o (mem.bytesAt a n) := by
    intro o a n w hn
    have hlt := decode_lt o (mem.bytesAt a n)
    rw [Memory.length_bytesAt, hn] at hlt
    exact Nat.mod_eq_of_lt hlt
  cases call with
  | readByte a =>
      rw [exec, memoryReadByte_eq, Refused]
      refine ⟨fun h => by rw [if_pos h]; rfl, fun h => ?_⟩
      rw [if_neg h, loaded, hvalue _ _ _ _ (by decide)]
      rfl
  | readHalf a be =>
      rw [exec, memoryReadHalf_eq, Refused]
      refine ⟨fun h => by rw [if_pos h]; rfl, fun h => ?_⟩
      rw [if_neg h, loaded, hvalue _ _ _ _ (by decide)]
      rfl
  | readWord a be =>
      rw [exec, memoryReadWord_eq, Refused]
      refine ⟨fun h => by rw [if_pos h]; rfl, fun h => ?_⟩
      rw [if_neg h, loaded, hvalue _ _ _ _ (by decide)]
      rfl
  | writeByte a value =>
      rw [exec, memoryWriteByte_eq, Refused]
      exact ⟨fun h => by rw [if_pos h]; rfl, fun h => by rw [if_neg h]; rfl⟩
  | writeHalf a value be =>
      rw [exec, memoryWriteHalf_eq, Refused]
      exact ⟨fun h => by rw [if_pos h]; rfl, fun h => by rw [if_neg h]; rfl⟩
  | writeWord a value be =>
      rw [exec, memoryWriteWord_eq, Refused]
      exact ⟨fun h => by rw [if_pos h]; rfl, fun h => by rw [if_neg h]; rfl⟩

end MemoryCall

/-! ## The guards

The comparison of the code against the one that is meant, each under the hypothesis that excludes
the wrap. -/

section Guards

variable (mem : Memory) (address : Word)

/-- The guard of the single bytes. -/
theorem guard_byte :
    ¬ mem.capacity ≤ size address ↔ address.toNat + 1 ≤ mem.capacity.toNat := by
  rw [BitVec.not_le, BitVec.lt_def, toNat_size]
  exact Nat.succ_le_iff.symm

/-- The guard of `memory_read_half`, when the subtraction does not wrap. -/
theorem guard_readHalf (h : mem.capacity ≠ 0) :
    ¬ mem.capacity - 1 ≤ size address ↔ address.toNat + 2 ≤ mem.capacity.toNat := by
  have hone : (1 : BitVec 64).toNat ≤ mem.capacity.toNat := by
    have hne : mem.capacity.toNat ≠ 0 := fun hzero => h (BitVec.eq_of_toNat_eq hzero)
    exact Nat.one_le_iff_ne_zero.mpr hne
  rw [BitVec.not_le, BitVec.lt_def, toNat_size, BitVec.toNat_sub_of_le (BitVec.le_def.mpr hone)]
  simp only [BitVec.ofNat_eq_ofNat, BitVec.toNat_ofNat]
  omega

/-- The guard of `memory_read_word` and `memory_write_word`, when the subtraction does
not wrap. -/
theorem guard_word (h : 3 ≤ mem.capacity.toNat) :
    ¬ mem.capacity - 3 ≤ size address ↔ address.toNat + 4 ≤ mem.capacity.toNat := by
  have hthree : (3 : BitVec 64).toNat ≤ mem.capacity.toNat := h
  rw [BitVec.not_le, BitVec.lt_def, toNat_size, BitVec.toNat_sub_of_le (BitVec.le_def.mpr hthree)]
  simp only [BitVec.ofNat_eq_ofNat, BitVec.toNat_ofNat]
  omega

/-- The guard of `memory_write_half`, when the addition does not wrap. -/
theorem guard_writeHalf (h : address ≠ 0xFFFFFFFF) :
    ¬ mem.capacity ≤ size (address + 1) ↔ address.toNat + 2 ≤ mem.capacity.toNat := by
  have hnext : (address + 1).toNat = address.toNat + 1 := by bv_omega
  rw [guard_byte, hnext]

end Guards

end ArmSimulator
