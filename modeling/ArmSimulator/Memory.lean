import ArmSimulator.Util
import Mathlib.Tactic.SplitIfs

/-!
# The memory area (`memory.c`)

A memory is a capacity, a `size_t`, and the bytes behind the pointer `data`.  Every access of the
simulator is at a 32-bit index, so `data` is a function of a `Word`.  The bytes at and beyond the
capacity are whatever lies behind the allocated block: an access there is an out-of-bounds access of
the C program, and nothing in the model hides one.

The guards are computed as the C code computes them: `capacity - 1` and `capacity - 3` are `size_t`
subtractions, and `address + 1` is a `uint32_t` addition, both of which wrap.  The
accessors of half-words and words lower the capacity, but for `memory_write_half`, which raises the
address instead; what that comes to at the last addresses is the subject of `MemoryBounds`.

An accessor returns `0` or `-1`; here `some` or `none`.  What a load stores through its pointer is
the value under `some`; a load that fails stores nothing, and so its callers go on with the variable
they have.  The pointer `mem` is never `NULL`.

This module is the C code alone, byte by byte and shift by shift.  What the accessors compute as
numbers in a byte order, and which bytes a store changes, is in `MemoryAccess`.
-/

namespace ArmSimulator

/-- `struct memory_data`.  The function `data` is total; whether an address is in the block is for
the guards of the accessors to say. -/
structure Memory where
  /-- `size_t capacity`. -/
  capacity : BitVec 64
  /-- The bytes `data[i]`. -/
  data : Word → Byte

/-- A `uint32_t` compared with a `size_t`: it is converted to the wider type. -/
def size (address : Word) : BitVec 64 := address.setWidth 64

theorem toNat_size (address : Word) : (size address).toNat = address.toNat :=
  BitVec.toNat_setWidth_of_le (by decide)

/-- `memory_get_size`. -/
def memoryGetSize (mem : Memory) : BitVec 64 := mem.capacity

/-- `mem->data[address] = value`. -/
def Memory.store (mem : Memory) (address : Word) (value : Byte) : Memory :=
  { mem with data := fun i => if i = address then value else mem.data i }

/-! ## Reads

The byte order is a parameter of the accessors, as in the source, and any value but 0 is big endian.
The bytes are put together by shifts and `|`. -/

/-- `memory_read_byte`, the one read that lowers no capacity. -/
def memoryReadByte (mem : Memory) (address : Word) : Option Byte :=
  if mem.capacity ≤ size address then none
  else some (mem.data address)

/-- `memory_read_half`: two bytes put together in the order that `be` says. -/
def memoryReadHalf (mem : Memory) (address : Word) (be : Byte) : Option Half :=
  if mem.capacity - 1 ≤ size address then none
  else
    let byte (i : Word) : Half := (mem.data (address + i)).setWidth 16
    if be = 0 then some (byte 0 ||| (byte 1 <<< 8))
    else some (byte 1 ||| (byte 0 <<< 8))

/-- `memory_read_word`: four bytes, in the order that `be` says. -/
def memoryReadWord (mem : Memory) (address : Word) (be : Byte) : Option Word :=
  if mem.capacity - 3 ≤ size address then none
  else
    let byte (i : Word) : Word := u32 (mem.data (address + i))
    if be = 0 then
      some (byte 0 ||| (byte 1 <<< 8) ||| (byte 2 <<< 16) ||| (byte 3 <<< 24))
    else
      some ((byte 0 <<< 24) ||| (byte 1 <<< 16) ||| (byte 2 <<< 8) ||| byte 3)

/-! ## Writes

The order in which the bytes are stored is that of the source.  It cannot be seen, since the
addresses of one access differ. -/

/-- `memory_write_byte`. -/
def memoryWriteByte (mem : Memory) (address : Word) (value : Byte) : Option Memory :=
  if mem.capacity ≤ size address then none
  else some (mem.store address value)

/-- `memory_write_half`; the guard adds `1` to the address in 32 bits. -/
def memoryWriteHalf (mem : Memory) (address : Word) (value : Half) (be : Byte) :
    Option Memory :=
  if mem.capacity ≤ size (address + 1) then none
  else
    let low : Byte := value.setWidth 8
    let high : Byte := (value >>> 8).setWidth 8
    if be = 0 then some ((mem.store address low).store (address + 1) high)
    else some ((mem.store address high).store (address + 1) low)

/-- `memory_write_word`. -/
def memoryWriteWord (mem : Memory) (address : Word) (value : Word) (be : Byte) :
    Option Memory :=
  if mem.capacity - 3 ≤ size address then none
  else
    let b (i : ℕ) : Byte := u8 (value >>> (8 * i))
    if be = 0 then
      some ((((mem.store address (b 0)).store (address + 1) (b 1)).store
        (address + 2) (b 2)).store (address + 3) (b 3))
    else
      some ((((mem.store address (b 3)).store (address + 1) (b 2)).store
        (address + 2) (b 1)).store (address + 3) (b 0))

/-! ## Programs

The contents of a memory in the examples below. -/

/-- A memory of `32768` bytes, the size `main` creates, that holds the words of a program from
address `0`, big endian, and zeros after it. -/
def Memory.image (words : List Word) : Memory where
  capacity := 0x8000
  data i := u8 (words.getD (i.toNat / 4) 0 >>> (8 * (3 - i.toNat % 4)))

/-! ## When a read succeeds -/

theorem memoryReadWord_isSome {mem : Memory} {address : Word} {be : Byte} :
    (memoryReadWord mem address be).isSome = true ↔ ¬ mem.capacity - 3 ≤ size address := by
  unfold memoryReadWord
  dsimp only
  split_ifs with hguard
  · exact iff_of_false (by simp) (not_not.mpr hguard)
  · exact iff_of_true rfl hguard
  · exact iff_of_true rfl hguard

/-- The addresses of readable words are downward closed. -/
theorem memoryReadWord_isSome_of_le {mem : Memory} {low high : Word} {be : Byte}
    (hle : low.toNat ≤ high.toNat) (h : (memoryReadWord mem high be).isSome = true) :
    (memoryReadWord mem low be).isSome = true := by
  rw [memoryReadWord_isSome] at h ⊢
  intro hlow
  refine h (BitVec.le_def.mpr (Nat.le_trans (BitVec.le_def.mp hlow) ?_))
  rw [toNat_size, toNat_size]
  exact hle

end ArmSimulator
