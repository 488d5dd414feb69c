import ArmSimulator.Gdb.GeneralRegisters
import ArmSimulator.Gdb.Requests
import ArmSimulator.Library.Escaping
import ArmSimulator.MemoryAccess

/-!
# The packets `m` and `X` (`gdb_protocol.c`)

A request `m a,n` is answered by the bytes of the memory in hexadecimal, as many of the `n` as there
are before its end; the bytes of a request `X a,n:` are written one by one, until `n` are written or
a write fails.

Both loops go as far as `reach`, the number of accesses from an address on before the first one that
is outside the memory.  It has two closed forms, for a memory that has every address of a word, and
for a smaller one, whose end is reached before the addresses wrap; with them each loop is an
equation, `readMemoryLoop_eq` and `writeMemoryLoop_eq`, and what follows is arithmetic.

* `readMemory_fits` and `readMemory_eq_none`, what an `m` is answered; `writeMemoryBinary_inside`,
  what an `X` stores, and `writeMemoryBinary_cases`, what one that is answered has done.
* `download_read_back`: a download that fits is answered by `OK`, stores its bytes and no other, and
  is read back.
* `rejected_download_unchanged_iff`: when a download that is not answered by `OK` leaves the memory
  as it was; the range check is one of the first address.
* `read_memory_fits_iff`: when the answer to an `m` fits `packet`.

The answer is printed into `packet` without a check of its room, and 2045 bytes are the most for
which there is any; behind `packet` in the structure are the breakpoints.  An access behind `packet`
is a failure of the model.

The content of an `X` begins after the colon.  In a request without one the pointer is `NULL + 1`;
it is a failure where a character is read through it, and no failure when nothing is read.
-/

namespace ArmSimulator

open CheckedArray TextFields

/-! ## The handlers

The loops are on the count, so they need no fuel.  A character that is `}` is dropped and the next
one is taken with a bit of it changed, by which the delimiters of packets can be in a content. -/

/-- The loop of `read_memory`, from an index of `packet`.  Two digits and a NUL are printed for each
byte, each over the NUL of the one before. -/
def readMemoryLoop (mem : Memory) :
    ℕ → Word → ℕ × (Fin MAX_PACKET_SIZE → Byte) → Option (ℕ × (Fin MAX_PACKET_SIZE → Byte))
  | 0, _, s => some s
  | count + 1, address, s =>
      match memoryReadByte mem address with
      | some value =>
          (writeField 0 2 s (hexByte value)).bind (readMemoryLoop mem count (address + 1))
      | none => some s

/-- The character `}` before an escaped one. -/
def ESCAPE : Byte := 0x7d

/-- `*content ^ (char) 0x20`. -/
def escaped (c : Byte) : Byte := c ^^^ 0x20

/-- The loop of `write_memory_binary`, with `write_ok`.  The byte is decoded before its write is
tried, and the loop ends after a write that fails. -/
def writeMemoryLoop : ℕ → Memory → Word → List Byte → Bool → Option (Memory × Bool)
  | 0, mem, _, _, writeOk => some (mem, writeOk)
  | count + 1, mem, address, content, writeOk =>
      if writeOk then
        (Escaping.next ESCAPE escaped content).bind fun s =>
          match memoryWriteByte mem address s.1 with
          | some mem => writeMemoryLoop count mem (address + 1) s.2 true
          | none => writeMemoryLoop count mem (address + 1) s.2 false
      else some (mem, writeOk)

/-- `index(data, ':') + 1`, a place that only the loop reads: nothing is there when the request has
no colon. -/
def downloadContent (data : List Byte) : List Byte := (afterIndex (chr ':') data).getD []

namespace Gdb

/-- `read_memory`.  The address is compared with the size of the memory once; past it the answer is
`E0E`, since `EFAULT` is 14. -/
def readMemory : GdbHandler := fun g data => do
  let request ← scanPair data
  let packet ←
    if size request.1 < memoryGetSize g.arm.mem then
      (write g.packet 1 0).bind fun packet =>
        (readMemoryLoop g.arm.mem request.2.toNat request.1 (1, packet)).map Prod.snd
    else writeList (str "E0E" ++ [0]) 1 g.packet
  gdbSendBuffer { g with packet := packet }

/-- `write_memory_binary`.  The address is compared with the size of the memory once, for the first
byte; each write is checked by itself. -/
def writeMemoryBinary : GdbHandler := fun g data => do
  let request ← scanPair data
  let written ← writeMemoryLoop request.2.toNat g.arm.mem request.1 (downloadContent data)
    (size request.1 < memoryGetSize g.arm.mem)
  gdbSendData { g with arm := { g.arm with mem := written.1 } }
    (if written.2 then str "OK" else str "E02")

end Gdb

/-! ## The end of the memory

Accesses are checked one by one and addresses are words, so a run of accesses ends at the first
address that the memory does not have, or never. -/

namespace Memory

/-- How many of `count` accesses to an address and the ones after it are in the memory, before the
first one that is not. -/
def reach (mem : Memory) : ℕ → Word → ℕ
  | 0, _ => 0
  | count + 1, address =>
      if size address < memoryGetSize mem then mem.reach count (address + 1) + 1 else 0

section Reach

variable (mem : Memory)

/-- The test of the source compares numbers of `size_t`; here it is one of natural numbers. -/
theorem size_lt_iff (address : Word) :
    size address < memoryGetSize mem ↔ address.toNat < mem.capacity.toNat := by
  rw [BitVec.lt_def, toNat_size, memoryGetSize]

/-- The end of a memory is its capacity. -/
theorem reach_congr {mem' : Memory} (h : mem'.capacity = mem.capacity) (count : ℕ)
    (address : Word) : mem'.reach count address = mem.reach count address := by
  induction count generalizing address with
  | zero => rfl
  | succ count ih => rw [reach, reach, memoryGetSize, memoryGetSize, h, ih]

/-- A memory that has all the addresses has no end. -/
theorem reach_of_le (hall : 2 ^ 32 ≤ mem.capacity.toNat) (count : ℕ) (address : Word) :
    mem.reach count address = count := by
  induction count generalizing address with
  | zero => rfl
  | succ count ih =>
      have hinside : address.toNat < mem.capacity.toNat := address.isLt.trans_le hall
      rw [reach, if_pos ((mem.size_lt_iff address).mpr hinside), ih]

/-- The end of a smaller memory is reached before the addresses wrap. -/
theorem reach_of_lt (hsmall : mem.capacity.toNat < 2 ^ 32) (count : ℕ) (address : Word) :
    mem.reach count address = min count (mem.capacity.toNat - address.toNat) := by
  induction count generalizing address with
  | zero => exact (Nat.zero_min _).symm
  | succ count ih =>
      rw [reach]
      split_ifs with hinside
      · rw [size_lt_iff] at hinside
        have hnext : (address + 1).toNat = address.toNat + 1 :=
          BitVec.toNat_add_of_lt (by simp only [BitVec.ofNat_eq_ofNat, BitVec.toNat_ofNat]; omega)
        rw [ih, hnext]
        omega
      · rw [size_lt_iff] at hinside
        omega

/-- All of a run that ends inside the memory. -/
theorem reach_eq_of_fits {count : ℕ} {address : Word}
    (hfits : address.toNat + count ≤ mem.capacity.toNat) : mem.reach count address = count := by
  by_cases hall : 2 ^ 32 ≤ mem.capacity.toNat
  · exact mem.reach_of_le hall count address
  · rw [mem.reach_of_lt (Nat.lt_of_not_le hall)]
    omega

end Reach

end Memory

/-! ## The loops

What a loop does is said by the first `reach` bytes, to read or to write.  The inductions are on the
count, for any address and any place in the text. -/

/-- **The loop of `read_memory`** prints the bytes that it reaches. -/
theorem readMemoryLoop_eq (mem : Memory) (count : ℕ) (address : Word)
    (s : ℕ × (Fin MAX_PACKET_SIZE → Byte)) :
    readMemoryLoop mem count address s =
      ((mem.bytesAt address (mem.reach count address)).map hexByte).foldlM (writeField 0 2) s := by
  induction count generalizing address s with
  | zero => rfl
  | succ count ih =>
      rw [readMemoryLoop, memoryReadByte, Memory.reach]
      by_cases hinside : size address < memoryGetSize mem
      · have hread : ¬ mem.capacity ≤ size address := BitVec.not_le.mpr hinside
        rw [if_pos hinside, if_neg hread, Memory.bytesAt_succ, List.map_cons, List.foldlM_cons]
        exact congrArg ((writeField 0 2 s (hexByte (mem.data address))).bind ·)
          (funext fun s => ih (address + 1) s)
      · have hfail : mem.capacity ≤ size address := BitVec.not_lt.mp hinside
        rw [if_neg hinside, if_pos hfail]
        rfl

/-- Once a store has failed the loop stores nothing more. -/
theorem writeMemoryLoop_false (count : ℕ) (mem : Memory) (address : Word) (content : List Byte) :
    writeMemoryLoop count mem address content false = some (mem, false) := by
  cases count <;> rfl

/-- **The loop of `write_memory_binary`** stores the bytes that it reaches.  It takes one more from
the text when the memory ends before the count. -/
theorem writeMemoryLoop_eq (count : ℕ) (mem : Memory) (address : Word) (content : List Byte) :
    writeMemoryLoop count mem address content true =
      (Escaping.decode ESCAPE escaped (min count (mem.reach count address + 1)) content).map
        fun bytes => (mem.storeBytes address (bytes.take (mem.reach count address)),
          decide (count ≤ mem.reach count address)) := by
  induction count generalizing mem address content with
  | zero => rfl
  | succ count ih =>
      rw [writeMemoryLoop, if_pos rfl, Nat.add_min_add_right, Escaping.decode]
      cases Escaping.next ESCAPE escaped content with
      | none => rfl
      | some s =>
          rw [Option.bind_some, Option.bind_some, memoryWriteByte, Memory.reach]
          by_cases hinside : size address < memoryGetSize mem
          · have hwrite : ¬ mem.capacity ≤ size address := BitVec.not_le.mpr hinside
            have hreach : (mem.store address s.1).reach count (address + 1) =
                mem.reach count (address + 1) :=
              @Memory.reach_congr mem (mem.store address s.1) rfl count (address + 1)
            rw [if_pos hinside, if_neg hwrite]
            dsimp only
            rw [ih, hreach, Option.map_map]
            refine congrArg (Option.map · _) (funext fun bytes => Prod.ext rfl ?_)
            simp
          · have hfail : mem.capacity ≤ size address := BitVec.not_lt.mp hinside
            rw [if_neg hinside, if_pos hfail, Nat.min_zero]
            exact writeMemoryLoop_false count mem (address + 1) s.2

/-! ## The answers

Each handler has two outcomes inside the memory and one outside.  The three together say what every
request with an address and a count does. -/

/-- The answer of `read_memory` outside the memory. -/
def faultPayload : Payload where
  bytes := str "E0E"
  ne_nil := by decide
  ne_nul := by decide
  ne_delimiter := by decide
  length_le := by decide

/-- The answer to a download that is rejected. -/
def rejectedPayload : Payload where
  bytes := str "E02"
  ne_nil := by decide
  ne_nul := by decide
  ne_delimiter := by decide
  length_le := by decide

/-- Bytes in hexadecimal. -/
def hexText (bytes : List Byte) : List Byte := bytes.flatMap hexByte

/-- Two digits a byte. -/
theorem width_of_mem_hexBytes {bytes : List Byte} : ∀ f ∈ bytes.map hexByte, f.length = 2 := by
  intro f hf
  obtain ⟨b, -, rfl⟩ := List.mem_map.mp hf
  rfl

/-- The text of bytes is twice as long. -/
theorem length_hexText (bytes : List Byte) : (hexText bytes).length = 2 * bytes.length := by
  rw [hexText, List.flatMap_def, length_flatten width_of_mem_hexBytes, List.length_map]

/-- No digit is the character that ends a string. -/
theorem ne_nul_of_mem_hexText {bytes : List Byte} : ∀ c ∈ hexText bytes, c ≠ 0 := by
  intro c hc
  obtain ⟨b, -, hb⟩ := List.mem_flatMap.mp hc
  have hlt := b.isLt
  rw [hexByte, List.mem_pair] at hb
  rcases hb with rfl | rfl
  · exact (digitChar_ne (by omega)).1
  · exact (digitChar_ne (by omega)).1

namespace Gdb

section Reader

variable (g : Gdb) {data : List Byte} {address count : Word}

/-- The bytes that an `m` reads. -/
def bytesRead (address count : Word) : List Byte :=
  g.arm.mem.bytesAt address (g.arm.mem.reach count.toNat address)

/-- **`m` outside the memory** is answered by an error. -/
theorem readMemory_outside (hrequest : scanPair data = some (address, count))
    (hout : g.arm.mem.capacity.toNat ≤ address.toNat) :
    ∃ packet, g.readMemory data = some { g with
      packet := packet
      len := (frame (str "E0E")).length
      sent := g.sent ++ frame (str "E0E") } := by
  have hsize : ¬ size address < memoryGetSize g.arm.mem := by
    rw [Memory.size_lt_iff]
    omega
  obtain ⟨packet, hsend⟩ := gdbSendData_spec faultPayload g
  refine ⟨packet, ?_⟩
  simp only [readMemory, Option.bind_eq_bind, hrequest, Option.bind_some, if_neg hsize]
  exact hsend

/-- The loop of an `m` inside the memory. -/
theorem readMemory_inside (hrequest : scanPair data = some (address, count))
    (hinside : address.toNat < g.arm.mem.capacity.toNat) :
    ∃ packet, read packet 1 = some 0 ∧
      g.readMemory data =
        (((g.bytesRead address count).map hexByte).foldlM (writeField 0 2) (1, packet)).bind
          fun s => gdbSendBuffer { g with packet := s.2 } := by
  obtain ⟨packet, hwrite, hread⟩ := write_spec g.packet (i := 1) (0 : Byte) (by decide)
  refine ⟨packet, by rw [hread, if_pos rfl], ?_⟩
  simp only [readMemory, Option.bind_eq_bind, hrequest, Option.bind_some,
    if_pos ((Memory.size_lt_iff _ _).mpr hinside), hwrite, readMemoryLoop_eq, bytesRead]
  rw [Option.bind_map]
  rfl

/-- The text that the loop leaves when there is room for it. -/
theorem readMemory_printed (hrequest : scanPair data = some (address, count))
    (hinside : address.toNat < g.arm.mem.capacity.toNat)
    (hroom : (g.bytesRead address count).length ≤ 2047) :
    ∃ packet, CheckedArray.Holds packet 1 (hexText (g.bytesRead address count) ++ [0]) ∧
      g.readMemory data = gdbSendBuffer { g with packet := packet } := by
  obtain ⟨packet, hnul, hread⟩ := g.readMemory_inside hrequest hinside
  obtain ⟨printed, hprint, hholds, -⟩ := writeFields_spec (0 : Byte)
    ((g.bytesRead address count).map hexByte) 1 packet width_of_mem_hexBytes
    (by rw [List.length_map]; exact show 1 + 2 * _ + 1 ≤ 4096 by omega) fun _ => hnul
  refine ⟨printed, ?_, by rw [hread, hprint, Option.bind_some]⟩
  rw [hexText, List.flatMap_def]
  exact hholds

/-- **`m` inside the memory** is answered by the bytes, if they fit: as many as are asked for, or as
there are up to the end of the memory. -/
theorem readMemory_fits (hrequest : scanPair data = some (address, count))
    (hinside : address.toNat < g.arm.mem.capacity.toNat)
    (hfits : (g.bytesRead address count).length ≤ 2045) :
    ∃ packet, g.readMemory data = some { g with
      packet := packet
      len := (frame (hexText (g.bytesRead address count))).length
      sent := g.sent ++ frame (hexText (g.bytesRead address count)) } := by
  obtain ⟨printed, hholds, hread⟩ := g.readMemory_printed hrequest hinside (by omega)
  have hroom : (hexText (g.bytesRead address count)).length + 5 ≤ MAX_PACKET_SIZE := by
    rw [length_hexText]
    exact show 2 * _ + 5 ≤ 4096 by omega
  obtain ⟨packet, -, hsend⟩ := @gdbSendBuffer_of_fits _ ne_nul_of_mem_hexText hroom
    { g with packet := printed } hholds
  exact ⟨packet, hread.trans hsend⟩

/-- Longer answers leave `packet`: in the loop, or when the frame is completed. -/
theorem readMemory_eq_none (hrequest : scanPair data = some (address, count))
    (hinside : address.toNat < g.arm.mem.capacity.toNat)
    (hlong : 2045 < (g.bytesRead address count).length) : g.readMemory data = none := by
  by_cases hloop : (g.bytesRead address count).length ≤ 2047
  · obtain ⟨printed, hholds, hread⟩ := g.readMemory_printed hrequest hinside hloop
    have hroom : MAX_PACKET_SIZE < (hexText (g.bytesRead address count)).length + 5 := by
      rw [length_hexText]
      exact show 4096 < 2 * _ + 5 by omega
    rw [hread]
    exact gdbSendBuffer_eq_none ne_nul_of_mem_hexText hroom hholds
  · obtain ⟨packet, -, hread⟩ := g.readMemory_inside hrequest hinside
    have hne : (g.bytesRead address count).map hexByte ≠ [] :=
      List.ne_nil_of_length_pos (by rw [List.length_map]; omega)
    rw [hread, writeFields_eq_none (0 : Byte) hne width_of_mem_hexBytes packet
      (by rw [List.length_map]; exact show 4096 < 1 + 2 * _ + 1 by omega)]
    rfl

end Reader

section Writer

variable (g : Gdb) {data content : List Byte} {address count : Word}

/-- The bytes that an `X` stores are the first of these, as many as `reach`. -/
def bytesDecoded (address count : Word) (content : List Byte) : Option (List Byte) :=
  Escaping.decode ESCAPE escaped (min count.toNat (g.arm.mem.reach count.toNat address + 1)) content

/-- The memory after an `X`. -/
def memoryWritten (address count : Word) (bytes : List Byte) : Memory :=
  g.arm.mem.storeBytes address (bytes.take (g.arm.mem.reach count.toNat address))

/-- **`X` outside the memory** is rejected, and changes nothing.  Its content is not looked at. -/
theorem writeMemoryBinary_outside (hrequest : scanPair data = some (address, count))
    (hout : g.arm.mem.capacity.toNat ≤ address.toNat) :
    ∃ packet, g.writeMemoryBinary data = some { g with
      packet := packet
      len := (frame (str "E02")).length
      sent := g.sent ++ frame (str "E02") } := by
  have hsize : ¬ size address < memoryGetSize g.arm.mem := by
    rw [Memory.size_lt_iff]
    omega
  obtain ⟨packet, hsend⟩ := gdbSendData_spec rejectedPayload g
  refine ⟨packet, ?_⟩
  simp only [writeMemoryBinary, Option.bind_eq_bind, hrequest, Option.bind_some,
    decide_eq_false hsize, writeMemoryLoop_false]
  exact hsend

/-- A text that ends too early. -/
theorem writeMemoryBinary_eq_none (hrequest : scanPair data = some (address, count))
    (hcontent : downloadContent data = content)
    (hinside : address.toNat < g.arm.mem.capacity.toNat)
    (hshort : g.bytesDecoded address count content = none) : g.writeMemoryBinary data = none := by
  have hsize := (Memory.size_lt_iff g.arm.mem address).mpr hinside
  rw [bytesDecoded] at hshort
  simp only [writeMemoryBinary, Option.bind_eq_bind, hrequest, hcontent, Option.bind_some,
    decide_eq_true hsize, writeMemoryLoop_eq, hshort, Option.map_none, Option.bind_none]

/-- **`X` inside the memory** stores the bytes up to its end, and is answered by `OK` if these are
all. -/
theorem writeMemoryBinary_inside (hrequest : scanPair data = some (address, count))
    (hcontent : downloadContent data = content)
    (hinside : address.toNat < g.arm.mem.capacity.toNat) {bytes : List Byte}
    (hbytes : g.bytesDecoded address count content = some bytes) :
    ∃ packet answer, (answer = if count.toNat ≤ g.arm.mem.reach count.toNat address
        then str "OK" else str "E02") ∧
      g.writeMemoryBinary data = some { g with
        arm := { g.arm with mem := g.memoryWritten address count bytes }
        packet := packet
        len := (frame answer).length
        sent := g.sent ++ frame answer } := by
  have hsize := (Memory.size_lt_iff g.arm.mem address).mpr hinside
  have hwritten : g.writeMemoryBinary data = gdbSendData
      { g with arm := { g.arm with mem := g.memoryWritten address count bytes } }
      (if decide (count.toNat ≤ g.arm.mem.reach count.toNat address) = true
        then str "OK" else str "E02") := by
    rw [bytesDecoded] at hbytes
    simp only [writeMemoryBinary, Option.bind_eq_bind, hrequest, hcontent, Option.bind_some,
      decide_eq_true hsize, writeMemoryLoop_eq, hbytes, Option.map_some, memoryWritten]
  by_cases hall : count.toNat ≤ g.arm.mem.reach count.toNat address
  · obtain ⟨packet, hsend⟩ := gdbSendData_spec okPayload
      { g with arm := { g.arm with mem := g.memoryWritten address count bytes } }
    refine ⟨packet, str "OK", (if_pos hall).symm, ?_⟩
    rw [hwritten, decide_eq_true hall, if_pos rfl]
    exact hsend
  · obtain ⟨packet, hsend⟩ := gdbSendData_spec rejectedPayload
      { g with arm := { g.arm with mem := g.memoryWritten address count bytes } }
    refine ⟨packet, str "E02", (if_neg hall).symm, ?_⟩
    rw [hwritten, decide_eq_false hall, if_neg (by decide)]
    exact hsend

end Writer

end Gdb

/-! ## A download and its reading

The sender escapes the bytes that are delimiters or the escape itself, and the decoder of the loop
takes this back; both are instances of one construction on lists. -/

/-- The characters that are escaped. -/
def IsSpecial (c : Byte) : Prop := c = chr '#' ∨ c = chr '$' ∨ c = ESCAPE

instance decidableIsSpecial : DecidablePred IsSpecial :=
  fun c => inferInstanceAs (Decidable (c = chr '#' ∨ c = chr '$' ∨ c = ESCAPE))

/-- Bytes as they are sent. -/
def escapeContent (bytes : List Byte) : List Byte := Escaping.escape ESCAPE escaped IsSpecial bytes

/-- Escaping a character and undoing it are the same operation. -/
theorem escaped_involutive : Function.Involutive escaped := by
  intro c
  rw [escaped, escaped, BitVec.xor_assoc, BitVec.xor_self, BitVec.xor_zero]

/-- The text of an `X`, after its first character. -/
def downloadText (address length content : List Byte) : List Byte :=
  address ++ chr ',' :: (length ++ chr ':' :: content)

/-- The text of an `m`, after its first character. -/
def readText (address length rest : List Byte) : List Byte :=
  address ++ chr ',' :: (length ++ 0 :: rest)

section Requests

variable {address length : List Byte} (haddress : IsHexNumeral address)
  (hlength : IsHexNumeral length)

include haddress hlength

/-- The two numbers in front of the content of an `X` request are read, and the `:` ends the second.
-/
theorem scanPair_downloadText (content : List Byte) :
    scanPair (downloadText address length content) =
      some (toUnsigned false (hexNumber address), toUnsigned false (hexNumber length)) :=
  scanPair_numerals haddress hlength (by decide) content

/-- The two numbers of an `m` request are read, and the `#` ends the second. -/
theorem scanPair_readText (rest : List Byte) :
    scanPair (readText address length rest) =
      some (toUnsigned false (hexNumber address), toUnsigned false (hexNumber length)) :=
  scanPair_numerals haddress hlength (by decide) rest

/-- The content begins after the colon. -/
theorem downloadContent_downloadText (content : List Byte) :
    downloadContent (downloadText address length content) = content := by
  have htext : ∀ b ∈ address ++ chr ',' :: length, b ≠ chr ':' ∧ b ≠ 0 := by
    intro b hb
    rw [List.mem_append, List.mem_cons] at hb
    rcases hb with hb | rfl | hb
    · exact ⟨(haddress.plain hb).colon, (haddress.plain hb).nul⟩
    · decide
    · exact ⟨(hlength.plain hb).colon, (hlength.plain hb).nul⟩
  have hsplit : downloadText address length content =
      (address ++ chr ',' :: length) ++ chr ':' :: content := by
    rw [downloadText, List.append_assoc, List.cons_append]
  rw [hsplit, downloadContent, afterIndex_append htext, Option.getD_some]

end Requests

section RoundTrip

variable (g : Gdb) {a : Word} {bytes : List Byte} {address length : List Byte}

/-- A number of bytes is a word. -/
theorem toUnsigned_length (hcount : bytes.length ≤ 2045) :
    toUnsigned false bytes.length = BitVec.ofNat 32 bytes.length ∧
      (BitVec.ofNat 32 bytes.length).toNat = bytes.length := by
  have hnat : (BitVec.ofNat 32 bytes.length).toNat = bytes.length := by
    rw [BitVec.toNat_ofNat]
    omega
  have hword := toUnsigned_word (BitVec.ofNat 32 bytes.length)
  rw [hnat] at hword
  exact ⟨hword, hnat⟩

/-- The download of bytes that fit. -/
theorem writeMemoryBinary_downloadText (hstart : a.toNat < g.arm.mem.capacity.toNat)
    (hend : a.toNat + bytes.length ≤ g.arm.mem.capacity.toNat) (hcount : bytes.length ≤ 2045)
    (haddress : IsHexNumeral address) (hlength : IsHexNumeral length)
    (ha : hexNumber address = a.toNat) (hn : hexNumber length = bytes.length) (rest : List Byte) :
    ∃ packet, g.writeMemoryBinary (downloadText address length (escapeContent bytes ++ rest)) =
      some { g with
        arm := { g.arm with mem := g.arm.mem.storeBytes a bytes }
        packet := packet
        len := (frame (str "OK")).length
        sent := g.sent ++ frame (str "OK") } := by
  obtain ⟨hword, hnat⟩ := toUnsigned_length hcount
  have hrequest := scanPair_downloadText haddress hlength (escapeContent bytes ++ rest)
  rw [ha, hn, toUnsigned_word, hword] at hrequest
  have hreach : g.arm.mem.reach (BitVec.ofNat 32 bytes.length).toNat a = bytes.length := by
    rw [hnat]
    exact g.arm.mem.reach_eq_of_fits hend
  have hspecial : IsSpecial ESCAPE := Or.inr (Or.inr rfl)
  have hdecoded : g.bytesDecoded a (BitVec.ofNat 32 bytes.length) (escapeContent bytes ++ rest) =
      some bytes := by
    rw [Gdb.bytesDecoded, hreach, hnat, Nat.min_eq_left (Nat.le_succ _)]
    exact Escaping.decode_escape hspecial escaped_involutive bytes rest
  obtain ⟨packet, answer, hanswer, hwrite⟩ := g.writeMemoryBinary_inside hrequest
    (downloadContent_downloadText haddress hlength _) hstart hdecoded
  rw [hreach, if_pos (Nat.le_of_eq hnat)] at hanswer
  rw [Gdb.memoryWritten, hreach, List.take_length, hanswer] at hwrite
  exact ⟨packet, hwrite⟩

/-- The reading of bytes that the memory holds. -/
theorem readMemory_readText (hstart : a.toNat < g.arm.mem.capacity.toNat)
    (hend : a.toNat + bytes.length ≤ g.arm.mem.capacity.toNat) (hcount : bytes.length ≤ 2045)
    (hbytes : g.arm.mem.bytesAt a bytes.length = bytes)
    (haddress : IsHexNumeral address) (hlength : IsHexNumeral length)
    (ha : hexNumber address = a.toNat) (hn : hexNumber length = bytes.length) (rest : List Byte) :
    ∃ g', g.readMemory (readText address length rest) = some g' ∧
      g'.sent = g.sent ++ frame (hexText bytes) := by
  obtain ⟨hword, hnat⟩ := toUnsigned_length hcount
  have hrequest := scanPair_readText haddress hlength rest
  rw [ha, hn, toUnsigned_word, hword] at hrequest
  have hread : g.bytesRead a (BitVec.ofNat 32 bytes.length) = bytes := by
    rw [Gdb.bytesRead, hnat, g.arm.mem.reach_eq_of_fits hend, hbytes]
  obtain ⟨packet, hanswer⟩ := g.readMemory_fits hrequest hstart (by rw [hread]; exact hcount)
  rw [hread] at hanswer
  exact ⟨_, hanswer, rfl⟩

end RoundTrip

/-- **A download is read back.**  For all bytes that fit the memory and the answer, and all numerals
for their address and number, an `X` of the escaped bytes is answered by `OK`, stores them and
changes no other byte, and an `m` is then answered by the bytes in hexadecimal. -/
theorem download_read_back (g : Gdb) {a : Word} {bytes : List Byte}
    (hstart : a.toNat < g.arm.mem.capacity.toNat)
    (hend : a.toNat + bytes.length ≤ g.arm.mem.capacity.toNat) (hcount : bytes.length ≤ 2045)
    {address length : List Byte} (haddress : IsHexNumeral address) (hlength : IsHexNumeral length)
    (ha : hexNumber address = a.toNat) (hn : hexNumber length = bytes.length)
    (rest : List Byte) :
    ∃ g₁, g.writeMemoryBinary (downloadText address length (escapeContent bytes ++ rest)) =
        some g₁ ∧
      g₁.sent = g.sent ++ frame (str "OK") ∧
      g₁.arm.mem.capacity = g.arm.mem.capacity ∧
      (∀ i (hi : i < bytes.length), g₁.arm.mem.data (a + BitVec.ofNat 32 i) = bytes[i]) ∧
      (∀ x, (∀ i < bytes.length, x ≠ a + BitVec.ofNat 32 i) →
        g₁.arm.mem.data x = g.arm.mem.data x) ∧
      ∀ rest', ∃ g₂, g₁.readMemory (readText address length rest') = some g₂ ∧
        g₂.sent = g₁.sent ++ frame (hexText bytes) := by
  have hfits : bytes.length ≤ 2 ^ 32 := by omega
  have hcapacity := g.arm.mem.storeBytes_capacity a bytes
  obtain ⟨packet, hwrite⟩ := writeMemoryBinary_downloadText g hstart hend hcount haddress hlength
    ha hn rest
  refine ⟨_, hwrite, rfl, hcapacity, fun i hi => g.arm.mem.data_storeBytes_add hfits a hi,
    fun x hx => g.arm.mem.data_storeBytes_of_ne hfits hx, fun rest' => ?_⟩
  refine readMemory_readText _ ?_ ?_ hcount (g.arm.mem.bytesAt_storeBytes a bytes hfits) haddress
    hlength ha hn rest'
  · rw [hcapacity]
    exact hstart
  · rw [hcapacity]
    exact hend

/-- The four bytes `#`, `}`, NUL and 255 at address 16. -/
theorem download_read_back_four :
    ∃ g₁, okGdb.writeMemoryBinary (str "10,4:\x7d\x03\x7d]" ++ [0, 255]) = some g₁ ∧
      g₁.sent = frame (str "OK") ∧
      ∃ g₂, g₁.readMemory (str "10,4" ++ [0]) = some g₂ ∧
        g₂.sent = g₁.sent ++ frame (str "237d00ff") := by
  obtain ⟨g₁, hwrite, hsent, -, -, -, hread⟩ := @download_read_back okGdb 16
    [chr '#', 0x7d, 0, 255] (by decide) (by decide) (by decide) (str "10") (str "4")
    ⟨by decide, by decide⟩ ⟨by decide, by decide⟩ (by decide) (by decide) []
  obtain ⟨g₂, hanswer, hsent'⟩ := hread []
  exact ⟨g₁, hwrite, hsent, g₂, hanswer, hsent'⟩

/-! ## Rejected downloads

The range check looks at the first address only.  A download that begins inside the memory is
written as far as the memory goes and then rejected, and the bytes before its end stay; the memory
is as it was only if these bytes were there already. -/

section Rejected

variable (g : Gdb) {data content : List Byte} {address count : Word}

/-- A download that begins inside the memory and goes past its end.  The last field leaves out a
memory that has every address: there the addresses wrap, and no write fails. -/
structure Straddles (address count : Word) : Prop where
  inside : address.toNat < g.arm.mem.capacity.toNat
  past : g.arm.mem.capacity.toNat < address.toNat + count.toNat
  small : g.arm.mem.capacity.toNat < 2 ^ 32

/-- How many bytes of the download are in the memory. -/
def bytesInside (address : Word) : ℕ := g.arm.mem.capacity.toNat - address.toNat

variable {g}

/-- A read that leaves the memory yields the bytes up to its end. -/
theorem Straddles.reach (h : Straddles g address count) :
    g.arm.mem.reach count.toNat address = bytesInside g address := by
  have hpast := h.past
  rw [g.arm.mem.reach_of_lt h.small, bytesInside]
  omega

/-- These are fewer than were asked for. -/
theorem Straddles.lt (h : Straddles g address count) : bytesInside g address < count.toNat := by
  have hpast := h.past
  have hinside := h.inside
  rw [bytesInside]
  omega

/-- A download inside the memory that is not completed goes past its end. -/
theorem straddles_of_reach_lt (hinside : address.toNat < g.arm.mem.capacity.toNat)
    (hlt : g.arm.mem.reach count.toNat address < count.toNat) : Straddles g address count := by
  have hsmall : g.arm.mem.capacity.toNat < 2 ^ 32 := by
    by_contra hall
    rw [g.arm.mem.reach_of_le (Nat.le_of_not_lt hall)] at hlt
    exact absurd hlt (Nat.lt_irrefl _)
  rw [g.arm.mem.reach_of_lt hsmall] at hlt
  exact ⟨hinside, by omega, hsmall⟩

/-- With a `:` in the text the content begins behind it. -/
theorem downloadContent_of_afterIndex (h : afterIndex (chr ':') data = some content) :
    downloadContent data = content := by
  rw [downloadContent, h, Option.getD_some]

/-- A content of which a character is read is there. -/
theorem afterIndex_of_decode {count : ℕ} {bytes : List Byte}
    (h : Escaping.decode ESCAPE escaped (count + 1) (downloadContent data) = some bytes) :
    afterIndex (chr ':') data = some (downloadContent data) := by
  rw [downloadContent] at h ⊢
  cases hindex : afterIndex (chr ':') data with
  | none =>
      rw [hindex] at h
      exact absurd h (Option.some_ne_none bytes).symm
  | some content => rfl

/-- Such a download is rejected when the memory has been written up to its end. -/
theorem writeMemoryBinary_straddles (h : Straddles g address count)
    (hrequest : scanPair data = some (address, count))
    (hcontent : downloadContent data = content) :
    (Escaping.decode ESCAPE escaped (bytesInside g address + 1) content = none →
        g.writeMemoryBinary data = none) ∧
      ∀ bytes, Escaping.decode ESCAPE escaped (bytesInside g address + 1) content = some bytes →
        ∃ g', g.writeMemoryBinary data = some g' ∧ g'.sent = g.sent ++ frame (str "E02") ∧
          g'.arm.mem = g.arm.mem.storeBytes address (bytes.take (bytesInside g address)) := by
  have hlt := h.lt
  have hdecoded : g.bytesDecoded address count content =
      Escaping.decode ESCAPE escaped (bytesInside g address + 1) content := by
    rw [Gdb.bytesDecoded, h.reach, Nat.min_eq_right hlt]
  constructor
  · intro hnone
    exact g.writeMemoryBinary_eq_none hrequest hcontent h.inside (hdecoded.trans hnone)
  · intro bytes hbytes
    obtain ⟨packet, answer, hanswer, hwrite⟩ := g.writeMemoryBinary_inside hrequest hcontent
      h.inside (hdecoded.trans hbytes)
    rw [h.reach, if_neg (Nat.not_le.mpr hlt)] at hanswer
    subst hanswer
    refine ⟨_, hwrite, rfl, ?_⟩
    dsimp only
    rw [Gdb.memoryWritten, h.reach]

theorem bytesInside_le (h : Straddles g address count) (bytes : List Byte) :
    (bytes.take (bytesInside g address)).length ≤ 2 ^ 32 := by
  have hsmall := h.small
  rw [List.length_take, bytesInside]
  omega

variable (g)

/-- What a download that is answered has done: nothing, or it was completed, or it has stored the
bytes up to the end of the memory. -/
theorem writeMemoryBinary_cases {g' : Gdb} (h : g.writeMemoryBinary data = some g') :
    g'.arm.mem = g.arm.mem ∨ g'.sent = g.sent ++ frame (str "OK") ∨
      ∃ address count content bytes, scanPair data = some (address, count) ∧
        afterIndex (chr ':') data = some content ∧ Straddles g address count ∧
        Escaping.decode ESCAPE escaped (bytesInside g address + 1) content = some bytes ∧
        g'.arm.mem = g.arm.mem.storeBytes address (bytes.take (bytesInside g address)) := by
  obtain ⟨⟨address, count⟩, hrequest, -⟩ := Option.bind_eq_some_iff.mp h
  by_cases hinside : address.toNat < g.arm.mem.capacity.toNat
  · by_cases hall : count.toNat ≤ g.arm.mem.reach count.toNat address
    · refine Or.inr (Or.inl ?_)
      cases hbytes : g.bytesDecoded address count (downloadContent data) with
      | none =>
          rw [g.writeMemoryBinary_eq_none hrequest rfl hinside hbytes] at h
          exact absurd h (Option.some_ne_none g').symm
      | some bytes =>
          obtain ⟨packet, answer, hok, hwritten⟩ :=
            g.writeMemoryBinary_inside hrequest rfl hinside hbytes
          rw [if_pos hall] at hok
          obtain rfl := Option.some.inj (hwritten.symm.trans h)
          rw [hok]
    · have hstraddles := straddles_of_reach_lt hinside (Nat.lt_of_not_le hall)
      obtain ⟨hshort, hlong⟩ := writeMemoryBinary_straddles hstraddles hrequest rfl
      cases hbytes :
          Escaping.decode ESCAPE escaped (bytesInside g address + 1) (downloadContent data) with
      | none =>
          rw [hshort hbytes] at h
          exact absurd h (Option.some_ne_none g').symm
      | some bytes =>
          obtain ⟨g₁, hwritten, -, hmem⟩ := hlong bytes hbytes
          obtain rfl := Option.some.inj (hwritten.symm.trans h)
          exact Or.inr (Or.inr
            ⟨address, count, _, bytes, hrequest, afterIndex_of_decode hbytes, hstraddles, hbytes,
              hmem⟩)
  · obtain ⟨packet, hwritten⟩ :=
      g.writeMemoryBinary_outside hrequest (Nat.le_of_not_lt hinside)
    obtain rfl := Option.some.inj (hwritten.symm.trans h)
    exact Or.inl rfl

/-- `E02` is not `OK`. -/
theorem rejected_sent_ne {g g' : Gdb} (h : g'.sent = g.sent ++ frame (str "E02")) :
    g'.sent ≠ g.sent ++ frame (str "OK") := by
  have hne : str "E02" ≠ str "OK" := by decide
  rw [h]
  exact fun heq => hne (frame_inj (List.append_cancel_left heq))

/-- **When a rejected download leaves the memory as it was.**  In every state and for every text of
a request: unless the request begins inside the memory and goes past its end, its text does not end
before the memory does, and its bytes for the memory up to the end are not the ones there. -/
theorem rejected_download_unchanged_iff (data : List Byte) :
    (∀ g', g.writeMemoryBinary data = some g' → g'.sent ≠ g.sent ++ frame (str "OK") →
        g'.arm.mem = g.arm.mem) ↔
      ∀ address count content bytes, scanPair data = some (address, count) →
        afterIndex (chr ':') data = some content → Straddles g address count →
        Escaping.decode ESCAPE escaped (bytesInside g address + 1) content = some bytes →
        bytes.take (bytesInside g address) =
          g.arm.mem.bytesAt address (bytesInside g address) := by
  constructor
  · intro h address count content bytes hrequest hcontent hstraddles hbytes
    obtain ⟨g', hwrite, hsent, hmem⟩ :=
      (writeMemoryBinary_straddles hstraddles hrequest
        (downloadContent_of_afterIndex hcontent)).2 bytes hbytes
    have hlength : (bytes.take (bytesInside g address)).length = bytesInside g address := by
      rw [List.length_take, Escaping.length_of_decode ESCAPE escaped hbytes]
      exact Nat.min_eq_left (Nat.le_succ _)
    have hsame := hmem.symm.trans (h g' hwrite (rejected_sent_ne hsent))
    rw [g.arm.mem.storeBytes_eq_self_iff (bytesInside_le hstraddles bytes), hlength] at hsame
    exact hsame
  · intro h g' hwrite hanswer
    obtain hmem | hok | ⟨address, count, content, bytes, hrequest, hcontent, hstraddles, hbytes,
      hmem⟩ := writeMemoryBinary_cases g hwrite
    · exact hmem
    · exact absurd hok hanswer
    · rw [hmem, h address count content bytes hrequest hcontent hstraddles hbytes]
      exact g.arm.mem.storeBytes_bytesAt address _

end Rejected

/-- Two bytes at the last address of a memory: the first one is stored. -/
theorem rejected_download_counterexample :
    ¬ ∀ (g : Gdb) (data : List Byte) (g' : Gdb), g.writeMemoryBinary data = some g' →
      g'.sent ≠ g.sent ++ frame (str "OK") → g'.arm.mem = g.arm.mem := by
  intro h
  have hstraddles : Straddles okGdb 0x7fff 2 := ⟨by decide, by decide, by decide⟩
  have hrequest : scanPair (str "7fff,2:AB") = some (0x7fff, 2) := by decide
  have hcontent : downloadContent (str "7fff,2:AB") = str "AB" := by decide
  obtain ⟨g', hwrite, hsent, hmem⟩ :=
    (writeMemoryBinary_straddles hstraddles hrequest hcontent).2 (str "AB") (by decide)
  have hsame := hmem.symm.trans (h okGdb _ g' hwrite (rejected_sent_ne hsent))
  have hbyte := congrArg (fun mem => mem.data 0x7fff) hsame
  exact absurd hbyte (by decide)

/-! ## The room for an answer

The frame of an answer to an `m` has two characters a byte, and five besides. -/

/-- **When the answer to an `m` fits `packet`**, so that nothing is written into the breakpoints
that lie behind it: for an address outside the memory, and for at most 2045 bytes, because so many
are requested or because the memory ends after them. -/
theorem read_memory_fits_iff (g : Gdb) {data : List Byte} {address count : Word}
    (hrequest : scanPair data = some (address, count)) :
    (∃ g', g.readMemory data = some g' ∧ g'.breakpoints = g.breakpoints) ↔
      g.arm.mem.capacity.toNat ≤ address.toNat ∨ count.toNat ≤ 2045 ∨
        g.arm.mem.capacity.toNat < 2 ^ 32 ∧
          g.arm.mem.capacity.toNat ≤ address.toNat + 2045 := by
  by_cases hinside : address.toNat < g.arm.mem.capacity.toNat
  · have hreach : (g.bytesRead address count).length ≤ 2045 ↔ count.toNat ≤ 2045 ∨
        g.arm.mem.capacity.toNat < 2 ^ 32 ∧
          g.arm.mem.capacity.toNat ≤ address.toNat + 2045 := by
      rw [Gdb.bytesRead, Memory.length_bytesAt]
      by_cases hall : 2 ^ 32 ≤ g.arm.mem.capacity.toNat
      · rw [g.arm.mem.reach_of_le hall]
        omega
      · rw [g.arm.mem.reach_of_lt (Nat.lt_of_not_le hall)]
        omega
    rw [or_iff_right (Nat.not_le.mpr hinside), ← hreach]
    constructor
    · rintro ⟨g', hread, -⟩
      by_contra hlong
      rw [g.readMemory_eq_none hrequest hinside (Nat.lt_of_not_le hlong)] at hread
      exact absurd hread (Option.some_ne_none g').symm
    · intro hfits
      obtain ⟨packet, hread⟩ := g.readMemory_fits hrequest hinside hfits
      exact ⟨_, hread, rfl⟩
  · obtain ⟨packet, hread⟩ := g.readMemory_outside hrequest (Nat.le_of_not_lt hinside)
    exact iff_of_true ⟨_, hread, rfl⟩ (Or.inl (Nat.le_of_not_lt hinside))

/-- 2045 bytes at address 0 fit. -/
theorem read_memory_fits_iff_longest :
    (∃ g', okGdb.readMemory (str "0,7fd" ++ [0]) = some g' ∧
        g'.breakpoints = okGdb.breakpoints) ↔
      okGdb.arm.mem.capacity.toNat ≤ (0 : Word).toNat ∨ (0x7fd : Word).toNat ≤ 2045 ∨
        okGdb.arm.mem.capacity.toNat < 2 ^ 32 ∧
          okGdb.arm.mem.capacity.toNat ≤ (0 : Word).toNat + 2045 :=
  read_memory_fits_iff okGdb (by decide)

/-- 2046 bytes at address 0: the terminator is written behind `packet`. -/
theorem read_memory_fits_counterexample :
    ¬ ∀ (g : Gdb) (data : List Byte) (address count : Word),
      scanPair data = some (address, count) →
        ∃ g', g.readMemory data = some g' ∧ g'.breakpoints = g.breakpoints := by
  intro h
  have hrequest : scanPair (str "0,7fe" ++ [0]) = some (0, 0x7fe) := by decide
  have hlong : 2045 < (okGdb.bytesRead 0 0x7fe).length := by
    rw [Gdb.bytesRead, Memory.length_bytesAt, Memory.reach_eq_of_fits _ (by decide)]
    decide
  obtain ⟨g', hread, -⟩ := h okGdb _ 0 0x7fe hrequest
  rw [okGdb.readMemory_eq_none hrequest (by decide) hlong] at hread
  exact absurd hread (Option.some_ne_none g').symm

end ArmSimulator
