import ArmSimulator.Core
import ArmSimulator.Gdb.Breakpoints

/-!
# Packets (`gdb_protocol.c`)

A packet is `$`, a payload, `#` and two hexadecimal digits, the sum of the payload modulo 256.
`gdb_send_buffer` makes one, in the buffer `packet` of 4096 bytes, of the string that begins at
`packet[1]`; `gdb_packet_analysis` checks one that the scanner has recognised and calls the handler
of its first character.

The state of the protocol is `struct gdb_protocol_data`, with these decisions.

* The fields `arm`, `reg` and `mem` are one processor: `gdb_init_data` takes the last two from the
  first.
* The field `buffer` is `packet + 1` in every state, and is not kept.
* What is written to `fd` is the list `sent`.  Nothing is ever taken from it, so that the answers of
  a run can be read off its last state.
* The lock is not part of this state; the two threads that share it are modelled on their own.

The table of handlers is a parameter here: it is filled once, by `gdb_init`, and the framing of
packets does not depend on what it holds.

A function is `none` where the C code reads or writes outside a buffer.  Buffers are functions on
the indices they have, and an index is checked at each access; a loop that runs to a NUL takes as
much fuel as the buffer has bytes, since beyond that it has left the buffer.

`snprintf("%02x")` and `sscanf("%x")` are modelled on digits.  This is all of them that a packet can
reach: the scanner lets one through only with two hexadecimal digits after the `#`.
-/

namespace ArmSimulator

open CheckedArray

def MAX_PACKET_SIZE : ℕ := 4096

/-- `struct gdb_protocol_data`, with the bytes written to `fd`.  The result of the last step is
`targetException`, and `len` is the length of the packet that is kept for a retransmission. -/
structure Gdb where
  arm : ArmCore
  targetException : Int
  packet : Fin MAX_PACKET_SIZE → Byte
  breakpoints : BreakpointTable
  len : ℕ
  sent : List Byte

/-- `gdb_init_data`; `packet` and `contents` are what `malloc` has found. -/
def gdbInitData (arm : ArmCore) (packet : Fin MAX_PACKET_SIZE → Byte)
    (contents : Fin MAX_BREAKPOINTS_NUMBER → Word) : Gdb where
  arm := arm
  targetException := 0
  packet := packet
  breakpoints := gdbInitBreakpoints contents
  len := 0
  sent := []

/-- A `char`, as a byte.  The characters of the protocol are ASCII. -/
def chr (c : Char) : Byte := BitVec.ofNat 8 c.toNat

/-- A string, without the final NUL. -/
def str (s : String) : List Byte := s.toList.map chr

/-! ## Hexadecimal digits

The two directions are separate functions, and `hexDigit` reads the capital letters too: this code
writes small letters only, but the debugger at the other end may send either. -/

/-- The digit that `printf` writes for a number below 16. -/
def digitChar (d : ℕ) : Byte :=
  if d < 10 then chr '0' + BitVec.ofNat 8 d else chr 'a' + BitVec.ofNat 8 (d - 10)

/-- `snprintf(.., 3, "%02x", b)`, without the final NUL. -/
def hexByte (b : Byte) : List Byte := [digitChar (b.toNat / 16), digitChar (b.toNat % 16)]

/-- The value of a hexadecimal digit. -/
def hexDigit (c : Byte) : Option ℕ :=
  if chr '0' ≤ c ∧ c ≤ chr '9' then some (c.toNat - (chr '0').toNat)
  else if chr 'a' ≤ c ∧ c ≤ chr 'f' then some (c.toNat - (chr 'a').toNat + 10)
  else if chr 'A' ≤ c ∧ c ≤ chr 'F' then some (c.toNat - (chr 'A').toNat + 10)
  else none

/-- The number of the digits at the head of a text, after `v` has been read. -/
def scanDigits : List Byte → ℕ → ℕ
  | [], v => v
  | c :: cs, v =>
      match hexDigit c with
      | some d => scanDigits cs (16 * v + d)
      | none => v

/-- `sscanf(data, "%x", ..)` on a text that begins with a digit, as it does after the `#` of a
packet: the scanner lets only two digits through, and the NUL of the string follows them.  `none`
when no digit comes first. -/
def scanHex (data : List Byte) : Option Word :=
  (data.head?.bind hexDigit).map fun _ => BitVec.ofNat 32 (scanDigits data 0)

/-! ## Sending

A packet is completed in place.  The payload is already in the buffer when `gdb_send_buffer` begins,
and `$`, `#` and the digits are put around it.  Every answer goes this way, and leaves itself in
`packet` for a later retransmission. -/

/-- `gdb_send_ack`. -/
def gdbSendAck (g : Gdb) : Gdb := { g with sent := g.sent ++ [chr '+'] }

/-- `gdb_require_retransmission`. -/
def gdbRequireRetransmission (g : Gdb) : Gdb := { g with sent := g.sent ++ [chr '-'] }

/-- `gdb_transmit_packet`: the first `len` bytes of `packet`, whatever they are.  It is also what a
request for retransmission calls. -/
def gdbTransmitPacket (g : Gdb) : Option Gdb :=
  (readList g.packet g.len 0).map fun bytes => { g with sent := g.sent ++ bytes }

/-- The loop of `gdb_send_buffer` from index `i` to the NUL, at most `fuel` times round. -/
def checksumLoop (packet : Fin MAX_PACKET_SIZE → Byte) : ℕ → ℕ → Byte → Option (ℕ × Byte)
  | 0, _, _ => none
  | fuel + 1, i, check =>
      (read packet i).bind fun c =>
        if c = 0 then some (i, check) else checksumLoop packet fuel (i + 1) (check + c)

/-- `gdb_send_buffer`.  The digits and their NUL are written by one `snprintf`, and the NUL once
more by the code. -/
def gdbSendBuffer (g : Gdb) : Option Gdb := do
  let packet ← write g.packet 0 (chr '$')
  let (i, check) ← checksumLoop packet MAX_PACKET_SIZE 1 0
  let packet ← write packet i (chr '#')
  let packet ← writeList (hexByte check ++ [0]) (i + 1) packet
  let packet ← write packet (i + 3) 0
  gdbTransmitPacket { g with packet := packet, len := i + 3 }

/-- `gdb_send_data`: the data and their NUL are copied to `packet[1]`, where the buffer begins, and
sent. -/
def gdbSendData (g : Gdb) (data : List Byte) : Option Gdb :=
  (writeList (data ++ [0]) 1 g.packet).bind fun packet =>
    gdbSendBuffer { g with packet := packet }

/-! ## Receiving

The receiver works on the text that the scanner has matched, of which it knows the length.  A text
has more after it, so functions on texts are given all that follows. -/

/-- A handler, on the text after the first character of the payload. -/
abbrev GdbHandler := Gdb → List Byte → Option Gdb

/-- The loop of `gdb_packet_analysis`: `count` characters from index `i` on. -/
def analysisLoop (packet : List Byte) : ℕ → ℕ → Byte → Option Byte
  | 0, _, check => some check
  | count + 1, i, check =>
      (packet[i]?).bind fun c => analysisLoop packet count (i + 1) (check + c)

/-- What is done with a request: its handler, or an empty answer, which is how the protocol says
that a request is not supported. -/
def handleRequest (handler : Byte → Option GdbHandler) (g : Gdb) (index : Byte)
    (data : List Byte) : Option Gdb :=
  match handler index with
  | some handle => handle g data
  | none => gdbSendData g (str "")

/-- `gdb_packet_analysis`, on the text that begins at `packet`; the loop leaves `i` at `length - 3`,
or at 1 if that is less.  The payload is handed on as a string: a NUL is put in the place of the
`#`. -/
def gdbPacketAnalysis (handler : Byte → Option GdbHandler) (g : Gdb) (packet : List Byte)
    (length : ℕ) : Option Gdb := do
  let count := length - 3 - 1
  let i := 1 + count
  let check ← analysisLoop packet count 1 0
  let given ← scanHex (packet.drop (i + 1))
  if u32 check = given then
    let g := gdbSendAck g
    let packet := packet.set i 0
    let index ← packet[1]?
    handleRequest handler g index (packet.drop 2)
  else some (gdbRequireRetransmission g)

end ArmSimulator
