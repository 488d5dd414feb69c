import ArmSimulator.Gdb.Packet
import Mathlib.Algebra.BigOperators.Group.List.Basic
import Mathlib.Data.BitVec

/-!
# Framing (`gdb_protocol.c`, `scanner.l`)

The sender and the receiver of a packet add up the payload in two different loops: one runs to the
NUL in a buffer, the other up to three characters before the end of a text.  Both are `checksum`, a
sum in the group of bytes, so a change of one byte always changes it; and two hexadecimal digits
that stand for another number never equal it.

* `Payload` — what can be framed: a text that is not empty, without a NUL and without a delimiter,
  for which there is room.  The answers of the handlers are built as values of this type, so that
  each shows once that it can be sent.
* `frame` — the packet that the sender makes of a payload, and `packetText`, any text of the
  scanner's rule.
* `gdbSendBuffer_spec` — what the sender writes: the buffer, its length, and the bytes sent.
  `gdbSendBuffer_eq_none` — when there is no room for it.
* `gdbPacketAnalysis_packetText` — what the receiver does with any text of the scanner's rule: it
  compares, and either acknowledges and handles, or asks for a retransmission.
* `framing_detects_corruption` — the two ends together.

The table of handlers stays arbitrary throughout, and so does the state: nothing about the framing
depends on what is done with a payload.
-/

namespace ArmSimulator

open CheckedArray

/-! ## Packets as texts

A packet without the buffer it stands in.  The sum is a sum in the group of bytes, where every byte
can be cancelled; that is why a change of one byte is always detected. -/

/-- The sum of a payload modulo 256, as a sum of bytes. -/
def checksum (payload : List Byte) : Byte := payload.sum

/-- The text of a packet. -/
def packetText (body digits : List Byte) : List Byte :=
  chr '$' :: (body ++ chr '#' :: digits)

/-- The packet that the sender makes of a payload, its digits in small letters. -/
def frame (payload : List Byte) : List Byte := packetText payload (hexByte (checksum payload))

/-- The texts of the scanner's rule `"$"[^$#]*"#"{HEX}{HEX}`: the body may be empty, and the two
digits may stand for any number. -/
def IsPacket (text : List Byte) : Prop :=
  ∃ body c d, text = packetText body [c, d] ∧ (∀ b ∈ body, b ≠ chr '$' ∧ b ≠ chr '#') ∧
    (hexDigit c).isSome ∧ (hexDigit d).isSome

/-- A payload that fits `packet`: it is not empty, it has no NUL and no delimiter, and
there is room for the delimiters, the digits and the final NUL. -/
structure Payload where
  bytes : List Byte
  ne_nil : bytes ≠ []
  ne_nul : ∀ b ∈ bytes, b ≠ 0
  ne_delimiter : ∀ b ∈ bytes, b ≠ chr '$' ∧ b ≠ chr '#'
  length_le : bytes.length + 5 ≤ MAX_PACKET_SIZE

theorem length_packetText (body : List Byte) (c d : Byte) :
    (packetText body [c, d]).length = body.length + 4 := by
  rw [packetText, List.length_cons, List.length_append]
  rfl

/-- A changed byte of the payload is a changed byte of the text. -/
theorem packetText_set (body digits : List Byte) {k : ℕ} (b : Byte) (hk : k < body.length) :
    (packetText body digits).set (k + 1) b = packetText (body.set k b) digits := by
  rw [packetText, packetText, List.set_cons_succ, List.set_append_left _ _ hk]

/-- **Detection**: a change of one byte changes the sum. -/
theorem checksum_set_ne {payload : List Byte} {k : ℕ} {b : Byte} (hk : k < payload.length)
    (hne : b ≠ payload[k]) : checksum (payload.set k b) ≠ checksum payload := by
  intro h
  rw [checksum, checksum, List.sum_set', dif_pos hk, add_eq_left, neg_add_eq_zero] at h
  exact hne h.symm

/-! ## Digits

What is written with two digits is read back.  The statements about a digit are about sixteen cases
and the ones about a byte about 256, and are checked by evaluation. -/

theorem hexDigit_digitChar : ∀ d < 16, hexDigit (digitChar d) = some d := by decide

/-- The digits may be sent. -/
theorem digitChar_ne {d : ℕ} (hd : d < 16) :
    digitChar d ≠ 0 ∧ digitChar d ≠ chr '$' ∧ digitChar d ≠ chr '#' := by
  have hdigits : ∀ d < 16, digitChar d ≠ 0 ∧ digitChar d ≠ chr '$' ∧ digitChar d ≠ chr '#' := by
    decide
  exact hdigits d hd

/-- Two digits that a NUL follows are read as their number. -/
theorem scanHex_two {c d : Byte} {v w : ℕ} (hc : hexDigit c = some v) (hd : hexDigit d = some w)
    (rest : List Byte) : scanHex (c :: d :: 0 :: rest) = some (BitVec.ofNat 32 (16 * v + w)) := by
  have hnul : hexDigit 0 = none := by decide
  have hdigits : scanDigits (c :: d :: 0 :: rest) 0 = 16 * v + w := by
    simp only [scanDigits, hc, hd, hnul, Nat.mul_zero, Nat.zero_add]
  rw [scanHex, hdigits, List.head?_cons, Option.bind_some, hc, Option.map_some]

/-- The digits of a byte are hexadecimal digits, and stand for it. -/
theorem hexByte_digits (b : Byte) :
    ∃ c d v w, hexByte b = [c, d] ∧ hexDigit c = some v ∧ hexDigit d = some w ∧
      16 * v + w = b.toNat := by
  have hlt := b.isLt
  exact ⟨_, _, b.toNat / 16, b.toNat % 16, rfl, hexDigit_digitChar _ (by omega),
    hexDigit_digitChar _ (by omega), Nat.div_add_mod _ _⟩

/-- What holds of the 256 numbers holds of all bytes.  It lets a statement about bytes be evaluated.
-/
theorem forall_byte {P : Byte → Prop} (h : ∀ n < 256, P (BitVec.ofNat 8 n)) (c : Byte) : P c := by
  have hc := h c.toNat c.isLt
  rwa [BitVec.ofNat_toNat, BitVec.setWidth_eq] at hc

/-- A hexadecimal digit is below 16. -/
theorem hexDigit_lt {c : Byte} {v : ℕ} (h : hexDigit c = some v) : v < 16 := by
  have hbound : ∀ c : Byte, ∀ v ∈ hexDigit c, v < 16 := forall_byte (by decide +kernel)
  exact hbound c v h

/-! ## Sending

The loop finds the NUL that ends the payload, and on its way adds up what comes before it.  A buffer
is given by its first bytes, as the result of reading a list from it; what lies behind them does not
matter. -/

/-- **The sender's loop** stops at the NUL with the sum of the bytes before it.  The induction is on
the payload, with the index that it begins at. -/
theorem checksumLoop_spec {packet : Fin MAX_PACKET_SIZE → Byte} :
    ∀ (bytes : List Byte) (fuel i : ℕ) (check : Byte), (∀ b ∈ bytes, b ≠ 0) →
      Holds packet i (bytes ++ [0]) → bytes.length < fuel →
      checksumLoop packet fuel i check = some (i + bytes.length, check + checksum bytes) := by
  intro bytes
  induction bytes with
  | nil =>
      intro fuel i check _ hholds hfuel
      obtain ⟨fuel, rfl⟩ := Nat.exists_eq_succ_of_ne_zero (Nat.ne_of_gt hfuel)
      rw [checksumLoop, hholds.head, Option.bind_some, if_pos rfl, checksum, List.sum_nil, add_zero]
      rfl
  | cons b bytes ih =>
      intro fuel i check hne hholds hfuel
      obtain ⟨fuel, rfl⟩ := Nat.exists_eq_succ_of_ne_zero (Nat.ne_of_gt (Nat.zero_lt_of_lt hfuel))
      have hrest := ih fuel (i + 1) (check + b) (fun c hc => hne c (List.mem_cons_of_mem b hc))
        hholds.tail (Nat.lt_of_succ_lt_succ hfuel)
      rw [checksumLoop, hholds.head, Option.bind_some, if_neg (hne b List.mem_cons_self), hrest,
        checksum, checksum, List.sum_cons, List.length_cons, BitVec.add_assoc, Nat.add_assoc,
        Nat.add_comm 1]

/-- A buffer with the parts of a frame at their places holds the frame. -/
theorem holds_frame {packet : Fin MAX_PACKET_SIZE → Byte} {payload : List Byte}
    (hdollar : read packet 0 = some (chr '$')) (hpayload : Holds packet 1 payload)
    (hhash : read packet (1 + payload.length) = some (chr '#'))
    (hdigits : Holds packet (1 + payload.length + 1) (hexByte (checksum payload) ++ [0])) :
    Holds packet 0 (frame payload ++ [0]) := by
  rw [frame, packetText, List.cons_append, List.append_assoc, List.cons_append]
  exact Holds.cons hdollar (Holds.append hpayload (Holds.cons hhash hdigits))

/-- The first step of `gdb_send_buffer` and its loop. -/
theorem checksumLoop_afterDollar {bytes : List Byte} (hne : ∀ b ∈ bytes, b ≠ 0)
    {packet : Fin MAX_PACKET_SIZE → Byte} (hholds : Holds packet 1 (bytes ++ [0])) :
    ∃ p₁, write packet 0 (chr '$') = some p₁ ∧ read p₁ 0 = some (chr '$') ∧
      Holds p₁ 1 (bytes ++ [0]) ∧ 1 + bytes.length < MAX_PACKET_SIZE ∧
      checksumLoop p₁ MAX_PACKET_SIZE 1 0 = some (1 + bytes.length, checksum bytes) := by
  obtain ⟨p₁, hdollar, hread⟩ := write_spec packet (i := 0) (chr '$') (by decide)
  have hbytes : Holds p₁ 1 (bytes ++ [0]) := by
    refine hholds.congr fun k hk _ => ?_
    rw [hread, if_neg (by omega)]
  -- the NUL is in the buffer
  have hinside : 1 + bytes.length < MAX_PACKET_SIZE := by
    have hlast := hbytes bytes.length (by rw [List.length_append]; exact Nat.lt_succ_self _)
    by_contra hout
    rw [CheckedArray.read, dif_neg hout] at hlast
    exact absurd hlast (Option.some_ne_none _).symm
  have hloop := checksumLoop_spec bytes MAX_PACKET_SIZE 1 0 hne hbytes (by omega)
  rw [zero_add] at hloop
  exact ⟨p₁, hdollar, by rw [hread, if_pos rfl], hbytes, hinside, hloop⟩

/-- **`gdb_send_buffer`** sends the frame of the string that the buffer holds when there is room
for it, and leaves it in `packet` with its length. -/
theorem gdbSendBuffer_of_fits {bytes : List Byte} (hne : ∀ b ∈ bytes, b ≠ 0)
    (hfits : bytes.length + 5 ≤ MAX_PACKET_SIZE) {g : Gdb}
    (hholds : Holds g.packet 1 (bytes ++ [0])) :
    ∃ packet, Holds packet 0 (frame bytes ++ [0]) ∧
      gdbSendBuffer g = some { g with
        packet := packet
        len := (frame bytes).length
        sent := g.sent ++ frame bytes } := by
  have hlength : (frame bytes).length = 1 + bytes.length + 3 := by
    rw [frame, hexByte, length_packetText]
    omega
  obtain ⟨p₁, hdollar, hfirst, hbytes₁, hinside, hloop⟩ := checksumLoop_afterDollar hne hholds
  obtain ⟨p₂, hhash, hread₂⟩ := write_spec p₁ (i := 1 + bytes.length) (chr '#') (by omega)
  obtain ⟨p₃, hdigits, hholds₃, hframe₃⟩ := writeList_spec
    (hexByte (checksum bytes) ++ [0]) (1 + bytes.length + 1) p₂
    (by rw [hexByte]; exact show 1 + bytes.length + 1 + 3 ≤ MAX_PACKET_SIZE by omega)
  obtain ⟨p₄, hnul, hread₄⟩ := write_spec p₃ (i := 1 + bytes.length + 3) (0 : Byte)
    (by omega)
  -- the last NUL is the one that `snprintf` has written
  have hsame : ∀ k, read p₄ k = read p₃ k := by
    intro k
    rw [hread₄]
    split_ifs with hk
    · rw [hk]
      exact (hholds₃ 2 (show 2 < 3 by decide)).symm
    · rfl
  have hlow : ∀ k, k < 1 + bytes.length + 1 → read p₄ k = read p₂ k := by
    intro k hk
    rw [hsame, hframe₃ k (Or.inl hk)]
  have hholds₄ : Holds p₄ 0 (frame bytes ++ [0]) := by
    refine holds_frame ?_ (hbytes₁.left.congr fun k _ hk => ?_) ?_
      (hholds₃.congr fun k _ _ => hsame k)
    · rw [hlow 0 (by omega), hread₂, if_neg (by omega), hfirst]
    · rw [hlow k (by omega), hread₂, if_neg (by omega)]
    · rw [hlow _ (Nat.lt_succ_self _), hread₂, if_pos rfl]
  refine ⟨p₄, hholds₄, ?_⟩
  have hsent : readList p₄ (1 + bytes.length + 3) 0 = some (frame bytes) := by
    rw [← hlength]
    exact readList_of_holds hholds₄.left
  simp only [gdbSendBuffer, Option.bind_eq_bind, hdollar, Option.bind_some, hloop, hhash, hdigits,
    hnul, gdbTransmitPacket, hsent, Option.map_some, hlength]

/-- The frame of a longer string leaves `packet`. -/
theorem gdbSendBuffer_eq_none {bytes : List Byte} (hne : ∀ b ∈ bytes, b ≠ 0)
    (hlong : MAX_PACKET_SIZE < bytes.length + 5) {g : Gdb}
    (hholds : Holds g.packet 1 (bytes ++ [0])) : gdbSendBuffer g = none := by
  obtain ⟨p₁, hdollar, -, -, hinside, hloop⟩ := checksumLoop_afterDollar hne hholds
  obtain ⟨p₂, hhash, -⟩ := write_spec p₁ (i := 1 + bytes.length) (chr '#') (by omega)
  have hdigits : writeList (hexByte (checksum bytes) ++ [0]) (1 + bytes.length + 1) p₂ = none := by
    refine writeList_eq_none (List.cons_ne_nil _ _) p₂ ?_
    exact show MAX_PACKET_SIZE < 1 + bytes.length + 1 + 3 by omega
  simp only [gdbSendBuffer, Option.bind_eq_bind, hdollar, Option.bind_some, hloop, hhash, hdigits,
    Option.bind_none]

/-- A payload fits. -/
theorem gdbSendBuffer_spec (payload : Payload) {g : Gdb}
    (hholds : Holds g.packet 1 (payload.bytes ++ [0])) :
    ∃ packet, Holds packet 0 (frame payload.bytes ++ [0]) ∧
      gdbSendBuffer g = some { g with
        packet := packet
        len := (frame payload.bytes).length
        sent := g.sent ++ frame payload.bytes } :=
  gdbSendBuffer_of_fits payload.ne_nul payload.length_le hholds

/-- **`gdb_send_data`** sends the frame of a payload, and changes no more than the
packet. -/
theorem gdbSendData_spec (payload : Payload) (g : Gdb) :
    ∃ packet, gdbSendData g payload.bytes = some { g with
      packet := packet
      len := (frame payload.bytes).length
      sent := g.sent ++ frame payload.bytes } := by
  have hfits := payload.length_le
  have hlength : (payload.bytes ++ [0]).length = payload.bytes.length + 1 := by
    rw [List.length_append, List.length_singleton]
  obtain ⟨p, hwrite, hholds, -⟩ := writeList_spec (payload.bytes ++ [0]) 1 g.packet (by omega)
  obtain ⟨packet, -, hsend⟩ := gdbSendBuffer_spec payload (g := { g with packet := p }) hholds
  exact ⟨packet, by rw [gdbSendData, hwrite, Option.bind_some, hsend]⟩

/-! ## Receiving

The loop runs on an index, and the text is cut in three at it: what has been read, the payload, and
the `#` with its digits. -/

/-- **The receiver's loop** adds up the characters from index `i` on. -/
theorem analysisLoop_spec (bytes after : List Byte) :
    ∀ (before : List Byte) (check : Byte),
      analysisLoop (before ++ (bytes ++ after)) bytes.length before.length check =
        some (check + checksum bytes) := by
  induction bytes with
  | nil =>
      intro before check
      rw [checksum, List.sum_nil, add_zero]
      rfl
  | cons b bytes ih =>
      intro before check
      have hrest := ih (before ++ [b]) (check + b)
      rw [List.append_assoc, List.singleton_append, List.length_append, List.length_singleton]
        at hrest
      rw [List.length_cons, analysisLoop, List.cons_append,
        List.getElem?_append_right (Nat.le_refl _), Nat.sub_self, List.getElem?_cons_zero,
        Option.bind_some, hrest, checksum, checksum, List.sum_cons, BitVec.add_assoc]

/-- What the receiver does with the text of a packet: it compares the sum of the payload
with the number of the digits, and answers `+` and handles the payload, or answers `-`. -/
theorem gdbPacketAnalysis_packetText (handler : Byte → Option GdbHandler) (g : Gdb)
    {body : List Byte} {c d : Byte} {v w : ℕ} (hbody : body ≠ []) (hc : hexDigit c = some v)
    (hd : hexDigit d = some w) (rest : List Byte) :
    gdbPacketAnalysis handler g (packetText body [c, d] ++ 0 :: rest) (body.length + 4) =
      if (checksum body).toNat = 16 * v + w then
        handleRequest handler (gdbSendAck g) (body.head hbody)
          (body.tail ++ 0 :: c :: d :: 0 :: rest)
      else some (gdbRequireRetransmission g) := by
  have htext : packetText body [c, d] ++ 0 :: rest =
      [chr '$'] ++ (body ++ chr '#' :: c :: d :: 0 :: rest) := by
    rw [packetText, List.cons_append, List.append_assoc]
    rfl
  have hloop := analysisLoop_spec body (chr '#' :: c :: d :: 0 :: rest) [chr '$'] 0
  rw [zero_add] at hloop
  have hscan : scanHex ((packetText body [c, d] ++ 0 :: rest).drop (1 + body.length + 1)) =
      some (BitVec.ofNat 32 (16 * v + w)) := by
    rw [htext, Nat.add_comm 1, Nat.add_assoc, List.singleton_append, List.drop_succ_cons,
      List.drop_append, List.drop_eq_nil_of_le (Nat.le_succ _), List.nil_append,
      Nat.add_sub_cancel_left, List.drop_succ_cons, List.drop_zero, scanHex_two hc hd]
  have hset : (packetText body [c, d] ++ 0 :: rest).set (1 + body.length) 0 =
      chr '$' :: (body ++ 0 :: c :: d :: 0 :: rest) := by
    rw [htext, Nat.add_comm 1, List.singleton_append, List.set_cons_succ,
      List.set_append_right _ _ (Nat.le_refl _), Nat.sub_self, List.set_cons_zero]
  have hcheck : u32 (checksum body) = BitVec.ofNat 32 (16 * v + w) ↔
      (checksum body).toNat = 16 * v + w := by
    have hv := hexDigit_lt hc
    have hw := hexDigit_lt hd
    have hlt := (checksum body).isLt
    rw [u32, ← BitVec.toNat_inj, BitVec.toNat_setWidth, BitVec.toNat_ofNat,
      Nat.mod_eq_of_lt (by omega), Nat.mod_eq_of_lt (by omega)]
  have hcount : body.length + 4 - 3 - 1 = body.length := by omega
  rw [← htext, List.length_singleton] at hloop
  simp only [gdbPacketAnalysis, hcount, Option.bind_eq_bind, hloop, hscan, hset, Option.bind_some,
    hcheck]
  cases body with
  | nil => exact absurd rfl hbody
  | cons b tail => rfl

/-! ## The framing

The two halves are put together.  What a request does is stated on the payload and its two parts,
the first character and the string after it, and not on the text that held it. -/

/-- The string that begins at `data`. -/
def cString (data : List Byte) : List Byte := data.takeWhile (· ≠ 0)

/-- A string is read up to its NUL. -/
theorem cString_append {text : List Byte} (hne : ∀ b ∈ text, b ≠ 0) (rest : List Byte) :
    cString (text ++ 0 :: rest) = text := by
  rw [cString, List.takeWhile_append_of_pos fun b hb => decide_eq_true (hne b hb),
    List.takeWhile_cons_of_neg (by decide), List.append_nil]

/-- A request is handled, and what is handled is the payload: its first character chooses
the handler, and the rest is the string that the handler is given; where the table has no
handler, an empty packet is sent. -/
def HandlesPayload (handler : Byte → Option GdbHandler) (g : Gdb) (payload : List Byte)
    (result : Option Gdb) : Prop :=
  ∃ index data, index :: cString data = payload ∧
    ((∃ handle, handler index = some handle ∧ result = handle g data) ∨
      handler index = none ∧ result = gdbSendData g (str ""))

/-- The dispatch of a request has these two outcomes. -/
theorem handleRequest_cases (handler : Byte → Option GdbHandler) (g : Gdb) (index : Byte)
    (data : List Byte) :
    (∃ handle, handler index = some handle ∧
        handleRequest handler g index data = handle g data) ∨
      handler index = none ∧ handleRequest handler g index data = gdbSendData g (str "") := by
  rw [handleRequest]
  cases hindex : handler index with
  | none => exact Or.inr ⟨rfl, rfl⟩
  | some handle => exact Or.inl ⟨handle, rfl, rfl⟩

/-- **The framing is consistent and detects a corruption.**  The packet that
`gdb_send_buffer` makes of a payload is one for the scanner; `gdb_packet_analysis`
acknowledges it and handles that payload, with any handlers and in any state.  With
another byte at a place of the payload, or with digits that stand for another number, all
it does is to answer `-`. -/
theorem framing_detects_corruption (payload : Payload) (g : Gdb)
    (hholds : Holds g.packet 1 (payload.bytes ++ [0])) :
    ∃ g', gdbSendBuffer g = some g' ∧ g'.sent = g.sent ++ frame payload.bytes ∧
      g'.len = (frame payload.bytes).length ∧ Holds g'.packet 0 (frame payload.bytes ++ [0]) ∧
      IsPacket (frame payload.bytes) ∧
      ∀ (handler : Byte → Option GdbHandler) (receiver : Gdb) (rest : List Byte),
        HandlesPayload handler (gdbSendAck receiver) payload.bytes
            (gdbPacketAnalysis handler receiver (frame payload.bytes ++ 0 :: rest) g'.len) ∧
          (∀ (k : ℕ) (b : Byte) (hk : k < payload.bytes.length), b ≠ payload.bytes[k] →
            gdbPacketAnalysis handler receiver
                ((frame payload.bytes).set (k + 1) b ++ 0 :: rest) g'.len =
              some { receiver with sent := receiver.sent ++ [chr '-'] }) ∧
          ∀ (c d : Byte) (v w : ℕ), hexDigit c = some v → hexDigit d = some w →
            16 * v + w ≠ (checksum payload.bytes).toNat →
            gdbPacketAnalysis handler receiver
                (packetText payload.bytes [c, d] ++ 0 :: rest) g'.len =
              some { receiver with sent := receiver.sent ++ [chr '-'] } := by
  obtain ⟨c, d, v, w, hbyte, hc, hd, hvalue⟩ := hexByte_digits (checksum payload.bytes)
  obtain ⟨packet, hpacket, hsend⟩ := gdbSendBuffer_spec payload hholds
  have hframe : frame payload.bytes = packetText payload.bytes [c, d] := by rw [frame, hbyte]
  have hlength : (frame payload.bytes).length = payload.bytes.length + 4 := by
    rw [hframe, length_packetText]
  refine ⟨_, hsend, rfl, rfl, hpacket, ?_, fun handler receiver rest => ⟨?_, ?_, ?_⟩⟩
  · exact ⟨payload.bytes, c, d, hframe, payload.ne_delimiter, by rw [hc]; rfl, by rw [hd]; rfl⟩
  · refine ⟨payload.bytes.head payload.ne_nil,
      payload.bytes.tail ++ 0 :: c :: d :: 0 :: rest, ?_, ?_⟩
    · rw [cString_append fun b hb => payload.ne_nul b (List.mem_of_mem_tail hb),
        List.cons_head_tail]
    · dsimp only
      rw [hlength, hframe, gdbPacketAnalysis_packetText handler receiver payload.ne_nil hc hd,
        if_pos hvalue.symm]
      exact handleRequest_cases handler _ _ _
  · intro k b hk hne
    have hset : payload.bytes.set k b ≠ [] :=
      fun h => payload.ne_nil ((List.set_eq_nil_iff ..).mp h)
    have hsum : (checksum (payload.bytes.set k b)).toNat ≠ 16 * v + w := by
      rw [hvalue]
      exact fun h => checksum_set_ne hk hne (BitVec.toNat_inj.mp h)
    have hanalysis := gdbPacketAnalysis_packetText handler receiver hset hc hd rest
    rw [List.length_set, if_neg hsum] at hanalysis
    dsimp only
    rw [hlength, hframe, packetText_set _ _ _ hk, hanalysis]
    rfl
  · intro c d v w hc hd hne
    dsimp only
    rw [hlength, gdbPacketAnalysis_packetText handler receiver payload.ne_nil hc hd,
      if_neg hne.symm]
    rfl

/-- The answer `OK`. -/
def okPayload : Payload where
  bytes := str "OK"
  ne_nil := by decide
  ne_nul := by decide
  ne_delimiter := by decide
  length_le := by decide

/-- A debugger's end that is about to answer `OK`. -/
def okGdb : Gdb :=
  gdbInitData (ArmCore.load 0x1d3 []) (fun i => (str ".OK").getD i.val 0) fun _ => 0

/-- `$OK#9a` is sent, and handled; `$OJ#9a` and `$OK#9b` are not. -/
theorem framing_detects_corruption_ok :
    ∃ g', gdbSendBuffer okGdb = some g' ∧ g'.sent = str "$OK#9a" ∧ g'.len = 6 ∧
      HandlesPayload (fun _ => none) (gdbSendAck okGdb) (str "OK")
        (gdbPacketAnalysis (fun _ => none) okGdb (str "$OK#9a" ++ [0]) g'.len) ∧
      gdbPacketAnalysis (fun _ => none) okGdb (str "$OJ#9a" ++ [0]) g'.len =
        some { okGdb with sent := [chr '-'] } ∧
      gdbPacketAnalysis (fun _ => none) okGdb (str "$OK#9b" ++ [0]) g'.len =
        some { okGdb with sent := [chr '-'] } := by
  have hholds : Holds okGdb.packet 1 (okPayload.bytes ++ [0]) := fun k hk =>
    (show ∀ k : Fin 3, read okGdb.packet (1 + k) = some ((str "OK" ++ [0]).get k) by decide)
      ⟨k, hk⟩
  obtain ⟨g', hsend, hsent, hlen, -, -, hreceive⟩ :=
    framing_detects_corruption okPayload okGdb hholds
  obtain ⟨hhandled, hbyte, hdigits⟩ := hreceive (fun _ => none) okGdb []
  exact ⟨g', hsend, hsent, hlen, hhandled, hbyte 1 (chr 'J') (by decide) (by decide),
    hdigits (chr '9') (chr 'b') 9 11 (by decide) (by decide) (by decide)⟩

end ArmSimulator
