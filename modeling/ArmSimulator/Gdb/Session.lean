import ArmSimulator.Gdb.Commands
import ArmSimulator.Gdb.Scanner
import ArmSimulator.Library.Transducer

/-!
# A session with the debugger (`scanner.l`, `gdb_protocol.c`)

The actions of the scanner's rules answer what they receive: a request by `+` and a packet, a packet
whose sum is wrong by `-`, a request for retransmission by the last packet once more.  Characters
that belong to no message are collected in a buffer of 1024 bytes, and answered by one `-` when a
message follows or when the buffer is full.

A run of the session is a list of lexemes between which the other thread may interrupt the
processor; after a `k` the output is shut down, and a message that is sent then ends the process.
What a handler takes from outside comes with the lexeme: fuel for `cont`, and the uninitialised
locals of the steps.  A run in which some action fails is no run; what can fail is a handler, or a
write after a `k`.

`Dialogue` is the protocol without its bytes: how many characters wait, and the last packet.  It is
what a reader of the protocol would write down, a request is answered by `+` and some packet, and it
says nothing of the processor.  `Follows` connects the two, and one step of the session is one of
the dialogue.

* `session_messages`: in every run what is sent is the stream of the messages of a dialogue.
* `session_answers_requests`: one `+` and one packet for each request, and no other packets but the
  ones that are sent again.
* `session_retransmits_last`: the packet that is sent again is the last one.
* `session_processor`: the processor stays in the states of the simulator, and the table of
  breakpoints in those that insertions and removals reach.
* `session_survives`: only a request with the right sum can end the process.

The answers are counted at the other end, by the same scanner: what is sent is cut into lexemes
again, and these are the messages.
-/

namespace ArmSimulator

open CheckedArray LongestMatch

/-! ## The actions

The two functions and the five actions of `scanner.l`.  The buffer for characters that belong to no
message is written by one of them; nothing reads it but a trace. -/

def MAX_ERROR_SIZE : ℕ := 1024

/-- `struct parser_data`. -/
structure ParserData where
  gdb : Gdb
  buffer : Fin MAX_ERROR_SIZE → Byte
  len : ℕ

/-- `handle_error`. -/
def handleError (s : ParserData) : Option ParserData :=
  if s.len ≠ 0 then
    (write s.buffer s.len 0).map fun buffer => ⟨gdbRequireRetransmission s.gdb, buffer, 0⟩
  else some s

/-- `add_character_to_error`. -/
def addCharacterToError (s : ParserData) (c : Byte) : Option ParserData :=
  (if MAX_ERROR_SIZE - 2 < s.len then handleError s else some s).bind fun s =>
    (write s.buffer s.len c).map fun buffer => { s with buffer := buffer, len := s.len + 1 }

/-- The action of a rule; `rest` is what the scanner's buffer holds after the NUL of `yytext`. -/
def scannerAction (handler : Byte → Option GdbHandler) (s : ParserData) (text rest : List Byte) :
    ScannerRule → Option ParserData
  | .ack => handleError s
  | .retransmission =>
      (handleError s).bind fun s => (gdbTransmitPacket s.gdb).map fun g => { s with gdb := g }
  | .packet =>
      (handleError s).bind fun s =>
        (gdbPacketAnalysis handler s.gdb (text ++ 0 :: rest) text.length).map
          fun g => { s with gdb := g }
  | .error => text.head?.bind (addCharacterToError s)
  | .echo => some s

/-! ## The packets

What a packet is for the scanner and what `gdb_packet_analysis` makes of it, without looking into
the handlers. -/

/-- The payload in the text of a packet. -/
def packetBody (text : List Byte) : List Byte := (text.drop 1).take (text.length - 4)

/-- The first character of the payload. -/
def packetIndex (text : List Byte) : Byte := (packetBody text).headD 0

/-- The digits of a packet stand for the sum of its payload. -/
def packetChecks (text : List Byte) : Bool :=
  scanHex (text.drop (text.length - 2) ++ [0]) = some (u32 (checksum (packetBody text)))

theorem packetBody_packetText (body : List Byte) (c d : Byte) :
    packetBody (packetText body [c, d]) = body := by
  rw [packetBody, length_packetText, packetText, List.drop_succ_cons, List.drop_zero,
    Nat.add_sub_cancel, List.take_left]

/-- The digits are two. -/
theorem packetChecks_packetText {body : List Byte} {c d : Byte} {v w : ℕ}
    (hc : hexDigit c = some v) (hd : hexDigit d = some w) :
    packetChecks (packetText body [c, d]) = decide ((checksum body).toNat = 16 * v + w) := by
  have hv := hexDigit_lt hc
  have hw := hexDigit_lt hd
  have hlt := (checksum body).isLt
  have hdigits : (packetText body [c, d]).drop ((packetText body [c, d]).length - 2) = [c, d] := by
    rw [length_packetText, packetText]
    have hsplit : chr '$' :: (body ++ [chr '#', c, d]) =
        (chr '$' :: (body ++ [chr '#'])) ++ [c, d] := by simp
    rw [hsplit, List.drop_left' (by simp)]
  rw [packetChecks, hdigits, packetBody_packetText]
  have hscan : scanHex ([c, d] ++ [0]) = some (BitVec.ofNat 32 (16 * v + w)) := scanHex_two hc hd []
  rw [hscan, decide_eq_decide, Option.some_inj, u32, ← BitVec.toNat_inj, BitVec.toNat_setWidth,
    BitVec.toNat_ofNat, Nat.mod_eq_of_lt (by omega), Nat.mod_eq_of_lt (by omega)]
  exact eq_comm

/-- What `gdb_packet_analysis` does with the text of a packet. -/
theorem gdbPacketAnalysis_isPacket (handler : Byte → Option GdbHandler) (g : Gdb)
    {text : List Byte} (htext : IsPacket text) (rest : List Byte) :
    ∃ data, gdbPacketAnalysis handler g (text ++ 0 :: rest) text.length =
      if packetChecks text then handleRequest handler (gdbSendAck g) (packetIndex text) data
      else some (gdbRequireRetransmission g) := by
  obtain ⟨body, c, d, rfl, -, hc, hd⟩ := htext
  obtain ⟨v, hv⟩ := Option.isSome_iff_exists.mp hc
  obtain ⟨w, hw⟩ := Option.isSome_iff_exists.mp hd
  rw [packetChecks_packetText hv hw, packetIndex, packetBody_packetText, length_packetText]
  cases body with
  | nil =>
      -- the delimiter is the first character, and is overwritten
      have hscan : scanHex ((packetText [] [c, d] ++ 0 :: rest).drop 2) =
          some (BitVec.ofNat 32 (16 * v + w)) := scanHex_two hv hw rest
      have hzero : u32 0 = BitVec.ofNat 32 (16 * v + w) ↔ (checksum []).toNat = 16 * v + w := by
        have hv' := hexDigit_lt hv
        have hw' := hexDigit_lt hw
        rw [← BitVec.toNat_inj, BitVec.toNat_ofNat, Nat.mod_eq_of_lt (by omega)]
        rfl
      refine ⟨c :: d :: 0 :: rest, ?_⟩
      simp only [decide_eq_true_eq, ← hzero]
      simp only [gdbPacketAnalysis, List.length_nil, Nat.zero_add, Nat.sub_self, analysisLoop,
        Option.bind_eq_bind, Option.bind_some, hscan]
      rfl
  | cons b body =>
      refine ⟨body ++ 0 :: c :: d :: 0 :: rest, ?_⟩
      rw [gdbPacketAnalysis_packetText handler g (List.cons_ne_nil b body) hv hw rest]
      simp only [decide_eq_true_eq]
      rfl

/-! ## The session

The lexemes are given; how they are found in the stream is the scanner's part, and comes later. -/

/-- A match of the scanner. -/
structure Lexeme where
  rule : ScannerRule
  text : List Byte
  rule_eq : scannerRule text = some rule

/-- What happens to a session.  A lexeme comes with what follows it in the buffer of the scanner,
and with what the handlers take from outside: fuel for `cont` and the uninitialised locals of the
steps.  The other thread interrupts between two actions. -/
inductive SessionEvent
  | lexeme (lexeme : Lexeme) (rest : List Byte) (fuel : ℕ) (junk : ℕ → Word)
  | endOfFile
  | interrupt (irq : Byte) (junk : Word)

/-- A session: the data of the scanner, and whether the output is shut down. -/
structure Session where
  data : ParserData
  shut : Bool

/-- What the session has sent. -/
def Session.sent (s : Session) : List Byte := s.data.gdb.sent

/-- The end of an action: a write to an output that is shut down ends the process. -/
def Session.finish (s : Session) (kill : Bool) (data : ParserData) : Option Session :=
  if s.shut ∧ data.gdb.sent ≠ s.sent then none else some ⟨data, s.shut || kill⟩

/-- A request to kill the process, which shuts the output down. -/
def Lexeme.kills (l : Lexeme) : Bool :=
  l.rule = .packet ∧ packetChecks l.text ∧ packetIndex l.text = chr 'k'

/-- The session as a machine.  A step fails when an action does, or when it writes to an output that
is shut down. -/
def session : Machine Session SessionEvent where
  step s
    | .lexeme l rest fuel junk =>
        (scannerAction (gdbInit fuel junk) s.data l.text rest l.rule).bind (s.finish l.kills)
    | .endOfFile => (handleError s.data).bind (s.finish false)
    | .interrupt irq junk =>
        let gdb := s.data.gdb
        some { s with data := { s.data with gdb := { gdb with
          arm := (armException gdb.arm irq junk).2 } } }

/-- The session that `gdb_scanner` begins: no character waits, and there is no last packet. -/
def sessionStart (arm : ArmCore) (packet : Fin MAX_PACKET_SIZE → Byte)
    (contents : Fin MAX_BREAKPOINTS_NUMBER → Word) (buffer : Fin MAX_ERROR_SIZE → Byte) :
    Session where
  data := ⟨gdbInitData arm packet contents, buffer, 0⟩
  shut := false

/-! ## The protocol

One kind of input for each rule, with the packets divided by their sum and by whether they are a
`k`. -/

/-- What the protocol sees of a lexeme, or of the end of the stream. -/
inductive DialogueInput
  | ack
  | retransmission
  | request
  | kill
  | corrupt
  | garbage
  | silence
  | endOfFile
  deriving DecidableEq, Repr

/-- The kind of a lexeme: its rule, and for a packet its sum and whether it is a `k`. -/
def dialogueInput : ScannerRule × List Byte → DialogueInput
  | (.ack, _) => .ack
  | (.retransmission, _) => .retransmission
  | (.packet, text) =>
      if packetChecks text then if packetIndex text = chr 'k' then .kill else .request
      else .corrupt
  | (.error, _) => .garbage
  | (.echo, _) => .silence

/-- The state of the protocol: how many characters wait for an answer, and the last packet sent. -/
structure Dialogue where
  garbage : ℕ
  last : Option Body

namespace Dialogue

/-- The answer to the characters that wait. -/
def apology (d : Dialogue) : List Message := if d.garbage = 0 then [] else [.retransmission]

/-- No character waits. -/
def settled (d : Dialogue) : Dialogue := { d with garbage := 0 }

/-- The last packet once more. -/
def repeated (d : Dialogue) : List Message := d.last.toList.map .packet

/-- What is answered.  The packet that answers a request is any: which one it is, the handlers
decide, and the protocol has nothing to say about it. -/
inductive Reacts : Dialogue → DialogueInput → List Message → Dialogue → Prop
  | ack (d : Dialogue) : Reacts d .ack d.apology d.settled
  | retransmission (d : Dialogue) :
      Reacts d .retransmission (d.apology ++ d.repeated) d.settled
  | request (d : Dialogue) (body : Body) :
      Reacts d .request (d.apology ++ [.ack, .packet body]) { d.settled with last := some body }
  | kill (d : Dialogue) : Reacts d .kill (d.apology ++ [.ack]) d.settled
  | corrupt (d : Dialogue) : Reacts d .corrupt (d.apology ++ [.retransmission]) d.settled
  | garbage (d : Dialogue) (hroom : d.garbage < MAX_ERROR_SIZE - 1) :
      Reacts d .garbage [] { d with garbage := d.garbage + 1 }
  | full (d : Dialogue) (hfull : d.garbage = MAX_ERROR_SIZE - 1) :
      Reacts d .garbage [.retransmission] { d with garbage := 1 }
  | silence (d : Dialogue) : Reacts d .silence [] d
  | endOfFile (d : Dialogue) : Reacts d .endOfFile d.apology d.settled

/-- The beginning. -/
def start : Dialogue where
  garbage := 0
  last := none

end Dialogue

/-- What the protocol sees of an event. -/
def SessionEvent.view : SessionEvent → Option DialogueInput
  | lexeme l _ _ _ => some (dialogueInput (l.rule, l.text))
  | endOfFile => some .endOfFile
  | interrupt _ _ => none

/-! ## Histories of the protocol

What can be counted in a dialogue after any number of steps, by a step lemma and a run lemma. -/

namespace Dialogue

/-- The rules of the scanner at the other end that find the messages. -/
def rules (ms : List Message) : List ScannerRule := ms.map fun m => m.lexeme.1

/-- The requests for retransmission after the first request. -/
def repeats (is : List DialogueInput) : ℕ := (is.dropWhile (· ≠ .request)).count .retransmission

/-- The last packet among lexemes. -/
def lastPacket (lexemes : List (ScannerRule × List Byte)) : List Byte :=
  lexemes.foldl (fun last l => if l.1 = .packet then l.2 else last) []

theorem repeats_concat (is : List DialogueInput) (i : DialogueInput) :
    repeats (is ++ [i]) = repeats is + if .request ∈ is ∧ i = .retransmission then 1 else 0 := by
  induction is with
  | nil =>
      rw [if_neg fun h => List.not_mem_nil h.1]
      cases i <;> rfl
  | cons j is ih =>
      by_cases hj : j = .request
      · subst hj
        have hkept : ∀ is : List DialogueInput,
            repeats (.request :: is) = (DialogueInput.request :: is).count .retransmission :=
          fun is => rfl
        rw [List.cons_append, hkept, hkept, ← List.cons_append, List.count_append,
          if_congr (and_iff_right List.mem_cons_self) rfl rfl, List.count_singleton]
        simp only [beq_iff_eq]
      · have hdropped : ∀ is : List DialogueInput, repeats (j :: is) = repeats is := by
          intro is
          rw [repeats, List.dropWhile_cons_of_pos (by simpa using hj), repeats]
        have hmem : .request ∈ j :: is ↔ .request ∈ is := by
          rw [List.mem_cons, or_iff_right fun h => hj h.symm]
        rw [List.cons_append, hdropped, hdropped, ih, if_congr (and_congr_left' hmem) rfl rfl]

/-- The last packet of the state, as it was sent. -/
def lastFrame (d : Dialogue) : List Byte := (d.last.map fun body => frame body.bytes).getD []

/-- What a history leaves. -/
structure History (is : List DialogueInput) (ms : List Message) (d : Dialogue) : Prop where
  acks : (rules ms).count .ack = is.count .request + is.count .kill
  packets : (rules ms).count .packet = is.count .request + repeats is
  requested : d.last.isSome ↔ .request ∈ is
  last : lastPacket (ms.map Message.lexeme) = d.lastFrame

section Reacts

variable {d e : Dialogue} {i : DialogueInput} {ms : List Message}

theorem rules_append (ms ns : List Message) : rules (ms ++ ns) = rules ms ++ rules ns :=
  List.map_append

/-- An apology has no acknowledgement and no packet. -/
theorem count_apology (d : Dialogue) {r : ScannerRule} (hr : r ≠ .retransmission) :
    (rules d.apology).count r = 0 := by
  rw [apology]
  split_ifs
  · rfl
  · exact List.count_eq_zero.mpr fun hmem => hr (List.mem_singleton.mp hmem)

/-- How many acknowledgements and packets answer an input. -/
theorem Reacts.counts (h : d.Reacts i ms e) :
    (rules ms).count .ack = [i].count .request + [i].count .kill ∧
      (rules ms).count .packet =
        [i].count .request + if d.last.isSome ∧ i = .retransmission then 1 else 0 := by
  have hack := d.count_apology (r := .ack) (by decide)
  have hpacket := d.count_apology (r := .packet) (by decide)
  cases h with
  | retransmission =>
      rw [rules_append, List.count_append, List.count_append, hack, hpacket, repeated]
      cases d.last with
      | none => exact ⟨rfl, rfl⟩
      | some body => exact ⟨rfl, rfl⟩
  | request body =>
      rw [rules_append, List.count_append, List.count_append, hack, hpacket, if_neg (by simp)]
      exact ⟨rfl, rfl⟩
  | kill =>
      rw [rules_append, List.count_append, List.count_append, hack, hpacket, if_neg (by simp)]
      exact ⟨rfl, rfl⟩
  | corrupt =>
      rw [rules_append, List.count_append, List.count_append, hack, hpacket, if_neg (by simp)]
      exact ⟨rfl, rfl⟩
  | ack =>
      rw [hack, hpacket, if_neg (by simp)]
      exact ⟨rfl, rfl⟩
  | endOfFile =>
      rw [hack, hpacket, if_neg (by simp)]
      exact ⟨rfl, rfl⟩
  | garbage hroom =>
      rw [if_neg (by simp)]
      exact ⟨rfl, rfl⟩
  | full hfull =>
      rw [if_neg (by simp)]
      exact ⟨rfl, rfl⟩
  | silence =>
      rw [if_neg (by simp)]
      exact ⟨rfl, rfl⟩

theorem lastPacket_append (ls : List (ScannerRule × List Byte)) (ns : List Message) :
    lastPacket (ls ++ ns.map Message.lexeme) =
      (ns.map Message.lexeme).foldl (fun last l => if l.1 = .packet then l.2 else last)
        (lastPacket ls) :=
  List.foldl_append

/-- The last packet after an input. -/
theorem Reacts.lastFrame (h : d.Reacts i ms e) :
    (ms.map Message.lexeme).foldl (fun last l => if l.1 = .packet then l.2 else last)
        d.lastFrame = e.lastFrame ∧
      (e.last.isSome ↔ d.last.isSome ∨ i = .request) := by
  have hapology : ∀ last : List Byte,
      (d.apology.map Message.lexeme).foldl
        (fun last l => if l.1 = .packet then l.2 else last) last = last := by
    intro last
    rw [apology]
    split_ifs <;> rfl
  cases h with
  | retransmission =>
      rw [List.map_append, List.foldl_append, hapology, or_iff_left (by simp)]
      obtain ⟨garbage, last⟩ := d
      cases last with
      | none => exact ⟨rfl, Iff.rfl⟩
      | some body => exact ⟨rfl, Iff.rfl⟩
  | request body =>
      rw [List.map_append, List.foldl_append, hapology]
      exact ⟨rfl, iff_of_true rfl (Or.inr rfl)⟩
  | kill =>
      rw [List.map_append, List.foldl_append, hapology, or_iff_left (by simp)]
      exact ⟨rfl, Iff.rfl⟩
  | corrupt =>
      rw [List.map_append, List.foldl_append, hapology, or_iff_left (by simp)]
      exact ⟨rfl, Iff.rfl⟩
  | ack =>
      rw [hapology, or_iff_left (by simp)]
      exact ⟨rfl, Iff.rfl⟩
  | endOfFile =>
      rw [hapology, or_iff_left (by simp)]
      exact ⟨rfl, Iff.rfl⟩
  | garbage hroom => exact ⟨rfl, by simp⟩
  | full hfull => exact ⟨rfl, by simp⟩
  | silence => exact ⟨rfl, by simp⟩

end Reacts

/-- **Step lemma.**  An input and the messages that answer it keep the counts and the last packet
right. -/
theorem History.step {is : List DialogueInput} {ms ns : List Message} {d e : Dialogue}
    {i : DialogueInput} (h : History is ms d) (hstep : d.Reacts i ns e) :
    History (is ++ [i]) (ms ++ ns) e := by
  obtain ⟨hacks, hpackets⟩ := hstep.counts
  obtain ⟨hlast, hsome⟩ := hstep.lastFrame
  refine ⟨?_, ?_, ?_, ?_⟩
  · rw [rules_append, List.count_append, h.acks, hacks, List.count_append, List.count_append]
    omega
  · rw [rules_append, List.count_append, h.packets, hpackets, List.count_append, repeats_concat,
      if_congr (and_congr_left' h.requested) rfl rfl]
    omega
  · rw [hsome, h.requested, List.mem_append, List.mem_singleton, eq_comm]
  · rw [List.map_append, lastPacket_append, h.last, hlast]

end Dialogue

/-! ## The session follows the protocol

Each action, from data that are in a state of the protocol, sends the messages of one reaction and
leaves the data in the state that follows. -/

/-- `packet` holds the last packet. -/
def HoldsLast (g : Gdb) : Option Body → Prop
  | none => g.len = 0
  | some body => Holding g body.bytes

/-- The data are in a state of the protocol.  The contents of the buffer for characters are not part
of it. -/
structure Follows (s : ParserData) (d : Dialogue) : Prop where
  garbage : s.len = d.garbage
  garbage_le : d.garbage ≤ MAX_ERROR_SIZE - 1
  last : HoldsLast s.gdb d.last

theorem stream_append (ms ns : List Message) : stream (ms ++ ns) = stream ms ++ stream ns := by
  rw [stream, List.map_append, List.flatten_append]
  rfl

/-- The last packet as it is sent again. -/
theorem stream_repeated (d : Dialogue) : stream d.repeated = d.lastFrame := by
  rw [Dialogue.repeated, Dialogue.lastFrame]
  cases d.last with
  | none => rfl
  | some body => exact List.append_nil _

/-- What is held is in `packet` and its length. -/
theorem HoldsLast.congr {g g' : Gdb} {last : Option Body} (h : HoldsLast g last)
    (hpacket : g'.packet = g.packet) (hlen : g'.len = g.len) : HoldsLast g' last := by
  cases last with
  | none => exact hlen.trans h
  | some body => exact ⟨by rw [hpacket]; exact h.packet, by rw [hlen]; exact h.len⟩

/-- `gdb_transmit_packet` sends what is held. -/
theorem HoldsLast.gdbTransmitPacket {g : Gdb} {last : Option Body} (h : HoldsLast g last) :
    gdbTransmitPacket g =
      some { g with sent := g.sent ++ stream (last.toList.map .packet) } := by
  cases last with
  | none =>
      rw [ArmSimulator.gdbTransmitPacket, show g.len = 0 from h]
      rfl
  | some body =>
      have hstream : stream [Message.packet body] = frame body.bytes := List.append_nil _
      rw [Holding.gdbTransmitPacket h]
      exact congrArg (fun bytes => some { g with sent := g.sent ++ bytes }) hstream.symm

/-- **`handle_error`** answers the characters that wait. -/
theorem Follows.handleError {s : ParserData} {d : Dialogue} (h : Follows s d) :
    ∃ buffer, handleError s =
      some ⟨{ s.gdb with sent := s.gdb.sent ++ stream d.apology }, buffer, 0⟩ := by
  have hle := h.garbage_le
  by_cases hzero : d.garbage = 0
  · refine ⟨s.buffer, ?_⟩
    rw [ArmSimulator.handleError, if_neg (by rw [h.garbage]; exact not_not.mpr hzero),
      Dialogue.apology, if_pos hzero, stream, List.map_nil, List.flatten_nil, List.append_nil,
      ← hzero, ← h.garbage]
  · obtain ⟨buffer, hwrite, -⟩ := write_spec s.buffer (i := s.len) 0 (by
      rw [h.garbage]
      exact Nat.lt_of_le_of_lt hle (by decide))
    refine ⟨buffer, ?_⟩
    rw [ArmSimulator.handleError, if_pos (by rw [h.garbage]; exact hzero), hwrite,
      Dialogue.apology, if_neg hzero]
    rfl

/-- After that, no character waits. -/
theorem Follows.settled {s : ParserData} {d : Dialogue} (h : Follows s d)
    (sent : List Byte) (buffer : Fin MAX_ERROR_SIZE → Byte) :
    Follows ⟨{ s.gdb with sent := sent }, buffer, 0⟩ d.settled :=
  ⟨rfl, Nat.zero_le _, h.last.congr rfl rfl⟩

/-- **`add_character_to_error`** stays in its buffer. -/
theorem Follows.addCharacterToError {s : ParserData} {d : Dialogue} (h : Follows s d) (c : Byte) :
    ∃ ms d' buffer, Dialogue.Reacts d .garbage ms d' ∧
      addCharacterToError s c =
        some ⟨{ s.gdb with sent := s.gdb.sent ++ stream ms }, buffer, d'.garbage⟩ ∧
      d'.garbage ≤ MAX_ERROR_SIZE - 1 ∧ d'.last = d.last := by
  have hle := h.garbage_le
  have hgarbage := h.garbage
  by_cases hroom : d.garbage < MAX_ERROR_SIZE - 1
  · obtain ⟨buffer, hwrite, -⟩ := write_spec s.buffer (i := s.len) c (by
      rw [hgarbage]
      exact Nat.lt_of_lt_of_le hroom (Nat.sub_le _ _))
    refine ⟨[], { d with garbage := d.garbage + 1 }, buffer, .garbage d hroom, ?_, hroom, rfl⟩
    have hempty : s.gdb.sent ++ stream [] = s.gdb.sent := List.append_nil _
    have hnotFull : ¬ MAX_ERROR_SIZE - 2 < s.len := by
      rw [hgarbage]
      exact Nat.not_lt.mpr (Nat.le_of_lt_succ hroom)
    rw [ArmSimulator.addCharacterToError, if_neg hnotFull, Option.bind_some, hwrite,
      Option.map_some, hempty, hgarbage]
  · have hfull : d.garbage = MAX_ERROR_SIZE - 1 := Nat.le_antisymm hle (Nat.le_of_not_lt hroom)
    obtain ⟨buffer, herror⟩ := h.handleError
    obtain ⟨buffer', hwrite, -⟩ := write_spec buffer (i := 0) c (by decide)
    have happend : d.apology = [.retransmission] := by
      rw [Dialogue.apology, hfull]
      rfl
    refine ⟨_, { d with garbage := 1 }, buffer', .full d hfull, ?_,
      (by decide : 1 ≤ MAX_ERROR_SIZE - 1), rfl⟩
    have hlong : MAX_ERROR_SIZE - 2 < s.len := by
      rw [hgarbage, hfull]
      decide
    rw [ArmSimulator.addCharacterToError, if_pos hlong, herror, Option.bind_some, hwrite,
      Option.map_some, happend]

/-- The handler of `k`. -/
theorem gdbInit_kill (fuel : ℕ) (junk : ℕ → Word) :
    gdbInit fuel junk (chr 'k') = some Gdb.killRequest := by
  rfl

/-- **`gdb_packet_analysis`** reacts to a packet as the protocol says. -/
theorem gdbPacketAnalysis_reacts {g g' : Gdb} {d : Dialogue} (h : HoldsLast g d.last) {fuel : ℕ}
    {junk : ℕ → Word} {text : List Byte} (htext : IsPacket text) {rest : List Byte}
    (hrun : gdbPacketAnalysis (gdbInit fuel junk) g (text ++ 0 :: rest) text.length = some g') :
    ∃ ms last, d.Reacts (dialogueInput (.packet, text)) (d.apology ++ ms)
        { d.settled with last := last } ∧
      g'.sent = g.sent ++ stream ms ∧ HoldsLast g' last ∧ Works g g' := by
  obtain ⟨data, hanalysis⟩ := gdbPacketAnalysis_isPacket (gdbInit fuel junk) g htext rest
  rw [hanalysis] at hrun
  rw [dialogueInput]
  split_ifs at hrun ⊢ with hchecks hkill
  · -- the output is shut down, and nothing else happens
    rw [hkill, handleRequest, gdbInit_kill] at hrun
    obtain rfl := Option.some.inj hrun
    exact ⟨[.ack], d.last, .kill d, rfl, h.congr rfl rfl, SameWork.works ⟨rfl, rfl, rfl⟩⟩
  · obtain ⟨⟨a, hsends⟩, hworks⟩ :=
      (handleRequest_answers hrun).resolve_left fun h => hkill h.1
    refine ⟨[.ack, .packet ⟨a.bytes, a.ne_delimiter⟩], some ⟨a.bytes, a.ne_delimiter⟩,
      .request d _, ?_, hsends.holding, hworks.arm, hworks.breakpoints⟩
    have hstream : stream [Message.ack, .packet ⟨a.bytes, a.ne_delimiter⟩] =
        [chr '+'] ++ frame a.bytes := congrArg ([chr '+'] ++ ·) (List.append_nil _)
    rw [hsends.sent, hstream, gdbSendAck, List.append_assoc]
  · obtain rfl := Option.some.inj hrun
    exact ⟨[.retransmission], d.last, .corrupt d, rfl, h.congr rfl rfl,
      SameWork.works ⟨rfl, rfl, rfl⟩⟩

/-- A match of the rule `.` is one character. -/
theorem exists_of_scannerRule_error {text : List Byte} (h : scannerRule text = some .error) :
    ∃ c, text = [c] := by
  unfold scannerRule scannerCharacter at h
  split_ifs at h with hack hnak hpacket
  · cases h
  · cases h
  · cases h
  · split at h
    · next c => exact ⟨c, rfl⟩
    · cases h

/-- **The actions follow the protocol**, and work on the processor and the breakpoints by events,
insertions and removals. -/
theorem Follows.scannerAction {s t : ParserData} {d : Dialogue} (h : Follows s d) {fuel : ℕ}
    {junk : ℕ → Word} (l : Lexeme) {rest : List Byte}
    (hrun : ArmSimulator.scannerAction (gdbInit fuel junk) s l.text rest l.rule = some t) :
    ∃ ms d', d.Reacts (dialogueInput (l.rule, l.text)) ms d' ∧
      t.gdb.sent = s.gdb.sent ++ stream ms ∧ Follows t d' ∧ Works s.gdb t.gdb := by
  obtain ⟨rule, text, hrule⟩ := l
  dsimp only at hrun ⊢
  obtain ⟨buffer, herror⟩ := h.handleError
  cases rule with
  | ack =>
      rw [ArmSimulator.scannerAction, herror] at hrun
      obtain rfl := Option.some.inj hrun
      exact ⟨_, _, .ack d, rfl, h.settled _ _, SameWork.works ⟨rfl, rfl, rfl⟩⟩
  | retransmission =>
      have hsettled := h.settled (s.gdb.sent ++ stream d.apology) buffer
      rw [ArmSimulator.scannerAction, herror, Option.bind_some,
        hsettled.last.gdbTransmitPacket] at hrun
      obtain rfl := Option.some.inj hrun
      refine ⟨_, _, .retransmission d, ?_, ⟨rfl, Nat.zero_le _, h.last.congr rfl rfl⟩,
        SameWork.works ⟨rfl, rfl, rfl⟩⟩
      rw [stream_append, ← List.append_assoc]
      rfl
  | packet =>
      rw [ArmSimulator.scannerAction, herror, Option.bind_some] at hrun
      obtain ⟨g', hanalysis, rfl⟩ := Option.map_eq_some_iff.mp hrun
      have hlast := (h.settled (s.gdb.sent ++ stream d.apology) buffer).last
      have hpacket := (scannerRule_eq_packet_iff text).mp hrule
      obtain ⟨ms, last, hreacts, hsent, hholds, hworks⟩ :=
        gdbPacketAnalysis_reacts (d := d) hlast hpacket hanalysis
      refine ⟨_, _, hreacts, ?_, ⟨rfl, Nat.zero_le _, hholds⟩, hworks.arm, hworks.breakpoints⟩
      rw [stream_append, ← List.append_assoc]
      exact hsent
  | error =>
      obtain ⟨c, rfl⟩ := exists_of_scannerRule_error hrule
      obtain ⟨ms, d', buffer', hreacts, hadd, hle, hlast⟩ := h.addCharacterToError c
      rw [ArmSimulator.scannerAction, List.head?_cons, Option.bind_some, hadd] at hrun
      obtain rfl := Option.some.inj hrun
      refine ⟨ms, d', hreacts, rfl, ⟨rfl, hle, ?_⟩, SameWork.works ⟨rfl, rfl, rfl⟩⟩
      rw [hlast]
      exact h.last.congr rfl rfl
  | echo =>
      obtain rfl := Option.some.inj hrun
      exact ⟨[], d, .silence d, (List.append_nil _).symm, h, SameWork.works ⟨rfl, rfl, rfl⟩⟩

/-! ## Runs of the session

The step lemmas for what is received and for the other thread, the run lemma, and what follows from
it for whole runs. -/

section Runs

variable {s t : Session} {d : Dialogue}

/-- A run from a reachable state. -/
theorem Reachable.run {p q : ArmCore} (h : Reachable p) {events : List Event}
    (hrun : simulator.run p events = some q) : Reachable q := by
  obtain ⟨reg, mem, before, hbefore⟩ := h
  refine ⟨reg, mem, before ++ events, ?_⟩
  rw [Machine.run_append, hbefore, Option.bind_some, hrun]

end Runs

/-- The request `$Z0,4,4#4a`. -/
def breakpointLexeme : Lexeme := ⟨.packet, str "$Z0,4,4#4a", by decide⟩

/-- The request `$s#73`. -/
def stepLexeme : Lexeme := ⟨.packet, str "$s#73", by decide⟩

/-- A request for retransmission. -/
def minusLexeme : Lexeme := ⟨.retransmission, [chr '-'], by decide⟩

/-- A character that belongs to no message. -/
def starLexeme : Lexeme := ⟨.error, [chr '*'], by decide⟩

/-- A session with a processor that has been reset. -/
def sessionSample : Session :=
  sessionStart (armCreate (ArmCore.load 0x1d3 []).reg (ArmCore.load 0x1d3 []).mem) (fun _ => 0)
    (fun _ => 0) fun _ => 0

section Start

variable (arm : ArmCore) (packet : Fin MAX_PACKET_SIZE → Byte)
  (contents : Fin MAX_BREAKPOINTS_NUMBER → Word) (buffer : Fin MAX_ERROR_SIZE → Byte)

/-- The session begins as the protocol does. -/
theorem follows_start : Follows (sessionStart arm packet contents buffer).data .start :=
  ⟨rfl, Nat.zero_le _, rfl⟩

/-- The frame of a body has the right sum. -/
theorem packetChecks_frame (body : List Byte) : packetChecks (frame body) = true := by
  obtain ⟨c, d, v, w, hbyte, hc, hd, hvalue⟩ := hexByte_digits (checksum body)
  rw [frame, hbyte, packetChecks_packetText hc hd, hvalue]
  exact decide_eq_true rfl

/-- What an event does to the processor when it is no request. -/
def SessionEvent.exception : SessionEvent → Option Event
  | interrupt irq junk => some (.exception irq junk)
  | _ => none

/-- An output that is not shut down can be written. -/
theorem Session.finish_of_open {s : Session} (hopen : s.shut = false) (kill : Bool)
    (data : ParserData) : s.finish kill data = some ⟨data, kill⟩ := by
  rw [Session.finish, if_neg fun h => by rw [hopen] at h; exact Bool.false_ne_true h.1, hopen,
    Bool.false_or]

/-- Only a `k` shuts the output down. -/
theorem Lexeme.kills_of_view (l : Lexeme)
    (hkill : some (dialogueInput (l.rule, l.text)) ≠ some .kill) : l.kills = false := by
  refine decide_eq_false ?_
  rintro ⟨hrule, hchecks, hindex⟩
  refine hkill (congrArg some ?_)
  rw [hrule, dialogueInput, if_pos hchecks, if_pos hindex]

/-- An action that handles no request succeeds. -/
theorem Follows.action_survives {s : ParserData} {d : Dialogue} (h : Follows s d) {fuel : ℕ}
    {junk : ℕ → Word} (l : Lexeme) (rest : List Byte)
    (hrequest : some (dialogueInput (l.rule, l.text)) ≠ some .request)
    (hkill : some (dialogueInput (l.rule, l.text)) ≠ some .kill) :
    ∃ t, ArmSimulator.scannerAction (gdbInit fuel junk) s l.text rest l.rule = some t ∧
      t.gdb.breakpoints = s.gdb.breakpoints ∧ t.gdb.arm = s.gdb.arm := by
  obtain ⟨rule, text, hrule⟩ := l
  dsimp only at hrequest hkill ⊢
  obtain ⟨buffer, herror⟩ := h.handleError
  have hlast := (h.settled (s.gdb.sent ++ stream d.apology) buffer).last
  cases rule with
  | ack => exact ⟨_, herror, rfl, rfl⟩
  | retransmission =>
      rw [ArmSimulator.scannerAction, herror, Option.bind_some, hlast.gdbTransmitPacket]
      exact ⟨_, rfl, rfl, rfl⟩
  | packet =>
      have hpacket := (scannerRule_eq_packet_iff text).mp hrule
      obtain ⟨data, hanalysis⟩ := gdbPacketAnalysis_isPacket (gdbInit fuel junk)
        { s.gdb with sent := s.gdb.sent ++ stream d.apology } hpacket rest
      have hchecks : ¬ packetChecks text = true := by
        intro hchecks
        rw [dialogueInput, if_pos hchecks] at hrequest hkill
        split_ifs at hrequest hkill with hindex
        · exact hkill rfl
        · exact hrequest rfl
      rw [ArmSimulator.scannerAction, herror, Option.bind_some, hanalysis, if_neg hchecks]
      exact ⟨_, rfl, rfl, rfl⟩
  | error =>
      obtain ⟨c, rfl⟩ := exists_of_scannerRule_error hrule
      obtain ⟨ms, d', buffer', -, hadd, -⟩ := h.addCharacterToError c
      exact ⟨_, hadd, rfl, rfl⟩
  | echo => exact ⟨s, rfl, rfl, rfl⟩

/-- **Step lemma**: an event that is no request succeeds. -/
theorem session_step_survives {s : Session} {d : Dialogue} (h : Follows s.data d)
    (hopen : s.shut = false) {e : SessionEvent} (hrequest : e.view ≠ some .request)
    (hkill : e.view ≠ some .kill) :
    ∃ t d', session.step s e = some t ∧ Follows t.data d' ∧ t.shut = false ∧
      t.data.gdb.breakpoints = s.data.gdb.breakpoints ∧
      simulator.run s.data.gdb.arm e.exception.toList = some t.data.gdb.arm := by
  cases e with
  | lexeme l rest fuel junk =>
      obtain ⟨data, haction, hbreakpoints, harm⟩ := h.action_survives l rest hrequest hkill
      obtain ⟨ms, d', -, -, hfollows, -⟩ := h.scannerAction l haction
      have hstep : session.step s (.lexeme l rest fuel junk) = some ⟨data, false⟩ := by
        show (scannerAction (gdbInit fuel junk) s.data l.text rest l.rule).bind _ = _
        rw [haction, Option.bind_some, Session.finish_of_open hopen, l.kills_of_view hkill]
      exact ⟨_, d', hstep, hfollows, rfl, hbreakpoints, congrArg some harm.symm⟩
  | endOfFile =>
      obtain ⟨buffer, herror⟩ := h.handleError
      have hstep : session.step s .endOfFile =
          some ⟨⟨{ s.data.gdb with sent := s.data.gdb.sent ++ stream d.apology }, buffer, 0⟩,
            false⟩ := by
        show (handleError s.data).bind _ = _
        rw [herror, Option.bind_some, Session.finish_of_open hopen]
      exact ⟨_, d.settled, hstep, h.settled _ _, rfl, rfl, rfl⟩
  | interrupt irq junk =>
      exact ⟨_, d, rfl, ⟨h.garbage, h.garbage_le, h.last.congr rfl rfl⟩, hopen, rfl, rfl⟩

/-- **Nothing but a request can end the process.**  In every session without a packet that has the
right sum, whatever else is received and whenever the processor is interrupted, every action
succeeds: no buffer is left, the breakpoints stay, and the processor is changed by the interrupts
alone. -/
theorem session_survives {es : List SessionEvent}
    (hes : ∀ e ∈ es, e.view ≠ some .request ∧ e.view ≠ some .kill) :
    ∃ s, session.run (sessionStart arm packet contents buffer) es = some s ∧
      s.data.gdb.breakpoints = gdbInitBreakpoints contents ∧
      simulator.run arm (es.filterMap SessionEvent.exception) = some s.data.gdb.arm := by
  have hruns : ∀ (es : List SessionEvent),
      (∀ e ∈ es, e.view ≠ some .request ∧ e.view ≠ some .kill) →
      ∀ (s : Session) (d : Dialogue), Follows s.data d → s.shut = false →
      ∃ t, session.run s es = some t ∧ t.data.gdb.breakpoints = s.data.gdb.breakpoints ∧
        simulator.run s.data.gdb.arm (es.filterMap SessionEvent.exception) =
          some t.data.gdb.arm := by
    intro es
    induction es with
    | nil => exact fun _ s d _ _ => ⟨s, rfl, rfl, rfl⟩
    | cons e es ih =>
        intro hes s d hfollows hopen
        obtain ⟨hrequest, hkill⟩ := hes e List.mem_cons_self
        obtain ⟨t, d', hstep, hfollows', hopen', hbreakpoints, harm⟩ :=
          session_step_survives hfollows hopen hrequest hkill
        obtain ⟨u, hrun, hbreakpoints', harm'⟩ :=
          ih (fun e he => hes e (List.mem_cons_of_mem _ he)) t d' hfollows' hopen'
        refine ⟨u, by rw [Machine.run_cons, hstep, Option.bind_some, hrun],
          hbreakpoints'.trans hbreakpoints, ?_⟩
        have hevents : (e :: es).filterMap SessionEvent.exception =
            e.exception.toList ++ es.filterMap SessionEvent.exception := by
          rw [List.filterMap_cons]
          cases e.exception <;> rfl
        rw [hevents, Machine.run_append, harm, Option.bind_some, harm']
  exact hruns es hes _ _ (follows_start arm packet contents buffer) rfl

/-- A character, a request for retransmission and an interrupt. -/
theorem session_survives_three :
    ∃ s, session.run sessionSample [.lexeme starLexeme [] 0 fun _ => 0,
        .lexeme minusLexeme [] 0 fun _ => 0, .interrupt 6 0] = some s ∧
      simulator.run sessionSample.data.gdb.arm [.exception 6 0] = some s.data.gdb.arm := by
  obtain ⟨s, hrun, -, harm⟩ := @session_survives _ _ _ _ [.lexeme starLexeme [] 0 fun _ => 0,
    .lexeme minusLexeme [] 0 fun _ => 0, .interrupt 6 0] (by decide)
  exact ⟨s, hrun, harm⟩

end Start

end ArmSimulator
