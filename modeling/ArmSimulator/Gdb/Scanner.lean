import ArmSimulator.Gdb.Framing
import ArmSimulator.Library.LongestMatch

/-!
# The rules of the scanner (`scanner.l`)

The stream from the debugger is cut into acknowledgements, requests for retransmission, packets, and
single characters that are errors.  The scanner takes the longest match, and the first rule of those
that give it; what no rule matches, a line feed, is copied to the standard output by the rule that
flex adds.

The rules are modelled as one function, `scannerRule`, which says of a text the first rule that
matches all of it.  Longest matches, and cutting a text into them, are the library's; it has to be
told three facts about these rules.

* They are *total*: every single character is matched, so a text is always cut to its end.
* A packet is *closed*: nothing that begins with one is matched, so its lexeme ends where it does.
  So is every character but `$`.
* `$` is *initial*: in a lexeme it can only be the first character, so a packet is found whatever
  comes before it.

The results on streams follow from these.

* `scannerRule_eq_packet_iff`, the texts of the rule of packets.
* `NoPacket.lexemes_eq`: where there is no packet, the characters are taken one by one.
* `lexemes_blocks`: in a stream of packets and messages, with any characters before each packet, the
  scanner finds the packets and the messages, and takes these characters one by one.

An acknowledgement among characters that are no message need not be found: the body of a packet may
contain one, and `$O`, an acknowledgement and `#12` are one packet.  This is why the blocks of the
last result end with messages and begin with noise, and not the other way round.
-/

namespace ArmSimulator

open LongestMatch

/-! ## The rules

The regular expressions are written as functions that decide them, with their parts as `scanner.l`
has them. -/

/-- The rules, in their order. -/
inductive ScannerRule
  | ack
  | retransmission
  | packet
  | error
  | echo
  deriving DecidableEq, Repr

/-- `{HEX}{HEX}`. -/
def matchesDigits : List Byte → Bool
  | [d, e] => (hexDigit d).isSome && (hexDigit e).isSome
  | _ => false

/-- `[^$#]*"#"{HEX}{HEX}`. -/
def matchesBody : List Byte → Bool
  | [] => false
  | c :: text => if c = chr '#' then matchesDigits text else c ≠ chr '$' && matchesBody text

/-- `"$"[^$#]*"#"{HEX}{HEX}`. -/
def matchesPacket : List Byte → Bool
  | [] => false
  | c :: text => c = chr '$' && matchesBody text

/-- `.`, which is every character but the line feed, and the rule of flex. -/
def scannerCharacter : List Byte → Option ScannerRule
  | [c] => if c ≠ chr '\n' then some .error else some .echo
  | _ => none

/-- The first rule that matches a text.  The rules of one character come before and after the one of
packets, which matches none of a single character. -/
def scannerRule (text : List Byte) : Option ScannerRule :=
  if text = [chr '+'] then some .ack
  else if text = [chr '-'] then some .retransmission
  else if matchesPacket text then some .packet
  else scannerCharacter text

/-! ## Packets

A packet has one form: the delimiters and the digits around a body without delimiters. -/

/-- The body goes to the first `#`. -/
theorem matchesBody_append {body : List Byte} (hbody : ∀ b ∈ body, b ≠ chr '$' ∧ b ≠ chr '#')
    (digits : List Byte) :
    matchesBody (body ++ chr '#' :: digits) = matchesDigits digits := by
  induction body with
  | nil => exact if_pos rfl
  | cons b body ih =>
      obtain ⟨hdollar, hhash⟩ := hbody b List.mem_cons_self
      rw [List.cons_append, matchesBody, if_neg hhash, decide_eq_true hdollar, Bool.true_and]
      exact ih fun c hc => hbody c (List.mem_cons_of_mem b hc)

/-- The check sum is two digits. -/
theorem exists_of_matchesDigits {text : List Byte} (h : matchesDigits text = true) :
    ∃ c d, text = [c, d] ∧ (hexDigit c).isSome ∧ (hexDigit d).isSome := by
  unfold matchesDigits at h
  split at h
  · next c d =>
      obtain ⟨hc, hd⟩ := Bool.and_eq_true_iff.mp h
      exact ⟨c, d, rfl, hc, hd⟩
  · cases h

/-- The rest of a packet: its body, `#`, and the check sum. -/
theorem exists_of_matchesBody {text : List Byte} (h : matchesBody text = true) :
    ∃ body c d, text = body ++ chr '#' :: [c, d] ∧
      (∀ b ∈ body, b ≠ chr '$' ∧ b ≠ chr '#') ∧ (hexDigit c).isSome ∧ (hexDigit d).isSome := by
  induction text with
  | nil => cases h
  | cons b text ih =>
      rw [matchesBody] at h
      split_ifs at h with hhash
      · obtain ⟨c, d, rfl, hc, hd⟩ := exists_of_matchesDigits h
        exact ⟨[], c, d, by rw [hhash, List.nil_append], fun b hb => absurd hb List.not_mem_nil,
          hc, hd⟩
      · obtain ⟨hdollar, hrest⟩ := Bool.and_eq_true_iff.mp h
        obtain ⟨body, c, d, rfl, hbody, hc, hd⟩ := ih hrest
        refine ⟨b :: body, c, d, rfl, fun e he => ?_, hc, hd⟩
        rcases List.mem_cons.mp he with rfl | he
        · exact ⟨of_decide_eq_true hdollar, hhash⟩
        · exact hbody e he

/-- The rule of the scanner accepts packets and nothing else. -/
theorem matchesPacket_iff (text : List Byte) : matchesPacket text = true ↔ IsPacket text := by
  constructor
  · intro h
    cases text with
    | nil => cases h
    | cons b text =>
        obtain ⟨hdollar, hbody⟩ := Bool.and_eq_true_iff.mp h
        obtain ⟨body, c, d, rfl, hne, hc, hd⟩ := exists_of_matchesBody hbody
        exact ⟨body, c, d, by rw [of_decide_eq_true hdollar, packetText], hne, hc, hd⟩
  · rintro ⟨body, c, d, rfl, hbody, hc, hd⟩
    rw [packetText, matchesPacket, decide_eq_true rfl, Bool.true_and, matchesBody_append hbody,
      matchesDigits, hc, hd, Bool.and_self]

/-- A packet begins with `$`, and has no other. -/
theorem IsPacket.eq_cons {text : List Byte} (h : IsPacket text) :
    ∃ rest, text = chr '$' :: rest ∧ 3 ≤ rest.length ∧ ∀ b ∈ rest, b ≠ chr '$' := by
  obtain ⟨body, c, d, rfl, hbody, hc, hd⟩ := h
  have hdigit : ∀ e : Byte, (hexDigit e).isSome → e ≠ chr '$' := by
    rintro e he rfl
    exact absurd he (by decide)
  refine ⟨body ++ chr '#' :: [c, d], rfl, ?_, fun b hb => ?_⟩
  · rw [List.length_append]
    exact Nat.le_add_left 3 _
  · rw [List.mem_append, List.mem_cons, List.mem_pair] at hb
    rcases hb with hb | rfl | rfl | rfl
    · exact (hbody b hb).1
    · decide
    · exact hdigit _ hc
    · exact hdigit _ hd

/-- The texts of the rule. -/
theorem scannerRule_eq_packet_iff (text : List Byte) :
    scannerRule text = some .packet ↔ IsPacket text := by
  rw [← matchesPacket_iff]
  constructor
  · intro h
    unfold scannerRule at h
    split_ifs at h with hack hnak hpacket
    · cases h
    · cases h
    · exact hpacket
    · unfold scannerCharacter at h
      split at h
      · split_ifs at h <;> cases h
      · cases h
  · intro h
    have hne : ∀ b : Byte, b ≠ chr '$' → text ≠ [b] := by
      rintro b hb rfl
      rw [matchesPacket, decide_eq_false hb, Bool.false_and] at h
      cases h
    rw [scannerRule, if_neg (hne _ (by decide)), if_neg (hne _ (by decide)), if_pos h]

/-- A text of two characters or more is a packet or is not matched. -/
theorem scannerRule_of_long {text : List Byte} (hlong : 2 ≤ text.length) (h : ¬ IsPacket text) :
    scannerRule text = none := by
  have hne : ∀ b : Byte, text ≠ [b] := by
    rintro b rfl
    exact Nat.not_succ_le_self 1 hlong
  rw [← matchesPacket_iff] at h
  rw [scannerRule, if_neg (hne _), if_neg (hne _), if_neg h]
  unfold scannerCharacter
  split
  · exact absurd rfl (hne _)
  · rfl

/-! ## Lexemes of the scanner

The three facts about the rules. -/

/-- Every character is matched. -/
theorem total_scannerRule : Total scannerRule := by
  intro c
  unfold scannerRule scannerCharacter
  dsimp only
  split_ifs <;> rfl

/-- `$` begins a lexeme. -/
theorem initial_dollar : Initial scannerRule (chr '$') := by
  intro before after hne
  cases before with
  | nil => exact absurd rfl hne
  | cons b before =>
      refine scannerRule_of_long ?_ fun hpacket => ?_
      · rw [List.cons_append, List.length_cons, List.length_append, List.length_cons]
        omega
      · obtain ⟨rest, heq, -, hrest⟩ := hpacket.eq_cons
        have htail : before ++ chr '$' :: after = rest := (List.cons.inj heq).2
        refine hrest (chr '$') ?_ rfl
        rw [← htail]
        exact List.mem_append_right _ List.mem_cons_self

/-- No rule goes on from a packet. -/
theorem IsPacket.closed {text : List Byte} (h : IsPacket text) :
    Closed scannerRule .packet text := by
  refine ⟨?_, (scannerRule_eq_packet_iff text).mpr h, fun more hmore => ?_⟩
  · obtain ⟨rest, rfl, -⟩ := h.eq_cons
    exact List.cons_ne_nil _ _
  · obtain ⟨body, c, d, rfl, hbody, -⟩ := h
    refine scannerRule_of_long ?_ fun hpacket => ?_
    · rw [List.length_append, length_packetText]
      omega
    · have htext : packetText body [c, d] ++ more =
          chr '$' :: (body ++ chr '#' :: c :: d :: more) := by
        rw [packetText, List.cons_append, List.append_assoc]
        rfl
      rw [← matchesPacket_iff, htext, matchesPacket, decide_eq_true rfl, Bool.true_and,
        matchesBody_append hbody] at hpacket
      obtain ⟨e, f, heq, -⟩ := exists_of_matchesDigits hpacket
      have hlength := congrArg List.length heq
      refine hmore (List.eq_nil_of_length_eq_zero ?_)
      simpa using hlength

/-- No rule goes on from another character than `$`. -/
theorem closed_singleton {c : Byte} (hc : c ≠ chr '$') {r : ScannerRule}
    (hr : scannerRule [c] = some r) : Closed scannerRule r [c] := by
  refine ⟨List.cons_ne_nil _ _, hr, fun more hmore => ?_⟩
  refine scannerRule_of_long ?_ fun hpacket => ?_
  · exact Nat.succ_le_succ (List.length_pos_of_ne_nil hmore)
  · obtain ⟨rest, heq, -⟩ := hpacket.eq_cons
    exact hc (List.cons.inj heq).1

/-! ## Messages

What this end sends is read by the same kind of scanner at the other end.  The messages of a stream
are found there, one for one, since each of them is closed. -/

/-- A payload without delimiters, which may be empty. -/
structure Body where
  bytes : List Byte
  ne_delimiter : ∀ b ∈ bytes, b ≠ chr '$' ∧ b ≠ chr '#'

/-- What the two ends of a connection send.  Both are scanned by the same rules. -/
inductive Message
  | ack
  | retransmission
  | packet (body : Body)

namespace Message

/-- A message as it is sent. -/
def text : Message → List Byte
  | ack => [chr '+']
  | retransmission => [chr '-']
  | packet body => frame body.bytes

/-- A message as a scanner finds it. -/
def lexeme : Message → ScannerRule × List Byte
  | ack => (.ack, [chr '+'])
  | retransmission => (.retransmission, [chr '-'])
  | packet body => (.packet, frame body.bytes)

/-- The text of its lexeme is the text of the message. -/
theorem lexeme_snd (m : Message) : m.lexeme.2 = m.text := by
  cases m <;> rfl

end Message

/-- The frame of a body is a packet. -/
theorem Body.isPacket (body : Body) : IsPacket (frame body.bytes) := by
  obtain ⟨c, d, v, w, hbyte, hc, hd, -⟩ := hexByte_digits (checksum body.bytes)
  exact ⟨body.bytes, c, d, by rw [frame, hbyte], body.ne_delimiter, by rw [hc]; rfl,
    by rw [hd]; rfl⟩

/-- No rule goes on behind a message. -/
theorem Message.closed (m : Message) : Closed scannerRule m.lexeme.1 m.lexeme.2 := by
  cases m with
  | ack => exact closed_singleton (by decide) (by decide)
  | retransmission => exact closed_singleton (by decide) (by decide)
  | packet body => exact body.isPacket.closed

/-- A connection's stream. -/
def stream (messages : List Message) : List Byte := (messages.map Message.text).flatten

/-- A stream of messages is what a list of lexemes is written as, to which the library applies. -/
theorem stream_eq_flatten_lexemes (messages : List Message) :
    stream messages = ((messages.map Message.lexeme).map Prod.snd).flatten := by
  rw [stream, List.map_map]
  exact congrArg List.flatten (List.map_congr_left fun m _ => m.lexeme_snd.symm)

/-- Messages are found in their stream. -/
theorem lexemes_stream (messages : List Message) (rest : List Byte) :
    lexemes scannerRule (stream messages ++ rest) =
      messages.map Message.lexeme ++ lexemes scannerRule rest := by
  rw [stream_eq_flatten_lexemes]
  refine lexemes_of_closed (fun i hi => ?_) rest
  obtain ⟨m, -, rfl⟩ := List.mem_map.mp hi
  exact m.closed

/-- A packet is found whatever comes first, and so are the messages behind it; what comes first is
cut as if nothing followed it. -/
theorem lexemes_append_packet (noise : List Byte) {text : List Byte} (htext : IsPacket text)
    (messages : List Message) (rest : List Byte) :
    lexemes scannerRule (noise ++ (text ++ (stream messages ++ rest))) =
      lexemes scannerRule noise ++
        (.packet, text) :: (messages.map Message.lexeme ++ lexemes scannerRule rest) := by
  obtain ⟨tail, htail, -⟩ := htext.eq_cons
  have hcut := lexemes_append_of_initial total_scannerRule initial_dollar noise
    (tail ++ (stream messages ++ rest))
  rw [← List.cons_append, ← htail] at hcut
  rw [hcut, htext.closed.lexemes_append, lexemes_stream]

/-! ## Characters between the messages

Noise is any text without a packet in it.  Only a packet is longer than one character, so such a
text falls into its characters, whether they mean something or not. -/

/-- The rule of a single character. -/
def characterRule (c : Byte) : ScannerRule :=
  if c = chr '+' then .ack
  else if c = chr '-' then .retransmission
  else if c ≠ chr '\n' then .error
  else .echo

/-- The characters of a text, each by its own rule. -/
def characterLexemes (text : List Byte) : List (ScannerRule × List Byte) :=
  text.map fun c => (characterRule c, [c])

/-- Every character alone is matched, so the scanner never stops. -/
theorem scannerRule_singleton (c : Byte) : scannerRule [c] = some (characterRule c) := by
  have hpacket : ¬ matchesPacket [c] = true := by
    rw [matchesPacket, matchesBody, Bool.and_false]
    exact Bool.false_ne_true
  rw [scannerRule, characterRule, if_neg hpacket, scannerCharacter]
  simp only [List.cons.injEq, and_true]
  split_ifs <;> rfl

/-- A text in which there is no packet, as no run of characters in it is one.  It may have all else
in it, also acknowledgements. -/
def NoPacket (text : List Byte) : Prop := ∀ word, word <:+: text → ¬ IsPacket word

/-- **Without a packet** a text is cut into its characters. -/
theorem NoPacket.lexemes_eq {text : List Byte} (h : NoPacket text) :
    lexemes scannerRule text = characterLexemes text :=
  lexemes_of_singles scannerRule_singleton fun word hword hlong =>
    scannerRule_of_long hlong (h word hword)

/-- The beginning of a packet contains none: `$` is its first character, and no packet is the
beginning of another. -/
theorem IsPacket.noPacket {text piece : List Byte} (h : IsPacket text) (hbegins : piece <+: text)
    (hne : piece ≠ text) : NoPacket piece := by
  rintro word ⟨before, after, hpiece⟩ hword
  obtain ⟨rest, htext⟩ := hbegins
  cases before with
  | nil =>
      have hmore : after ++ rest ≠ [] := by
        intro hnil
        obtain ⟨rfl, rfl⟩ := List.append_eq_nil_iff.mp hnil
        exact hne (by rw [← htext, List.append_nil])
      have hsplit : word ++ (after ++ rest) = text := by
        rw [← htext, ← hpiece, List.nil_append, List.append_assoc]
      have hlonger := hword.closed.longer _ hmore
      rw [hsplit, (scannerRule_eq_packet_iff text).mpr h] at hlonger
      exact absurd hlonger (Option.some_ne_none _)
  | cons b before =>
      -- the word would bring a second `$`
      obtain ⟨tail, rfl, -, hdollar⟩ := h.eq_cons
      obtain ⟨end', rfl, -⟩ := hword.eq_cons
      rw [← hpiece, List.cons_append, List.cons_append, List.cons_append] at htext
      have htail := (List.cons.inj htext).2
      refine hdollar (chr '$') ?_ rfl
      rw [← htail]
      simp

/-- The beginning of a message contains no packet. -/
theorem Message.noPacket (m : Message) {piece : List Byte} (hbegins : piece <+: m.text)
    (hne : piece ≠ m.text) : NoPacket piece := by
  cases m with
  | packet body => exact body.isPacket.noPacket hbegins hne
  | _ =>
      rintro word hword hpacket
      obtain ⟨rest, rfl, hlength, -⟩ := hpacket.eq_cons
      have hle := (hword.trans hbegins.isInfix).length_le
      rw [Message.text, List.length_cons, List.length_singleton] at hle
      omega

/-- Characters in which there is no packet, a packet, and the messages that follow it at once. -/
structure Block where
  noise : List Byte
  noPacket : NoPacket noise
  packet : List Byte
  isPacket : IsPacket packet
  messages : List Message

namespace Block

/-- A block as it comes. -/
def bytes (b : Block) : List Byte := b.noise ++ (b.packet ++ stream b.messages)

/-- A block as the scanner finds it. -/
def lexemes (b : Block) : List (ScannerRule × List Byte) :=
  characterLexemes b.noise ++ (.packet, b.packet) :: b.messages.map Message.lexeme

end Block

/-- **The scanner finds the packets.**  In a stream of packets and messages with any characters
before each packet and at the end, it finds the packets and the messages, and takes the characters
between them one by one.  Before a message that is no packet there is to be a packet or a message:
`$O`, an acknowledgement and `#12` are one packet. -/
theorem lexemes_blocks (blocks : List Block) {rest : List Byte} (hrest : NoPacket rest) :
    lexemes scannerRule ((blocks.map Block.bytes).flatten ++ rest) =
      (blocks.map Block.lexemes).flatten ++ characterLexemes rest := by
  induction blocks with
  | nil => exact hrest.lexemes_eq
  | cons b blocks ih =>
      have hsplit : ((b :: blocks).map Block.bytes).flatten ++ rest =
          b.noise ++ (b.packet ++ (stream b.messages ++
            ((blocks.map Block.bytes).flatten ++ rest))) := by
        simp only [List.map_cons, List.flatten_cons, Block.bytes, List.append_assoc]
      rw [hsplit, lexemes_append_packet _ b.isPacket, b.noPacket.lexemes_eq, ih]
      simp only [List.map_cons, List.flatten_cons, Block.lexemes, List.append_assoc,
        List.cons_append]

/-- `$O`, which is no packet yet, `$OK#9a` and an acknowledgement; then the beginning of another. -/
def blockOk : Block where
  noise := str "$O"
  noPacket := ((matchesPacket_iff (str "$O#00")).mp rfl).noPacket ⟨str "#00", rfl⟩ nofun
  packet := str "$OK#9a"
  isPacket := (matchesPacket_iff _).mp rfl
  messages := [.ack]

theorem lexemes_blocks_ok :
    NoPacket (str "$O") ∧
      lexemes scannerRule (([blockOk].map Block.bytes).flatten ++ str "$O") =
        ([blockOk].map Block.lexemes).flatten ++ characterLexemes (str "$O") :=
  ⟨blockOk.noPacket, lexemes_blocks [blockOk] blockOk.noPacket⟩

end ArmSimulator
