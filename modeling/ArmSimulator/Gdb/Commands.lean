import ArmSimulator.Gdb.Continue
import ArmSimulator.Gdb.MemoryPackets
import ArmSimulator.Gdb.SingleRegister

/-!
# The table of commands (`gdb_protocol.c`)

`gdb_init` fills a table with the handlers of the requests; a request with no entry is answered by
an empty packet.  Of the handlers, the ones for queries, threads, breakpoints and single steps are
here.

This is where the handlers become one function from requests to answers, and what is proved here is
what holds of all of them.

* `gdbSendBuffer_sends`: whatever has been printed into `packet`, what is sent is the frame of a
  string, and it stays there to be sent again.
* `gdbInit_answers`: every handler but the one of `k` sends one packet without delimiters in its
  payload; all of them work on the processor by events of the simulator, and on the breakpoints by
  insertions and removals.

The second one has one lemma for each handler, all of the same form, *if the handler succeeds, it
answers*.  A handler may fail, on a request that is not well formed, and then nothing is said: the C
code goes on there with a value that was never set, or stops at an assertion, or leaves a buffer.

That the work is done by events and by calls is the connection to the rest of the development. The
invariants of the processor hold in every state that events reach, and the ones of the table in
every state that calls reach, so a handler keeps all of them at once.
-/

namespace ArmSimulator

open CheckedArray TextFields DoWhile

/-! ## The handlers

Each one takes the text after its letter.  A number that is not given is not read, and the handlers
for breakpoints, which use theirs, are `none` then. -/

/-- `strcmp(data, text) == 0`; `none` where the data have no NUL. -/
def strcmpEqual : List Byte → List Byte → Option Bool
  | [], _ => none
  | c :: _, [] => some (c = 0)
  | c :: data, t :: text => if c = t then strcmpEqual data text else some false

/-- `strncmp(data, text, n) == 0`, where `n` is the length of the text. -/
def strncmpEqual : List Byte → List Byte → Option Bool
  | _, [] => some true
  | [], _ :: _ => none
  | c :: data, t :: text => if c = t then strncmpEqual data text else some false

namespace Gdb

/-- `cont`, with at most `fuel` rounds.  The handler fails when the loop does not come to an end
with them. -/
def cont (fuel : ℕ) (junk : ℕ → Word) : GdbHandler := fun g _ =>
  (ArmSimulator.cont fuel junk g).map Prod.snd

/-- `cont_with_signal`. -/
def contWithSignal (fuel : ℕ) (junk : ℕ → Word) : GdbHandler := fun g data =>
  cont fuel junk g data

/-- `kill_request`; that the connection is shut down is not in `struct gdb_protocol_data`. -/
def killRequest : GdbHandler := fun g _ => some g

/-- `query`: four texts are known, one of them by its beginning, and any other is answered by an
empty packet. -/
def query : GdbHandler := fun g data => do
  if ← strcmpEqual data (str "Offsets") then gdbSendData g (str "Text=0;Data=0;Bss=0")
  else if ← strncmpEqual data (str "Supported") then gdbSendData g (str "PacketSize=400")
  else if ← strcmpEqual data (str "TStatus") then gdbSendData g (str "T0;tnotrun:0")
  else if ← strcmpEqual data (str "Symbol::") then gdbSendData g (str "")
  else gdbSendData g (str "")

/-- `reason`. -/
def reason : GdbHandler := fun g _ => gdbSendStopReason g

/-- `set_thread`: there are no threads to choose from, so `c` and `g` of any thread or of all
threads are accepted and nothing else is. -/
def setThread : GdbHandler := fun g data => do
  let type ← data.head?
  let value := atoi data.tail
  if (type = chr 'c' ∨ type = chr 'g') ∧ value.toInt < 1 ∧ -2 < value.toInt then
    gdbSendData g (str "OK")
  else gdbSendData g (str "E01")

/-- `step`. -/
def step (junk : Word) : GdbHandler := fun g _ => (singleStep junk g).bind gdbSendStopReason

/-- `step_with_signal`; `single_step_with_signal` is `single_step`. -/
def stepWithSignal (junk : Word) : GdbHandler := fun g _ =>
  (singleStep junk g).bind gdbSendStopReason

/-- The two handlers of breakpoints.  A number that is read and was not given is `none`; the length
is not read again. -/
def changeBreakpoint (change : BreakpointTable → Word → Option (Int × BreakpointTable))
    (failure : List Byte) : GdbHandler := fun g data => do
  let type ← scanUnsigned data
  if u8 type.1 ≠ 0 then gdbSendData g (str "E03")
  else
    let address ← if type.2.head? = some (chr ',') then scanUnsigned type.2.tail else none
    let changed ← change g.breakpoints address.1
    let g := { g with breakpoints := changed.2 }
    if changed.1 ≠ 0 then gdbSendData g (str "OK") else gdbSendData g failure

/-- `set_breakpoint`. -/
def setBreakpoint : GdbHandler := changeBreakpoint BreakpointTable.gdbAddBreakpoint (str "E04")

/-- `remove_breakpoint`. -/
def removeBreakpoint : GdbHandler :=
  changeBreakpoint BreakpointTable.gdbRemoveBreakpoint (str "E05")

end Gdb

/-- The entries of the table of handlers, in the order of the assignments. -/
def gdbHandlers (fuel : ℕ) (junk : ℕ → Word) : List (Byte × GdbHandler) :=
  [(chr 'c', Gdb.cont fuel junk),
    (chr 'C', Gdb.contWithSignal fuel junk),
    (chr 'k', Gdb.killRequest),
    (chr 'q', Gdb.query),
    (chr 'g', Gdb.readGeneralRegisters),
    (chr 'm', Gdb.readMemory),
    (chr 'p', Gdb.readSingleRegister),
    (chr '?', Gdb.reason),
    (chr 'H', Gdb.setThread),
    (chr 's', Gdb.step (junk 0)),
    (chr 'S', Gdb.stepWithSignal (junk 0)),
    (chr 'G', Gdb.writeGeneralRegisters),
    (chr 'X', Gdb.writeMemoryBinary),
    (chr 'P', Gdb.writeSingleRegister),
    (chr 'z', Gdb.removeBreakpoint),
    (chr 'Z', Gdb.setBreakpoint)]

/-- `gdb_init`, one assignment after the other. -/
def gdbInit (fuel : ℕ) (junk : ℕ → Word) : Byte → Option GdbHandler :=
  (gdbHandlers fuel junk).foldl
    (fun handler entry => Function.update handler entry.1 (some entry.2)) fun _ => none

/-! ## Comparisons of strings

The two comparisons of the C library that `query` uses, on data that may have no NUL. -/

/-- `strcmp` compares a string up to its NUL. -/
theorem strcmpEqual_append {data : List Byte} (hdata : ∀ b ∈ data, b ≠ 0) {text : List Byte}
    (htext : ∀ b ∈ text, b ≠ 0) (rest : List Byte) :
    strcmpEqual (data ++ 0 :: rest) text = some (decide (data = text)) := by
  induction data generalizing text with
  | nil =>
      cases text with
      | nil => rfl
      | cons t text =>
          have ht := htext t List.mem_cons_self
          rw [List.nil_append, strcmpEqual, if_neg ht.symm,
            decide_eq_false (List.cons_ne_nil t text).symm]
  | cons c data ih =>
      have hc := hdata c List.mem_cons_self
      cases text with
      | nil =>
          rw [List.cons_append, strcmpEqual, decide_eq_false hc,
            decide_eq_false (List.cons_ne_nil c data)]
      | cons t text =>
          rw [List.cons_append, strcmpEqual]
          split_ifs with heq
          · rw [ih (fun b hb => hdata b (List.mem_cons_of_mem c hb))
              (fun b hb => htext b (List.mem_cons_of_mem t hb)), heq]
            simp
          · rw [decide_eq_false fun h => heq (List.cons.inj h).1]

/-- `strncmp` compares the beginning of a string. -/
theorem strncmpEqual_append (data : List Byte) {text : List Byte} (htext : ∀ b ∈ text, b ≠ 0)
    (rest : List Byte) :
    strncmpEqual (data ++ 0 :: rest) text = some (decide (text <+: data)) := by
  induction data generalizing text with
  | nil =>
      cases text with
      | nil => rfl
      | cons t text =>
          have ht := htext t List.mem_cons_self
          rw [List.nil_append, strncmpEqual, if_neg ht.symm,
            decide_eq_false fun h => List.cons_ne_nil t text (List.prefix_nil.mp h)]
  | cons c data ih =>
      cases text with
      | nil => rfl
      | cons t text =>
          rw [List.cons_append, strncmpEqual]
          split_ifs with heq
          · rw [ih fun b hb => htext b (List.mem_cons_of_mem t hb), heq]
            simp
          · rw [decide_eq_false fun h => heq (List.cons_prefix_cons.mp h).1.symm]

/-! ## Answers

An answer is what a handler may send: a text for which there is room and in which the other end
finds no delimiter.  Unlike a payload that the framing is about, it may be empty. -/

/-- A text that can be sent and received: a string without delimiters that has room in `packet`. -/
structure Answer where
  bytes : List Byte
  ne_nul : ∀ b ∈ bytes, b ≠ 0
  ne_delimiter : ∀ b ∈ bytes, b ≠ chr '$' ∧ b ≠ chr '#'
  length_le : bytes.length + 5 ≤ MAX_PACKET_SIZE

/-- `packet` holds the frame of a text, with its length. -/
structure Holding (g : Gdb) (bytes : List Byte) : Prop where
  packet : CheckedArray.Holds g.packet 0 (frame bytes ++ [0])
  len : g.len = (frame bytes).length

/-- A text is sent, and is still in `packet`. -/
structure Sends (g g' : Gdb) (bytes : List Byte) : Prop where
  holding : Holding g' bytes
  sent : g'.sent = g.sent ++ frame bytes

/-- What is held is sent again by `gdb_transmit_packet`. -/
theorem Holding.gdbTransmitPacket {g : Gdb} {bytes : List Byte} (h : Holding g bytes) :
    gdbTransmitPacket g = some { g with sent := g.sent ++ frame bytes } := by
  rw [ArmSimulator.gdbTransmitPacket, h.len, readList_of_holds h.packet.left]
  rfl

/-- Everything but `packet` and what is sent. -/
structure SameWork (g g' : Gdb) : Prop where
  arm : g'.arm = g.arm
  breakpoints : g'.breakpoints = g.breakpoints
  targetException : g'.targetException = g.targetException

/-- A loop that has stopped at a NUL has found a string. -/
theorem exists_of_checksumLoop {packet : Fin MAX_PACKET_SIZE → Byte} :
    ∀ {fuel i : ℕ} {check : Byte} {r : ℕ × Byte}, checksumLoop packet fuel i check = some r →
      ∃ bytes, (∀ b ∈ bytes, b ≠ 0) ∧ CheckedArray.Holds packet i (bytes ++ [0]) := by
  intro fuel
  induction fuel with
  | zero => exact fun h => nomatch h
  | succ fuel ih =>
      intro i check r h
      obtain ⟨c, hc, hrest⟩ := Option.bind_eq_some_iff.mp h
      by_cases hzero : c = 0
      · subst hzero
        exact ⟨[], fun b hb => absurd hb List.not_mem_nil,
          Holds.cons hc fun k hk => absurd hk (Nat.not_lt_zero k)⟩
      · rw [if_neg hzero] at hrest
        obtain ⟨bytes, hne, hholds⟩ := ih hrest
        refine ⟨c :: bytes, fun b hb => ?_, Holds.cons hc hholds⟩
        rcases List.mem_cons.mp hb with rfl | hb
        · exact hzero
        · exact hne b hb

/-- **`gdb_send_buffer`**, whenever it does not leave `packet`, sends the frame of a string.
Nothing is assumed of what is in the buffer. -/
theorem gdbSendBuffer_sends {g g' : Gdb} (h : gdbSendBuffer g = some g') :
    ∃ bytes, (∀ b ∈ bytes, b ≠ 0) ∧ bytes.length + 5 ≤ MAX_PACKET_SIZE ∧ Sends g g' bytes ∧
      SameWork g g' := by
  obtain ⟨p, hwrite, hread⟩ := write_spec g.packet (i := 0) (chr '$') (by decide)
  have hbuffer := h
  rw [gdbSendBuffer, hwrite, Option.bind_eq_bind, Option.bind_some] at hbuffer
  obtain ⟨r, hloop, -⟩ := Option.bind_eq_some_iff.mp hbuffer
  obtain ⟨bytes, hne, hholds₁⟩ := exists_of_checksumLoop hloop
  have hholds : CheckedArray.Holds g.packet 1 (bytes ++ [0]) := by
    refine hholds₁.congr fun k hk _ => ?_
    rw [hread, if_neg (Nat.ne_of_gt hk)]
  by_cases hfits : bytes.length + 5 ≤ MAX_PACKET_SIZE
  · obtain ⟨packet, hpacket, hsend⟩ := gdbSendBuffer_of_fits hne hfits hholds
    obtain rfl := Option.some.inj (hsend.symm.trans h)
    exact ⟨bytes, hne, hfits, ⟨⟨hpacket, rfl⟩, rfl⟩, rfl, rfl, rfl⟩
  · rw [gdbSendBuffer_eq_none hne (Nat.lt_of_not_le hfits) hholds] at h
    cases h

/-- **`gdb_send_data`** sends an answer.  There is room for it, so it always succeeds. -/
theorem gdbSendData_answer (a : Answer) (g : Gdb) :
    ∃ g', gdbSendData g a.bytes = some g' ∧ Sends g g' a.bytes ∧ SameWork g g' := by
  have hfits := a.length_le
  have hlength : (a.bytes ++ [0]).length = a.bytes.length + 1 := by
    rw [List.length_append, List.length_singleton]
  obtain ⟨p, hwrite, hholds, -⟩ := writeList_spec (a.bytes ++ [0]) 1 g.packet (by omega)
  obtain ⟨packet, hpacket, hsend⟩ :=
    @gdbSendBuffer_of_fits a.bytes a.ne_nul a.length_le { g with packet := p } hholds
  have hdata : gdbSendData g a.bytes = some { g with
      packet := packet
      len := (frame a.bytes).length
      sent := g.sent ++ frame a.bytes } := by
    rw [gdbSendData, hwrite, Option.bind_some, hsend]
  exact ⟨_, hdata, ⟨⟨hpacket, rfl⟩, rfl⟩, rfl, rfl, rfl⟩

/-- What a handler has printed and sent, when it is known what was sent. -/
theorem sends_of_sendBuffer {g g' : Gdb} {packet : Fin MAX_PACKET_SIZE → Byte} {text : List Byte}
    (hbuffer : gdbSendBuffer { g with packet := packet } = some g')
    (hsent : g'.sent = g.sent ++ frame text) : Sends g g' text ∧ SameWork g g' := by
  obtain ⟨bytes, -, -, hsends, hsame⟩ := gdbSendBuffer_sends hbuffer
  obtain rfl : bytes = text :=
    frame_inj (List.append_cancel_left (hsends.sent.symm.trans hsent))
  exact ⟨⟨hsends.holding, hsent⟩, hsame.arm, hsame.breakpoints, hsame.targetException⟩

/-- A payload is an answer. -/
def Payload.toAnswer (payload : Payload) : Answer where
  bytes := payload.bytes
  ne_nul := payload.ne_nul
  ne_delimiter := payload.ne_delimiter
  length_le := payload.length_le

/-- The digits of bytes are no delimiters. -/
theorem ne_delimiter_of_mem_hexText {bytes : List Byte} :
    ∀ c ∈ hexText bytes, c ≠ chr '$' ∧ c ≠ chr '#' := by
  intro c hc
  obtain ⟨b, -, hb⟩ := List.mem_flatMap.mp hc
  have hlt := b.isLt
  rw [hexByte, List.mem_pair] at hb
  rcases hb with rfl | rfl
  · exact (digitChar_ne (by omega)).2
  · exact (digitChar_ne (by omega)).2

/-- As many digits as have room. -/
theorem length_hexText_add_le {bytes : List Byte} (hfits : bytes.length ≤ 2045) :
    (hexText bytes).length + 5 ≤ MAX_PACKET_SIZE := by
  rw [length_hexText]
  exact show 2 * bytes.length + 5 ≤ 4096 by omega

/-- Bytes in hexadecimal, if they fit. -/
def hexAnswer (bytes : List Byte) (hfits : bytes.length ≤ 2045) : Answer where
  bytes := hexText bytes
  ne_nul := ne_nul_of_mem_hexText
  ne_delimiter := ne_delimiter_of_mem_hexText
  length_le := length_hexText_add_le hfits

/-- The answer to a request that is not supported. -/
def emptyAnswer : Answer where
  bytes := str ""
  ne_nul := by decide
  ne_delimiter := by decide
  length_le := by decide

/-! ## What the handlers do

One lemma for each handler, after the facts about sending and about work that they share. -/

/-- A handler works on the processor by events of the simulator, and on the breakpoints by
insertions and removals.  Both lists may be empty. -/
structure Works (g g' : Gdb) : Prop where
  arm : ∃ events, simulator.run g.arm events = some g'.arm
  breakpoints : ∃ calls, breakpointMachine.run g.breakpoints calls = some g'.breakpoints

/-- A handler sends one answer, and has worked.  What it answers is left open. -/
structure Answers (g g' : Gdb) : Prop where
  sends : ∃ a : Answer, Sends g g' a.bytes
  works : Works g g'

theorem Works.of_events {g g' : Gdb} {events : List Event}
    (harm : simulator.run g.arm events = some g'.arm)
    (hbreakpoints : g'.breakpoints = g.breakpoints) : Works g g' :=
  ⟨⟨events, harm⟩, [], congrArg some hbreakpoints.symm⟩

theorem SameWork.works {g g' : Gdb} (h : SameWork g g') : Works g g' :=
  @Works.of_events _ _ [] (congrArg some h.arm.symm) h.breakpoints

/-- An answer after the work. -/
theorem Answers.of_sendData {g g₁ g' : Gdb} (a : Answer) (h : gdbSendData g₁ a.bytes = some g')
    (hworks : Works g g₁) (hsent : g₁.sent = g.sent) : Answers g g' := by
  obtain ⟨g₂, hsend, hsends, hsame⟩ := gdbSendData_answer a g₁
  obtain rfl := Option.some.inj (hsend.symm.trans h)
  obtain ⟨harm, hbreakpoints⟩ := hworks
  refine ⟨⟨a, hsends.holding, by rw [hsends.sent, hsent]⟩, ?_, ?_⟩
  · rw [hsame.arm]
    exact harm
  · rw [hsame.breakpoints]
    exact hbreakpoints

/-- An answer and no work. -/
theorem Answers.of_send {g g' : Gdb} (a : Answer) (h : gdbSendData g a.bytes = some g') :
    Answers g g' :=
  .of_sendData a h (SameWork.works ⟨rfl, rfl, rfl⟩) rfl

/-- What has been printed, when it is known to be an answer. -/
theorem Answers.of_sendBuffer {g g' : Gdb} {packet : Fin MAX_PACKET_SIZE → Byte} (a : Answer)
    (hbuffer : gdbSendBuffer { g with packet := packet } = some g')
    (hsent : g'.sent = g.sent ++ frame a.bytes) : Answers g g' := by
  obtain ⟨hsends, hsame⟩ := sends_of_sendBuffer hbuffer hsent
  exact ⟨⟨a, hsends⟩, hsame.works⟩

/-- The steps of `cont` are events. -/
theorem run_armSteps (junk : ℕ → Word) (k : ℕ) {p : ArmCore} {r : Int × ArmCore}
    (h : armSteps junk k p = some r) :
    simulator.run p ((List.range k).map fun n => Event.step (junk n)) = some r.2 := by
  induction k generalizing r with
  | zero =>
      cases h
      rfl
  | succ k ih =>
      obtain ⟨q, hq, hstep⟩ := Option.bind_eq_some_iff.mp h
      rw [List.range_succ, List.map_append, Machine.run_append, ih hq, Option.bind_some]
      have hevent : simulator.step q.2 (.step (junk k)) = some r.2 :=
        congrArg (Option.map Prod.snd) hstep
      rw [List.map_singleton, Machine.run_cons, hevent, Option.bind_some, Machine.run_nil]

/-- The loop of `write_memory_binary` is a list of events. -/
theorem run_writeMemoryLoop (count : ℕ) (p : ArmCore) (address : Word) (content : List Byte)
    (writeOk : Bool) {r : Memory × Bool}
    (h : writeMemoryLoop count p.mem address content writeOk = some r) :
    ∃ events, simulator.run p events = some { p with mem := r.1 } := by
  induction count generalizing p address content writeOk with
  | zero =>
      cases h
      exact ⟨[], rfl⟩
  | succ count ih =>
      cases writeOk with
      | false =>
          cases h
          exact ⟨[], rfl⟩
      | true =>
          obtain ⟨⟨value, rest⟩, -, hrest⟩ := Option.bind_eq_some_iff.mp h
          dsimp only at hrest
          have hstep : simulator.step p (.writeByte address value) =
              some (p.afterWrite (memoryWriteByte p.mem address value)).2 := rfl
          cases hwrite : memoryWriteByte p.mem address value with
          | none =>
              rw [hwrite, writeMemoryLoop_false] at hrest
              cases hrest
              exact ⟨[], rfl⟩
          | some mem =>
              rw [hwrite] at hrest hstep
              obtain ⟨events, hrun⟩ := ih { p with mem := mem } (address + 1) rest true hrest
              refine ⟨.writeByte address value :: events, ?_⟩
              rw [Machine.run_cons, hstep, Option.bind_some]
              exact hrun

namespace Gdb

variable {g g' : Gdb} {data : List Byte}

theorem writeRegister_event {reg : ℕ} (h : g.writeRegister reg data = some g') :
    ∃ value, simulator.step g.arm (.writeRegister reg value) = some g'.arm ∧
      readUint32 data = some value ∧ g'.breakpoints = g.breakpoints ∧ g'.sent = g.sent := by
  obtain ⟨value, hvalue, hrest⟩ := Option.bind_eq_some_iff.mp h
  obtain ⟨registers, hwrite, hrest⟩ := Option.bind_eq_some_iff.mp hrest
  cases hrest
  refine ⟨value, ?_, hvalue, rfl, rfl⟩
  rw [simulator]
  dsimp only
  rw [hwrite, Option.map_some]

/-- The loop of `write_general_registers` has read all its values. -/
theorem exists_of_writeRegisters (n : ℕ) {s : Gdb × List Byte}
    (h : (List.range n).foldlM
      (fun s i => (s.1.writeRegister i s.2).map fun g => (g, s.2.drop 8)) (g, data) = some s) :
    s.2 = data.drop (8 * n) ∧ ∀ i < n, ∃ v, readUint32 (data.drop (8 * i)) = some v := by
  induction n generalizing s with
  | zero =>
      cases h
      exact ⟨rfl, fun i hi => absurd hi (Nat.not_lt_zero i)⟩
  | succ n ih =>
      rw [List.range_succ, List.foldlM_append] at h
      obtain ⟨s₁, hfirst, hlast⟩ := Option.bind_eq_some_iff.mp h
      obtain ⟨hposition, hvalues⟩ := ih hfirst
      rw [List.foldlM_cons] at hlast
      obtain ⟨s₂, hwrite, hlast⟩ := Option.bind_eq_some_iff.mp hlast
      cases hlast
      obtain ⟨g₁, hwritten, rfl⟩ := Option.map_eq_some_iff.mp hwrite
      obtain ⟨value, -, hvalue, -, -⟩ := writeRegister_event hwritten
      rw [hposition] at hvalue
      refine ⟨by rw [hposition, List.drop_drop, Nat.mul_succ], fun i hi => ?_⟩
      rcases Nat.lt_succ_iff_lt_or_eq.mp hi with hlt | rfl
      · exact hvalues i hlt
      · exact ⟨value, hvalue⟩

/-- **`G`**, whenever it has read its values.  Its work is one event, the writes of a `G` packet. -/
theorem writeGeneralRegisters_answers (h : g.writeGeneralRegisters data = some g') :
    Answers g g' := by
  obtain ⟨s, hloop, hrest⟩ := Option.bind_eq_some_iff.mp h
  obtain ⟨cpsr, hcpsr, -⟩ := Option.bind_eq_some_iff.mp hrest
  obtain ⟨hposition, hvalues⟩ := exists_of_writeRegisters 16 hloop
  rw [skipFields, hposition, List.drop_drop] at hcpsr
  choose! values hvalues using hvalues
  have hregisters := writeRegisters_eq g values 16 (Nat.le_refl 16) hvalues
  have hstatus : readUint32 ((data.drop (8 * 16)).drop (8 * 25)) = some cpsr := by
    rw [List.drop_drop]
    exact hcpsr
  have hrun : simulator.run g.arm [.writeGeneralRegisters (fun i => values i) cpsr] =
      some { g.arm with reg := afterGeneralRegisters values g.arm.reg cpsr } := by
    rw [Machine.run_cons, simulator_writeGeneralRegisters, writeGeneralRegisters_eq]
    rfl
  simp only [writeGeneralRegisters, hregisters, Option.bind_eq_bind, Option.bind_some, skipFields,
    hstatus] at h
  exact .of_sendData okPayload.toAnswer h (.of_events hrun rfl) rfl

/-- **`P`**, whenever the register is there. -/
theorem writeSingleRegister_answers (h : g.writeSingleRegister data = some g') : Answers g g' := by
  obtain ⟨reg, -, hrest⟩ := Option.bind_eq_some_iff.mp h
  obtain ⟨value, -, hrest⟩ := Option.bind_eq_some_iff.mp hrest
  obtain ⟨g₁, hwrite, hsend⟩ := Option.bind_eq_some_iff.mp hrest
  obtain ⟨v, hevent, -, hbreakpoints, hsent⟩ := writeRegister_event hwrite
  have hrun : simulator.run g.arm [.writeRegister reg.1.toNat v] = some g₁.arm := by
    rw [Machine.run_cons, hevent, Option.bind_some, Machine.run_nil]
  exact .of_sendData okPayload.toAnswer hsend (.of_events hrun hbreakpoints) hsent

/-- **`X`**, whenever it has found its address, its number and the content that it reads.  Its work
is an event for each byte. -/
theorem writeMemoryBinary_answers (h : g.writeMemoryBinary data = some g') : Answers g g' := by
  obtain ⟨request, -, hrest⟩ := Option.bind_eq_some_iff.mp h
  obtain ⟨written, hloop, hsend⟩ := Option.bind_eq_some_iff.mp hrest
  obtain ⟨events, hrun⟩ :=
    run_writeMemoryLoop request.2.toNat g.arm request.1 (downloadContent data) _ hloop
  split_ifs at hsend with hok
  · exact .of_sendData okPayload.toAnswer hsend (.of_events hrun rfl) rfl
  · exact .of_sendData rejectedPayload.toAnswer hsend (.of_events hrun rfl) rfl

/-- **`g`**. -/
theorem readGeneralRegisters_answers (h : g.readGeneralRegisters data = some g') :
    Answers g g' := by
  obtain ⟨packet, hread⟩ := g.readGeneralRegisters_spec data
  rw [readGeneralRegisters_eq] at h hread
  obtain ⟨s, -, hbuffer⟩ := Option.bind_eq_some_iff.mp h
  obtain rfl := Option.some.inj (hread.symm.trans h)
  exact .of_sendBuffer (registerPayload g.arm.reg).toAnswer hbuffer rfl

/-- **`p`**, whenever the register is there. -/
theorem readSingleRegister_answers (h : g.readSingleRegister data = some g') : Answers g g' := by
  rw [readSingleRegister_eq] at h
  split_ifs at h with hassert
  exact .of_send (wordPayload _).toAnswer h

/-- **`m`**, whenever the bytes fit. -/
theorem readMemory_answers (h : g.readMemory data = some g') : Answers g g' := by
  obtain ⟨⟨address, count⟩, hrequest, hrest⟩ := Option.bind_eq_some_iff.mp h
  have hprinted : ∃ packet, gdbSendBuffer { g with packet := packet } = some g' := by
    split_ifs at hrest
    · obtain ⟨packet, -, hbuffer⟩ := Option.bind_eq_some_iff.mp hrest
      exact ⟨packet, hbuffer⟩
    · obtain ⟨packet, -, hbuffer⟩ := Option.bind_eq_some_iff.mp hrest
      exact ⟨packet, hbuffer⟩
  obtain ⟨packet, hbuffer⟩ := hprinted
  by_cases hinside : address.toNat < g.arm.mem.capacity.toNat
  · by_cases hfits : (g.bytesRead address count).length ≤ 2045
    · obtain ⟨packet', hread⟩ := g.readMemory_fits hrequest hinside hfits
      obtain rfl := Option.some.inj (hread.symm.trans h)
      exact .of_sendBuffer (hexAnswer _ hfits) hbuffer rfl
    · rw [g.readMemory_eq_none hrequest hinside (Nat.lt_of_not_le hfits)] at h
      cases h
  · obtain ⟨packet', hread⟩ := g.readMemory_outside hrequest (Nat.le_of_not_lt hinside)
    obtain rfl := Option.some.inj (hread.symm.trans h)
    exact .of_sendBuffer faultPayload.toAnswer hbuffer rfl

theorem sendStopReason_answers {g₁ : Gdb} (h : gdbSendStopReason g₁ = some g')
    (hworks : Works g g₁) (hsent : g₁.sent = g.sent) : Answers g g' := by
  obtain ⟨payload, hpayload⟩ := stopAction_payload g₁.targetException
  rw [gdbSendStopReason, ← hpayload] at h
  exact .of_sendData payload.toAnswer h hworks hsent

/-- **`s`** and **`S`**. -/
theorem step_answers {junk : Word} (h : step junk g data = some g') : Answers g g' := by
  obtain ⟨g₁, hstep, hsend⟩ := Option.bind_eq_some_iff.mp h
  obtain ⟨r, hr, rfl⟩ := Option.map_eq_some_iff.mp hstep
  have hrun : simulator.run g.arm [.step junk] = some (g.afterStep r).arm := by
    have hevent : simulator.step g.arm (.step junk) = some r.2 :=
      congrArg (Option.map Prod.snd) hr
    rw [Machine.run_cons, hevent, Option.bind_some, Machine.run_nil]
    rfl
  exact sendStopReason_answers hsend (.of_events hrun rfl) rfl

/-- **`c`** and **`C`**, whenever the loop ends.  Their work is a step for each round. -/
theorem cont_answers {fuel : ℕ} {junk : ℕ → Word} (h : cont fuel junk g data = some g') :
    Answers g g' := by
  obtain ⟨⟨k, g₂⟩, hcont, rfl⟩ := Option.map_eq_some_iff.mp h
  obtain ⟨⟨n, g₁⟩, hloop, hrest⟩ := Option.bind_eq_some_iff.mp hcont
  obtain ⟨g₃, hsend, heq⟩ := Option.map_eq_some_iff.mp hrest
  obtain ⟨-, rfl⟩ := Prod.mk.inj heq
  have hstops := doWhile_iff.mp ⟨fuel, hloop⟩
  obtain ⟨n, rfl⟩ := Nat.exists_eq_succ_of_ne_zero hstops.lt.ne'
  have hrounds := hstops.last
  rw [rounds_singleStep] at hrounds
  obtain ⟨r, hsteps, rfl⟩ := Option.map_eq_some_iff.mp hrounds
  exact sendStopReason_answers hsend (.of_events (run_armSteps junk (n + 1) hsteps) rfl) rfl

/-- **`Z`** and **`z`**, whenever the type and the address are there. -/
theorem changeBreakpoint_answers
    {change : BreakpointTable → Word → Option (Int × BreakpointTable)} (failure : Answer)
    (hchange : ∀ {t a r}, change t a = some r →
      ∃ call, breakpointMachine.step t call = some r.2)
    (h : changeBreakpoint change failure.bytes g data = some g') : Answers g g' := by
  obtain ⟨type, -, hrest⟩ := Option.bind_eq_some_iff.mp h
  dsimp only at hrest
  split_ifs at hrest with htype hcomma
  · exact .of_send ⟨str "E03", by decide, by decide, by decide⟩ hrest
  · obtain ⟨address, -, hrest⟩ := Option.bind_eq_some_iff.mp hrest
    obtain ⟨changed, hchanged, hrest⟩ := Option.bind_eq_some_iff.mp hrest
    obtain ⟨call, hcall⟩ := hchange hchanged
    have hworks : Works g { g with breakpoints := changed.2 } := by
      refine ⟨⟨[], rfl⟩, [call], ?_⟩
      rw [Machine.run_cons, hcall, Option.bind_some, Machine.run_nil]
    split_ifs at hrest
    · exact .of_sendData okPayload.toAnswer hrest hworks rfl
    · exact .of_sendData failure hrest hworks rfl
  · cases hrest

/-- **`q`**.  It does no work. -/
theorem query_answers (h : query g data = some g') : Answers g g' := by
  obtain ⟨offsets, -, hrest⟩ := Option.bind_eq_some_iff.mp h
  split_ifs at hrest
  · exact .of_send ⟨str "Text=0;Data=0;Bss=0", by decide, by decide, by decide⟩ hrest
  obtain ⟨supported, -, hrest⟩ := Option.bind_eq_some_iff.mp hrest
  split_ifs at hrest
  · exact .of_send ⟨str "PacketSize=400", by decide, by decide, by decide⟩ hrest
  obtain ⟨status, -, hrest⟩ := Option.bind_eq_some_iff.mp hrest
  split_ifs at hrest
  · exact .of_send ⟨str "T0;tnotrun:0", by decide, by decide, by decide⟩ hrest
  obtain ⟨symbol, -, hrest⟩ := Option.bind_eq_some_iff.mp hrest
  split_ifs at hrest
  · exact .of_send emptyAnswer hrest
  · exact .of_send emptyAnswer hrest

/-- **`H`**. -/
theorem setThread_answers (h : setThread g data = some g') : Answers g g' := by
  obtain ⟨type, -, hrest⟩ := Option.bind_eq_some_iff.mp h
  dsimp only at hrest
  split_ifs at hrest
  · exact .of_send okPayload.toAnswer hrest
  · exact .of_send ⟨str "E01", by decide, by decide, by decide⟩ hrest

end Gdb

/-! ## The table

The table is filled by assignments, first of no handler to all 256 places.  The facts about such
tables are about any assignments. -/

/-- What a table that is filled by assignments holds was assigned. -/
theorem mem_of_foldl_update {ι : Type*} {β : Type*} [DecidableEq ι] {i : ι} {b : β}
    (entries : List (ι × β)) {f : ι → Option β}
    (h : entries.foldl
      (fun (f : ι → Option β) (e : ι × β) => Function.update f e.1 (some e.2)) f i = some b) :
    (i, b) ∈ entries ∨ f i = some b := by
  induction entries generalizing f with
  | nil => exact Or.inr h
  | cons entry entries ih =>
      rcases ih h with hmem | hupdate
      · exact Or.inl (List.mem_cons_of_mem _ hmem)
      · dsimp only at hupdate
        by_cases hi : i = entry.1
        · subst hi
          rw [Function.update_self] at hupdate
          obtain rfl := Option.some.inj hupdate
          exact Or.inl List.mem_cons_self
        · rw [Function.update_of_ne hi] at hupdate
          exact Or.inr hupdate

/-- A table that is filled by assignments has an entry where there was one or one is assigned. -/
theorem isSome_foldl_update {ι : Type*} {β : Type*} [DecidableEq ι] {i : ι}
    (entries : List (ι × β)) (f : ι → Option β) :
    (entries.foldl
      (fun (f : ι → Option β) (e : ι × β) => Function.update f e.1 (some e.2)) f i).isSome ↔
      i ∈ entries.map Prod.fst ∨ (f i).isSome := by
  induction entries generalizing f with
  | nil => simp
  | cons entry entries ih =>
      rw [List.foldl_cons, ih, List.map_cons, List.mem_cons]
      by_cases hi : i = entry.1
      · subst hi
        simp
      · rw [Function.update_of_ne hi]
        simp [hi]

/-- **The handlers answer.**  A handler of the table that succeeds is the one of `k`, which leaves
everything as it is, or it sends one answer and has worked by events, insertions and removals. -/
theorem gdbInit_answers {fuel : ℕ} {junk : ℕ → Word} {index : Byte} {handle : GdbHandler}
    (hindex : gdbInit fuel junk index = some handle) {g g' : Gdb} {data : List Byte}
    (h : handle g data = some g') : index = chr 'k' ∧ g' = g ∨ Answers g g' := by
  have hmem := (mem_of_foldl_update _ hindex).resolve_right fun h => nomatch h
  simp only [gdbHandlers, List.mem_cons, Prod.mk.injEq, List.not_mem_nil, or_false] at hmem
  rcases hmem with ⟨-, rfl⟩ | ⟨-, rfl⟩ | ⟨hk, rfl⟩ | ⟨-, rfl⟩ | ⟨-, rfl⟩ | ⟨-, rfl⟩ | ⟨-, rfl⟩ |
    ⟨-, rfl⟩ | ⟨-, rfl⟩ | ⟨-, rfl⟩ | ⟨-, rfl⟩ | ⟨-, rfl⟩ | ⟨-, rfl⟩ | ⟨-, rfl⟩ | ⟨-, rfl⟩ | ⟨-, rfl⟩
  · exact Or.inr (Gdb.cont_answers h)
  · exact Or.inr (Gdb.cont_answers h)
  · exact Or.inl ⟨hk, (Option.some.inj h).symm⟩
  · exact Or.inr (Gdb.query_answers h)
  · exact Or.inr (Gdb.readGeneralRegisters_answers h)
  · exact Or.inr (Gdb.readMemory_answers h)
  · exact Or.inr (Gdb.readSingleRegister_answers h)
  · exact Or.inr (Gdb.sendStopReason_answers h (SameWork.works ⟨rfl, rfl, rfl⟩) rfl)
  · exact Or.inr (Gdb.setThread_answers h)
  · exact Or.inr (Gdb.step_answers h)
  · exact Or.inr (@Gdb.step_answers g g' data _ h)
  · exact Or.inr (Gdb.writeGeneralRegisters_answers h)
  · exact Or.inr (Gdb.writeMemoryBinary_answers h)
  · exact Or.inr (Gdb.writeSingleRegister_answers h)
  · exact Or.inr (Gdb.changeBreakpoint_answers ⟨str "E05", by decide, by decide, by decide⟩
      (fun hchange => ⟨.remove _, congrArg (Option.map Prod.snd) hchange⟩) h)
  · exact Or.inr (Gdb.changeBreakpoint_answers ⟨str "E04", by decide, by decide, by decide⟩
      (fun hchange => ⟨.add _, congrArg (Option.map Prod.snd) hchange⟩) h)

/-- A request with no handler is answered by an empty packet. -/
theorem handleRequest_answers {fuel : ℕ} {junk : ℕ → Word} {g g' : Gdb} {index : Byte}
    {data : List Byte} (h : handleRequest (gdbInit fuel junk) g index data = some g') :
    index = chr 'k' ∧ g' = g ∨ Answers g g' := by
  rw [handleRequest] at h
  cases hindex : gdbInit fuel junk index with
  | none =>
      rw [hindex] at h
      exact Or.inr (.of_send emptyAnswer h)
  | some handle =>
      rw [hindex] at h
      exact gdbInit_answers hindex h

end ArmSimulator
