import ArmSimulator.Gdb.Session

/-!
# The debugger's view (`gdb_protocol.c`)

For the debugger the simulator is a processor, a finite set of breakpoints and the code of the last
step; a request reads or changes them and has one answer.  `Target` and `Request.perform` say this
without texts, buffers and tables.

There is a request for every entry of the table of handlers but the one of `k`, and one for the
indices that have none.  `Request.Written` is how they are written: numbers in hexadecimal digits
with any zeros before them, and the ones of threads in decimal, as the handler reads them.  A text
with another form, such as one without its numbers, is no request here; the results about sessions
and scanners speak of it.

The abstract side states what the code does, where that is not what a debugger asks for: a `p` of a
register from 10 on is answered by `R0`, a download that goes past the end of the memory has been
stored up to it, and a `G` writes the registers in the mode that was there before.  These are
results of their own; here they are the meaning of the requests.

* `perform_spec`: the handler of a request that is written in any way does what `perform` does, and
  fails when it does.
* `Conversation` is the debugger with its target.  A `k` ends it: the connection is shut down, and
  whatever would be sent after it ends the process.
* `session_refines_conversation`: a session in which requests, a `k`, acknowledgements, requests for
  retransmission and interrupts come in any order goes as the conversation goes.

The refinement is an equivalence on failures.  A conversation fails when an answer has no room, when
`cont` does not come to an end with its fuel, or when something is sent after a `k`; the session
fails then, and at no other time.
-/

namespace ArmSimulator

open CheckedArray TextFields DoWhile LongestMatch

/-! ## The target

The meaning of a request is on a set of breakpoints, and on `armStep`.  What the handlers do with
the table is connected to it by the results on tables. -/

/-- What the debugger works on.  The processor is the one of the simulator; what it does in a step
is not stated again. -/
structure Target where
  arm : ArmCore
  breakpoints : Finset Word
  exception : Int

namespace Target

/-- One step. -/
def step (junk : Word) (t : Target) : Option Target :=
  (armStep t.arm junk).map fun r => { t with arm := r.2, exception := r.1 }

/-- The PC is at a breakpoint, or the last step has raised an exception. -/
def stops (t : Target) : Bool := t.arm.reg.pc ∈ t.breakpoints ∨ t.exception ≠ 0

/-- Steps until the first stop, at most `fuel` of them.  The first step is taken in any case. -/
def resume (fuel : ℕ) (junk : ℕ → Word) (t : Target) : Option Target :=
  (doWhile (fun n => step (junk n)) (fun t => some t.stops) fuel 0 t).map Prod.snd

end Target

/-! ## The requests

What is asked for, what it does, and how it is written.  The three are separate, and the second does
not mention the third. -/

/-- What a debugger may ask for.  A breakpoint of another type than 0 is one in hardware, or one on
data. -/
inductive Request
  | readRegisters
  | writeRegisters (values : Fin 16 → Word) (cpsr : Word)
  | readRegister (reg : Fin 16)
  | writeRegister (reg : Fin 16) (value : Word)
  | readMemory (address count : Word)
  | writeMemory (address : Word) (bytes : List Byte)
  | insertBreakpoint (address : Word)
  | removeBreakpoint (address : Word)
  | otherBreakpoint (type : Word)
  | query (text : List Byte)
  | setThread (operation : Byte) (thread : ℤ)
  | step
  | resume
  | reason
  | unsupported (index : Byte)

namespace Request

/-- The register that is read: the number is read as a decimal one, and `a` to `f` end it. -/
def registerRead (reg : Fin 16) : ℕ := if reg.val < 10 then reg else 0

/-- The answer to a query, which depends on its text alone. -/
def queryAnswer (text : List Byte) : List Byte :=
  if text = str "Offsets" then str "Text=0;Data=0;Bss=0"
  else if str "Supported" <+: text then str "PacketSize=400"
  else if text = str "TStatus" then str "T0;tnotrun:0"
  else str ""

/-- What a request does, and its answer; `none` where it has none.  An answer for which there is no
room in a packet is no answer. -/
def perform (fuel : ℕ) (junk : ℕ → Word) (t : Target) : Request → Option (List Byte × Target)
  | readRegisters => some (registerText t.arm.reg, t)
  | writeRegisters values cpsr =>
      (writeGeneralRegisters t.arm.reg values cpsr).map fun reg =>
        (str "OK", { t with arm := { t.arm with reg := reg } })
  | readRegister reg =>
      some (hexWord (registersRead t.arm.reg (BitVec.ofNat 8 (registerRead reg))
        (registersGetMode t.arm.reg)), t)
  | writeRegister reg value =>
      (ArmSimulator.writeRegister t.arm.reg reg value).map fun reg =>
        (str "OK", { t with arm := { t.arm with reg := reg } })
  | readMemory address count =>
      if address.toNat < t.arm.mem.capacity.toNat then
        let bytes := t.arm.mem.bytesAt address (t.arm.mem.reach count.toNat address)
        if bytes.length ≤ 2045 then some (hexText bytes, t) else none
      else some (str "E0E", t)
  | writeMemory address bytes =>
      if address.toNat < t.arm.mem.capacity.toNat then
        let count := t.arm.mem.reach bytes.length address
        some (if bytes.length ≤ count then str "OK" else str "E02",
          { t with arm := { t.arm with mem := t.arm.mem.storeBytes address (bytes.take count) } })
      else some (str "E02", t)
  | insertBreakpoint address =>
      if t.breakpoints.card < MAX_BREAKPOINTS_NUMBER then
        some (str "OK", { t with breakpoints := insert address t.breakpoints })
      else some (str "E04", t)
  | removeBreakpoint address =>
      if address ∈ t.breakpoints then
        some (str "OK", { t with breakpoints := t.breakpoints.erase address })
      else some (str "E05", t)
  | otherBreakpoint _ => some (str "E03", t)
  | query text => some (queryAnswer text, t)
  | setThread operation thread =>
      -- there is one thread, and -1 stands for all of them
      if (operation = chr 'c' ∨ operation = chr 'g') ∧ (thread = 0 ∨ thread = -1) then
        some (str "OK", t)
      else some (str "E01", t)
  | step => (t.step (junk 0)).map fun t => (stopAction t.exception, t)
  | resume => (t.resume fuel junk).map fun t => (stopAction t.exception, t)
  | reason => some (stopAction t.exception, t)
  | unsupported _ => some (str "", t)

/-- A text is a number in hexadecimal. -/
structure IsNumber (digits : List Byte) (v : ℕ) : Prop where
  numeral : IsHexNumeral digits
  value : hexNumber digits = v

/-- A number of one digit. -/
theorem isNumber_digitChar (d : Fin 16) : IsNumber [digitChar d] d :=
  ⟨⟨List.cons_ne_nil _ _, by revert d; decide⟩, by revert d; decide⟩

/-- A text is the number of a thread, in decimal. -/
structure IsThread (text : List Byte) (thread : ℤ) : Prop where
  text : ∃ negative digits, text = signText negative ++ digits ∧ IsDecNumeral digits ∧
    thread = if negative then -(digitsValue decimalDigit 10 digits : ℤ)
      else digitsValue decimalDigit 10 digits
  bound : thread.natAbs < 2 ^ 31

/-- The payloads of a request: its first character, and the text that the handler is given. -/
inductive Written : Request → Byte → List Byte → Prop
  | readRegisters (more : List Byte) : Written readRegisters (chr 'g') more
  | writeRegisters {values : Fin 16 → Word} {cpsr : Word} {fields : List Byte}
      (hvalues : ∀ i : Fin 16, IsHexField (field 8 fields i) ∧
        hexValue (field 8 fields i) = values i)
      (hcpsr : IsHexField (field 8 fields 41) ∧ hexValue (field 8 fields 41) = cpsr) :
      Written (writeRegisters values cpsr) (chr 'G') fields
  | readRegister {reg : Fin 16} {number : List Byte} (hreg : IsNumber number reg) :
      Written (readRegister reg) (chr 'p') number
  | writeRegister {reg : Fin 16} {value : Word} {number digits : List Byte}
      (hreg : IsNumber number reg) (hdigits : IsHexNumeral digits) (hlength : digits.length ≤ 8)
      (hvalue : hexValue digits = value) :
      Written (writeRegister reg value) (chr 'P') (number ++ chr '=' :: digits)
  | readMemory {a n : Word} {address length : List Byte} (haddress : IsNumber address a.toNat)
      (hlength : IsNumber length n.toNat) :
      Written (readMemory a n) (chr 'm') (address ++ chr ',' :: length)
  | writeMemory {a : Word} {bytes : List Byte} {address length : List Byte}
      (haddress : IsNumber address a.toNat) (hlength : IsNumber length bytes.length)
      (hfits : bytes.length < 2 ^ 32) :
      Written (writeMemory a bytes) (chr 'X') (downloadText address length (escapeContent bytes))
  | insertBreakpoint {a : Word} {type address : List Byte} (htype : IsNumber type 0)
      (haddress : IsNumber address a.toNat) (length : List Byte) :
      Written (insertBreakpoint a) (chr 'Z')
        (type ++ chr ',' :: (address ++ chr ',' :: length))
  | removeBreakpoint {a : Word} {type address : List Byte} (htype : IsNumber type 0)
      (haddress : IsNumber address a.toNat) (length : List Byte) :
      Written (removeBreakpoint a) (chr 'z')
        (type ++ chr ',' :: (address ++ chr ',' :: length))
  | otherBreakpoint {v : Word} {type : List Byte} {index : Byte}
      (hindex : index = chr 'Z' ∨ index = chr 'z') (htype : IsNumber type v.toNat)
      (hother : u8 v ≠ 0) (more : List Byte) :
      Written (otherBreakpoint v) index (type ++ chr ',' :: more)
  | query {text : List Byte} (htext : ∀ b ∈ text, b ≠ 0) : Written (query text) (chr 'q') text
  | setThread {operation : Byte} {thread : ℤ} {number : List Byte}
      (hnumber : IsThread number thread) :
      Written (setThread operation thread) (chr 'H') (operation :: number)
  | step (more : List Byte) : Written step (chr 's') more
  | stepWithSignal (more : List Byte) : Written step (chr 'S') more
  | resume (more : List Byte) : Written resume (chr 'c') more
  | resumeWithSignal (more : List Byte) : Written resume (chr 'C') more
  | reason (more : List Byte) : Written reason (chr '?') more
  | unsupported {index : Byte} (hindex : ∀ fuel junk, gdbInit fuel junk index = none)
      (more : List Byte) : Written (unsupported index) index more

end Request

/-! ## The handlers perform the requests

One lemma for each kind of request.  The texts are any that the request can be written in, followed
by the NUL that ends the string. -/

/-- What the debugger sees of the server: the table of breakpoints as a set, and neither `packet`
nor what has been sent. -/
def Gdb.target (g : Gdb) : Target where
  arm := g.arm
  breakpoints := g.breakpoints.breakpointSet
  exception := g.targetException

/-- The server has sent an answer, and its target is the one of the debugger. -/
structure Gdb.Performs (g g' : Gdb) (p : List Byte × Target) : Prop where
  sent : g'.sent = g.sent ++ frame p.1
  target : p.2 = g'.target
  sorted : g'.breakpoints.Sorted

/-- A handler and what it should do: both fail, or it has done it.  The failures are part of the
statement. -/
abbrev Gdb.PerformsAs (g : Gdb) (result : Option Gdb) (spec : Option (List Byte × Target)) : Prop :=
  Option.Rel g.Performs result spec

/-- A field is read whatever follows the text. -/
theorem readUint32_field_append {fields : List Byte} {k : ℕ} (h : IsHexField (field 8 fields k))
    (rest : List Byte) :
    readUint32 ((fields ++ rest).drop (8 * k)) = some (hexValue (field 8 fields k)) := by
  have hlength := h.length
  rw [field, List.length_take, List.length_drop] at hlength
  have hfield : ((fields ++ rest).drop (8 * k)).take 8 = field 8 fields k := by
    rw [List.drop_append_of_le_length (by omega), List.take_append_of_le_length
      (by rw [List.length_drop]; omega), field]
  rw [← hfield] at h ⊢
  exact readUint32_eq h

/-- The first bytes of a download are decoded, as many as there are to be. -/
theorem decode_take {n : ℕ} (bytes rest : List Byte) (hn : n ≤ bytes.length) :
    Escaping.decode ESCAPE escaped n (escapeContent bytes ++ rest) = some (bytes.take n) := by
  have hspecial : IsSpecial ESCAPE := Or.inr (Or.inr rfl)
  have hdecode := Escaping.decode_escape hspecial escaped_involutive (bytes.take n)
    (escapeContent (bytes.drop n) ++ rest)
  rw [List.length_take, Nat.min_eq_left hn, ← List.append_assoc] at hdecode
  have hsplit : Escaping.escape ESCAPE escaped IsSpecial (bytes.take n) ++
      escapeContent (bytes.drop n) = escapeContent bytes := by
    rw [escapeContent, escapeContent, Escaping.escape, Escaping.escape, Escaping.escape,
      ← List.flatMap_append, List.take_append_drop]
  rwa [hsplit] at hdecode

/-- What the loop of a download decodes: as many bytes as reach the memory, and one more when they
do not all. -/
theorem bytesDecoded_escapeContent (g : Gdb) (a : Word) (bytes : List Byte)
    (hfits : bytes.length < 2 ^ 32) (rest : List Byte) :
    g.bytesDecoded a (BitVec.ofNat 32 bytes.length) (escapeContent bytes ++ rest) =
      some (bytes.take (min bytes.length (g.arm.mem.reach bytes.length a + 1))) := by
  have hcount : (BitVec.ofNat 32 bytes.length).toNat = bytes.length := by
    rw [BitVec.toNat_ofNat, Nat.mod_eq_of_lt hfits]
  rw [Gdb.bytesDecoded, hcount]
  exact decode_take bytes rest (Nat.min_le_left _ _)

/-- An answer after some work.  There is always room for it, so it does not fail. -/
theorem performsAs_sendData {g g₁ : Gdb} (hsorted : g₁.breakpoints.Sorted)
    (hsent : g₁.sent = g.sent) {bytes : List Byte} (a : Answer) (ha : a.bytes = bytes) :
    g.PerformsAs (gdbSendData g₁ bytes) (some (bytes, g₁.target)) := by
  subst ha
  obtain ⟨g', hsend, hsends, hsame⟩ := gdbSendData_answer a g₁
  rw [hsend]
  refine .some ⟨by rw [hsends.sent, hsent], ?_, by rw [hsame.breakpoints]; exact hsorted⟩
  rw [Gdb.target, Gdb.target, hsame.arm, hsame.breakpoints, hsame.targetException]

/-- The stop reason after some steps. -/
theorem performsAs_sendStopReason {g g₁ : Gdb} (hsorted : g₁.breakpoints.Sorted)
    (hsent : g₁.sent = g.sent) :
    g.PerformsAs (gdbSendStopReason g₁) (some (stopAction g₁.targetException, g₁.target)) := by
  obtain ⟨payload, hpayload⟩ := stopAction_payload g₁.targetException
  exact performsAs_sendData hsorted hsent payload.toAnswer hpayload

/-- The answer to an insertion for which there is no room. -/
def noRoomAnswer : Answer where
  bytes := str "E04"
  ne_nul := by decide
  ne_delimiter := by decide
  length_le := by decide

/-- The answer to a removal of a breakpoint that is not there. -/
def notFoundAnswer : Answer where
  bytes := str "E05"
  ne_nul := by decide
  ne_delimiter := by decide
  length_le := by decide

/-- Insertion and removal read their addresses alike.  The type has to be 0, and the length is not
looked at. -/
theorem changeBreakpoint_eq {type address : List Byte} (htype : Request.IsNumber type 0) {a : Word}
    (haddress : Request.IsNumber address a.toNat)
    (change : BreakpointTable → Word → Option (Int × BreakpointTable)) (failure : List Byte)
    (g : Gdb) (rest : List Byte) :
    Gdb.changeBreakpoint change failure g
        (type ++ chr ',' :: (address ++ chr ',' :: rest)) =
      (change g.breakpoints a).bind fun changed =>
        gdbSendData { g with breakpoints := changed.2 }
          (if changed.1 ≠ 0 then str "OK" else failure) := by
  have hcomma : EndsNumeral (chr ',') := by decide
  have hfirst := scanUnsigned_numeral htype.numeral hcomma (address ++ chr ',' :: rest)
  have hsecond := scanUnsigned_numeral haddress.numeral hcomma rest
  rw [htype.value] at hfirst
  rw [haddress.value, toUnsigned_word] at hsecond
  have hzero : ¬ u8 (toUnsigned false 0) ≠ 0 := by decide
  simp only [Gdb.changeBreakpoint, Option.bind_eq_bind, hfirst, Option.bind_some, if_neg hzero,
    List.head?_cons, List.tail_cons, if_pos, hsecond]
  congr 1
  funext changed
  split_ifs <;> rfl

/-- While it works, the server has sent nothing.  This is what the rounds of `cont` keep. -/
structure Gdb.Working (g g₁ : Gdb) (t : Target) : Prop where
  sent : g₁.sent = g.sent
  sorted : g₁.breakpoints.Sorted
  target : t = g₁.target

/-- The bodies of the loops agree. -/
theorem Gdb.Working.step {g g₁ : Gdb} {t : Target} {junk : ℕ → Word} {n : ℕ}
    (h : g.Working g₁ t) : Option.Rel g.Working (singleStep (junk n) g₁) (t.step (junk n)) := by
  obtain ⟨hsent, hsorted, rfl⟩ := h
  have harm : g₁.target.arm = g₁.arm := rfl
  rw [singleStep, Target.step, harm]
  cases armStep g₁.arm (junk n) with
  | none => exact .none
  | some r => exact .some ⟨hsent, hsorted, rfl⟩

/-- The tests of the loops agree: the search by halving finds the members of the set. -/
theorem Gdb.Working.stops {g g₁ : Gdb} {t : Target} (h : g.Working g₁ t) :
    contStop g₁ = some t.stops := by
  obtain ⟨-, hsorted, rfl⟩ := h
  exact contStop_afterStep hsorted (g₁.targetException, g₁.arm)

section Handlers

variable {g : Gdb} (hsorted : g.breakpoints.Sorted)

include hsorted

/-- `g`: the registers in the current mode. -/
theorem perform_readRegisters (data : List Byte) :
    g.PerformsAs (g.readGeneralRegisters data) (some (registerText g.arm.reg, g.target)) := by
  obtain ⟨packet, hread⟩ := g.readGeneralRegisters_spec data
  rw [hread]
  exact .some ⟨rfl, rfl, hsorted⟩

/-- `G`: the sixteen registers, then the CPSR. -/
theorem perform_writeRegisters {values : Fin 16 → Word} {cpsr : Word} {fields : List Byte}
    (hvalues : ∀ i : Fin 16, IsHexField (field 8 fields i) ∧
      hexValue (field 8 fields i) = values i)
    (hcpsr : IsHexField (field 8 fields 41) ∧ hexValue (field 8 fields 41) = cpsr)
    (rest : List Byte) :
    g.PerformsAs (g.writeGeneralRegisters (fields ++ rest))
      ((writeGeneralRegisters g.arm.reg values cpsr).map fun reg =>
        (str "OK", { g.target with arm := { g.arm with reg := reg } })) := by
  obtain ⟨packet, hwrite⟩ := g.writeGeneralRegisters_spec
    (fun k => hexValue (field 8 fields k))
    (fun i hi => readUint32_field_append (hvalues ⟨i, hi⟩).1 rest)
    (readUint32_field_append hcpsr.1 rest)
  have hsame : values = fun i : Fin 16 => hexValue (field 8 fields i) :=
    funext fun i => (hvalues i).2.symm
  have hregisters := writeGeneralRegisters_eq (fun k => hexValue (field 8 fields k)) g.arm.reg cpsr
  rw [hwrite, hsame, hregisters, hcpsr.2]
  exact .some ⟨rfl, rfl, hsorted⟩

/-- `p`: the number is read as a decimal one. -/
theorem perform_readRegister {reg : Fin 16} {number : List Byte}
    (hreg : Request.IsNumber number reg) (rest : List Byte) :
    g.PerformsAs (g.readSingleRegister (number ++ 0 :: rest))
      (some (hexWord (registersRead g.arm.reg (BitVec.ofNat 8 (Request.registerRead reg))
        (registersGetMode g.arm.reg)), g.target)) := by
  have hlt := reg.isLt
  have hdec := decNumber_of_lt hreg.numeral (by rw [hreg.value]; exact hlt)
  rw [hreg.value] at hdec
  have hread : Request.registerRead reg < 16 := by
    rw [Request.registerRead]
    split_ifs <;> omega
  have hatoi : (u8 (atoi (number ++ 0 :: rest))).toNat = Request.registerRead reg := by
    rw [atoi_numeral hreg.numeral, hdec, toSigned, if_neg (by decide), u8, BitVec.toNat_setWidth,
      BitVec.toNat_ofNat, ← Request.registerRead]
    omega
  rw [g.readSingleRegister_eq, hatoi, if_pos hread]
  exact performsAs_sendData hsorted rfl (wordPayload _).toAnswer rfl

/-- `P`: the number is read as a hexadecimal one, and so is the value. -/
theorem perform_writeRegister {reg : Fin 16} {value : Word} {number digits : List Byte}
    (hreg : Request.IsNumber number reg) (hdigits : IsHexNumeral digits)
    (hlength : digits.length ≤ 8) (hvalue : hexValue digits = value) (rest : List Byte) :
    g.PerformsAs (g.writeSingleRegister ((number ++ chr '=' :: digits) ++ 0 :: rest))
      ((writeRegister g.arm.reg reg value).map fun reg =>
        (str "OK", { g.target with arm := { g.arm with reg := reg } })) := by
  have hlt := reg.isLt
  have htext : (number ++ chr '=' :: digits) ++ 0 :: rest =
      writeRegisterText number digits rest := List.append_assoc ..
  have hnumber : (toUnsigned false (hexNumber number)).toNat = reg := by
    rw [hreg.value, toUnsigned, if_neg (by omega), if_neg (by decide), BitVec.toNat_ofNat]
    omega
  rw [htext, g.writeSingleRegister_eq hreg.numeral hdigits hlength, hnumber, if_pos hlt,
    writeRegister, if_pos hlt, hvalue, Option.map_some]
  exact @performsAs_sendData g { g with arm := { g.arm with reg := g.registerWritten reg value } }
    hsorted rfl _ okPayload.toAnswer rfl

/-- `m`: an error outside the memory, and a failure when the answer has no room. -/
theorem perform_readMemory {a n : Word} {address length : List Byte}
    (haddress : Request.IsNumber address a.toNat) (hlength : Request.IsNumber length n.toNat)
    (fuel : ℕ) (junk : ℕ → Word) (rest : List Byte) :
    g.PerformsAs (g.readMemory ((address ++ chr ',' :: length) ++ 0 :: rest))
      (Request.perform fuel junk g.target (.readMemory a n)) := by
  have htext : (address ++ chr ',' :: length) ++ 0 :: rest = readText address length rest :=
    List.append_assoc ..
  have hrequest := scanPair_readText haddress.numeral hlength.numeral rest
  rw [haddress.value, hlength.value, toUnsigned_word, toUnsigned_word] at hrequest
  rw [htext, Request.perform]
  by_cases hinside : a.toNat < g.arm.mem.capacity.toNat
  · rw [if_pos (show a.toNat < g.target.arm.mem.capacity.toNat from hinside)]
    by_cases hfits : (g.bytesRead a n).length ≤ 2045
    · obtain ⟨packet, hread⟩ := g.readMemory_fits hrequest hinside hfits
      rw [hread]
      dsimp only
      rw [if_pos (show (g.target.arm.mem.bytesAt a (g.target.arm.mem.reach n.toNat a)).length ≤ 2045
        from hfits)]
      exact .some ⟨rfl, rfl, hsorted⟩
    · rw [g.readMemory_eq_none hrequest hinside (Nat.lt_of_not_le hfits)]
      dsimp only
      rw [if_neg (show ¬ (g.target.arm.mem.bytesAt a (g.target.arm.mem.reach n.toNat a)).length ≤
        2045 from hfits)]
      exact .none
  · obtain ⟨packet, hread⟩ := g.readMemory_outside hrequest (Nat.le_of_not_lt hinside)
    rw [if_neg (show ¬ a.toNat < g.target.arm.mem.capacity.toNat from hinside), hread]
    exact .some ⟨rfl, rfl, hsorted⟩

/-- `X`: the bytes up to the end of the memory. -/
theorem perform_writeMemory {a : Word} {bytes : List Byte} {address length : List Byte}
    (haddress : Request.IsNumber address a.toNat)
    (hlength : Request.IsNumber length bytes.length) (hfits : bytes.length < 2 ^ 32)
    (fuel : ℕ) (junk : ℕ → Word) (rest : List Byte) :
    g.PerformsAs
      (g.writeMemoryBinary (downloadText address length (escapeContent bytes) ++ 0 :: rest))
      (Request.perform fuel junk g.target (.writeMemory a bytes)) := by
  have htext : downloadText address length (escapeContent bytes) ++ 0 :: rest =
      downloadText address length (escapeContent bytes ++ 0 :: rest) := by
    simp [downloadText]
  have hcount : (BitVec.ofNat 32 bytes.length).toNat = bytes.length := by
    rw [BitVec.toNat_ofNat, Nat.mod_eq_of_lt hfits]
  have hrequest := scanPair_downloadText haddress.numeral hlength.numeral
    (escapeContent bytes ++ 0 :: rest)
  have hword := toUnsigned_word (BitVec.ofNat 32 bytes.length)
  rw [hcount] at hword
  rw [haddress.value, hlength.value, toUnsigned_word, hword] at hrequest
  have hcontent := downloadContent_downloadText haddress.numeral hlength.numeral
    (escapeContent bytes ++ 0 :: rest)
  rw [htext, Request.perform]
  by_cases hinside : a.toNat < g.arm.mem.capacity.toNat
  · rw [if_pos (show a.toNat < g.target.arm.mem.capacity.toNat from hinside)]
    have hdecoded := bytesDecoded_escapeContent g a bytes hfits (0 :: rest)
    obtain ⟨packet, answer, hanswer, hwrite⟩ :=
      g.writeMemoryBinary_inside hrequest hcontent hinside hdecoded
    have hstored : (bytes.take (min bytes.length (g.arm.mem.reach bytes.length a + 1))).take
        (g.arm.mem.reach bytes.length a) = bytes.take (g.arm.mem.reach bytes.length a) := by
      rw [List.take_take, List.take_eq_take_iff]
      omega
    rw [Gdb.memoryWritten, hcount, hstored] at hwrite
    rw [hcount] at hanswer
    rw [hwrite, hanswer]
    exact .some ⟨rfl, rfl, hsorted⟩
  · obtain ⟨packet, hwrite⟩ :=
      g.writeMemoryBinary_outside hrequest (Nat.le_of_not_lt hinside)
    rw [if_neg (show ¬ a.toNat < g.target.arm.mem.capacity.toNat from hinside), hwrite]
    exact .some ⟨rfl, rfl, hsorted⟩

/-- `Z0`: the set with the address, or the refusal of a full table. -/
theorem perform_insertBreakpoint {type address : List Byte} (htype : Request.IsNumber type 0)
    {a : Word} (haddress : Request.IsNumber address a.toNat) (fuel : ℕ) (junk : ℕ → Word)
    (rest : List Byte) :
    g.PerformsAs (Gdb.setBreakpoint g (type ++ chr ',' :: (address ++ chr ',' :: rest)))
      (Request.perform fuel junk g.target (.insertBreakpoint a)) := by
  have hcard : g.target.breakpoints.card = g.breakpoints.breakpointsNumber := hsorted.card
  rw [Gdb.setBreakpoint, changeBreakpoint_eq htype haddress, Request.perform, hcard]
  rcases BreakpointTable.gdbAddBreakpoint_spec hsorted a with
    ⟨t', hadd, hsorted', hroom, hset⟩ | ⟨hadd, hfull⟩
  · have hsend := @performsAs_sendData g { g with breakpoints := t' } hsorted' rfl _
      okPayload.toAnswer rfl
    have htarget : { g.target with breakpoints := insert a g.target.breakpoints } =
        ({ g with breakpoints := t' } : Gdb).target :=
      congrArg (fun s => { g.target with breakpoints := s }) hset.symm
    rw [hadd, if_pos hroom, htarget]
    exact hsend
  · rw [hadd, if_neg (by rw [hfull]; exact lt_irrefl _)]
    exact performsAs_sendData hsorted rfl noRoomAnswer rfl

/-- `z0`: the set without the address, or an error when it was not there. -/
theorem perform_removeBreakpoint {type address : List Byte} (htype : Request.IsNumber type 0)
    {a : Word} (haddress : Request.IsNumber address a.toNat) (fuel : ℕ) (junk : ℕ → Word)
    (rest : List Byte) :
    g.PerformsAs (Gdb.removeBreakpoint g (type ++ chr ',' :: (address ++ chr ',' :: rest)))
      (Request.perform fuel junk g.target (.removeBreakpoint a)) := by
  rw [Gdb.removeBreakpoint, changeBreakpoint_eq htype haddress, Request.perform]
  rcases BreakpointTable.gdbRemoveBreakpoint_spec hsorted a with
    ⟨hmem, t', hremove, hsorted', hset⟩ | ⟨hnot, hremove⟩
  · have hsend := @performsAs_sendData g { g with breakpoints := t' } hsorted' rfl _
      okPayload.toAnswer rfl
    have htarget : { g.target with breakpoints := g.target.breakpoints.erase a } =
        ({ g with breakpoints := t' } : Gdb).target :=
      congrArg (fun s => { g.target with breakpoints := s }) hset.symm
    rw [hremove, if_pos (show a ∈ g.target.breakpoints from hmem), htarget]
    exact hsend
  · rw [hremove, if_neg (show ¬ a ∈ g.target.breakpoints from hnot)]
    exact performsAs_sendData hsorted rfl notFoundAnswer rfl

/-- `Z` and `z` of another type are refused. -/
theorem perform_otherBreakpoint {v : Word} {type : List Byte}
    (htype : Request.IsNumber type v.toNat) (hother : u8 v ≠ 0)
    (change : BreakpointTable → Word → Option (Int × BreakpointTable)) (failure rest : List Byte) :
    g.PerformsAs (Gdb.changeBreakpoint change failure g (type ++ chr ',' :: rest))
      (some (str "E03", g.target)) := by
  have hscan := scanUnsigned_numeral htype.numeral (by decide : EndsNumeral (chr ',')) rest
  rw [htype.value, toUnsigned_word] at hscan
  simp only [Gdb.changeBreakpoint, Option.bind_eq_bind, hscan, Option.bind_some, if_pos hother]
  exact performsAs_sendData hsorted rfl ⟨str "E03", by decide, by decide, by decide⟩ rfl

/-- `q`: the four texts that are known, and all others. -/
theorem perform_query {text : List Byte} (htext : ∀ b ∈ text, b ≠ 0) (rest : List Byte) :
    g.PerformsAs (Gdb.query g (text ++ 0 :: rest)) (some (Request.queryAnswer text, g.target)) := by
  have hcompare := fun known hknown => @strcmpEqual_append text htext known hknown rest
  have hsupported := @strncmpEqual_append text (str "Supported") (by decide) rest
  simp only [Gdb.query, Option.bind_eq_bind, hcompare (str "Offsets") (by decide), hsupported,
    hcompare (str "TStatus") (by decide), hcompare (str "Symbol::") (by decide), Option.bind_some,
    decide_eq_true_eq, ite_self, Request.queryAnswer]
  split_ifs
  · exact performsAs_sendData hsorted rfl
      ⟨str "Text=0;Data=0;Bss=0", by decide, by decide, by decide⟩ rfl
  · exact performsAs_sendData hsorted rfl
      ⟨str "PacketSize=400", by decide, by decide, by decide⟩ rfl
  · exact performsAs_sendData hsorted rfl ⟨str "T0;tnotrun:0", by decide, by decide, by decide⟩ rfl
  · exact performsAs_sendData hsorted rfl emptyAnswer rfl

/-- `H`: the number is read by `atoi`, with its sign. -/
theorem perform_setThread {operation : Byte} {thread : ℤ} {number : List Byte}
    (hnumber : Request.IsThread number thread) (fuel : ℕ) (junk : ℕ → Word) (rest : List Byte) :
    g.PerformsAs (Gdb.setThread g ((operation :: number) ++ 0 :: rest))
      (Request.perform fuel junk g.target (.setThread operation thread)) := by
  obtain ⟨⟨negative, digits, rfl, hdigits, hthread⟩, hbound⟩ := hnumber
  have hfits : digitsValue decimalDigit 10 digits < 2 ^ 31 := by
    rw [hthread] at hbound
    split_ifs at hbound <;> omega
  have hatoi : (atoi ((signText negative ++ digits) ++ 0 :: rest)).toInt = thread := by
    rw [List.append_assoc, atoi_signed negative hdigits.hex, hdigits.decNumber,
      toInt_toSigned negative hfits, hthread]
  have hrange : thread < 1 ∧ -2 < thread ↔ thread = 0 ∨ thread = -1 := by omega
  simp only [Gdb.setThread, List.cons_append, List.head?_cons, List.tail_cons, Option.bind_eq_bind,
    Option.bind_some, hatoi, hrange, Request.perform]
  split_ifs
  · exact performsAs_sendData hsorted rfl okPayload.toAnswer rfl
  · exact performsAs_sendData hsorted rfl ⟨str "E01", by decide, by decide, by decide⟩ rfl

/-- `s`: one step, and the reason for the stop. -/
theorem perform_step (junk : Word) (data : List Byte) :
    g.PerformsAs (Gdb.step junk g data)
      ((g.target.step junk).map fun t => (stopAction t.exception, t)) := by
  have harm : g.target.arm = g.arm := rfl
  rw [Gdb.step, singleStep, Target.step, harm]
  cases armStep g.arm junk with
  | none => exact .none
  | some r => exact @performsAs_sendStopReason g (g.afterStep r) hsorted rfl

/-- `c`: the two loops go round together, and their tests agree. -/
theorem perform_resume (fuel : ℕ) (junk : ℕ → Word) (data : List Byte) :
    g.PerformsAs (Gdb.cont fuel junk g data)
      ((g.target.resume fuel junk).map fun t => (stopAction t.exception, t)) := by
  have hloop : Option.Rel (fun p q => p.1 = q.1 ∧ g.Working p.2 q.2)
      (doWhile (fun n => singleStep (junk n)) contStop fuel 0 g)
      (doWhile (fun n => Target.step (junk n)) (fun t => some t.stops) fuel 0 g.target) :=
    doWhile_rel (fun h => h.step) (fun h => h.stops) ⟨rfl, hsorted, rfl⟩
  rw [Gdb.cont, ArmSimulator.cont, Target.resume]
  rcases Machine.rel_cases hloop with ⟨hnone, hnone'⟩ | ⟨r, r', hr, hr', -, hworking⟩
  · rw [hnone, hnone']
    exact .none
  · obtain ⟨hsent, hsorted', htarget⟩ := hworking
    have hsend := performsAs_sendStopReason hsorted' hsent
    rw [hr, hr', Option.bind_some, Option.map_map, Option.map_some, htarget]
    have hsame : Prod.snd ∘ (fun g : Gdb => (r.1, g)) = id := rfl
    rw [hsame, Option.map_id]
    exact hsend

/-- **The handlers do what they should.**  A request that is written in any way is performed: the
answer is sent, and the target is changed; or both fail. -/
theorem perform_spec {r : Request} {index : Byte} {data : List Byte} (hr : r.Written index data)
    (fuel : ℕ) (junk : ℕ → Word) (rest : List Byte) :
    g.PerformsAs (handleRequest (gdbInit fuel junk) g index (data ++ 0 :: rest))
      (r.perform fuel junk g.target) := by
  cases hr with
  | readRegisters => exact perform_readRegisters hsorted (data ++ 0 :: rest)
  | writeRegisters hvalues hcpsr => exact perform_writeRegisters hsorted hvalues hcpsr _
  | readRegister hreg => exact perform_readRegister hsorted hreg rest
  | writeRegister hreg hdigits hlength hvalue =>
      exact perform_writeRegister hsorted hreg hdigits hlength hvalue rest
  | readMemory haddress hlength =>
      exact perform_readMemory hsorted haddress hlength fuel junk rest
  | writeMemory haddress hlength hfits =>
      exact perform_writeMemory hsorted haddress hlength hfits fuel junk rest
  | @insertBreakpoint a type address htype haddress length =>
      have htext : (type ++ chr ',' :: (address ++ chr ',' :: length)) ++ 0 :: rest =
          type ++ chr ',' :: (address ++ chr ',' :: (length ++ 0 :: rest)) := by simp
      rw [htext]
      exact perform_insertBreakpoint hsorted htype haddress fuel junk (length ++ 0 :: rest)
  | @removeBreakpoint a type address htype haddress length =>
      have htext : (type ++ chr ',' :: (address ++ chr ',' :: length)) ++ 0 :: rest =
          type ++ chr ',' :: (address ++ chr ',' :: (length ++ 0 :: rest)) := by simp
      rw [htext]
      exact perform_removeBreakpoint hsorted htype haddress fuel junk (length ++ 0 :: rest)
  | @otherBreakpoint v type index hindex htype hother more =>
      have htext : (type ++ chr ',' :: more) ++ 0 :: rest =
          type ++ chr ',' :: (more ++ 0 :: rest) := List.append_assoc ..
      rw [htext]
      rcases hindex with rfl | rfl
      · exact perform_otherBreakpoint hsorted htype hother _ _ (more ++ 0 :: rest)
      · exact perform_otherBreakpoint hsorted htype hother _ _ (more ++ 0 :: rest)
  | query htext => exact perform_query hsorted htext rest
  | setThread hnumber => exact perform_setThread hsorted hnumber fuel junk rest
  | step => exact perform_step hsorted (junk 0) (data ++ 0 :: rest)
  | stepWithSignal => exact perform_step hsorted (junk 0) (data ++ 0 :: rest)
  | resume => exact perform_resume hsorted fuel junk (data ++ 0 :: rest)
  | resumeWithSignal => exact perform_resume hsorted fuel junk (data ++ 0 :: rest)
  | reason => exact performsAs_sendStopReason hsorted rfl
  | unsupported hindex more =>
      rw [handleRequest, hindex]
      exact performsAs_sendData hsorted rfl emptyAnswer rfl

end Handlers

/-! ## Conversations

The conversation as a machine, and the relation between it and the session.  A step of the one is a
step of the other, or both fail. -/

/-- The conversation of a debugger with its target: the target, the last packet of the server, all
that it has sent, and whether the debugger has ended it. -/
structure Conversation where
  target : Target
  last : List Byte
  sent : List Byte
  shut : Bool

/-- What happens in a conversation: what the debugger asks for, and the interrupts of the other
thread. -/
inductive ConversationEvent
  | request (r : Request) (fuel : ℕ) (junk : ℕ → Word)
  | kill
  | acknowledgement
  | retransmission
  | interrupt (irq : Byte) (junk : Word)

/-- The server sends something, which ends the process when the connection is shut down. -/
def Conversation.send (c : Conversation) (bytes : List Byte) : Option Conversation :=
  if c.shut ∧ bytes ≠ [] then none else some { c with sent := c.sent ++ bytes }

/-- The conversation as a machine.  A request to kill the process is acknowledged, and shuts the
connection down. -/
def conversation : Machine Conversation ConversationEvent where
  step c
    | .request r fuel junk =>
        (r.perform fuel junk c.target).bind fun p =>
          ({ c with target := p.2, last := frame p.1 } : Conversation).send (chr '+' :: frame p.1)
    | .kill => (c.send [chr '+']).map fun c => { c with shut := true }
    | .acknowledgement => some c
    | .retransmission => c.send c.last
    | .interrupt irq junk =>
        let target := c.target
        some { c with target := { target with arm := (armException target.arm irq junk).2 } }

/-- The beginning: no breakpoints, no exception, nothing sent. -/
def conversationStart (arm : ArmCore) : Conversation where
  target := ⟨arm, ∅, 0⟩
  last := []
  sent := []
  shut := false

/-- An event of the session is one of the conversation.  What follows a lexeme in the scanner's
buffer is any. -/
inductive Carries : SessionEvent → ConversationEvent → Prop
  | request {l : Lexeme} {r : Request} {index : Byte} {data : List Byte} (hrule : l.rule = .packet)
      (htext : l.text = frame (index :: data)) (hr : r.Written index data) (rest : List Byte)
      (fuel : ℕ) (junk : ℕ → Word) :
      Carries (.lexeme l rest fuel junk) (.request r fuel junk)
  | kill {l : Lexeme} {data : List Byte} (hrule : l.rule = .packet)
      (htext : l.text = frame (chr 'k' :: data)) (rest : List Byte) (fuel : ℕ) (junk : ℕ → Word) :
      Carries (.lexeme l rest fuel junk) .kill
  | acknowledgement {l : Lexeme} (hrule : l.rule = .ack) (rest : List Byte) (fuel : ℕ)
      (junk : ℕ → Word) : Carries (.lexeme l rest fuel junk) .acknowledgement
  | retransmission {l : Lexeme} (hrule : l.rule = .retransmission) (rest : List Byte) (fuel : ℕ)
      (junk : ℕ → Word) : Carries (.lexeme l rest fuel junk) .retransmission
  | interrupt (irq : Byte) (junk : Word) : Carries (.interrupt irq junk) (.interrupt irq junk)

/-- The session is where the conversation is: the same has been sent, the target is what the session
holds, and no character waits. -/
structure Agrees (s : Session) (c : Conversation) : Prop where
  shut : s.shut = c.shut
  sent : s.sent = c.sent
  target : s.data.gdb.target = c.target
  sorted : s.data.gdb.breakpoints.Sorted
  last : ∃ d, Follows s.data d ∧ d.garbage = 0 ∧ d.lastFrame = c.last

/-- No request is a `k`. -/
theorem Request.Written.index_ne_kill {r : Request} {index : Byte} {data : List Byte}
    (h : r.Written index data) : index ≠ chr 'k' := by
  cases h with
  | otherBreakpoint hindex =>
      rcases hindex with rfl | rfl
      · decide
      · decide
  | unsupported hindex =>
      rintro rfl
      exact absurd ((gdbInit_kill 0 fun _ => 0).symm.trans (hindex 0 fun _ => 0))
        (Option.some_ne_none _)
  | _ => decide

/-- The analysis of a request hands its data to its handler. -/
theorem gdbPacketAnalysis_frame (handler : Byte → Option GdbHandler) (g : Gdb) (index : Byte)
    (data rest : List Byte) :
    ∃ more, gdbPacketAnalysis handler g (frame (index :: data) ++ 0 :: rest)
        (frame (index :: data)).length =
      handleRequest handler (gdbSendAck g) index (data ++ 0 :: more) := by
  obtain ⟨c, d, v, w, hbyte, hc, hd, hvalue⟩ := hexByte_digits (checksum (index :: data))
  refine ⟨c :: d :: 0 :: rest, ?_⟩
  rw [frame, hbyte, length_packetText,
    gdbPacketAnalysis_packetText handler g (List.cons_ne_nil index data) hc hd rest,
    if_pos hvalue.symm]
  rfl

theorem packetIndex_frame (index : Byte) (data : List Byte) :
    packetIndex (frame (index :: data)) = index := by
  obtain ⟨c, d, -, -, hbyte, -⟩ := hexByte_digits (checksum (index :: data))
  rw [frame, hbyte, packetIndex, packetBody_packetText, List.headD_cons]

/-- The packet of a request is one for the protocol. -/
theorem dialogueInput_frame {index : Byte} (hindex : index ≠ chr 'k') (data : List Byte) :
    dialogueInput (.packet, frame (index :: data)) = .request := by
  rw [dialogueInput, if_pos (packetChecks_frame _), packetIndex_frame, if_neg hindex]

section Steps

variable {s : Session} {c : Conversation} (h : Agrees s c)

include h

/-- No character waits. -/
theorem Agrees.handleError : ∃ buffer, handleError s.data = some ⟨s.data.gdb, buffer, 0⟩ := by
  obtain ⟨d, hfollows, hgarbage, -⟩ := h.last
  obtain ⟨buffer, herror⟩ := hfollows.handleError
  refine ⟨buffer, ?_⟩
  rw [herror, Dialogue.apology, if_pos hgarbage, stream, List.map_nil, List.flatten_nil,
    List.append_nil]

/-- What an action has sent ends the process here and there, or is sent here and there. -/
theorem Agrees.finish_cases {c' : Conversation} (hshut : c'.shut = c.shut) (kill : Bool)
    {data : ParserData} {bytes : List Byte} (hsent : data.gdb.sent = s.data.gdb.sent ++ bytes) :
    s.finish kill data = none ∧ c'.send bytes = none ∨
      s.finish kill data = some ⟨data, c.shut || kill⟩ ∧
        c'.send bytes = some { c' with sent := c'.sent ++ bytes } := by
  have hsame : data.gdb.sent ≠ s.sent ↔ bytes ≠ [] := by
    rw [hsent, Session.sent]
    exact not_congr List.append_right_eq_self
  rw [Session.finish, Conversation.send, h.shut, hshut, if_congr (and_congr_right' hsame) rfl rfl]
  split_ifs
  · exact Or.inl ⟨rfl, rfl⟩
  · exact Or.inr ⟨rfl, rfl⟩

/-- An action that has only to answer the characters sends nothing. -/
theorem Agrees.settled :
    ∃ t, (ArmSimulator.handleError s.data).bind (s.finish false) = some t ∧ Agrees t c := by
  obtain ⟨buffer, herror⟩ := h.handleError
  obtain ⟨d, hfollows, -, hlast⟩ := h.last
  refine ⟨⟨⟨s.data.gdb, buffer, 0⟩, s.shut⟩, ?_, h.shut, h.sent, h.target, h.sorted, d.settled,
    ⟨rfl, Nat.zero_le _, hfollows.last⟩, rfl, hlast⟩
  rw [herror, Option.bind_some, Session.finish, if_neg fun hsend => hsend.2 rfl, Bool.or_false]

theorem Agrees.acknowledgement {l : Lexeme} (hrule : l.rule = .ack) (rest : List Byte) (fuel : ℕ)
    (junk : ℕ → Word) :
    Option.Rel Agrees (session.step s (.lexeme l rest fuel junk))
      (conversation.step c .acknowledgement) := by
  have hkills : l.kills = false := decide_eq_false (by rw [hrule]; exact fun h => nomatch h.1)
  obtain ⟨t, hstep, hagrees⟩ := h.settled
  have haction : session.step s (.lexeme l rest fuel junk) =
      (ArmSimulator.handleError s.data).bind (s.finish false) := by
    show (scannerAction (gdbInit fuel junk) s.data l.text rest l.rule).bind _ = _
    rw [hrule, scannerAction, hkills]
  rw [haction, hstep]
  exact .some hagrees

theorem Agrees.retransmission {l : Lexeme} (hrule : l.rule = .retransmission) (rest : List Byte)
    (fuel : ℕ) (junk : ℕ → Word) :
    Option.Rel Agrees (session.step s (.lexeme l rest fuel junk))
      (conversation.step c .retransmission) := by
  have hkills : l.kills = false := decide_eq_false (by rw [hrule]; exact fun h => nomatch h.1)
  obtain ⟨buffer, herror⟩ := h.handleError
  obtain ⟨d, hfollows, -, hlast⟩ := h.last
  have hbytes : stream (d.last.toList.map .packet) = c.last := by
    have hrepeated := stream_repeated d
    rw [Dialogue.repeated] at hrepeated
    rw [hrepeated, hlast]
  have haction : session.step s (.lexeme l rest fuel junk) = s.finish l.kills
      ⟨{ s.data.gdb with sent := s.data.gdb.sent ++ c.last }, buffer, 0⟩ := by
    show (scannerAction (gdbInit fuel junk) s.data l.text rest l.rule).bind _ = _
    rw [hrule, scannerAction, herror, Option.bind_some, hfollows.last.gdbTransmitPacket, hbytes]
    rfl
  have hstep : conversation.step c .retransmission = c.send c.last := rfl
  rw [haction, hstep]
  rcases @Agrees.finish_cases s c h c rfl l.kills ⟨{ s.data.gdb with
    sent := s.data.gdb.sent ++ c.last }, buffer, 0⟩ c.last rfl with
    ⟨hnone, hnone'⟩ | ⟨hsome, hsome'⟩
  · rw [hnone, hnone']
    exact .none
  · rw [hsome, hsome', hkills, Bool.or_false]
    exact .some ⟨rfl, congrArg (· ++ c.last) h.sent, h.target, h.sorted, d.settled,
      ⟨rfl, Nat.zero_le _, hfollows.last.congr rfl rfl⟩, rfl, hlast⟩

theorem Agrees.interrupt (irq : Byte) (junk : Word) :
    Option.Rel Agrees (session.step s (.interrupt irq junk))
      (conversation.step c (.interrupt irq junk)) := by
  obtain ⟨d, hfollows, hgarbage, hlast⟩ := h.last
  have htarget := h.target
  refine .some ⟨h.shut, h.sent, ?_, h.sorted, d,
    ⟨hfollows.garbage, hfollows.garbage_le, hfollows.last.congr rfl rfl⟩, hgarbage, hlast⟩
  dsimp only
  rw [← htarget]
  rfl

/-- The action of a packet hands its data to its handler. -/
theorem Agrees.action_packet {index : Byte} {data : List Byte} {l : Lexeme}
    (hrule : l.rule = .packet) (htext : l.text = frame (index :: data)) (rest : List Byte)
    (fuel : ℕ) (junk : ℕ → Word) :
    ∃ buffer more, scannerAction (gdbInit fuel junk) s.data l.text rest l.rule =
      (handleRequest (gdbInit fuel junk) (gdbSendAck s.data.gdb) index (data ++ 0 :: more)).map
        fun g => ⟨g, buffer, 0⟩ := by
  obtain ⟨buffer, herror⟩ := h.handleError
  obtain ⟨more, hanalysis⟩ :=
    gdbPacketAnalysis_frame (gdbInit fuel junk) s.data.gdb index data rest
  refine ⟨buffer, more, ?_⟩
  rw [hrule, htext, scannerAction, herror, Option.bind_some, hanalysis]

theorem Agrees.request {r : Request} {index : Byte} {data : List Byte} (hr : r.Written index data)
    {l : Lexeme} (hrule : l.rule = .packet) (htext : l.text = frame (index :: data))
    (rest : List Byte) (fuel : ℕ) (junk : ℕ → Word) :
    Option.Rel Agrees (session.step s (.lexeme l rest fuel junk))
      (conversation.step c (.request r fuel junk)) := by
  have hinput : dialogueInput (l.rule, l.text) = .request := by
    rw [hrule, htext, dialogueInput_frame hr.index_ne_kill]
  have hkills : l.kills = false := l.kills_of_view (by rw [hinput]; decide)
  obtain ⟨d, hfollows, hgarbage, -⟩ := h.last
  obtain ⟨buffer, more, haction⟩ := h.action_packet hrule htext rest fuel junk
  have hperform := @perform_spec (gdbSendAck s.data.gdb) h.sorted r index data hr fuel junk more
  have htarget : (gdbSendAck s.data.gdb).target = c.target := h.target
  rw [htarget] at hperform
  show Option.Rel Agrees ((scannerAction (gdbInit fuel junk) s.data l.text rest l.rule).bind _)
    ((r.perform fuel junk c.target).bind _)
  rcases Machine.rel_cases hperform with ⟨hnone, hnone'⟩ | ⟨g', p, hg', hp, hperforms⟩
  · rw [haction, hnone, hnone']
    exact .none
  · have hrun : scannerAction (gdbInit fuel junk) s.data l.text rest l.rule =
        some ⟨g', buffer, 0⟩ := by rw [haction, hg', Option.map_some]
    have hsent : g'.sent = s.data.gdb.sent ++ chr '+' :: frame p.1 := by
      rw [hperforms.sent, gdbSendAck, List.append_assoc, List.singleton_append]
    -- what the protocol holds to be the last packet is the answer
    obtain ⟨ms, d', hreacts, hsent', hfollows', -⟩ := hfollows.scannerAction l hrun
    rw [hinput] at hreacts
    have hlast : d'.garbage = 0 ∧ d'.lastFrame = frame p.1 := by
      cases hreacts with
      | request body =>
          have hstream : stream (d.apology ++ [.ack, .packet body]) =
              chr '+' :: frame body.bytes := by
            rw [Dialogue.apology, if_pos hgarbage]
            exact congrArg (chr '+' :: ·) (List.append_nil _)
          have hsame := hsent'.symm.trans hsent
          rw [hstream] at hsame
          exact ⟨rfl, (List.cons.inj (List.append_cancel_left hsame)).2⟩
    rw [hrun, hp, Option.bind_some, Option.bind_some]
    rcases @Agrees.finish_cases s c h { c with target := p.2, last := frame p.1 } rfl l.kills
      ⟨g', buffer, 0⟩ _ hsent with ⟨hend, hend'⟩ | ⟨hend, hend'⟩
    · rw [hend, hend']
      exact .none
    · rw [hend, hend', hkills, Bool.or_false]
      exact .some ⟨rfl, hsent.trans (congrArg (· ++ chr '+' :: frame p.1) h.sent),
        hperforms.target.symm, hperforms.sorted, d', hfollows', hlast⟩

theorem Agrees.kill {data : List Byte} {l : Lexeme} (hrule : l.rule = .packet)
    (htext : l.text = frame (chr 'k' :: data)) (rest : List Byte) (fuel : ℕ) (junk : ℕ → Word) :
    Option.Rel Agrees (session.step s (.lexeme l rest fuel junk)) (conversation.step c .kill) := by
  have hkills : l.kills = true := by
    refine decide_eq_true ⟨hrule, ?_, ?_⟩
    · rw [htext, packetChecks_frame]
    · rw [htext, packetIndex_frame]
  obtain ⟨d, hfollows, -, hlast⟩ := h.last
  obtain ⟨buffer, more, haction⟩ := h.action_packet hrule htext rest fuel junk
  rw [handleRequest, gdbInit_kill] at haction
  have hrun : scannerAction (gdbInit fuel junk) s.data l.text rest l.rule =
      some ⟨gdbSendAck s.data.gdb, buffer, 0⟩ := haction
  show Option.Rel Agrees ((scannerAction (gdbInit fuel junk) s.data l.text rest l.rule).bind _)
    ((c.send [chr '+']).map fun c => { c with shut := true })
  rw [hrun, Option.bind_some]
  rcases @Agrees.finish_cases s c h c rfl l.kills ⟨gdbSendAck s.data.gdb, buffer, 0⟩ [chr '+'] rfl
    with ⟨hend, hend'⟩ | ⟨hend, hend'⟩
  · rw [hend, hend']
    exact .none
  · rw [hend, hend', hkills, Bool.or_true]
    exact .some ⟨rfl, congrArg (· ++ [chr '+']) h.sent, h.target, h.sorted, d.settled,
      ⟨rfl, Nat.zero_le _, hfollows.last.congr rfl rfl⟩, rfl, hlast⟩

end Steps

/-- **Step lemma.**  A session and a conversation that agree take a step to ones that agree, or fail
together. -/
theorem Agrees.step {s : Session} {c : Conversation} {e : SessionEvent} {i : ConversationEvent}
    (h : Agrees s c) (hcarries : Carries e i) :
    Option.Rel Agrees (session.step s e) (conversation.step c i) := by
  cases hcarries with
  | request hrule htext hr rest fuel junk => exact h.request hr hrule htext rest fuel junk
  | kill hrule htext rest fuel junk => exact h.kill hrule htext rest fuel junk
  | acknowledgement hrule rest fuel junk => exact h.acknowledgement hrule rest fuel junk
  | retransmission hrule rest fuel junk => exact h.retransmission hrule rest fuel junk
  | interrupt irq junk => exact h.interrupt irq junk

/-- The session begins as the conversation does. -/
theorem agrees_start (arm : ArmCore) (packet : Fin MAX_PACKET_SIZE → Byte)
    (contents : Fin MAX_BREAKPOINTS_NUMBER → Word) (buffer : Fin MAX_ERROR_SIZE → Byte) :
    Agrees (sessionStart arm packet contents buffer) (conversationStart arm) := by
  refine ⟨rfl, rfl, ?_, BreakpointTable.sorted_gdbInitBreakpoints contents, Dialogue.start,
    follows_start arm packet contents buffer, rfl, rfl⟩
  have hempty : (gdbInitBreakpoints contents).breakpointSet = ∅ :=
    Finset.card_eq_zero.mp (BreakpointTable.sorted_gdbInitBreakpoints contents).card
  exact congrArg (Target.mk arm · 0) hempty

/-- **The server is what the debugger sees.**  For all requests, requests to kill the process,
acknowledgements, requests for retransmission and interrupts in any order, however the requests are
written: the run of the session fails when the one of the conversation does, and if not it has sent
the same bytes, and its processor, its breakpoints and its code are the ones of the target. -/
theorem session_refines_conversation (arm : ArmCore) (packet : Fin MAX_PACKET_SIZE → Byte)
    (contents : Fin MAX_BREAKPOINTS_NUMBER → Word) (buffer : Fin MAX_ERROR_SIZE → Byte)
    {es : List SessionEvent} {is : List ConversationEvent} (hcarries : List.Forall₂ Carries es is) :
    Option.Rel (fun s c => s.sent = c.sent ∧ s.data.gdb.target = c.target)
      (session.run (sessionStart arm packet contents buffer) es)
      (conversation.run (conversationStart arm) is) := by
  have hstart := agrees_start arm packet contents buffer
  rcases Machine.rel_cases (Machine.run_bisim (fun h hc => Agrees.step h hc) hstart hcarries) with
    ⟨hnone, hnone'⟩ | ⟨s, c, hs, hc, hagrees⟩
  · rw [hnone, hnone']
    exact .none
  · rw [hs, hc]
    exact .some ⟨hagrees.sent, hagrees.target⟩

/-- A breakpoint at address 4, an interrupt, a query, a thread, the register 10, a step, and its
answer once more; then the end. -/
def conversationSample : List ConversationEvent :=
  [.request (.insertBreakpoint 4) 0 fun _ => 0, .acknowledgement, .interrupt 6 0,
    .request (.query (str "Supported")) 0 fun _ => 0,
    .request (.setThread (chr 'g') (-1)) 0 fun _ => 0,
    .request (.readRegister 10) 0 fun _ => 0, .request .step 0 fun _ => 0, .retransmission, .kill]

/-- The same as lexemes. -/
def lexemesSample : List SessionEvent :=
  [.lexeme breakpointLexeme [] 0 fun _ => 0,
    .lexeme ⟨.ack, str "+", by decide⟩ [] 0 fun _ => 0, .interrupt 6 0,
    .lexeme ⟨.packet, str "$qSupported#37", by decide⟩ [] 0 fun _ => 0,
    .lexeme ⟨.packet, str "$Hg-1#0d", by decide⟩ [] 0 fun _ => 0,
    .lexeme ⟨.packet, str "$pa#d1", by decide⟩ [] 0 fun _ => 0,
    .lexeme stepLexeme [] 0 fun _ => 0,
    .lexeme minusLexeme [] 0 fun _ => 0,
    .lexeme ⟨.packet, str "$k#6b", by decide⟩ [] 0 fun _ => 0]

theorem carries_sample : List.Forall₂ Carries lexemesSample conversationSample := by
  have hthread : Request.IsThread (str "-1") (-1) :=
    ⟨⟨true, str "1", rfl, ⟨by decide, by decide⟩, by decide⟩, by decide⟩
  have hinsert := @Request.Written.insertBreakpoint 4 (str "0") (str "4")
    (Request.isNumber_digitChar 0) (Request.isNumber_digitChar 4) (str "4")
  have hquery := @Request.Written.query (str "Supported") (by decide)
  refine .cons (.request rfl (by decide) hinsert ..) (.cons (.acknowledgement rfl ..)
    (.cons (.interrupt ..) (.cons (.request rfl (by decide) hquery ..) (.cons ?_ (.cons ?_
      (.cons ?_ (.cons (.retransmission rfl ..) (.cons ?_ .nil))))))))
  · exact .request rfl (by decide) (.setThread hthread) ..
  · exact .request rfl (by decide) (.readRegister (Request.isNumber_digitChar 10)) ..
  · exact .request rfl (by decide) (.step []) ..
  · exact @Carries.kill _ [] rfl (by decide) ..

/-- The conversation goes to its end, and so does the session. -/
theorem session_refines_conversation_sample :
    ∃ s c, session.run sessionSample lexemesSample = some s ∧
      conversation.run (conversationStart sessionSample.data.gdb.arm) conversationSample = some c ∧
      s.sent = c.sent ∧ s.data.gdb.target = c.target := by
  have hrun : (session.run sessionSample lexemesSample).isSome := by decide +kernel
  obtain ⟨s, hs⟩ := Option.isSome_iff_exists.mp hrun
  have hrefines := session_refines_conversation sessionSample.data.gdb.arm (fun _ => 0)
    (fun _ => 0) (fun _ => 0) carries_sample
  rcases Machine.rel_cases hrefines with ⟨hnone, -⟩ | ⟨t, c, ht, hc, hsent, htarget⟩
  · exact absurd (hs.symm.trans hnone) (Option.some_ne_none s)
  · exact ⟨t, c, ht, hc, hsent, htarget⟩

end ArmSimulator
