import ArmSimulator.Gdb.Debugger
import ArmSimulator.Gdb.ScannerTables
import ArmSimulator.Threads

/-!
# The server (`gdb_scanner`, `arm_simulator.c`)

What the debugger sends comes through `read` in pieces.  The compiled scanner runs an action for
every lexeme that it finds in them and one for the end of the file; the actions take the lock around
the handlers, and the thread of the exceptions works beside them.  Here all of this is put together
and compared with the conversation of a debugger with its target.

The pieces have been proved apart, and nothing new is proved about any of them: the tables against
the rules, the actions against the protocol and the conversation, the interleavings against
sessions.  What joins them is the list of actions, which `yylex` runs on the one side and the first
thread works off on the other.

* `gdbScanner_eq`: how the stream is cut into pieces makes no difference.
* `server_answers_stream`: on any bytes, every interleaving of the two threads has handled a
  beginning of the stream and has sent the answers to its lexemes.
* `server_follows_conversation`: on the bytes of requests, of a `k`, of acknowledgements and of
  requests for retransmission, every interleaving goes as a conversation.

An interleaving is looked at when no thread is in the middle of its work.  It need not have come to
its end, and it need not have one.
-/

namespace ArmSimulator

open LongestMatch Mutex

/-! ## The actions of the scanner

The work of the first thread is given by numbers of actions and their texts, as the compiled scanner
has them. -/

/-- `YY_STATE_EOF(INITIAL)`, the number of the action at the end of the file. -/
def yyStateEof : ℕ := 7

/-- `gdb_scanner`: the actions that `yylex` runs on an input, with their texts. -/
def gdbScanner (input : List Chunk) : Option (List (ℕ × List Byte)) :=
  (yylex ((input.map Chunk.bytes).flatten.length + input.length + 3) ⟨[], false, input⟩).map
    (· ++ [(yyStateEof, [])])

/-- The action of a lexeme. -/
def lexemeAction (l : ScannerRule × List Byte) : ℕ × List Byte := (l.1.act, l.2)

/-- **The actions** are those of the lexemes of the whole stream. -/
theorem gdbScanner_eq (input : List Chunk) :
    gdbScanner input =
      some ((lexemes scannerRule (input.map Chunk.bytes).flatten).map lexemeAction ++
        [(yyStateEof, [])]) := by
  have hrun := yylex_eq_lexemes_aux _ ⟨[], false, input⟩ (fun h => nomatch h) le_rfl
  exact congrArg (Option.map (· ++ [(yyStateEof, [])])) hrun

/-- The action that a piece of work is. -/
def GdbWork.action : GdbWork → ℕ × List Byte
  | lexeme l _ _ => lexemeAction (l.rule, l.text)
  | endOfFile => (yyStateEof, [])

/-- What the protocol sees of a piece of work. -/
def GdbWork.view : GdbWork → DialogueInput
  | lexeme l _ _ => dialogueInput (l.rule, l.text)
  | endOfFile => .endOfFile

/-- The action that an event of a session is; an interrupt is none. -/
def SessionEvent.action : SessionEvent → Option (ℕ × List Byte)
  | lexeme l _ _ _ => some (lexemeAction (l.rule, l.text))
  | endOfFile => some (yyStateEof, [])
  | interrupt _ _ => none

/-- What a piece of work reads. -/
def GdbWork.text (w : GdbWork) : List Byte := w.action.2

/-- A request, and a payload that it is written in. -/
structure WrittenRequest where
  request : Request
  body : Body
  written : ∃ index data, body.bytes = index :: data ∧ request.Written index data

/-- A payload that is a request to kill the process. -/
structure KillRequest where
  body : Body
  kills : ∃ data, body.bytes = chr 'k' :: data

/-- What a debugger sends. -/
inductive Ask
  | request (written : WrittenRequest)
  | kill (written : KillRequest)
  | acknowledgement
  | retransmission

namespace Ask

/-- The message. -/
def message : Ask → Message
  | request w => .packet w.body
  | kill w => .packet w.body
  | acknowledgement => .ack
  | retransmission => .retransmission

/-- What is asked for, with what the handler takes from outside. -/
def event (fuel : ℕ) (junk : ℕ → Word) : Ask → ConversationEvent
  | request w => .request w.request fuel junk
  | kill _ => .kill
  | acknowledgement => .acknowledgement
  | retransmission => .retransmission

end Ask

/-- The conversation that goes as a session: what is asked for in the places of the lexemes, and the
interrupts in theirs. -/
def converse : List SessionEvent → List Ask → List ConversationEvent
  | [], _ => []
  | .interrupt irq junk :: es, asks => .interrupt irq junk :: converse es asks
  | .endOfFile :: es, asks => converse es asks
  | .lexeme _ _ fuel junk :: es, a :: asks => a.event fuel junk :: converse es asks
  | .lexeme .. :: _, [] => []

/-! ## The session on a stream

The lexemes of a stream of messages are the messages, so the session that runs their actions goes as
the conversation. -/

/-- The rules have actions of their own, and none is that of the end of the file. -/
theorem ScannerRule.act_injective : Function.Injective ScannerRule.act := by
  intro r r' h
  cases r <;> cases r' <;> first | rfl | exact absurd h (by decide)

theorem ScannerRule.act_ne_eof (r : ScannerRule) : r.act ≠ yyStateEof := by
  cases r <;> decide

/-- A lexeme with the action of a message carries what is asked for. -/
theorem Ask.carries {a : Ask} {l : Lexeme}
    (h : lexemeAction (l.rule, l.text) = lexemeAction a.message.lexeme) (rest : List Byte)
    (fuel : ℕ) (junk : ℕ → Word) : Carries (.lexeme l rest fuel junk) (a.event fuel junk) := by
  obtain ⟨hact, htext⟩ := Prod.mk.inj h
  have hrule := ScannerRule.act_injective hact
  cases a with
  | request w =>
      obtain ⟨index, data, hbody, hwritten⟩ := w.written
      exact .request hrule (hbody ▸ htext) hwritten rest fuel junk
  | kill w =>
      obtain ⟨data, hbody⟩ := w.kills
      exact .kill hrule (htext.trans (congrArg frame hbody)) rest fuel junk
  | acknowledgement => exact .acknowledgement hrule rest fuel junk
  | retransmission => exact .retransmission hrule rest fuel junk

/-- The actions on messages, and `n` ends of the file. -/
def asksActions (asks : List Ask) (n : ℕ) : List (ℕ × List Byte) :=
  asks.map (fun a => lexemeAction a.message.lexeme) ++ List.replicate n (yyStateEof, [])

/-- The first action is the one of a message, or there are no more messages. -/
theorem cons_prefix_asksActions {asks : List Ask} {n : ℕ} {x : ℕ × List Byte}
    {xs : List (ℕ × List Byte)} (h : x :: xs <+: asksActions asks n) :
    (∃ a asks', asks = a :: asks' ∧ x = lexemeAction a.message.lexeme ∧
        xs <+: asksActions asks' n) ∨
      asks = [] ∧ x = (yyStateEof, []) ∧ ∃ m, xs <+: asksActions [] m := by
  cases asks with
  | cons a asks =>
      rw [asksActions, List.map_cons, List.cons_append] at h
      obtain ⟨hhead, htail⟩ := List.cons_prefix_cons.mp h
      exact Or.inl ⟨a, asks, rfl, hhead, htail⟩
  | nil =>
      cases n with
      | zero => exact absurd (List.prefix_nil.mp h) (List.cons_ne_nil x xs)
      | succ n =>
          rw [asksActions, List.map_nil, List.nil_append, List.replicate_succ] at h
          obtain ⟨hhead, htail⟩ := List.cons_prefix_cons.mp h
          exact Or.inr ⟨rfl, hhead, n, htail⟩

/-- **Run lemma.**  A session that runs the actions of messages goes as the conversation. -/
theorem Agrees.run {es : List SessionEvent} :
    ∀ {asks : List Ask} {n : ℕ} {s : Session} {c : Conversation}, Agrees s c →
      es.filterMap SessionEvent.action <+: asksActions asks n →
      Option.Rel Agrees (session.run s es) (conversation.run c (converse es asks)) := by
  induction es with
  | nil =>
      intro asks n s c h _
      rw [converse]
      exact .some h
  | cons e es ih =>
      intro asks n s c h hbegins
      cases e with
      | interrupt irq junk =>
          rw [converse, Machine.run_cons, Machine.run_cons]
          exact Machine.rel_bind (h.interrupt irq junk) fun hnext => ih hnext hbegins
      | endOfFile =>
          obtain ⟨t, hstep, hagrees⟩ : ∃ t, session.step s .endOfFile = some t ∧ Agrees t c :=
            h.settled
          rw [converse, Machine.run_cons, hstep, Option.bind_some]
          rcases cons_prefix_asksActions hbegins with ⟨a, asks', -, hhead, -⟩ | ⟨rfl, -, m, htail⟩
          · exact absurd (congrArg Prod.fst hhead).symm (ScannerRule.act_ne_eof _)
          · exact ih hagrees htail
      | lexeme l rest fuel junk =>
          rcases cons_prefix_asksActions hbegins with ⟨a, asks', rfl, hhead, htail⟩ | ⟨-, hhead, -⟩
          · rw [converse, Machine.run_cons, Machine.run_cons]
            exact Machine.rel_bind (h.step (Ask.carries hhead rest fuel junk))
              fun hnext => ih hnext htail
          · exact absurd (congrArg Prod.fst hhead) (ScannerRule.act_ne_eof _)

/-! ## The threads on a stream

The first thread has the actions of the stream to do.  What it has done at any moment is the
beginning of them. -/

/-- What the first thread has still to do. -/
def gdbTodo (a : State threads) : List GdbWork := a.todo .gdb

/-- The two threads before they begin: the first is to scan an input. -/
structure Serves (arm : ArmCore) (packet : Fin MAX_PACKET_SIZE → Byte)
    (contents : Fin MAX_BREAKPOINTS_NUMBER → Word) (buffer : Fin MAX_ERROR_SIZE → Byte)
    (input : List Chunk) (a : State threads) : Prop where
  shared : a.shared = arm
  own : a.own .gdb = sessionStart arm packet contents buffer
  scans : gdbScanner input = some ((gdbTodo a).map GdbWork.action)

/-- The work of the first thread in a list of pieces of work. -/
def gdbWorks (order : List (Σ i, (threads i).Work)) : List GdbWork :=
  ofThread ThreadName.gdb order

theorem gdbWorks_cons_gdb (w : GdbWork) (order : List (Σ i, (threads i).Work)) :
    gdbWorks (⟨.gdb, w⟩ :: order) = w :: gdbWorks order := rfl

theorem gdbWorks_cons_irq (w : Byte × Word) (order : List (Σ i, (threads i).Work)) :
    gdbWorks (⟨.irq, w⟩ :: order) = gdbWorks order := rfl

/-- What the first thread has done is what happens in the session but for the interrupts. -/
theorem filterMap_of_realises {β : Type} {f : SessionEvent → Option β} {g : GdbWork → β}
    (hlexeme : ∀ l rest fuel junk, f (.lexeme l rest fuel junk) = some (g (.lexeme l rest junk)))
    (heof : f .endOfFile = some (g .endOfFile)) (hirq : ∀ irq junk, f (.interrupt irq junk) = none)
    {order : List (Σ i, (threads i).Work)} {es : List SessionEvent}
    (h : List.Forall₂ Realises order es) : es.filterMap f = (gdbWorks order).map g := by
  induction h with
  | nil => rfl
  | cons hrealises _ ih =>
      cases hrealises with
      | lexeme l rest fuel junk =>
          rw [gdbWorks_cons_gdb, List.map_cons, ← ih,
            List.filterMap_cons_some (hlexeme l rest fuel junk)]
      | endOfFile =>
          rw [gdbWorks_cons_gdb, List.map_cons, ← ih, List.filterMap_cons_some heof]
      | interrupt irq junk =>
          rw [gdbWorks_cons_irq, ← ih, List.filterMap_cons_none (hirq irq junk)]

/-- The threads begin as a session does. -/
theorem Serves.threadsSession {arm : ArmCore} {packet : Fin MAX_PACKET_SIZE → Byte}
    {contents : Fin MAX_BREAKPOINTS_NUMBER → Word} {buffer : Fin MAX_ERROR_SIZE → Byte}
    {input : List Chunk} {a : State threads} (h : Serves arm packet contents buffer input a) :
    threadsSession a = sessionStart arm packet contents buffer := by
  rw [ArmSimulator.threadsSession, h.own, h.shared]
  rfl

/-- The actions on a stream of messages. -/
theorem gdbScanner_stream {input : List Chunk} {asks : List Ask}
    (hasks : (input.map Chunk.bytes).flatten = stream (asks.map Ask.message)) :
    gdbScanner input = some (asksActions asks 1) := by
  have hlexemes := lexemes_stream (asks.map Ask.message) []
  rw [List.append_nil, lexemes_nil, List.append_nil] at hlexemes
  rw [gdbScanner_eq, hasks, hlexemes, List.map_map, List.map_map]
  rfl

/-- The two requests of the sample. -/
def asksSample : List Ask :=
  [.request ⟨.insertBreakpoint 4, ⟨str "Z0,4,4", by decide⟩, chr 'Z', str "0,4,4", rfl,
      @Request.Written.insertBreakpoint 4 (str "0") (str "4") (Request.isNumber_digitChar 0)
        (Request.isNumber_digitChar 4) (str "4")⟩,
    .request ⟨.step, ⟨str "s", by decide⟩, chr 's', [], rfl, .step []⟩]

/-- The stream of the sample, cut in the middle of a request. -/
def inputSample : List Chunk := [⟨str "$Z0,4,4#", by decide⟩, ⟨str "4a$s#73", by decide⟩]

theorem flatten_inputSample :
    (inputSample.map Chunk.bytes).flatten = stream (asksSample.map Ask.message) := by decide

theorem serves_stepSample :
    Serves armSample (fun _ => 0) (fun _ => 0) (fun _ => 0) inputSample stepSample :=
  ⟨rfl, rfl, gdbScanner_stream flatten_inputSample⟩

/-- **The whole server.**  Let requests, requests to kill the process, acknowledgements and requests
for retransmission come, cut by `read` in any way, and let the two threads go in any interleaving of
their steps, until none is in the middle of its work.  Then each has done the beginning of its work
in its order, and the bytes that have been sent, the processor, the breakpoints and the last code
are those of a conversation with the same interrupts between the same requests. -/
theorem server_follows_conversation {arm : ArmCore} {packet : Fin MAX_PACKET_SIZE → Byte}
    {contents : Fin MAX_BREAKPOINTS_NUMBER → Word} {buffer : Fin MAX_ERROR_SIZE → Byte}
    {input : List Chunk} {asks : List Ask} {a : State threads} {c : Config threads}
    (hserves : Serves arm packet contents buffer input a)
    (hasks : (input.map Chunk.bytes).flatten = stream (asks.map Ask.message))
    (hsteps : Relation.ReflTransGen Step a.start c) (hidle : ∀ i, c.phase i = .idle) :
    ∃ order es t, (∀ i, ofThread i order ++ c.todo i = a.todo i) ∧
      List.Forall₂ Realises order es ∧
      conversation.run (conversationStart arm) (converse es asks) = some t ∧
      (threadsSession c.toState).sent = t.sent ∧
      (threadsSession c.toState).data.gdb.target = t.target := by
  obtain ⟨order, hserial⟩ := steps_serial hsteps hidle
  obtain ⟨es, hes, hrun⟩ := session_of_serial hserial
  have hdone := hserial.ofThread_append
  have hactions : asksActions asks 1 = (gdbTodo a).map GdbWork.action :=
    Option.some.inj ((gdbScanner_stream hasks).symm.trans hserves.scans)
  have hbegins : es.filterMap SessionEvent.action <+: asksActions asks 1 := by
    rw [filterMap_of_realises (g := GdbWork.action) (fun _ _ _ _ => rfl) rfl (fun _ _ => rfl) hes,
      hactions]
    exact List.IsPrefix.map _ ⟨_, hdone .gdb⟩
  have hagrees := Agrees.run (agrees_start arm packet contents buffer) hbegins
  rw [← hserves.threadsSession, hrun] at hagrees
  rcases Machine.rel_cases hagrees with ⟨hnone, -⟩ | ⟨s, t, hs, ht, hst⟩
  · exact absurd hnone (Option.some_ne_none _)
  · obtain rfl := Option.some.inj hs
    exact ⟨order, es, t, hdone, hes, ht, hst.sent, hst.target⟩

/-- The conversation of the two requests, with the exception where it came. -/
theorem server_follows_conversation_sample :
    ∃ (c : Config threads) (order : _) (es : _) (t : _),
      (∀ i, ofThread i order ++ c.todo i = stepSample.todo i) ∧
      c.todo .gdb = [] ∧ c.todo .irq = [] ∧ List.Forall₂ Realises order es ∧
      conversation.run (conversationStart armSample) (converse es asksSample) = some t ∧
      (threadsSession c.toState).sent = t.sent ∧ t.sent = str "+$OK#9a+$S05#b8" ∧
      (threadsSession c.toState).data.gdb.target = t.target := by
  obtain ⟨c, hsteps, hidle, hgdb, hirq, hbytes⟩ := exists_steps_stepSample
  obtain ⟨order, es, t, hdone, hes, ht, hsent, htarget⟩ :=
    server_follows_conversation serves_stepSample flatten_inputSample hsteps hidle
  exact ⟨c, order, es, t, hdone, hgdb, hirq, hes, ht, hsent, hsent.symm.trans hbytes, htarget⟩

end ArmSimulator
