import ArmSimulator.Gdb.Scanner

/-!
# The generated scanner (`scanner.c`)

flex has made an automaton of the rules, in tables in which a state that lacks an entry for a class
of characters is looked up in another, and the function `yylex` that runs it over a buffer.  Two
NULs end the buffer; they, and a NUL of the text, lead to the state 3, and only then is it found out
which of the two has been read, and the buffer is filled by what `read` returns next.

The rules are the specification and this is the program: the tables entry by entry, the jumps of
`yylex` between its labels, and the buffer with what is still to be read behind it.

The model keeps of the buffer the characters from `yytext_ptr` up to `yy_n_chars`; `yy_cp` counts
from there.  The two fields for the last accepting state are `none` at the start of a lexeme and of
a new scan of it, so that one that is left over would be a failure.  The buffer grows as it has to.

The proof has three layers.

* The tables.  `recognises_yyAutomaton` says that they accept what the rules match, and by the same
  rule.  What is evaluated are facts about ten states and eight classes; a text of any length is
  then an induction.
* The matching loop.  `Scanned` is its invariant: the automaton is in the state after the characters
  before `yy_cp`, and the longest match among them is remembered.  From it, backing up finds the
  action of the longest match.
* The buffer.  The text is what is in the buffer and what is still to be read.  A NUL has four
  causes, one lemma each: a character of the text, where the automaton goes on or cannot, the end of
  the buffer with more to read, and the end of the file.

`yylex_eq_lexemes` puts them together: wherever `read` cuts the text, `yylex` finds its lexemes.
-/

namespace ArmSimulator

open LongestMatch

/-! ## The tables

The names, and the entries, are those of `scanner.c`.  Indices out of a table are failures. -/

def yyAccept : List ℕ := [0, 0, 0, 6, 4, 5, 4, 1, 2, 0, 0, 0, 3, 0]

/-- The class of a character; the table is `yy_ec`. -/
def yyEc : List ℕ :=
  [0,
    1, 1, 1, 1, 1, 1, 1, 1, 1, 2,
    1, 1, 1, 1, 1, 1, 1, 1, 1, 1,
    1, 1, 1, 1, 1, 1, 1, 1, 1, 1,
    1, 1, 1, 1, 3, 4, 1, 1, 1, 1,
    1, 1, 5, 1, 6, 1, 1, 7, 7, 7,
    7, 7, 7, 7, 7, 7, 7, 1, 1, 1,
    1, 1, 1, 1, 7, 7, 7, 7, 7, 7,
    1, 1, 1, 1, 1, 1, 1, 1, 1, 1,
    1, 1, 1, 1, 1, 1, 1, 1, 1, 1,
    1, 1, 1, 1, 1, 1, 7, 7, 7, 7,
    7, 7, 1, 1, 1, 1, 1, 1, 1, 1,
    1, 1, 1, 1, 1, 1, 1, 1, 1, 1,
    1, 1, 1, 1, 1, 1, 1, 1, 1, 1,
    1, 1, 1, 1, 1, 1, 1, 1, 1, 1,
    1, 1, 1, 1, 1, 1, 1, 1, 1, 1,
    1, 1, 1, 1, 1, 1, 1, 1, 1, 1,
    1, 1, 1, 1, 1, 1, 1, 1, 1, 1,
    1, 1, 1, 1, 1, 1, 1, 1, 1, 1,
    1, 1, 1, 1, 1, 1, 1, 1, 1, 1,
    1, 1, 1, 1, 1, 1, 1, 1, 1, 1,
    1, 1, 1, 1, 1, 1, 1, 1, 1, 1,
    1, 1, 1, 1, 1, 1, 1, 1, 1, 1,
    1, 1, 1, 1, 1, 1, 1, 1, 1, 1,
    1, 1, 1, 1, 1, 1, 1, 1, 1, 1,
    1, 1, 1, 1, 1, 1, 1, 1, 1, 1,
    1, 1, 1, 1, 1]

def yyMeta : List ℕ := [0, 1, 1, 1, 2, 1, 1, 1]

def yyBase : List ℕ := [0, 0, 0, 13, 14, 14, 9, 14, 14, 8, 3, 2, 14, 14, 7]

def yyDef : List ℕ := [0, 13, 1, 13, 13, 13, 14, 13, 13, 14, 13, 13, 13, 0, 13]

def yyNxt : List ℕ :=
  [0, 4, 5, 4, 6, 7, 8, 4, 9, 12, 11, 10, 10, 13, 3, 13, 13, 13, 13, 13, 13, 13]

def yyChk : List ℕ :=
  [0, 1, 1, 1, 1, 1, 1, 1, 14, 11, 10, 9, 6, 3, 13, 13, 13, 13, 13, 13, 13, 13]

/-! ## The function

`yylex` is one function with labels.  A jump is a step of `yyRun`, and the point carries the local
variables that the labels share. -/

/-- The loop that looks for a state with an entry, at most `fuel` times round. -/
def yyChain : ℕ → ℕ → ℕ → Option (ℕ × ℕ)
  | 0, _, _ => none
  | fuel + 1, state, c =>
      (yyBase[state]?).bind fun base => (yyChk[base + c]?).bind fun check =>
        if check = state then some (state, c)
        else
          (yyDef[state]?).bind fun state =>
            if 14 ≤ state then (yyMeta[c]?).bind (yyChain fuel state) else yyChain fuel state c

/-- The state that follows a state for a class. -/
def yyNext (state c : ℕ) : Option ℕ :=
  (yyChain yyDef.length state c).bind fun r => (yyBase[r.1]?).bind fun base => yyNxt[base + r.2]?

/-- `yy_current_state`, `yy_cp`, and the last accepting state with its `yy_cp`. -/
structure YyPoint where
  state : ℕ
  cp : ℕ
  last : Option (ℕ × ℕ)

/-- An accepting state is remembered. -/
def yyRemember (p : YyPoint) : Option YyPoint :=
  (yyAccept[p.state]?).map fun act =>
    if act ≠ 0 then { p with last := some (p.state, p.cp) } else p

/-- A transition. -/
def yyStep (p : YyPoint) (c : ℕ) : Option YyPoint :=
  (yyRemember p).bind fun p =>
    (yyNext p.state c).map fun state => { p with state := state, cp := p.cp + 1 }

/-- The loop at `yy_match`, at most `fuel` times round.  It ends in a state with the base 14, from
which there is no way on. -/
def yyMatch (buffer : List Byte) : ℕ → YyPoint → Option YyPoint
  | 0, _ => none
  | fuel + 1, p =>
      ((buffer ++ [0, 0])[p.cp]?).bind fun char => (yyEc[char.toNat]?).bind fun c =>
        (yyStep p c).bind fun p => (yyBase[p.state]?).bind fun base =>
          if base ≠ 14 then yyMatch buffer fuel p else some p

/-- The code at `yy_find_action`: the action, and where its text ends. -/
def yyFindAction (p : YyPoint) : Option (ℕ × YyPoint) :=
  (yyAccept[p.state]?).bind fun act =>
    if act = 0 then
      p.last.bind fun last => (yyAccept[last.1]?).map fun act =>
        (act, { p with state := last.1, cp := last.2 })
    else some (act, p)

/-- `yy_get_previous_state`, on the first `count` characters. -/
def yyGetPreviousState (buffer : List Byte) (count : ℕ) : Option YyPoint :=
  (buffer.take count).foldlM
    (fun p char => (if char ≠ 0 then yyEc[char.toNat]? else some 1).bind (yyStep p)) ⟨1, 0, none⟩

/-- What `read` returns before the end of the file. -/
structure Chunk where
  bytes : List Byte
  ne_nil : bytes ≠ []

/-- The buffer, whether its status is `YY_BUFFER_EOF_PENDING`, and what is still to be read. -/
structure Yyguts where
  buffer : List Byte
  eofPending : Bool
  input : List Chunk

/-- What `yy_get_next_buffer` returns. -/
inductive EobAct
  | endOfFile
  | continueScan
  | lastMatch

/-- `yy_get_next_buffer`, with `number_to_move`: the characters of the lexeme are moved to the
front, and behind them comes what `read` returns. -/
def yyGetNextBuffer (g : Yyguts) (numberToMove : ℕ) : EobAct × Yyguts :=
  match (if g.eofPending then [] else g.input) with
  | chunk :: input =>
      (.continueScan, { g with
        buffer := g.buffer.take numberToMove ++ chunk.bytes
        input := input })
  | [] =>
      if numberToMove = 0 then (.endOfFile, g)
      else (.lastMatch, { g with buffer := g.buffer.take numberToMove, eofPending := true })

/-- The labels of `yylex` that its actions go to. -/
inductive YyLabel
  | yyMatch
  | yyFindAction

/-- From a label to the action of a rule, with its number and the length of its text, or to the end
of the file, which is `none`; at most `fuel` jumps. -/
def yyRun : ℕ → YyLabel → Yyguts → YyPoint → Option (Option (ℕ × ℕ) × Yyguts)
  | 0, _, _, _ => none
  | fuel + 1, label, g, p => do
      let p ← match label with
        | .yyMatch => yyMatch g.buffer (g.buffer.length + 3) p
        | .yyFindAction => some p
      let (act, p) ← yyFindAction p
      if act ≠ 6 then some (some (act, p.cp), g)
      else
        let amount := p.cp - 1
        if p.cp ≤ g.buffer.length then
          -- this was really a NUL: `yy_try_NUL_trans`
          let previous ← yyGetPreviousState g.buffer amount
          let next ← yyStep previous 1
          if next.state ≠ 13 then yyRun fuel .yyMatch g next
          else yyRun fuel .yyFindAction g { previous with last := next.last }
        else
          match yyGetNextBuffer g amount with
          | (.endOfFile, g) => some (none, g)
          | (.continueScan, g) =>
              let previous ← yyGetPreviousState g.buffer amount
              yyRun fuel .yyMatch g previous
          | (.lastMatch, g) =>
              let previous ← yyGetPreviousState g.buffer g.buffer.length
              yyRun fuel .yyFindAction g previous

/-- `yylex`: the actions that it runs, with their texts; at most `fuel` of them. -/
def yylex : ℕ → Yyguts → Option (List (ℕ × List Byte))
  | 0, _ => none
  | fuel + 1, g =>
      (yyRun fuel .yyMatch g ⟨1, 0, none⟩).bind fun r =>
        match r.1 with
        | none => some []
        | some (act, length) =>
            (yylex fuel { r.2 with buffer := r.2.buffer.drop length }).map
              ((act, r.2.buffer.take length) :: ·)

/-! ## The automaton

The tables without the buffer, on the texts of the rules. -/

/-- The class of a character of the text. -/
def yyClass (c : Byte) : ℕ := if c = 0 then 1 else yyEc.getD c.toNat 0

/-- The number of a rule's action. -/
def ScannerRule.act : ScannerRule → ℕ
  | ack => 1
  | retransmission => 2
  | packet => 3
  | error => 4
  | echo => 5

/-- The rule of an action. -/
def ruleOfAct : ℕ → Option ScannerRule
  | 1 => some .ack
  | 2 => some .retransmission
  | 3 => some .packet
  | 4 => some .error
  | 5 => some .echo
  | _ => none

/-- The tables as an automaton; 13 is the state of no way on. -/
def yyAutomaton : Automaton ℕ Byte ScannerRule where
  start := 1
  step s c := (yyNext s (yyClass c)).bind fun t => if t = 13 then none else some t
  accept s := (yyAccept[s]?).bind ruleOfAct

/-- The states of the automaton. -/
def yyStates : List ℕ := [1, 4, 5, 6, 7, 8, 9, 10, 11, 12]

/-! ### What the tables say

Facts about all states and classes, by evaluation.  None of them is about a text. -/

/-- A NUL of the buffer leads to the state 3. -/
theorem yyNext_nul : ∀ s ∈ yyStates, yyNext s 0 = some 3 := by decide

/-- The state 3 has no way on. -/
theorem yyNext_three : ∀ c < 8, yyNext 3 c = some 13 := by decide

/-- The other classes lead to a state, or to no way on. -/
theorem yyNext_states : ∀ s ∈ yyStates, ∀ c < 8, 0 < c →
    yyNext s c = some 13 ∨ ∃ t ∈ yyStates, yyNext s c = some t := by decide

/-- A state with the base 14 accepts and has no way on, and the others have one. -/
theorem yyBase_states : ∀ s ∈ yyStates, ∃ base, yyBase[s]? = some base ∧
    (base = 14 → (yyAutomaton.accept s).isSome ∧ ∀ c < 8, 0 < c → yyNext s c = some 13) := by
  decide

/-- The action of a state. -/
theorem yyAccept_states : ∀ s ∈ yyStates,
    yyAccept[s]? = some (((yyAutomaton.accept s).map ScannerRule.act).getD 0) := by decide

/-- The classes of the characters. -/
theorem yyEc_class (c : Byte) : (c ≠ 0 → yyEc[c.toNat]? = some (yyClass c)) ∧
    0 < yyClass c ∧ yyClass c < 8 := by
  have hclasses : ∀ c : Byte, (c ≠ 0 → yyEc[c.toNat]? = some (yyClass c)) ∧
      0 < yyClass c ∧ yyClass c < 8 := forall_byte (by decide +kernel)
  exact hclasses c

/-- What the classes mean. -/
theorem yyClass_iff (c : Byte) : (yyClass c = 2 ↔ c = chr '\n') ∧ (yyClass c = 3 ↔ c = chr '#') ∧
    (yyClass c = 4 ↔ c = chr '$') ∧ (yyClass c = 5 ↔ c = chr '+') ∧
    (yyClass c = 6 ↔ c = chr '-') ∧ (yyClass c = 7 ↔ (hexDigit c).isSome) := by
  have hclasses : ∀ c : Byte, (yyClass c = 2 ↔ c = chr '\n') ∧ (yyClass c = 3 ↔ c = chr '#') ∧
      (yyClass c = 4 ↔ c = chr '$') ∧ (yyClass c = 5 ↔ c = chr '+') ∧
      (yyClass c = 6 ↔ c = chr '-') ∧ (yyClass c = 7 ↔ (hexDigit c).isSome) :=
    forall_byte (by decide +kernel)
  exact hclasses c

/-! ### The automaton accepts what the rules match

From the last states to the first: what is accepted from the state after one digit, after `#`, in a
body, and after `$`. -/

/-- What the automaton accepts from a state. -/
def yyAccepts (s : ℕ) (text : List Byte) : Option ScannerRule :=
  (yyAutomaton.run s text).bind yyAutomaton.accept

theorem yyAccepts_cons (s : ℕ) (c : Byte) (text : List Byte) :
    yyAccepts s (c :: text) = (yyAutomaton.step s c).bind fun t => yyAccepts t text := by
  rw [yyAccepts, Automaton.run, Option.bind_assoc]
  rfl

/-- The steps of the automaton, by classes. -/
theorem yyAutomaton_step (c : Byte) :
    (∀ s ∈ [4, 5, 7, 8, 12], yyAutomaton.step s c = none) ∧
    yyAutomaton.step 11 c = (if yyClass c = 7 then some 12 else none) ∧
    yyAutomaton.step 10 c = (if yyClass c = 7 then some 11 else none) ∧
    (∀ s ∈ [6, 9], yyAutomaton.step s c =
      if yyClass c = 3 then some 10 else if yyClass c = 4 then none else some 9) ∧
    yyAutomaton.step 1 c =
      (if yyClass c = 2 then some 5 else if yyClass c = 4 then some 6
        else if yyClass c = 5 then some 7 else if yyClass c = 6 then some 8 else some 4) := by
  have hsteps : ∀ k < 8, 0 < k →
      (∀ s ∈ [4, 5, 7, 8, 12], yyNext s k = some 13) ∧
      yyNext 11 k = (if k = 7 then some 12 else some 13) ∧
      yyNext 10 k = (if k = 7 then some 11 else some 13) ∧
      (∀ s ∈ [6, 9], yyNext s k =
        if k = 3 then some 10 else if k = 4 then some 13 else some 9) ∧
      yyNext 1 k = (if k = 2 then some 5 else if k = 4 then some 6
        else if k = 5 then some 7 else if k = 6 then some 8 else some 4) := by decide
  obtain ⟨hpos, hlt⟩ := (yyEc_class c).2
  obtain ⟨hlast, heleven, hten, hbody, hone⟩ := hsteps _ hlt hpos
  unfold yyAutomaton
  dsimp only
  refine ⟨fun s hs => ?_, ?_, ?_, fun s hs => ?_, ?_⟩
  · rw [hlast s hs]
    rfl
  · rw [heleven]
    split_ifs <;> rfl
  · rw [hten]
    split_ifs <;> rfl
  · rw [hbody s hs]
    split_ifs <;> rfl
  · rw [hone]
    split_ifs <;> rfl

/-- From a state without a way on. -/
theorem yyAccepts_last {s : ℕ} (hs : s ∈ [4, 5, 7, 8, 12]) (text : List Byte) :
    yyAccepts s text = if text = [] then yyAutomaton.accept s else none := by
  cases text with
  | nil => rfl
  | cons c text =>
      rw [yyAccepts_cons, (yyAutomaton_step c).1 s hs, if_neg (List.cons_ne_nil c text)]
      rfl

/-- From the state after one digit. -/
theorem yyAccepts_eleven {c : Byte} (hc : (hexDigit c).isSome = true) (text : List Byte) :
    yyAccepts 11 text = if matchesDigits (c :: text) then some .packet else none := by
  cases text with
  | nil => rfl
  | cons d text =>
      rw [yyAccepts_cons, (yyAutomaton_step d).2.1]
      by_cases hd : (hexDigit d).isSome = true
      · rw [if_pos ((yyClass_iff d).2.2.2.2.2.mpr hd), Option.bind_some,
          yyAccepts_last (by decide)]
        cases text with
        | nil =>
            rw [if_pos rfl, matchesDigits, hc, hd]
            rfl
        | cons e text => rfl
      · rw [if_neg ((yyClass_iff d).2.2.2.2.2.not.mpr hd), Option.bind_none, if_neg]
        intro h
        obtain ⟨e, f, heq, -, hf⟩ := exists_of_matchesDigits h
        obtain ⟨rfl, -⟩ := List.cons.inj (List.cons.inj heq).2
        exact hd hf

/-- From the state after `#`. -/
theorem yyAccepts_ten (text : List Byte) :
    yyAccepts 10 text = if matchesDigits text then some .packet else none := by
  cases text with
  | nil => rfl
  | cons c text =>
      rw [yyAccepts_cons, (yyAutomaton_step c).2.2.1]
      by_cases hc : (hexDigit c).isSome = true
      · rw [if_pos ((yyClass_iff c).2.2.2.2.2.mpr hc), Option.bind_some, yyAccepts_eleven hc]
      · rw [if_neg ((yyClass_iff c).2.2.2.2.2.not.mpr hc), Option.bind_none, if_neg]
        intro h
        obtain ⟨e, f, heq, he, -⟩ := exists_of_matchesDigits h
        obtain ⟨rfl, -⟩ := List.cons.inj heq
        exact hc he

/-- From the state in a body. -/
theorem yyAccepts_nine (text : List Byte) :
    yyAccepts 9 text = if matchesBody text then some .packet else none := by
  induction text with
  | nil => rfl
  | cons c text ih =>
      have hstep := (yyAutomaton_step c).2.2.2.1 9 (by decide)
      rw [yyAccepts_cons, hstep, matchesBody]
      by_cases hhash : c = chr '#'
      · rw [if_pos ((yyClass_iff c).2.1.mpr hhash), if_pos hhash, Option.bind_some, yyAccepts_ten]
      · rw [if_neg ((yyClass_iff c).2.1.not.mpr hhash), if_neg hhash]
        by_cases hdollar : c = chr '$'
        · rw [if_pos ((yyClass_iff c).2.2.1.mpr hdollar), decide_eq_false (not_not.mpr hdollar)]
          rfl
        · rw [if_neg ((yyClass_iff c).2.2.1.not.mpr hdollar), Option.bind_some, ih,
            decide_eq_true hdollar, Bool.true_and]

/-- From the state after `$`, which accepts the `$` alone. -/
theorem yyAccepts_six {text : List Byte} (hne : text ≠ []) :
    yyAccepts 6 text = if matchesBody text then some .packet else none := by
  obtain ⟨c, text, rfl⟩ := List.exists_cons_of_ne_nil hne
  have hsame : yyAutomaton.step 6 c = yyAutomaton.step 9 c := by
    rw [(yyAutomaton_step c).2.2.2.1 6 (by decide), (yyAutomaton_step c).2.2.2.1 9 (by decide)]
  rw [← yyAccepts_nine, yyAccepts_cons, hsame, yyAccepts_cons]

/-- **The tables accept what the rules match**, and by the same rule.  A text is followed through
the states by its first characters; only in a body does it take an induction. -/
theorem recognises_yyAutomaton : yyAutomaton.Recognises scannerRule := by
  intro text hne
  obtain ⟨c, text, rfl⟩ := List.exists_cons_of_ne_nil hne
  show yyAccepts 1 (c :: text) = scannerRule (c :: text)
  cases text with
  | nil =>
      have hcharacters : ∀ c : Byte, yyAccepts 1 [c] = scannerRule [c] :=
        forall_byte (by decide +kernel)
      exact hcharacters c
  | cons d text =>
      have hlong : 2 ≤ (c :: d :: text).length := Nat.succ_le_succ (Nat.succ_pos _)
      rw [yyAccepts_cons]
      by_cases hdollar : c = chr '$'
      · subst hdollar
        have hstep : yyAutomaton.step 1 (chr '$') = some 6 := by decide
        rw [hstep, Option.bind_some, yyAccepts_six (List.cons_ne_nil d text)]
        have hpacket : matchesPacket (chr '$' :: d :: text) = matchesBody (d :: text) := by
          rw [matchesPacket, decide_eq_true rfl, Bool.true_and]
        rw [← hpacket]
        split_ifs with h
        · exact ((scannerRule_eq_packet_iff _).mpr ((matchesPacket_iff _).mp h)).symm
        · exact (scannerRule_of_long hlong fun h' => h ((matchesPacket_iff _).mpr h')).symm
      · have hnone : scannerRule (c :: d :: text) = none := by
          refine scannerRule_of_long hlong fun h => ?_
          obtain ⟨rest, heq, -⟩ := h.eq_cons
          exact hdollar (List.cons.inj heq).1
        have hdead : ∀ s ∈ [4, 5, 7, 8, 12], yyAccepts s (d :: text) = none := by
          intro s hs
          rw [yyAccepts_last hs, if_neg (List.cons_ne_nil d text)]
        rw [hnone, (yyAutomaton_step c).2.2.2.2, if_neg ((yyClass_iff c).2.2.1.not.mpr hdollar)]
        split_ifs
        all_goals exact hdead _ (by decide)

/-! ## One lexeme

From the start of a lexeme to its action, in a buffer that may end before the lexeme does. -/

/-- The longest match of at most `k` characters is remembered. -/
def Remembers (text : List Byte) (k : ℕ) (last : Option (ℕ × ℕ)) : Prop :=
  ∀ r n, longest scannerRule text k = some (r, n) →
    ∃ s, last = some (s, n) ∧ yyAccept[s]? = some r.act

/-- The automaton is in the state after the first `cp` characters, and the matches before are
remembered. -/
structure Scanned (text : List Byte) (p : YyPoint) : Prop where
  mem : p.state ∈ yyStates
  le : p.cp ≤ text.length
  run : yyAutomaton.run yyAutomaton.start (text.take p.cp) = some p.state
  last : Remembers text (p.cp - 1) p.last

section Lexeme

variable {text : List Byte}

theorem remembers_zero (last : Option (ℕ × ℕ)) : Remembers text 0 last :=
  fun _ _ h => nomatch h

/-- Before the first character. -/
theorem scanned_start (text : List Byte) : Scanned text ⟨1, 0, none⟩ :=
  ⟨by decide, Nat.zero_le _, rfl, remembers_zero none⟩

/-- The longest match at a point: the state accepts, or an earlier one. -/
theorem Scanned.longest_eq {p : YyPoint} (h : Scanned text p) (hpos : 0 < p.cp) :
    longest scannerRule text p.cp =
      ((yyAutomaton.accept p.state).map fun r => (r, p.cp)).or
        (longest scannerRule text (p.cp - 1)) := by
  obtain ⟨k, hk⟩ := Nat.exists_eq_add_one_of_ne_zero (Nat.ne_of_gt hpos)
  have hne : text ≠ [] := by
    rintro rfl
    exact absurd h.le (Nat.not_le_of_gt hpos)
  have hrun := h.run
  rw [hk] at hrun ⊢
  exact Automaton.longest_succ recognises_yyAutomaton hne hrun

/-- **The accepting state is remembered.**  A later one replaces it, so that what is remembered is
always the longest match so far. -/
theorem Scanned.remember {p : YyPoint} (h : Scanned text p) :
    ∃ last, yyRemember p = some { p with last := last } ∧ Remembers text p.cp last ∧
      (yyAutomaton.accept p.state = none → last = p.last) := by
  have haccept := yyAccept_states p.state h.mem
  rw [yyRemember, haccept, Option.map_some]
  cases hr : yyAutomaton.accept p.state with
  | none =>
      refine ⟨p.last, by rw [Option.map_none, Option.getD_none]; rfl, fun r n hn => ?_,
        fun _ => rfl⟩
      rcases Nat.eq_zero_or_pos p.cp with hzero | hpos
      · rw [hzero] at hn
        exact nomatch hn
      · rw [h.longest_eq hpos, hr, Option.map_none, Option.none_or] at hn
        exact h.last r n hn
  | some s =>
      have hact : s.act ≠ 0 := by cases s <;> decide
      refine ⟨some (p.state, p.cp), ?_, fun r n hn => ?_, fun h => nomatch h⟩
      · rw [Option.map_some, Option.getD_some, if_pos hact]
      · rcases Nat.eq_zero_or_pos p.cp with hzero | hpos
        · rw [hzero] at hn
          exact nomatch hn
        · rw [h.longest_eq hpos, hr, Option.map_some, Option.some_or] at hn
          obtain ⟨rfl, rfl⟩ := Prod.mk.inj (Option.some.inj hn)
          refine ⟨p.state, rfl, ?_⟩
          rw [haccept, hr]
          rfl

/-- A character of the text leads to a state, or there is no way on. -/
theorem Scanned.step {p : YyPoint} (h : Scanned text p) (hlt : p.cp < text.length) :
    ∃ t last, yyStep p (yyClass text[p.cp]) = some ⟨t, p.cp + 1, last⟩ ∧
      Remembers text p.cp last ∧ (yyAutomaton.accept p.state = none → last = p.last) ∧
      ((t = 13 ∧ yyAutomaton.step p.state text[p.cp] = none) ∨
        Scanned text ⟨t, p.cp + 1, last⟩) := by
  obtain ⟨last, hremember, hlast, hsame⟩ := h.remember
  obtain ⟨hpos, hclass⟩ := (yyEc_class text[p.cp]).2
  have hstep : yyAutomaton.step p.state text[p.cp] =
      (yyNext p.state (yyClass text[p.cp])).bind fun t => if t = 13 then none else some t := rfl
  rcases yyNext_states p.state h.mem _ hclass hpos with hdead | ⟨t, ht, hnext⟩
  · refine ⟨13, last, ?_, hlast, hsame, Or.inl ⟨rfl, ?_⟩⟩
    · rw [yyStep, hremember, Option.bind_some, hdead, Option.map_some]
    · rw [hstep, hdead]
      rfl
  · have hne : t ≠ 13 := by
      rintro rfl
      exact absurd ht (by decide)
    refine ⟨t, last, ?_, hlast, hsame, Or.inr ⟨ht, hlt, ?_, hlast⟩⟩
    · rw [yyStep, hremember, Option.bind_some, hnext, Option.map_some]
    · rw [Automaton.run_take_succ hlt h.run, hstep, hnext, Option.bind_some, if_neg hne]

/-- **Backing up**: where the longest match so far is the longest of all, its action is found. -/
theorem yyFindAction_of_longest {p : YyPoint} {act : ℕ} (hact : yyAccept[p.state]? = some act)
    (haccept : act ≠ 0 → ∃ r, act = r.act ∧ next scannerRule text = some (r, p.cp))
    (hlast : act = 0 → ∃ k, next scannerRule text = longest scannerRule text k ∧
      Remembers text k p.last) (hne : text ≠ []) :
    ∃ r q, yyFindAction p = some (r.act, q) ∧ next scannerRule text = some (r, q.cp) := by
  rw [yyFindAction, hact, Option.bind_some]
  by_cases hzero : act = 0
  · obtain ⟨k, hnext, hremembers⟩ := hlast hzero
    obtain ⟨c, rest, rfl⟩ := List.exists_cons_of_ne_nil hne
    obtain ⟨r, n, hlongest⟩ := exists_next (total_scannerRule c) rest
    have hsome : next scannerRule (c :: rest) = some (r, n) := next_eq_some_iff.mpr hlongest
    obtain ⟨s, hs, hsact⟩ := hremembers r n (hnext.symm.trans hsome)
    refine ⟨r, { p with state := s, cp := n }, ?_, hsome⟩
    rw [if_pos hzero, hs, Option.bind_some, hsact, Option.map_some]
  · obtain ⟨r, rfl, hnext⟩ := haccept hzero
    exact ⟨r, p, if_neg hzero, hnext⟩

/-- At a point from which the automaton cannot go on. -/
theorem Scanned.findAction {p : YyPoint} (h : Scanned text p) (hpos : 0 < p.cp)
    (hstuck : next scannerRule text = longest scannerRule text p.cp) {last : Option (ℕ × ℕ)}
    (hlast : yyAutomaton.accept p.state = none → last = p.last) :
    ∃ r q, yyFindAction { p with last := last } = some (r.act, q) ∧
      next scannerRule text = some (r, q.cp) := by
  have hne : text ≠ [] := by
    rintro rfl
    exact absurd h.le (Nat.not_le_of_gt hpos)
  have hlongest := h.longest_eq hpos
  refine yyFindAction_of_longest (p := { p with last := last }) (yyAccept_states p.state h.mem)
    (fun hact => ?_) (fun hact => ?_) hne
  · cases hr : yyAutomaton.accept p.state with
    | none =>
        rw [hr] at hact
        exact absurd rfl hact
    | some r =>
        rw [hr, Option.map_some, Option.some_or] at hlongest
        exact ⟨r, rfl, hstuck.trans hlongest⟩
  · cases hr : yyAutomaton.accept p.state with
    | none =>
        rw [hr, Option.map_none, Option.none_or] at hlongest
        refine ⟨p.cp - 1, hstuck.trans hlongest, ?_⟩
        rw [hlast hr]
        exact h.last
    | some r =>
        rw [hr] at hact
        cases r <;> exact absurd hact (by decide)

/-- **A rule is found**: at the point where the loop has ended, its action is the one of the longest
match, which is in the buffer. -/
def FindsRule (text : List Byte) (bound : ℕ) (p : YyPoint) : Prop :=
  ∃ r q, yyFindAction p = some (r.act, q) ∧ next scannerRule text = some (r, q.cp) ∧ q.cp ≤ bound

/-- A NUL is found: the loop has ended behind the `k` characters before it. -/
def FindsNul (p : YyPoint) (k : ℕ) : Prop :=
  ∃ q, yyFindAction p = some (6, q) ∧ q.cp = k + 1

/-- A NUL of the buffer takes two rounds. -/
theorem yyMatch_nul {buffer : List Byte} {p : YyPoint} (h : Scanned text p)
    (hle : p.cp ≤ buffer.length) (hnul : (buffer ++ [0, 0])[p.cp]? = some 0) (fuel : ℕ) :
    ∃ q, yyMatch buffer (fuel + 2) p = some q ∧ FindsNul q p.cp := by
  obtain ⟨last, hremember, -⟩ := h.remember
  have hclass : yyEc[(0 : Byte).toNat]? = some 0 := rfl
  have hstep : yyStep p 0 = some ⟨3, p.cp + 1, last⟩ := by
    rw [yyStep, hremember, Option.bind_some, yyNext_nul p.state h.mem, Option.map_some]
  have hinside : p.cp + 1 < (buffer ++ [0, 0]).length := by
    rw [List.length_append]
    exact show p.cp + 1 < buffer.length + 2 by omega
  -- the second character is any
  obtain ⟨c, hc, hlt⟩ : ∃ c, yyEc[((buffer ++ [0, 0])[p.cp + 1]).toNat]? = some c ∧ c < 8 := by
    by_cases hzero : (buffer ++ [0, 0])[p.cp + 1] = 0
    · rw [hzero]
      exact ⟨0, rfl, by decide⟩
    · exact ⟨_, (yyEc_class _).1 hzero, (yyEc_class _).2.2⟩
  have hsecond : yyStep ⟨3, p.cp + 1, last⟩ c =
      some ⟨13, p.cp + 2, some (3, p.cp + 1)⟩ := by
    rw [yyStep]
    show (some (⟨3, p.cp + 1, some (3, p.cp + 1)⟩ : YyPoint)).bind _ = _
    rw [Option.bind_some, yyNext_three c hlt, Option.map_some]
  refine ⟨⟨13, p.cp + 2, some (3, p.cp + 1)⟩, ?_, ⟨_, rfl, rfl⟩⟩
  rw [yyMatch, hnul, Option.bind_some, hclass, Option.bind_some, hstep, Option.bind_some]
  show yyMatch buffer (fuel + 1) ⟨3, p.cp + 1, last⟩ = _
  rw [yyMatch, List.getElem?_eq_getElem hinside, Option.bind_some, hc, Option.bind_some, hsecond]
  rfl

/-- **The loop at `yy_match`** finds the longest match, or a NUL.  The buffer may end in the middle
of a lexeme; then the loop is at the NUL behind it. -/
theorem yyMatch_spec {buffer more : List Byte} (htext : text = buffer ++ more) :
    ∀ (fuel : ℕ) (p : YyPoint), Scanned text p → p.cp ≤ buffer.length →
      buffer.length + 2 ≤ fuel + p.cp → ∃ q, yyMatch buffer fuel p = some q ∧
        (FindsRule text buffer.length q ∨
          ∃ k s, p.cp ≤ k ∧ k ≤ buffer.length ∧ (k = buffer.length ∨ buffer[k]? = some 0) ∧
            FindsNul q k ∧ s ∈ yyStates ∧
            yyAutomaton.run yyAutomaton.start (text.take k) = some s) := by
  intro fuel
  induction fuel with
  | zero => exact fun p _ hle hfuel => absurd hfuel (by omega)
  | succ fuel ih =>
      intro p h hle hfuel
      by_cases hnul : (buffer ++ [0, 0])[p.cp]? = some 0
      · obtain ⟨fuel, rfl⟩ : ∃ n, fuel = n + 1 := Nat.exists_eq_add_one_of_ne_zero (by omega)
        obtain ⟨q, hmatch, hfinds⟩ := yyMatch_nul h hle hnul fuel
        refine ⟨q, hmatch, Or.inr ⟨p.cp, p.state, Nat.le_refl _, hle, ?_, hfinds, h.mem, h.run⟩⟩
        rcases Nat.lt_or_eq_of_le hle with hlt | heq
        · rw [List.getElem?_append_left hlt] at hnul
          exact Or.inr hnul
        · exact Or.inl heq
      · have hlt : p.cp < buffer.length := by
          rcases Nat.lt_or_eq_of_le hle with hlt | heq
          · exact hlt
          · rw [heq, List.getElem?_append_right (Nat.le_refl _), Nat.sub_self] at hnul
            exact absurd rfl hnul
        have hinside : p.cp < text.length := by
          rw [htext, List.length_append]
          exact Nat.lt_add_right _ hlt
        have hchar : (buffer ++ [0, 0])[p.cp]? = some text[p.cp] := by
          subst htext
          rw [List.getElem?_append_left hlt, List.getElem?_eq_getElem hlt,
            List.getElem_append_left hlt]
        have hne : text[p.cp] ≠ 0 := fun hzero => hnul (hchar.trans (congrArg some hzero))
        obtain ⟨t, last, hstep, hlast, -, hcases⟩ := h.step hinside
        rw [yyMatch, hchar, Option.bind_some, (yyEc_class _).1 hne, Option.bind_some, hstep,
          Option.bind_some]
        rcases hcases with ⟨rfl, hdead⟩ | hscanned
        · -- there is no way on, so that an earlier state is gone back to
          have hstuck : next scannerRule text = longest scannerRule text p.cp := by
            refine Automaton.next_eq_longest_of_stuck recognises_yyAutomaton h.run h.le
              fun c hc => ?_
            rw [List.head?_drop, List.getElem?_eq_getElem hinside] at hc
            rw [← Option.some.inj hc]
            exact hdead
          have htextne : text ≠ [] := List.ne_nil_of_length_pos (Nat.zero_lt_of_lt hinside)
          obtain ⟨r, q, hfind, hnext⟩ := @yyFindAction_of_longest text
            ⟨13, p.cp + 1, last⟩ 0 rfl (fun h => absurd rfl h)
            (fun _ => ⟨p.cp, hstuck, hlast⟩) htextne
          refine ⟨⟨13, p.cp + 1, last⟩, rfl, Or.inl ⟨r, q, hfind, hnext, ?_⟩⟩
          exact (longest_eq_some_iff.mp (hstuck.symm.trans hnext)).le.trans hle
        · obtain ⟨base, hbase, hterminal⟩ := yyBase_states t hscanned.mem
          rw [hbase, Option.bind_some]
          by_cases hend : base = 14
          · have hstuck : next scannerRule text = longest scannerRule text (p.cp + 1) := by
              refine Automaton.next_eq_longest_of_stuck recognises_yyAutomaton hscanned.run
                hscanned.le fun c _ => ?_
              obtain ⟨hpos, hclass⟩ := (yyEc_class c).2
              show (yyNext t (yyClass c)).bind _ = none
              rw [(hterminal hend).2 _ hclass hpos]
              rfl
            have hsame : yyAutomaton.accept t = none → last = last := fun _ => rfl
            obtain ⟨r, q, hfind, hnext⟩ := hscanned.findAction (Nat.succ_pos _) hstuck hsame
            refine ⟨⟨t, p.cp + 1, last⟩, if_neg (not_not.mpr hend), Or.inl ⟨r, q, hfind, hnext, ?_⟩⟩
            exact (longest_eq_some_iff.mp (hstuck.symm.trans hnext)).le.trans hlt
          · obtain ⟨q, hmatch, hfinds⟩ := ih ⟨t, p.cp + 1, last⟩ hscanned hlt
              (show buffer.length + 2 ≤ fuel + (p.cp + 1) by omega)
            refine ⟨q, (if_pos hend).trans hmatch, hfinds.imp_right ?_⟩
            rintro ⟨k, s, hk, hrest⟩
            exact ⟨k, s, Nat.le_of_succ_le hk, hrest⟩

/-- **The characters are scanned again**, and lead to the same state and the same longest match. -/
theorem yyGetPreviousState_spec {buffer more : List Byte} (htext : text = buffer ++ more) {k : ℕ}
    (hk : k ≤ buffer.length) {s : ℕ}
    (hrun : yyAutomaton.run yyAutomaton.start (text.take k) = some s) :
    ∃ last, yyGetPreviousState buffer k = some ⟨s, k, last⟩ ∧ Scanned text ⟨s, k, last⟩ := by
  induction k generalizing s with
  | zero =>
      obtain rfl : 1 = s := Option.some.inj hrun
      exact ⟨none, rfl, scanned_start text⟩
  | succ k ih =>
      have hlt : k < text.length := by
        rw [htext, List.length_append]
        exact Nat.lt_of_lt_of_le hk (Nat.le_add_right _ _)
      have hchar : text[k] = buffer[k] := by
        subst htext
        exact List.getElem_append_left hk
      have hsplit : text.take (k + 1) = text.take k ++ [text[k]] :=
        List.take_succ_eq_append_getElem hlt
      have hbefore := hrun
      rw [hsplit, Automaton.run_append] at hbefore
      obtain ⟨t, ht, hstep⟩ := Option.bind_eq_some_iff.mp hbefore
      obtain ⟨last, hprevious, hscanned⟩ := ih (Nat.le_of_succ_le hk) ht
      obtain ⟨u, last', hyystep, -, -, hcases⟩ := hscanned.step hlt
      have hclass : (if buffer[k] ≠ 0 then yyEc[(buffer[k]).toNat]? else some 1) =
          some (yyClass text[k]) := by
        rw [hchar]
        split_ifs with hzero
        · exact (yyEc_class _).1 hzero
        · rw [not_not.mp hzero]
          rfl
      rcases hcases with ⟨-, hdead⟩ | hscanned'
      · have hsome : yyAutomaton.step t text[k] = some s := by
          rw [← hrun, Automaton.run_take_succ hlt ht]
        rw [hsome] at hdead
        cases hdead
      · obtain rfl : u = s := Option.some.inj (hscanned'.run.symm.trans hrun)
        refine ⟨last', ?_, hscanned'⟩
        rw [yyGetPreviousState, List.take_succ_eq_append_getElem hk, List.foldlM_append]
        rw [yyGetPreviousState] at hprevious
        rw [hprevious]
        simp only [Option.bind_eq_bind, Option.bind_some, List.foldlM_cons, List.foldlM_nil, hclass,
          hyystep]
        rfl

end Lexeme

/-! ## The whole text

One lexeme after the other, with the buffer filled in between.  The induction is on the number of
jumps, of which each lexeme needs a bounded number for each piece that is read. -/

/-- The text that is still to be cut: what is in the buffer, and behind it what is still to be read.
-/
def Yyguts.text (g : Yyguts) : List Byte := g.buffer ++ (g.input.map Chunk.bytes).flatten

/-- At the end of the file there is nothing to read. -/
def Yyguts.Consistent (g : Yyguts) : Prop := g.eofPending = true → g.input = []

/-- The result of one lexeme: the action of the longest match with its length, or nothing at the
end. -/
def nextAction (text : List Byte) : Option (ℕ × ℕ) :=
  (next scannerRule text).map fun s => (s.1.act, s.2)

/-- What one lexeme leaves of the scanner: the same text, with the lexeme in the buffer. -/
structure Keeps (g g' : Yyguts) : Prop where
  text : g'.text = g.text
  consistent : g'.Consistent
  input : g'.input.length ≤ g.input.length
  inside : ∀ s ∈ nextAction g.text, s.2 ≤ g'.buffer.length

theorem Keeps.trans {g g₁ g' : Yyguts} (h₁ : g₁.text = g.text)
    (hinput : g₁.input.length ≤ g.input.length) (h : Keeps g₁ g') : Keeps g g' :=
  ⟨h.text.trans h₁, h.consistent, h.input.trans hinput, h₁ ▸ h.inside⟩

/-- The action that is found is run. -/
theorem FindsRule.run_eq {g : Yyguts} {p : YyPoint} (h : FindsRule g.text g.buffer.length p)
    (hconsistent : g.Consistent) {label : YyLabel} {q : YyPoint}
    (hlabel : (match label with
      | .yyMatch => yyMatch g.buffer (g.buffer.length + 3) q
      | .yyFindAction => some q) = some p) (fuel : ℕ) :
    yyRun (fuel + 1) label g q = some (nextAction g.text, g) ∧ Keeps g g := by
  obtain ⟨r, q', hfind, hnext, hle⟩ := h
  have haction : nextAction g.text = some (r.act, q'.cp) := by rw [nextAction, hnext]; rfl
  have hact : r.act ≠ 6 := by cases r <;> decide
  refine ⟨?_, rfl, hconsistent, Nat.le_refl _, fun s hs => ?_⟩
  · rw [haction]
    cases label with
    | yyMatch =>
        dsimp only at hlabel
        simp only [ArmSimulator.yyRun, hlabel, Option.bind_eq_bind, Option.bind_some, hfind,
          if_pos hact]
    | yyFindAction =>
        obtain rfl : q = p := Option.some.inj hlabel
        simp only [ArmSimulator.yyRun, Option.bind_eq_bind, Option.bind_some, hfind, if_pos hact]
  · rw [haction] at hs
    rw [← Option.some.inj hs]
    exact hle

/-- Jumping to `yy_find_action` at a point from which the automaton cannot go on. -/
theorem Scanned.yyRun_findAction {g : Yyguts} {p : YyPoint} (h : Scanned g.text p)
    (hpos : 0 < p.cp) (hle : p.cp ≤ g.buffer.length)
    (hstuck : next scannerRule g.text = longest scannerRule g.text p.cp)
    {last : Option (ℕ × ℕ)} (hlast : yyAutomaton.accept p.state = none → last = p.last)
    (hconsistent : g.Consistent) (fuel : ℕ) :
    yyRun (fuel + 1) .yyFindAction g { p with last := last } = some (nextAction g.text, g) ∧
      Keeps g g := by
  obtain ⟨r, q, hfind, hnext⟩ := h.findAction hpos hstuck hlast
  refine @FindsRule.run_eq g _ ⟨r, q, hfind, hnext, ?_⟩ hconsistent .yyFindAction _ rfl fuel
  exact (longest_eq_some_iff.mp (hstuck.symm.trans hnext)).le.trans hle

/-- The scanner after it has read. -/
theorem yyGetNextBuffer_eq {g : Yyguts} (hconsistent : g.Consistent) :
    yyGetNextBuffer g g.buffer.length =
      match g.input with
      | chunk :: input => (.continueScan, { g with
          buffer := g.buffer ++ chunk.bytes
          input := input })
      | [] => if g.buffer.length = 0 then (.endOfFile, g)
          else (.lastMatch, { g with eofPending := true }) := by
  have hread : (if g.eofPending then [] else g.input) = g.input := by
    split_ifs with heof
    · exact (hconsistent heof).symm
    · rfl
  rw [yyGetNextBuffer, hread, List.take_length]

/-- In the state 1 there is always a way on. -/
theorem yyAutomaton_step_start (c : Byte) : yyAutomaton.step 1 c ≠ none := by
  rw [(yyAutomaton_step c).2.2.2.2]
  split_ifs <;> exact Option.some_ne_none _

/-- From a point where the text has been scanned, `yyRun` comes to the action of the lexeme, with so
many jumps.  It is the hypothesis of the induction for the cases that go on, and named so that each
of them can be a lemma. -/
def FindsLexeme (fuel : ℕ) : Prop :=
  ∀ (g : Yyguts) (p : YyPoint), Scanned g.text p → p.cp ≤ g.buffer.length → g.Consistent →
    (g.text.length - p.cp) + g.input.length + 2 ≤ fuel →
    ∃ g', yyRun fuel .yyMatch g p = some (nextAction g.text, g') ∧ Keeps g g'

/-- What is done at a NUL, when the characters before it have been scanned again. -/
def yyAtNul (fuel : ℕ) (g : Yyguts) (p : YyPoint) : Option (Option (ℕ × ℕ) × Yyguts) :=
  if p.cp < g.buffer.length then
    (yyStep p 1).bind fun next =>
      if next.state ≠ 13 then yyRun fuel .yyMatch g next
      else yyRun fuel .yyFindAction g { p with last := next.last }
  else
    match yyGetNextBuffer g p.cp with
    | (.endOfFile, g) => some (none, g)
    | (.continueScan, g) => (yyGetPreviousState g.buffer p.cp).bind fun previous =>
        yyRun fuel .yyMatch g previous
    | (.lastMatch, g) => (yyGetPreviousState g.buffer g.buffer.length).bind fun previous =>
        yyRun fuel .yyFindAction g previous

/-- The action 6 leads there. -/
theorem yyRun_of_findsNul {g : Yyguts} {p q point : YyPoint}
    (hmatch : yyMatch g.buffer (g.buffer.length + 3) p = some q) (hnul : FindsNul q point.cp)
    (hprevious : yyGetPreviousState g.buffer point.cp = some point) (fuel : ℕ) :
    yyRun (fuel + 1) .yyMatch g p = yyAtNul fuel g point := by
  obtain ⟨q', hfind, hcp⟩ := hnul
  have hamount : q'.cp - 1 = point.cp := by rw [hcp, Nat.add_sub_cancel]
  rw [yyRun]
  simp only [hmatch, Option.bind_eq_bind, Option.bind_some, hfind, ne_eq, not_true_eq_false,
    if_false, hamount, hprevious]
  rw [hcp]
  rfl

/-- **A NUL of the text** is a character of the class 1: the automaton goes on behind it, or the
lexeme ends before it. -/
theorem yyAtNul_text {fuel : ℕ} (ih : FindsLexeme (fuel + 1)) {g : Yyguts} {p : YyPoint}
    (h : Scanned g.text p) (hlt : p.cp < g.buffer.length) (hzero : g.buffer[p.cp]? = some 0)
    (hconsistent : g.Consistent)
    (hfuel : (g.text.length - p.cp) + g.input.length + 2 ≤ fuel + 2) :
    ∃ g', yyAtNul (fuel + 1) g p = some (nextAction g.text, g') ∧ Keeps g g' := by
  have hinside : p.cp < g.text.length := by
    rw [Yyguts.text, List.length_append]
    exact Nat.lt_add_right _ hlt
  have hchar : g.text[p.cp] = 0 := by
    rw [List.getElem?_eq_getElem hlt] at hzero
    rw [← Option.some.inj hzero]
    exact List.getElem_append_left hlt
  obtain ⟨t, last, hstep, -, hsame, hcases⟩ := h.step hinside
  have hclass : yyClass g.text[p.cp] = 1 := by rw [hchar]; rfl
  rw [hclass] at hstep
  rw [yyAtNul, if_pos hlt, hstep, Option.bind_some]
  rcases hcases with ⟨rfl, hdead⟩ | hscanned
  · have hpos : 0 < p.cp := by
      refine Nat.pos_of_ne_zero fun hstart => ?_
      have hrun := h.run
      rw [hstart] at hrun
      have hone : 1 = p.state := Option.some.inj hrun
      rw [← hone] at hdead
      exact yyAutomaton_step_start _ hdead
    have hstuck : next scannerRule g.text = longest scannerRule g.text p.cp := by
      refine Automaton.next_eq_longest_of_stuck recognises_yyAutomaton h.run h.le fun c hc => ?_
      rw [List.head?_drop, List.getElem?_eq_getElem hinside] at hc
      rw [← Option.some.inj hc]
      exact hdead
    rw [if_neg (not_not.mpr rfl)]
    exact ⟨g, h.yyRun_findAction hpos hlt.le hstuck hsame hconsistent fuel⟩
  · have hne : t ≠ 13 := by
      rintro rfl
      exact absurd (show 13 ∈ yyStates from hscanned.mem) (by decide)
    rw [if_pos hne]
    exact ih g ⟨t, p.cp + 1, last⟩ hscanned hlt hconsistent
      (show g.text.length - (p.cp + 1) + g.input.length + 2 ≤ fuel + 1 by omega)

/-- **The end of the buffer**, when there is more to read: the characters are scanned again behind
which the next ones now are. -/
theorem yyAtNul_refill {fuel : ℕ} (ih : FindsLexeme (fuel + 1)) {g : Yyguts} {s : ℕ}
    {last : Option (ℕ × ℕ)}
    (hrun : yyAutomaton.run yyAutomaton.start (g.text.take g.buffer.length) = some s)
    {chunk : Chunk} {input : List Chunk} (hinput : g.input = chunk :: input)
    (hconsistent : g.Consistent)
    (hfuel : (g.text.length - g.buffer.length) + g.input.length + 2 ≤ fuel + 2) :
    ∃ g', yyAtNul (fuel + 1) g ⟨s, g.buffer.length, last⟩ = some (nextAction g.text, g') ∧
      Keeps g g' := by
  have htext : (⟨g.buffer ++ chunk.bytes, g.eofPending, input⟩ : Yyguts).text = g.text := by
    rw [Yyguts.text, Yyguts.text, hinput, List.map_cons, List.flatten_cons, List.append_assoc]
  have heof : (⟨g.buffer ++ chunk.bytes, g.eofPending, input⟩ : Yyguts).Consistent :=
    fun h => nomatch hinput.symm.trans (hconsistent h)
  have hroom : g.buffer.length ≤ (g.buffer ++ chunk.bytes).length := by
    rw [List.length_append]
    exact Nat.le_add_right _ _
  obtain ⟨last', hprevious, hscanned⟩ := yyGetPreviousState_spec htext.symm hroom hrun
  rw [← htext] at hscanned
  have hless : g.text.length - g.buffer.length + input.length + 2 ≤ fuel + 1 := by
    rw [hinput, List.length_cons] at hfuel
    omega
  obtain ⟨g', hlexeme, hkeeps⟩ :=
    ih _ ⟨s, g.buffer.length, last'⟩ hscanned hroom heof (by rw [htext]; exact hless)
  rw [htext] at hlexeme
  refine ⟨g', ?_, hkeeps.trans htext ?_⟩
  · rw [yyAtNul, if_neg (Nat.lt_irrefl _), yyGetNextBuffer_eq hconsistent, hinput]
    dsimp only
    rw [hprevious, Option.bind_some]
    exact hlexeme
  · rw [hinput]
    exact Nat.le_succ _

/-- **The end of the file**: there is no character left, or the lexeme is in the buffer. -/
theorem yyAtNul_endOfFile {g : Yyguts} {s : ℕ} {last : Option (ℕ × ℕ)}
    (h : Scanned g.text ⟨s, g.buffer.length, last⟩)
    (hprevious : yyGetPreviousState g.buffer g.buffer.length = some ⟨s, g.buffer.length, last⟩)
    (hinput : g.input = []) (hconsistent : g.Consistent) (fuel : ℕ) :
    ∃ g', yyAtNul (fuel + 1) g ⟨s, g.buffer.length, last⟩ = some (nextAction g.text, g') ∧
      Keeps g g' := by
  have htext : g.text = g.buffer := by
    rw [Yyguts.text, hinput, List.map_nil, List.flatten_nil, List.append_nil]
  rw [yyAtNul, if_neg (Nat.lt_irrefl _), yyGetNextBuffer_eq hconsistent, hinput]
  by_cases hempty : g.buffer.length = 0
  · have hnone : nextAction g.text = none := by
      rw [htext, List.eq_nil_of_length_eq_zero hempty]
      rfl
    refine ⟨g, ?_, rfl, hconsistent, Nat.le_refl _, fun s hs => ?_⟩
    · dsimp only
      rw [if_pos hempty, hnone]
    · rw [hnone] at hs
      exact nomatch hs
  · have hstuck : next scannerRule g.text = longest scannerRule g.text g.buffer.length := by
      rw [next, htext]
    have heof : (⟨g.buffer, true, g.input⟩ : Yyguts).Consistent := fun _ => hinput
    obtain ⟨hfound, hkeeps⟩ := Scanned.yyRun_findAction (g := ⟨g.buffer, true, g.input⟩) h
      (Nat.pos_of_ne_zero hempty) (Nat.le_refl _) hstuck (fun _ => rfl) heof fuel
    refine ⟨⟨g.buffer, true, g.input⟩, ?_,
      @Keeps.trans g ⟨g.buffer, true, g.input⟩ _ rfl (Nat.le_refl _) hkeeps⟩
    rw [if_neg hempty]
    dsimp only
    rw [hprevious, Option.bind_some, ← hinput]
    exact hfound

/-- **One lexeme**, wherever its text is cut.  The induction is on the number of jumps; each leads
on in the text or to a shorter input. -/
theorem yyRun_spec (fuel : ℕ) : FindsLexeme fuel := by
  induction fuel with
  | zero => exact fun g p _ _ _ hfuel => absurd hfuel (Nat.not_succ_le_zero _)
  | succ fuel ih =>
      intro g p h hle hconsistent hfuel
      obtain ⟨q, hmatch, hfinds⟩ := @yyMatch_spec g.text _ _ rfl (g.buffer.length + 3) p h hle
        (by omega)
      rcases hfinds with hrule | ⟨k, s, hpk, hk, hnul, hfindsNul, -, hrun⟩
      · exact ⟨g, @FindsRule.run_eq g _ hrule hconsistent .yyMatch _ hmatch fuel⟩
      · obtain ⟨fuel, rfl⟩ : ∃ n, fuel = n + 1 := Nat.exists_eq_add_one_of_ne_zero (by omega)
        obtain ⟨last, hprevious, hscanned⟩ :=
          @yyGetPreviousState_spec g.text _ _ rfl _ hk _ hrun
        rw [@yyRun_of_findsNul g p q ⟨s, k, last⟩ hmatch hfindsNul hprevious]
        have hless : g.text.length - k + g.input.length + 2 ≤ fuel + 2 := by omega
        by_cases hlt : k < g.buffer.length
        · exact yyAtNul_text ih hscanned hlt (hnul.resolve_left (Nat.ne_of_lt hlt)) hconsistent
            hless
        · obtain rfl : k = g.buffer.length := Nat.le_antisymm hk (Nat.le_of_not_lt hlt)
          cases hinput : g.input with
          | cons chunk input => exact yyAtNul_refill ih hrun hinput hconsistent hless
          | nil => exact yyAtNul_endOfFile hscanned hprevious hinput hconsistent fuel

/-- **`yylex` runs the actions of the lexemes**, in whatever pieces the text is read. -/
theorem yylex_eq_lexemes_aux : ∀ (fuel : ℕ) (g : Yyguts), g.Consistent →
    g.text.length + g.input.length + 3 ≤ fuel →
    yylex fuel g = some ((lexemes scannerRule g.text).map fun s => (s.1.act, s.2)) := by
  intro fuel
  induction fuel with
  | zero => exact fun g _ hfuel => absurd hfuel (Nat.not_succ_le_zero _)
  | succ fuel ih =>
      intro g hconsistent hfuel
      obtain ⟨g', hrun, hkeeps⟩ := yyRun_spec fuel g ⟨1, 0, none⟩ (scanned_start g.text)
        (Nat.zero_le _) hconsistent
        (show g.text.length - 0 + g.input.length + 2 ≤ fuel by omega)
      rw [yylex, hrun, Option.bind_some]
      cases hnext : next scannerRule g.text with
      | none =>
          have hempty : g.text = [] := by
            cases htext : g.text with
            | nil => rfl
            | cons c rest =>
                obtain ⟨r, n, hlongest⟩ := exists_next (total_scannerRule c) rest
                rw [htext] at hnext
                cases hnext.symm.trans (next_eq_some_iff.mpr hlongest)
          rw [nextAction, hnext, hempty]
          rfl
      | some s =>
          have hlongest := next_eq_some_iff.mp hnext
          have haction : nextAction g.text = some (s.1.act, s.2) := by rw [nextAction, hnext]; rfl
          have hinside : s.2 ≤ g'.buffer.length := hkeeps.inside _ haction
          have htake : g'.buffer.take s.2 = g.text.take s.2 := by
            rw [← hkeeps.text, Yyguts.text, List.take_append_of_le_length hinside]
          have hdrop : ({ g' with buffer := g'.buffer.drop s.2 } : Yyguts).text =
              g.text.drop s.2 := by
            rw [← hkeeps.text, Yyguts.text, Yyguts.text, List.drop_append_of_le_length hinside]
          have hlength := congrArg List.length hdrop
          rw [List.length_drop] at hlength
          have hpos := hlongest.pos
          have hle := hlongest.le
          have hinput := hkeeps.input
          have hrest : ({ g' with buffer := g'.buffer.drop s.2 } : Yyguts).text.length +
              g'.input.length + 3 ≤ fuel := by omega
          rw [haction, lexemes_of_isLongest hlongest, List.map_cons]
          dsimp only
          rw [ih { g' with buffer := g'.buffer.drop s.2 } hkeeps.consistent hrest, hdrop, htake]
          rfl

/-- **The generated scanner finds the lexemes of the rules.**  For every text and wherever `read`
cuts it, `yylex` comes to the end of the file and has run the actions of the longest matches, one
after the other. -/
theorem yylex_eq_lexemes (input : List Chunk) (fuel : ℕ)
    (hfuel : (input.map Chunk.bytes).flatten.length + input.length + 3 ≤ fuel) :
    yylex fuel ⟨[], false, input⟩ =
      some ((lexemes scannerRule (input.map Chunk.bytes).flatten).map
        fun s => (s.1.act, s.2)) :=
  yylex_eq_lexemes_aux fuel ⟨[], false, input⟩ (fun h => nomatch h) hfuel

/-- An acknowledgement and a packet, cut in the packet. -/
theorem yylex_eq_lexemes_cut :
    yylex 14 ⟨[], false, [⟨str "+$O", by decide⟩, ⟨str "K#9a", by decide⟩]⟩ =
      some [(1, str "+"), (3, str "$OK#9a")] := by
  have hlexemes : lexemes scannerRule (str "+$OK#9a") =
      [(.ack, str "+"), (.packet, str "$OK#9a")] := by decide
  have hrun := yylex_eq_lexemes [⟨str "+$O", by decide⟩, ⟨str "K#9a", by decide⟩] 14 (by decide)
  have htext : (List.map Chunk.bytes [⟨str "+$O", by decide⟩, ⟨str "K#9a", by decide⟩]).flatten =
      str "+$OK#9a" := by decide
  rw [htext, hlexemes] at hrun
  exact hrun

end ArmSimulator
