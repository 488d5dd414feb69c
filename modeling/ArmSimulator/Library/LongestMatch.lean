import Mathlib.Data.List.Basic
import Mathlib.Data.Nat.Find
import Mathlib.Tactic.Common

/-!
# Scanners that take the longest match

A scanner cuts a text into lexemes.  At each place it takes the longest prefix that one of its rules
matches, and of the rules that match this prefix the first.  What the rules say is one function
here: the rule that a whole text belongs to, if it belongs to one.

* `next`, the longest match at the head of a text, and `next_eq_some_iff`, what it is.
* `lexemes`, the text that is cut; `flatten_lexemes`, nothing of it is lost.
* `lexemes_of_singles`, the lexemes where only single characters are matched.
* `lexemes_append_of_initial`: before a character that lexemes only begin with, a text can be cut in
  two.
* `lexemes_of_closed`: lexemes that no rule goes on from are found again.
* `Automaton`, which reads one character after the other, and `next_eq_longest_of_stuck`: where it
  cannot go on, the longest match so far is the longest of all.

The longest match makes a scanner look ahead without a bound: what a prefix is cut into may depend
on everything that follows it.  The two properties of rules that are named here are the ones that
bound it.  A character that is `Initial` separates what is before it from what is behind, and a
lexeme that is `Closed` separates itself from what follows.  A format whose messages have both can
be sent as a stream and found again, also behind other characters.

An automaton is the way a scanner is compiled.  It is enough that it accepts the texts that the
rules match; that it may stop early, in a state without a way on, is a fact about the longest match
(`longest_succ`), proved once for all automata.
-/

universe u v w

namespace LongestMatch

variable {α : Type u} {ρ : Type v} (rule : List α → Option ρ)

/-! ## The longest match

Matches are numbers of characters here; the empty prefix is no match. -/

/-- The longest match of the prefixes with at most `n` characters, and its length; the empty prefix
is none. -/
def longest (text : List α) : ℕ → Option (ρ × ℕ)
  | 0 => none
  | n + 1 => ((rule (text.take (n + 1))).map fun r => (r, n + 1)).or (longest text n)

/-- The longest match at the head of a text. -/
def next (text : List α) : Option (ρ × ℕ) := longest rule text text.length

/-- The first `n` characters are the longest match with at most `k`, by the rule `r`.  It is the
specification of `longest` and what other scanners are compared with. -/
structure IsLongest (text : List α) (k : ℕ) (r : ρ) (n : ℕ) : Prop where
  pos : 0 < n
  le : n ≤ k
  rule_eq : rule (text.take n) = some r
  longer : ∀ m, n < m → m ≤ k → rule (text.take m) = none

variable {rule}

/-- There is no longest match where nothing matches. -/
theorem longest_eq_none_iff {text : List α} {k : ℕ} :
    longest rule text k = none ↔ ∀ m, 0 < m → m ≤ k → rule (text.take m) = none := by
  induction k with
  | zero => exact iff_of_true rfl fun m hm hle => absurd hm (Nat.not_lt.mpr hle)
  | succ k ih =>
      rw [longest, Option.or_eq_none_iff, Option.map_eq_none_iff, ih]
      constructor
      · rintro ⟨hlast, hrest⟩ m hm hle
        rcases Nat.lt_succ_iff_lt_or_eq.mp (Nat.lt_succ_of_le hle) with hlt | rfl
        · exact hrest m hm (Nat.le_of_lt_succ hlt)
        · exact hlast
      · exact fun h => ⟨h _ (Nat.succ_pos k) (Nat.le_refl _),
          fun m hm hle => h m hm (Nat.le_succ_of_le hle)⟩

/-- `longest` finds what `IsLongest` describes, and nothing else. -/
theorem longest_eq_some_iff {text : List α} {k : ℕ} {r : ρ} {n : ℕ} :
    longest rule text k = some (r, n) ↔ IsLongest rule text k r n := by
  induction k with
  | zero =>
      refine iff_of_false (fun h => nomatch h) fun h => ?_
      exact absurd h.pos (Nat.not_lt.mpr h.le)
  | succ k ih =>
      rw [longest]
      cases hlast : rule (text.take (k + 1)) with
      | none =>
          rw [Option.map_none, Option.none_or, ih]
          constructor
          · intro h
            refine ⟨h.pos, Nat.le_succ_of_le h.le, h.rule_eq, fun m hm hle => ?_⟩
            rcases Nat.lt_succ_iff_lt_or_eq.mp (Nat.lt_succ_of_le hle) with hlt | rfl
            · exact h.longer m hm (Nat.le_of_lt_succ hlt)
            · exact hlast
          · intro h
            have hne : n ≠ k + 1 := by
              rintro rfl
              exact absurd (h.rule_eq.symm.trans hlast) (Option.some_ne_none r)
            exact ⟨h.pos, Nat.le_of_lt_succ (lt_of_le_of_ne h.le hne), h.rule_eq,
              fun m hm hle => h.longer m hm (Nat.le_succ_of_le hle)⟩
      | some s =>
          rw [Option.map_some, Option.some_or]
          constructor
          · intro h
            obtain ⟨rfl, rfl⟩ := Prod.mk.inj (Option.some.inj h)
            exact ⟨Nat.succ_pos k, Nat.le_refl _, hlast,
              fun m hm hle => absurd hm (Nat.not_lt.mpr hle)⟩
          · intro h
            rcases Nat.lt_or_eq_of_le h.le with hlt | rfl
            · exact absurd (hlast.symm.trans (h.longer _ hlt (Nat.le_refl _)))
                (Option.some_ne_none s)
            · rw [Option.some.inj (hlast.symm.trans h.rule_eq)]

/-- The same for a whole text: the scanner can be replaced by its specification. -/
theorem next_eq_some_iff {text : List α} {r : ρ} {n : ℕ} :
    next rule text = some (r, n) ↔ IsLongest rule text text.length r n := longest_eq_some_iff

/-- A match of the first character is enough for a longest one. -/
theorem exists_next {c : α} (hc : (rule [c]).isSome) (text : List α) :
    ∃ r n, IsLongest rule (c :: text) (text.length + 1) r n := by
  cases h : next rule (c :: text) with
  | none =>
      have hnone := longest_eq_none_iff.mp h 1 Nat.one_pos (Nat.succ_le_succ (Nat.zero_le _))
      rw [List.take_succ_cons, List.take_zero] at hnone
      rw [hnone] at hc
      exact absurd hc Bool.false_ne_true
  | some s => exact ⟨s.1, s.2, next_eq_some_iff.mp h⟩

/-! ## Lexemes

Cutting again and again, until nothing is left or nothing matches. -/

variable (rule)

/-- The lexemes of a text, at most `fuel`; cutting ends where nothing matches. -/
def lexemesAux : ℕ → List α → List (ρ × List α)
  | 0, _ => []
  | fuel + 1, text =>
      match next rule text with
      | none => []
      | some (r, n) => (r, text.take n) :: lexemesAux fuel (text.drop n)

/-- The lexemes of a text, each with its rule. -/
def lexemes (text : List α) : List (ρ × List α) := lexemesAux rule text.length text

/-- Every character is matched by some rule.  A scanner with such rules never stops before the end
of a text. -/
def Total : Prop := ∀ c, (rule [c]).isSome

/-- A character that lexemes only begin with. -/
def Initial (c : α) : Prop := ∀ before after, before ≠ [] → rule (before ++ c :: after) = none

/-- A lexeme of the rule `r` that no rule goes on from. -/
structure Closed (r : ρ) (lexeme : List α) : Prop where
  ne_nil : lexeme ≠ []
  rule_eq : rule lexeme = some r
  longer : ∀ more, more ≠ [] → rule (lexeme ++ more) = none

variable {rule}

theorem lexemes_nil : lexemes rule [] = [] := rfl

/-- The bound on the number of lexemes does not matter once it is the length of the text: every
lexeme takes a character at least. -/
theorem lexemesAux_of_le {fuel : ℕ} {text : List α} (hfuel : text.length ≤ fuel) :
    lexemesAux rule fuel text = lexemes rule text := by
  induction hlength : text.length using Nat.strong_induction_on generalizing fuel text with
  | h length ih =>
      cases text with
      | nil => cases fuel <;> rfl
      | cons c text =>
          obtain ⟨fuel, rfl⟩ := Nat.exists_eq_add_one_of_ne_zero
            (Nat.ne_of_gt (Nat.lt_of_lt_of_le (Nat.succ_pos _) hfuel))
          rw [lexemes, List.length_cons, lexemesAux, lexemesAux]
          cases hnext : next rule (c :: text) with
          | none => rfl
          | some s =>
              have hlongest := next_eq_some_iff.mp hnext
              have hdrop : ((c :: text).drop s.2).length ≤ text.length := by
                rw [List.length_drop, List.length_cons]
                have hpos := hlongest.pos
                omega
              have hlt : ((c :: text).drop s.2).length < length :=
                hlength ▸ Nat.lt_succ_of_le hdrop
              dsimp only
              have hfuel' := Nat.le_trans hdrop (Nat.le_of_succ_le_succ hfuel)
              rw [ih _ hlt hfuel' rfl, ih _ hlt hdrop rfl]

/-- **One lexeme** is cut off. -/
theorem lexemes_of_isLongest {text : List α} {r : ρ} {n : ℕ}
    (h : IsLongest rule text text.length r n) :
    lexemes rule text = (r, text.take n) :: lexemes rule (text.drop n) := by
  have hpos := h.pos
  have hle := h.le
  obtain ⟨length, hlength⟩ :=
    Nat.exists_eq_add_one_of_ne_zero (Nat.ne_of_gt (Nat.lt_of_lt_of_le hpos hle))
  have hdrop : (text.drop n).length ≤ length := by
    rw [List.length_drop]
    omega
  rw [lexemes, hlength, lexemesAux, next_eq_some_iff.mpr h]
  dsimp only
  rw [lexemesAux_of_le hdrop]

/-- **A text of single characters.**  Where no part with two characters or more is matched, every
character is a lexeme. -/
theorem lexemes_of_singles {single : α → ρ} (hsingle : ∀ c, rule [c] = some (single c))
    {text : List α} (hlong : ∀ word, word <:+: text → 2 ≤ word.length → rule word = none) :
    lexemes rule text = text.map fun c => (single c, [c]) := by
  induction text with
  | nil => rfl
  | cons c text ih =>
      have hlongest : IsLongest rule (c :: text) (c :: text).length (single c) 1 := by
        refine ⟨Nat.one_pos, Nat.succ_le_succ (Nat.zero_le _), hsingle c, fun m hm hle => ?_⟩
        refine hlong _ (List.take_prefix m _).isInfix ?_
        rw [List.length_take, Nat.min_eq_left hle]
        exact hm
      rw [lexemes_of_isLongest hlongest, List.map_cons]
      exact congrArg (_ :: ·) (ih fun word hword => hlong word (hword.trans
        (List.suffix_cons c text).isInfix))

/-- **Resynchronisation**: before a character that lexemes only begin with, whatever comes first
is cut as if it were alone. -/
theorem lexemes_append_of_initial (htotal : Total rule) {c : α} (hc : Initial rule c)
    (before after : List α) :
    lexemes rule (before ++ c :: after) = lexemes rule before ++ lexemes rule (c :: after) := by
  induction hlength : before.length using Nat.strong_induction_on generalizing before with
  | h length ih =>
      cases before with
      | nil => rfl
      | cons b before =>
          obtain ⟨r, n, hlongest⟩ := exists_next (htotal b) before
          have hle : n ≤ (b :: before).length := hlongest.le
          have hpos := hlongest.pos
          have htake : (b :: before ++ c :: after).take n = (b :: before).take n :=
            List.take_append_of_le_length hle
          have hboth : IsLongest rule (b :: before ++ c :: after)
              (b :: before ++ c :: after).length r n := by
            refine ⟨hpos, ?_, ?_, fun m hm hmle => ?_⟩
            · rw [List.length_append]
              omega
            · rw [htake]
              exact hlongest.rule_eq
            · by_cases hin : m ≤ (b :: before).length
              · rw [List.take_append_of_le_length hin]
                exact hlongest.longer m hm hin
              · -- the prefix goes past the character
                obtain ⟨k, hk⟩ : ∃ k, m - (b :: before).length = k + 1 :=
                  Nat.exists_eq_add_one_of_ne_zero (by omega)
                rw [List.take_append, List.take_of_length_le (by omega), hk, List.take_succ_cons]
                exact hc _ _ (List.cons_ne_nil b before)
          have hdrop : ((b :: before).drop n).length < length := by
            rw [List.length_drop]
            omega
          rw [lexemes_of_isLongest hboth, lexemes_of_isLongest hlongest, htake,
            List.drop_append_of_le_length hle, ih _ hdrop _ rfl, List.cons_append]

/-- A lexeme that no rule goes on from is cut off, whatever follows. -/
theorem Closed.lexemes_append {r : ρ} {lexeme : List α} (h : Closed rule r lexeme)
    (rest : List α) :
    lexemes rule (lexeme ++ rest) = (r, lexeme) :: lexemes rule rest := by
  have htake : (lexeme ++ rest).take lexeme.length = lexeme := List.take_left
  have hlongest : IsLongest rule (lexeme ++ rest) (lexeme ++ rest).length r lexeme.length := by
    refine ⟨List.length_pos_of_ne_nil h.ne_nil, ?_, ?_, fun m hm hle => ?_⟩
    · rw [List.length_append]
      exact Nat.le_add_right _ _
    · rw [htake]
      exact h.rule_eq
    · rw [List.length_append] at hle
      rw [List.take_append, List.take_of_length_le (Nat.le_of_lt hm)]
      refine h.longer _ fun hnil => ?_
      have hlength := congrArg List.length hnil
      rw [List.length_take, List.length_nil] at hlength
      omega
  rw [lexemes_of_isLongest hlongest, htake, List.drop_left]

/-- **What was put together is found again**, when no rule goes on from its lexemes. -/
theorem lexemes_of_closed {items : List (ρ × List α)} (h : ∀ i ∈ items, Closed rule i.1 i.2)
    (rest : List α) :
    lexemes rule ((items.map Prod.snd).flatten ++ rest) = items ++ lexemes rule rest := by
  induction items with
  | nil => rfl
  | cons i items ih =>
      rw [List.map_cons, List.flatten_cons, List.append_assoc,
        (h i List.mem_cons_self).lexemes_append, ih fun j hj => h j (List.mem_cons_of_mem i hj),
        List.cons_append]

/-- A deterministic automaton; a state may have no way on for a character. -/
structure Automaton (σ : Type w) (α : Type u) (ρ : Type v) where
  start : σ
  step : σ → α → Option σ
  accept : σ → Option ρ

namespace Automaton

variable {σ : Type w} (A : Automaton σ α ρ)

/-- The state after a text. -/
def run : σ → List α → Option σ
  | s, [] => some s
  | s, c :: text => (A.step s c).bind fun t => run t text

/-- The automaton accepts the texts that the rules match. -/
def Recognises (rule : List α → Option ρ) : Prop :=
  ∀ text, text ≠ [] → (A.run A.start text).bind A.accept = rule text

variable {A}

/-- A run can be interrupted and resumed. -/
theorem run_append (s : σ) (first second : List α) :
    A.run s (first ++ second) = (A.run s first).bind fun t => A.run t second := by
  induction first generalizing s with
  | nil => rfl
  | cons c first ih =>
      rw [List.cons_append, run, run, Option.bind_assoc]
      exact congrArg _ (funext ih)

/-- One more character. -/
theorem run_take_succ {text : List α} {n : ℕ} (hn : n < text.length) {s : σ}
    (hrun : A.run A.start (text.take n) = some s) :
    A.run A.start (text.take (n + 1)) = A.step s text[n] := by
  rw [List.take_succ_eq_append_getElem hn, run_append, hrun, Option.bind_some, run]
  cases A.step s text[n] <;> rfl

section Recognises

variable (hrule : A.Recognises rule)
include hrule

/-- The longest match with one more character. -/
theorem longest_succ {text : List α} {n : ℕ} {t : σ} (hne : text ≠ [])
    (hrun : A.run A.start (text.take (n + 1)) = some t) :
    longest rule text (n + 1) =
      ((A.accept t).map fun r => (r, n + 1)).or (longest rule text n) := by
  have htake : text.take (n + 1) ≠ [] := by
    intro h
    rcases List.take_eq_nil_iff.mp h with h | h
    · exact Nat.succ_ne_zero n h
    · exact hne h
  have hlast := hrule _ htake
  rw [hrun, Option.bind_some] at hlast
  rw [longest, ← hlast]

/-- **Where the automaton cannot go on**, the longest match so far is the longest of all. -/
theorem next_eq_longest_of_stuck {text : List α} {n : ℕ} {s : σ}
    (hrun : A.run A.start (text.take n) = some s) (hn : n ≤ text.length)
    (hstuck : ∀ c ∈ (text.drop n).head?, A.step s c = none) :
    next rule text = longest rule text n := by
  have hnone : ∀ m, n < m → m ≤ text.length → rule (text.take m) = none := by
    intro m hm hle
    have hlt : n < text.length := Nat.lt_of_lt_of_le hm hle
    have hdead : A.run A.start (text.take (n + 1)) = none := by
      rw [run_take_succ hlt hrun]
      refine hstuck _ ?_
      rw [List.head?_drop, List.getElem?_eq_getElem hlt]
      rfl
    have hsplit : text.take m = text.take (n + 1) ++ (text.drop (n + 1)).take (m - (n + 1)) := by
      rw [← List.take_add, Nat.add_sub_cancel' hm]
    have hne : text.take m ≠ [] := by
      intro h
      have hlength := congrArg List.length h
      rw [List.length_take, List.length_nil] at hlength
      omega
    rw [← hrule _ hne, hsplit, run_append, hdead]
    rfl
  have hextend : ∀ k, n + k ≤ text.length → longest rule text (n + k) = longest rule text n := by
    intro k
    induction k with
    | zero => exact fun _ => rfl
    | succ k ih =>
        intro hle
        rw [← Nat.add_assoc, longest, hnone (n + k + 1) (by omega) hle, Option.map_none,
          Option.none_or, ih (Nat.le_of_succ_le hle)]
  have hall := hextend (text.length - n) (by omega)
  rw [Nat.add_sub_cancel' hn] at hall
  exact hall

end Recognises

end Automaton

end LongestMatch
