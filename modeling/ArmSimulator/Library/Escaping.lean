import Mathlib.Logic.Function.Basic
import Mathlib.Tactic.Common

/-!
# Texts with escapes

A sender that may not use some characters writes a mark before them, and an image of them after it;
the receiver takes the image back.  The count of the characters that are sent is not the one of the
text.

* `next`, one character of the receiver; `next_escapeOne` is one step of both.
* `decode`, a number of characters; `decode_escape` reads what was sent, and what follows the text
  has no part in it.

The image is an involution, as with an exclusive or, and the mark is one of the characters that may
not be sent.  The receiver does not know which characters are special: it takes the image back
behind every mark.
-/

universe u

namespace Escaping

variable {α : Type u} [DecidableEq α] (mark : α) (image : α → α)

/-- One character, and the text that follows it. -/
def next : List α → Option (α × List α)
  | [] => none
  | c :: cs => if c = mark then cs.head?.map fun e => (image e, cs.tail) else some (c, cs)

/-- The next `count` characters. -/
def decode : ℕ → List α → Option (List α)
  | 0, _ => some []
  | count + 1, text =>
      (next mark image text).bind fun s => (decode count s.2).map (s.1 :: ·)

theorem length_of_decode {count : ℕ} {text as : List α}
    (h : decode mark image count text = some as) : as.length = count := by
  induction count generalizing text as with
  | zero => rw [← Option.some.inj h]; rfl
  | succ count ih =>
      obtain ⟨s, -, hrest⟩ := Option.bind_eq_some_iff.mp h
      obtain ⟨bs, hbs, rfl⟩ := Option.map_eq_some_iff.mp hrest
      rw [List.length_cons, ih hbs]

section Sender

variable (special : α → Prop) [DecidablePred special]

/-- A character as it is sent. -/
def escapeOne (a : α) : List α := if special a then [mark, image a] else [a]

/-- A text as it is sent. -/
def escape (as : List α) : List α := as.flatMap (escapeOne mark image special)

variable {mark image special}

/-- **One step**: a character that is sent is the next one, when the mark is not sent as it is. -/
theorem next_escapeOne (hmark : special mark) (himage : Function.Involutive image) (a : α)
    (rest : List α) :
    next mark image (escapeOne mark image special a ++ rest) = some (a, rest) := by
  rw [escapeOne]
  split_ifs with ha
  · rw [List.cons_append, next, if_pos rfl, List.singleton_append, List.head?_cons, Option.map_some,
      himage a, List.tail_cons]
  · have hne : a ≠ mark := fun h => ha (h ▸ hmark)
    rw [List.singleton_append, next, if_neg hne]

/-- **What is sent is received**, whatever follows it. -/
theorem decode_escape (hmark : special mark) (himage : Function.Involutive image)
    (as rest : List α) :
    decode mark image as.length (escape mark image special as ++ rest) = some as := by
  induction as with
  | nil => rfl
  | cons a as ih =>
      rw [List.length_cons, decode, escape, List.flatMap_cons, List.append_assoc,
        next_escapeOne hmark himage, Option.bind_some]
      exact congrArg (Option.map (a :: ·)) ih

end Sender

end Escaping
