/-
This file reads the simplest parts of a JSON text from the front of a list of characters: blanks,
digits and the three words. What is left of a text is never longer than the text, and shorter
wherever a character is known to have been read, which is what makes the readers that are built on
these parts end.
-/

import FlowGate.Json.Fault

namespace FlowGate.Lexeme

/-! ### Blanks -/

/-- The four characters that may stand between the parts of a text. -/
def isBlank (character : Char) : Bool :=
  character = ' ' || character = '\n' || character = '\t' || character = '\r'

/-- The text behind the blanks at its front. -/
def skipBlanks (text : List Char) : List Char :=
  text.dropWhile isBlank

theorem skipBlanks_length (text : List Char) : (skipBlanks text).length ≤ text.length :=
  (List.dropWhile_sublist isBlank).length_le

theorem skipBlanks_cons {text rest : List Char} {character : Char}
    (found : skipBlanks text = character :: rest) : rest.length < text.length := by
  have := skipBlanks_length text
  rw [found, List.length_cons] at this
  omega

/-! ### Digits -/

/-- The value of a decimal digit. -/
def digit? (character : Char) : Option Nat :=
  if '0' ≤ character ∧ character ≤ '9' then some (character.toNat - '0'.toNat) else none

/-- Whether a character is a decimal digit. -/
def isDigit (character : Char) : Bool :=
  (digit? character).isSome

/-- Whether a text begins with a digit. -/
def beginsWithDigit : List Char → Bool
  | [] => false
  | character :: _ => isDigit character

/-! ### Words -/

/-- Reads the rest of a word whose first letter was seen. -/
def word (value : α) : List Char → List Char → Scan α
  | [], text => .ok (value, text)
  | _ :: _, [] => .error (.before .endInValue [])
  | letter :: letters, text@(character :: rest) =>
    if character = letter then word value letters rest
    else .error (.on .expectedWord text)

theorem word_length {value found : α} {letters text rest : List Char}
    (read : word value letters text = .ok (found, rest)) : rest.length ≤ text.length := by
  fun_induction word value letters text with
  | case1 => cases read; exact Nat.le_refl _
  | case2 => cases read
  | case3 letters character more inductionHypothesis =>
    have := inductionHypothesis read
    simp only [List.length_cons]; omega
  | case4 => cases read

end FlowGate.Lexeme
