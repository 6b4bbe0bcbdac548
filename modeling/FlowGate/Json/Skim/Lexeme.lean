/-
This file passes over strings and numbers whose content does not matter. Passing over checks less
than reading: a number may be of any size, and the codes of an escaped character need not form a
pair.
-/

import FlowGate.Json.Lexeme.Number
import FlowGate.Json.Lexeme.String

namespace FlowGate.Skim

open Lexeme

/-! ### Strings -/

/-- Passes over what follows a backslash. -/
def escape (text : List Char) : Except Fault (List Char) :=
  match text with
  | [] => .error (.before .endInString [])
  | 'u' :: rest =>
    match hexGroup rest with
    | .error fault => .error fault
    | .ok (_, rest) => .ok rest
  | letter :: rest =>
    match escapedCharacter? letter with
    | some _ => .ok rest
    | none => .error (.on .badEscape text)

theorem escape_length {text rest : List Char} (passed : escape text = .ok rest) :
    rest.length < text.length := by
  unfold escape at passed
  split at passed
  · cases passed
  · split at passed
    · cases passed
    · next read =>
      have := hexGroup_length read
      cases passed; simp only [List.length_cons]; omega
  · split at passed
    · cases passed; simp only [List.length_cons]; omega
    · cases passed

/-- Passes over the rest of a string whose opening quotation mark was seen. -/
def string (text : List Char) : Except Fault (List Char) :=
  match text with
  | [] => .error (.before .endInString [])
  | '"' :: rest => .ok rest
  | '\\' :: rest =>
    match _passed : escape rest with
    | .error fault => .error fault
    | .ok rest => string rest
  | character :: rest =>
    if character.toNat < 0x20 then .error (.before .controlCharacter text) else string rest
termination_by text.length
decreasing_by
  · have := escape_length _passed
    simp only [List.length_cons]; omega
  · simp only [List.length_cons]; omega

theorem string_length {text rest : List Char} (passed : string text = .ok rest) :
    rest.length < text.length := by
  fun_induction string text with
  | case1 => cases passed
  | case2 => cases passed; simp only [List.length_cons]; omega
  | case3 => cases passed
  | case4 more behind escaped inductionHypothesis =>
    have := inductionHypothesis passed
    have := escape_length escaped
    simp only [List.length_cons]; omega
  | case5 => cases passed
  | case6 character more _ _ _ inductionHypothesis =>
    have := inductionHypothesis passed
    simp only [List.length_cons]; omega

/-! ### Numbers -/

/-- Passes over an exponent whose mark was seen. -/
def exponent (text : List Char) : Except Fault (List Char) :=
  let (_, text) := exponentSign text
  match text with
  | [] => .error (.before .badNumber [])
  | character :: rest =>
    if isDigit character then .ok (rest.dropWhile isDigit) else .error (.on .badNumber text)

/-- Passes over an exponent if one follows. -/
def scale (text : List Char) : Except Fault (List Char) :=
  match text with
  | 'e' :: rest | 'E' :: rest => exponent rest
  | _ => .ok text

/-- Passes over what follows the whole part of a number. -/
def afterWhole (text : List Char) : Except Fault (List Char) :=
  match text with
  | '.' :: rest =>
    if beginsWithDigit rest then scale (rest.dropWhile isDigit) else .error (.on .badNumber rest)
  | _ => scale text

/-- Passes over a number behind its sign. -/
def number (text : List Char) : Except Fault (List Char) :=
  match text with
  | [] => .error (.before .badNumber [])
  | '0' :: rest => if beginsWithDigit rest then .error (.on .badNumber rest) else afterWhole rest
  | character :: rest =>
    if isDigit character then afterWhole (rest.dropWhile isDigit)
    else .error (.on .badNumber text)

theorem exponent_length {text rest : List Char} (passed : exponent text = .ok rest) :
    rest.length ≤ text.length := by
  have signed := exponentSign_length text
  unfold exponent at passed
  split at passed
  next negative behind found =>
  rw [found] at signed
  simp only at signed
  split at passed
  · cases passed
  · next character more =>
    simp only [List.length_cons] at signed
    split at passed
    · cases passed
      have : (more.dropWhile isDigit).length ≤ more.length :=
        (List.dropWhile_sublist isDigit).length_le
      omega
    · cases passed

theorem scale_length {text rest : List Char} (passed : scale text = .ok rest) :
    rest.length ≤ text.length := by
  unfold scale at passed
  split at passed
  · have := exponent_length passed
    simp only [List.length_cons]; omega
  · have := exponent_length passed
    simp only [List.length_cons]; omega
  · cases passed; exact Nat.le_refl _

theorem afterWhole_length {text rest : List Char} (passed : afterWhole text = .ok rest) :
    rest.length ≤ text.length := by
  unfold afterWhole at passed
  split at passed
  · next more =>
    split at passed
    · have := scale_length passed
      have : (more.dropWhile isDigit).length ≤ more.length :=
        (List.dropWhile_sublist isDigit).length_le
      simp only [List.length_cons]; omega
    · cases passed
  · exact scale_length passed

theorem number_length {text rest : List Char} (passed : number text = .ok rest) :
    rest.length < text.length := by
  unfold number at passed
  split at passed
  · cases passed
  · split at passed
    · cases passed
    · have := afterWhole_length passed
      simp only [List.length_cons]; omega
  · next character more _ =>
    split at passed
    · have := afterWhole_length passed
      have : (more.dropWhile isDigit).length ≤ more.length :=
        (List.dropWhile_sublist isDigit).length_le
      simp only [List.length_cons]; omega
    · cases passed

end FlowGate.Skim
