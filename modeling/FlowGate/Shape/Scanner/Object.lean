/-
This file reads the entries of an object that holds a record. What was read so far is a draft, and
a key is put to use according to the draft: its value is read into it or, if the key is not known,
passed over. A key that is given twice is reported behind the blanks and the closing brace that
follow it, if one follows.
-/

import FlowGate.Json.Skim
import FlowGate.Shape.Scanner.Basic

namespace FlowGate

open Lexeme Reader

/-! ### Keys -/

/-- What a key means to an object of which a part was read: it is unknown, it was met before, or
its value is read next. -/
inductive KeyUse (α : Type) where
  | unknown
  | repeated
  | known (scanner : Scanner α)

/-- The same use with another account of what was read. -/
def KeyUse.map (change : α → β) : KeyUse α → KeyUse β
  | .unknown => .unknown
  | .repeated => .repeated
  | .known scanner => .known (scanner.map change)

namespace Scanner

/-! ### Entries -/

/-- Passes over a value. -/
def ignored (draft : α) : Scanner α where
  run text :=
    match Skim.value text with
    | .error fault => .error fault
    | .ok rest => .ok (draft, rest)
  shorter result := by
    split at result
    · cases result
    · next passed => cases result; exact Skim.value_length passed

/-- The text behind blanks and a closing brace, if one follows. -/
def behindBrace (text : List Char) : List Char :=
  match skipBlanks text with
  | '\x7d' :: rest => rest
  | rest => rest

/-- Reads the value of a key and the colon before it. -/
def member (use : String → α → KeyUse α) (draft : α) (key : String) (text : List Char) : Scan α :=
  match use key draft with
  | .unknown => (ignored draft).behindColon.run text
  | .known scanner => scanner.behindColon.run text
  | .repeated => .error (.before (.mismatch (.repeatedField key)) (behindBrace text))

theorem member_length {use : String → α → KeyUse α} {draft value : α} {key : String}
    {text rest : List Char} (read : member use draft key text = .ok (value, rest)) :
    rest.length < text.length := by
  unfold member at read
  split at read
  · exact (ignored draft).behindColon.shorter read
  · next scanner _ => exact scanner.behindColon.shorter read
  · cases read

/-- Reads the entries of an object, from behind the opening quotation mark of a key to the end of
the object. -/
def entriesFrom (use : String → α → KeyUse α) (draft : α) (text : List Char) : Scan α :=
  match _named : string "" text with
  | .error fault => .error fault
  | .ok (key, rest) =>
    match _read : member use draft key rest with
    | .error fault => .error fault
    | .ok (draft, rest) =>
      match _found : skipBlanks rest with
      | [] => .error (.before .endInObject [])
      | '\x7d' :: rest => .ok (draft, rest)
      | ',' :: rest =>
        match _next : skipBlanks rest with
        | [] => .error (.before .endInValue [])
        | '"' :: rest => entriesFrom use draft rest
        | rest@('\x7d' :: _) => .error (.on .trailingComma rest)
        | rest => .error (.on .keyNotString rest)
      | rest => .error (.on .expectedCommaOrBrace rest)
termination_by text.length
decreasing_by
  exact Nat.lt_trans (skipBlanks_cons _next)
    (Nat.lt_trans (skipBlanks_cons _found)
      (Nat.lt_trans (member_length _read) (string_length _named)))

theorem entriesFrom_length {use : String → α → KeyUse α} {draft value : α}
    {text rest : List Char} (read : entriesFrom use draft text = .ok (value, rest)) :
    rest.length < text.length := by
  fun_induction entriesFrom use draft text with
  | case1 => cases read
  | case2 => cases read
  | case3 => cases read
  | case4 _ _ _ _ named _ _ first _ found =>
    cases read
    exact Nat.lt_trans (skipBlanks_cons found)
      (Nat.lt_trans (member_length first) (string_length named))
  | case5 => cases read
  | case6 _ _ _ _ named _ _ first _ found _ next inductionHypothesis =>
    exact Nat.lt_trans (inductionHypothesis read) (Nat.lt_trans (skipBlanks_cons next)
      (Nat.lt_trans (skipBlanks_cons found)
        (Nat.lt_trans (member_length first) (string_length named))))
  | case7 => cases read
  | case8 => cases read
  | case9 => cases read

/-- Reads the entries of an object whose opening brace was seen. -/
def entries (use : String → α → KeyUse α) (blank : α) (text : List Char) : Scan α :=
  match skipBlanks text with
  | [] => .error (.before .endInObject [])
  | '\x7d' :: rest => .ok (blank, rest)
  | '"' :: rest => entriesFrom use blank rest
  | rest => .error (.on .keyNotString rest)

theorem entries_length {use : String → α → KeyUse α} {blank value : α} {text rest : List Char}
    (read : entries use blank text = .ok (value, rest)) : rest.length < text.length := by
  unfold entries at read
  split at read
  · cases read
  · next found => cases read; exact skipBlanks_cons found
  · next found => exact Nat.lt_trans (entriesFrom_length read) (skipBlanks_cons found)
  · cases read

end Scanner

end FlowGate
