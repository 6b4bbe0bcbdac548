/-
This file holds the machine that passes over JSON values. Of the arrays and objects that are still
open it keeps only the brackets, the innermost first. What follows a comma in an array is the
beginning of a value, and what follows one in an object is the beginning of a key.
-/

import FlowGate.Json.Reader.Key
import FlowGate.Json.Skim.Lexeme

namespace FlowGate.Skim

open Lexeme

/-! ### The machine -/

/-- An array or an object that is still open. -/
inductive Bracket where
  | list
  | object
  deriving DecidableEq, Repr

/-- What comes next: a value, the first member of the innermost bracket or its end, or what
follows a value. -/
inductive Turn where
  | value
  | first
  | next

/-- The state after a step: the value is passed over, or more of it follows. -/
inductive State where
  | finished (rest : List Char)
  | going (turn : Turn) (enclosing : List Bracket) (rest : List Char)

/-- Goes on behind a part that was passed over. -/
def behind (enclosing : List Bracket) : Except Fault (List Char) → Except Fault State
  | .error fault => .error fault
  | .ok rest => .ok (.going .next enclosing rest)

/-- Goes on behind a word. -/
def behindWord (enclosing : List Bracket) : Scan Unit → Except Fault State
  | .error fault => .error fault
  | .ok ((), rest) => .ok (.going .next enclosing rest)

/-- Begins to pass over a value. -/
def beginValue (enclosing : List Bracket) (text : List Char) : Except Fault State :=
  match skipBlanks text with
  | [] => .error (.before .endInValue [])
  | 'n' :: rest => behindWord enclosing (word () ['u', 'l', 'l'] rest)
  | 't' :: rest => behindWord enclosing (word () ['r', 'u', 'e'] rest)
  | 'f' :: rest => behindWord enclosing (word () ['a', 'l', 's', 'e'] rest)
  | '"' :: rest => behind enclosing (string rest)
  | '-' :: rest => behind enclosing (number rest)
  | '[' :: rest => .ok (.going .first (.list :: enclosing) rest)
  | '\x7b' :: rest => .ok (.going .first (.object :: enclosing) rest)
  | text@(character :: _) =>
    if isDigit character then behind enclosing (number text) else .error (.on .expectedValue text)

/-- Passes over a key and its colon, before which the opening quotation mark may be missing. -/
def key (enclosing : List Bracket) (text : List Char) : Except Fault State :=
  match skipBlanks text with
  | [] => .error (.before .endInObject [])
  | '"' :: rest =>
    match string rest with
    | .error fault => .error fault
    | .ok rest =>
      match Reader.colon rest with
      | .error fault => .error fault
      | .ok ((), rest) => .ok (.going .value enclosing rest)
  | rest => .error (.on .keyNotString rest)

/-- Goes on to a member of the innermost bracket. -/
def member (bracket : Bracket) (enclosing : List Bracket) (text : List Char) : Except Fault State :=
  match bracket with
  | .list => beginValue (bracket :: enclosing) text
  | .object => key (bracket :: enclosing) text

/-- Looks for the first member of the innermost bracket or for its end. -/
def firstMember (bracket : Bracket) (enclosing : List Bracket) (text : List Char) :
    Except Fault State :=
  match bracket, skipBlanks text with
  | .list, [] => .error (.before .endInList [])
  | .object, [] => .error (.before .endInObject [])
  | .list, ']' :: rest => .ok (.going .next enclosing rest)
  | .object, '\x7d' :: rest => .ok (.going .next enclosing rest)
  | bracket, rest => member bracket enclosing rest

/-- Looks for a comma or the end of the innermost bracket. -/
def nextMember (bracket : Bracket) (enclosing : List Bracket) (text : List Char) :
    Except Fault State :=
  match bracket, skipBlanks text with
  | .list, [] => .error (.before .endInList [])
  | .object, [] => .error (.before .endInObject [])
  | .list, ']' :: rest => .ok (.going .next enclosing rest)
  | .object, '\x7d' :: rest => .ok (.going .next enclosing rest)
  | bracket, ',' :: rest => member bracket enclosing rest
  | .list, rest => .error (.on .expectedCommaOrBracket rest)
  | .object, rest => .error (.on .expectedCommaOrBrace rest)

/-- One step of passing over. -/
def step (turn : Turn) (enclosing : List Bracket) (text : List Char) : Except Fault State :=
  match turn, enclosing with
  | .value, enclosing => beginValue enclosing text
  | .first, bracket :: enclosing => firstMember bracket enclosing text
  | .next, bracket :: enclosing => nextMember bracket enclosing text
  | _, [] => .ok (.finished text)

end FlowGate.Skim
