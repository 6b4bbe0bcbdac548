/-
This file holds the machine that reads JSON values. It either stands before a value or has just
read one, and the arrays and objects that are still open are a list of frames, the innermost
first. Nesting has no limit.
-/

import FlowGate.Json.Lexeme.Number
import FlowGate.Json.Reader.Key

namespace FlowGate.Reader

open Lexeme

/-! ### The machine -/

/-- An array or object that is still open, with what was read of it, the last first. -/
inductive Frame where
  | list (items : List Json)
  | object (entries : List (String × Json)) (key : String)

/-- What the machine does next: read a value, or put one into the innermost frame. -/
inductive Turn where
  | value
  | place (value : Json)

/-- The state after a step: reading is done, or goes on. -/
inductive State where
  | finished (value : Json) (rest : List Char)
  | going (turn : Turn) (frames : List Frame) (rest : List Char)

/-! ### Steps -/

/-- Goes on with a frame for the object of which the next key was read. -/
def withKey (entries : List (String × Json)) (frames : List Frame) (text : List Char) :
    Except Fault State :=
  match key text with
  | .error fault => .error fault
  | .ok (key, rest) => .ok (.going .value (.object entries key :: frames) rest)

/-- Goes on with a value that was read. -/
def placing (make : α → Json) (frames : List Frame) (read : Scan α) : Except Fault State :=
  match read with
  | .error fault => .error fault
  | .ok (value, rest) => .ok (.going (.place (make value)) frames rest)

/-- Begins to read a value. -/
def beginValue (frames : List Frame) (text : List Char) : Except Fault State :=
  match skipBlanks text with
  | [] => .error (.before .endInValue [])
  | 'n' :: rest => placing id frames (word Json.null ['u', 'l', 'l'] rest)
  | 't' :: rest => placing id frames (word (Json.bool true) ['r', 'u', 'e'] rest)
  | 'f' :: rest => placing id frames (word (Json.bool false) ['a', 'l', 's', 'e'] rest)
  | '"' :: rest => placing .string frames (string "" rest)
  | '-' :: rest => placing .number frames (number true rest)
  | '[' :: rest =>
    match skipBlanks rest with
    | [] => .error (.before .endInList [])
    | ']' :: rest => .ok (.going (.place (.array [])) frames rest)
    | rest => .ok (.going .value (.list [] :: frames) rest)
  | '\x7b' :: rest =>
    match skipBlanks rest with
    | [] => .error (.before .endInObject [])
    | '\x7d' :: rest => .ok (.going (.place (.object [])) frames rest)
    | '"' :: rest => withKey [] frames rest
    | rest => .error (.on .keyNotString rest)
  | text@(character :: _) =>
    if isDigit character then placing .number frames (number false text)
    else .error (.on .expectedValue text)

/-- Puts a value into an array and looks for a comma or the end of the array. -/
def placeInList (items : List Json) (frames : List Frame) (text : List Char) :
    Except Fault State :=
  match skipBlanks text with
  | [] => .error (.before .endInList [])
  | ']' :: rest => .ok (.going (.place (.array items.reverse)) frames rest)
  | ',' :: rest =>
    match skipBlanks rest with
    | [] => .error (.before .endInValue [])
    | rest@(']' :: _) => .error (.on .trailingComma rest)
    | rest => .ok (.going .value (.list items :: frames) rest)
  | rest => .error (.on .expectedCommaOrBracket rest)

/-- Puts an entry into an object and looks for a comma or the end of the object. -/
def placeInObject (entries : List (String × Json)) (frames : List Frame) (text : List Char) :
    Except Fault State :=
  match skipBlanks text with
  | [] => .error (.before .endInObject [])
  | '\x7d' :: rest => .ok (.going (.place (Json.ofEntries entries.reverse)) frames rest)
  | ',' :: rest =>
    match skipBlanks rest with
    | [] => .error (.before .endInValue [])
    | '"' :: rest => withKey entries frames rest
    | rest@('\x7d' :: _) => .error (.on .trailingComma rest)
    | rest => .error (.on .keyNotString rest)
  | rest => .error (.on .expectedCommaOrBrace rest)

/-- One step of the machine. -/
def step (turn : Turn) (frames : List Frame) (text : List Char) : Except Fault State :=
  match turn, frames with
  | .value, frames => beginValue frames text
  | .place value, [] => .ok (.finished value text)
  | .place value, .list items :: frames => placeInList (value :: items) frames text
  | .place value, .object entries key :: frames =>
    placeInObject ((key, value) :: entries) frames text

end FlowGate.Reader
