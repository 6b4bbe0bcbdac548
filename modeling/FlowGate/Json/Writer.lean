/-
This file writes JSON values as text without blanks. Members stand in the order in which the value
holds them. Values may be nested to any depth, so the writer keeps a list of what is still to be
written: values, each with the text that leads to it, and closing brackets.
-/

import FlowGate.Json.Number

namespace FlowGate.Writer

/-! ### Strings -/

/-- A code below sixteen as a hexadecimal digit. -/
def hexDigit (code : Nat) : Char :=
  Nat.digitChar code

/-- How one character stands in a written string. -/
def escaped (character : Char) : String :=
  match character with
  | '"' => "\\\""
  | '\\' => "\\\\"
  | '\x08' => "\\b"
  | '\x0c' => "\\f"
  | '\n' => "\\n"
  | '\r' => "\\r"
  | '\t' => "\\t"
  | _ =>
    if character.toNat < 0x20 then
      (("\\u00".push (hexDigit (character.toNat / 16))).push (hexDigit (character.toNat % 16)))
    else character.toString

/-- Whether a character stands for itself in a written string. -/
def isPlain (character : Char) : Bool :=
  0x20 ≤ character.toNat && character ≠ '"' && character ≠ '\\'

/-- A string with its quotation marks. -/
def string (text : String) : String :=
  (text.foldl
    (fun done character =>
      if isPlain character then done.push character else done ++ escaped character)
    "\"").push '"'

/-! ### Values -/

/-- What is still to be written: a closing bracket, or a value behind the text that leads to it. -/
inductive Piece where
  | closing (bracket : String)
  | item (lead : String) (value : Json)

/-- A value behind a comma. -/
def laterItem (value : Json) : Piece :=
  .item "," value

/-- Each value as a piece; all but the first stand behind a comma. -/
def items : List Json → List Piece
  | [] => []
  | value :: rest => .item "" value :: rest.map laterItem

/-- A key and the colon behind it. -/
def named (key : String) : String :=
  string key ++ ":"

/-- An entry behind a comma. -/
def laterEntry (entry : String × Json) : Piece :=
  .item ("," ++ named entry.1) entry.2

/-- Each entry as a piece; all but the first stand behind a comma. -/
def entries : List (String × Json) → List Piece
  | [] => []
  | (key, value) :: rest => .item (named key) value :: rest.map laterEntry

/-- The text of a value as far as its opening bracket. -/
def opening : Json → String
  | .null => "null"
  | .bool true => "true"
  | .bool false => "false"
  | .number value => value.text
  | .string value => string value
  | .array _ => "["
  | .object _ => "\x7b"

/-- The pieces that follow the opening bracket of a value. -/
def inside : Json → List Piece
  | .array values => items values ++ [.closing "]"]
  | .object fields => entries fields ++ [.closing "\x7d"]
  | _ => []

/-- How much is still to be written. -/
def pending : List Piece → Nat
  | [] => 0
  | .closing _ :: rest => 1 + pending rest
  | .item _ value :: rest => 2 * value.weight + pending rest

theorem pending_append (first second : List Piece) :
    pending (first ++ second) = pending first + pending second := by
  induction first with
  | nil => simp [pending]
  | cons piece rest inductionHypothesis =>
    cases piece <;> simp only [List.cons_append, pending] <;> omega

theorem pending_laterItems (values : List Json) :
    pending (values.map laterItem) = 2 * Json.weightOfItems values := by
  induction values with
  | nil => rfl
  | cons value rest inductionHypothesis =>
    simp only [List.map_cons, laterItem, pending, Json.weightOfItems]
    rw [inductionHypothesis]
    omega

theorem pending_items (values : List Json) :
    pending (items values) = 2 * Json.weightOfItems values := by
  cases values with
  | nil => rfl
  | cons value rest =>
    simp only [items, pending, pending_laterItems, Json.weightOfItems]
    omega

theorem pending_laterEntries (fields : List (String × Json)) :
    pending (fields.map laterEntry) = 2 * Json.weightOfFields fields := by
  induction fields with
  | nil => rfl
  | cons entry rest inductionHypothesis =>
    simp only [List.map_cons, laterEntry, pending, Json.weightOfFields]
    rw [inductionHypothesis]
    omega

theorem pending_entries (fields : List (String × Json)) :
    pending (entries fields) = 2 * Json.weightOfFields fields := by
  cases fields with
  | nil => rfl
  | cons entry rest =>
    simp only [entries, pending, pending_laterEntries, Json.weightOfFields]
    omega

theorem pending_inside (value : Json) : pending (inside value) < 2 * value.weight := by
  cases value with
  | array values =>
    simp only [inside, pending_append, pending_items, pending, Json.weight]; omega
  | object fields =>
    simp only [inside, pending_append, pending_entries, pending, Json.weight]; omega
  | _ => simp [inside, pending, Json.weight]

/-- Writes all pieces behind what is written already. -/
def pieces (done : String) (todo : List Piece) : String :=
  match todo with
  | [] => done
  | .closing bracket :: rest => pieces (done ++ bracket) rest
  | .item lead value :: rest => pieces (done ++ lead ++ opening value) (inside value ++ rest)
termination_by pending todo
decreasing_by
  · simp only [pending]; omega
  · simp only [pending, pending_append]
    have := pending_inside value
    omega

end FlowGate.Writer

namespace FlowGate

/-- The text of a value. -/
def Json.write (value : Json) : String :=
  Writer.pieces "" [.item "" value]

end FlowGate
