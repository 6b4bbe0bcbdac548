/-
This file says why a text cannot be read and where reading stopped. A fault keeps the number of
bytes that were not read, so that no position is carried along while reading; line and column are
found from the whole text when they are asked for.
-/

import FlowGate.Json.Mismatch

namespace FlowGate

/-- What is wrong with a text. -/
inductive Fault.Cause where
  | endInValue
  | endInString
  | endInList
  | endInObject
  | expectedValue
  | expectedWord
  | expectedCommaOrBracket
  | expectedCommaOrBrace
  | expectedColon
  | keyNotString
  | trailingComma
  | trailingCharacters
  | badNumber
  | numberOutOfRange
  | badEscape
  | endOfEscape
  | loneSurrogate
  | controlCharacter
  | mismatch (reason : Mismatch)

/-- What is wrong with a text, and how many of its bytes lie behind that place. -/
structure Fault where
  cause : Fault.Cause
  unread : Nat

/-- The outcome of reading from the front of a text: a value and the rest of the text. -/
abbrev Scan (α : Type) : Type := Except Fault (α × List Char)

namespace Fault

/-- The words for what is wrong. -/
def Cause.message : Cause → String
  | .endInValue => "EOF while parsing a value"
  | .endInString => "EOF while parsing a string"
  | .endInList => "EOF while parsing a list"
  | .endInObject => "EOF while parsing an object"
  | .expectedValue => "expected value"
  | .expectedWord => "expected ident"
  | .expectedCommaOrBracket => "expected `,` or `]`"
  | .expectedCommaOrBrace => "expected `,` or `\x7d`"
  | .expectedColon => "expected `:`"
  | .keyNotString => "key must be a string"
  | .trailingComma => "trailing comma"
  | .trailingCharacters => "trailing characters"
  | .badNumber => "invalid number"
  | .numberOutOfRange => "number out of range"
  | .badEscape => "invalid escape"
  | .endOfEscape => "unexpected end of hex escape"
  | .loneSurrogate => "lone leading surrogate in hex escape"
  | .controlCharacter => "control character (\\u0000-\\u001F) found while parsing a string"
  | .mismatch reason => reason.message

/-- The number of bytes of characters in UTF-8. -/
def byteCount (characters : List Char) : Nat :=
  characters.foldl (fun total character => total + character.utf8Size) 0

/-- The fault that shows before the rest of the text. -/
def before (cause : Cause) (rest : List Char) : Fault :=
  ⟨cause, byteCount rest⟩

/-- The fault that lies on the first byte of the rest of the text, if there is one. -/
def on (cause : Cause) (rest : List Char) : Fault :=
  ⟨cause, byteCount rest - 1⟩

/-- A place in a text: lines count from one, columns are the bytes read of the line. -/
structure Place where
  line : Nat
  column : Nat
  deriving DecidableEq, Repr

/-- The place that many bytes behind `place`, where `characters` are those that follow it. -/
def Place.advance (place : Place) : List Char → Nat → Place
  | [], _ => place
  | character :: rest, bytes =>
    if bytes < character.utf8Size then ⟨place.line, place.column + bytes⟩
    else if character = '\n' then Place.advance ⟨place.line + 1, 0⟩ rest (bytes - 1)
    else
      Place.advance ⟨place.line, place.column + character.utf8Size⟩ rest
        (bytes - character.utf8Size)

/-- Where a fault lies in its text. -/
def place (fault : Fault) (text : String) : Place :=
  Place.advance ⟨1, 0⟩ text.toList (text.utf8ByteSize - fault.unread)

/-- The words of a fault with its place. -/
def message (fault : Fault) (text : String) : String :=
  let place := fault.place text
  s!"{fault.cause.message} at line {place.line} column {place.column}"

end Fault

end FlowGate
