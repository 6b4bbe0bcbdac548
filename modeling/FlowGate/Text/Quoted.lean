/-
This file quotes a text for a message: it stands between quotation marks, a quotation mark and a
backslash follow a backslash, the common control characters have their letter, and every other
character that has no visible form, or combines with the one before it, is given by its code.
-/

import FlowGate.Text.Unprintable

namespace FlowGate.Text

/-- A code in lower-case hexadecimal digits. -/
def hexadecimal (code : Nat) : String :=
  String.ofList (Nat.toDigits 16 code)

/-- How one character stands in a quoted text. -/
def quotedCharacter (character : Char) : String :=
  match character with
  | '"' => "\\\""
  | '\\' => "\\\\"
  | '\n' => "\\n"
  | '\r' => "\\r"
  | '\t' => "\\t"
  | '\x00' => "\\0"
  | _ =>
    if isUnprintable character || isExtending character then
      "\\u\x7b" ++ hexadecimal character.toNat ++ "\x7d"
    else character.toString

/-- A text between quotation marks. -/
def quoted (text : String) : String :=
  text.foldl (fun done character => done ++ quotedCharacter character) "\"" ++ "\""

end FlowGate.Text
