/-
This file reads the key of an entry and the colon behind it.
-/

import FlowGate.Json.Lexeme.String

namespace FlowGate.Reader

open Lexeme

/-- Reads the colon behind a key. -/
def colon (text : List Char) : Scan Unit :=
  match skipBlanks text with
  | [] => .error (.before .endInObject [])
  | ':' :: rest => .ok ((), rest)
  | rest => .error (.on .expectedColon rest)

/-- Reads a key whose opening quotation mark was seen, and the colon behind it. -/
def key (text : List Char) : Scan String :=
  match string "" text with
  | .error fault => .error fault
  | .ok (key, rest) =>
    match colon rest with
    | .error fault => .error fault
    | .ok ((), rest) => .ok (key, rest)

theorem colon_length {text rest : List Char} (read : colon text = .ok ((), rest)) :
    rest.length < text.length := by
  unfold colon at read
  split at read
  · cases read
  · next found => cases read; exact skipBlanks_cons found
  · cases read

theorem key_length {text rest : List Char} {name : String} (read : key text = .ok (name, rest)) :
    rest.length < text.length := by
  unfold key at read
  split at read
  · cases read
  · next first =>
    have := string_length first
    split at read
    · cases read
    · next second =>
      have := colon_length second
      cases read; omega

end FlowGate.Reader
