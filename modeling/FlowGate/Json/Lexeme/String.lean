/-
This file reads strings. A character may be given by its code, in four hexadecimal digits or, from
`0x10000` on, as a pair of two codes; a code that belongs to a pair and has no partner is a fault,
and so is a control character that stands for itself.
-/

import FlowGate.Json.Lexeme.Basic

namespace FlowGate.Lexeme

/-! ### Codes -/

/-- The value of a hexadecimal digit. -/
def hexDigit? (character : Char) : Option Nat :=
  if '0' ≤ character ∧ character ≤ '9' then some (character.toNat - '0'.toNat)
  else if 'a' ≤ character ∧ character ≤ 'f' then some (character.toNat - 'a'.toNat + 10)
  else if 'A' ≤ character ∧ character ≤ 'F' then some (character.toNat - 'A'.toNat + 10)
  else none

/-- The number that four hexadecimal digits stand for. -/
def hexGroup? (first second third fourth : Char) : Option Nat := do
  let first ← hexDigit? first
  let second ← hexDigit? second
  let third ← hexDigit? third
  let fourth ← hexDigit? fourth
  some (((first * 16 + second) * 16 + third) * 16 + fourth)

/-- The fault of four bytes that are no group of hexadecimal digits; fewer than four bytes end the
text inside the string. -/
def hexFault (text : List Char) : Fault :=
  let bytes := Fault.byteCount text
  if bytes < 4 then .before .endInString [] else ⟨.badEscape, bytes - 4⟩

/-- Reads four hexadecimal digits. -/
def hexGroup (text : List Char) : Scan Nat :=
  match text with
  | first :: second :: third :: fourth :: rest =>
    match hexGroup? first second third fourth with
    | some unit => .ok (unit, rest)
    | none => .error (hexFault text)
  | _ => .error (hexFault text)

/-- Whether a unit is the first one of a pair. -/
def isHighSurrogate (unit : Nat) : Bool :=
  0xD800 ≤ unit && unit ≤ 0xDBFF

/-- Whether a unit is the second one of a pair. -/
def isLowSurrogate (unit : Nat) : Bool :=
  0xDC00 ≤ unit && unit ≤ 0xDFFF

/-- The character that a pair of units stands for. -/
def pairedCharacter (high low : Nat) : Char :=
  Char.ofNat ((high - 0xD800) * 0x400 + (low - 0xDC00) + 0x10000)

/-- Reads a character given by its code, one unit or a pair of units. -/
def codedCharacter (text : List Char) : Scan Char :=
  match hexGroup text with
  | .error fault => .error fault
  | .ok (unit, rest) =>
    if isLowSurrogate unit then .error (.before .loneSurrogate rest)
    else if isHighSurrogate unit then
      match rest with
      | '\\' :: 'u' :: rest =>
        match hexGroup rest with
        | .error fault => .error fault
        | .ok (low, rest) =>
          if isLowSurrogate low then .ok (pairedCharacter unit low, rest)
          else .error (.before .loneSurrogate rest)
      | [] | ['\\'] => .error (.before .endInString [])
      | '\\' :: rest => .error (.on .endOfEscape rest)
      | _ => .error (.on .endOfEscape rest)
    else .ok (Char.ofNat unit, rest)

/-- The character that a letter behind a backslash stands for. -/
def escapedCharacter? (letter : Char) : Option Char :=
  match letter with
  | '"' => some '"'
  | '\\' => some '\\'
  | '/' => some '/'
  | 'b' => some '\x08'
  | 'f' => some '\x0c'
  | 'n' => some '\n'
  | 'r' => some '\r'
  | 't' => some '\t'
  | _ => none

/-- Reads what follows a backslash. -/
def escape (text : List Char) : Scan Char :=
  match text with
  | [] => .error (.before .endInString [])
  | 'u' :: rest => codedCharacter rest
  | letter :: rest =>
    match escapedCharacter? letter with
    | some character => .ok (character, rest)
    | none => .error (.on .badEscape text)

theorem hexGroup_length {text rest : List Char} {unit : Nat}
    (read : hexGroup text = .ok (unit, rest)) : rest.length < text.length := by
  unfold hexGroup at read
  split at read
  · split at read
    · cases read; simp only [List.length_cons]; omega
    · cases read
  · cases read

theorem codedCharacter_length {text rest : List Char} {character : Char}
    (read : codedCharacter text = .ok (character, rest)) : rest.length < text.length := by
  unfold codedCharacter at read
  split at read
  · cases read
  · next unit behind first =>
    have shorter := hexGroup_length first
    split at read
    · cases read
    · split at read
      · split at read
        · split at read
          · cases read
          · next low behind' second =>
            have shorter' := hexGroup_length second
            split at read
            · simp only [Except.ok.injEq, Prod.mk.injEq] at read
              simp only [← read.2, List.length_cons] at shorter ⊢; omega
            · cases read
        all_goals cases read
      · simp only [Except.ok.injEq, Prod.mk.injEq] at read
        simp only [← read.2]; exact shorter

theorem escape_length {text rest : List Char} {character : Char}
    (read : escape text = .ok (character, rest)) : rest.length < text.length := by
  unfold escape at read
  split at read
  · cases read
  · next more =>
    have shorter := codedCharacter_length read
    simp only [List.length_cons]; omega
  · split at read
    · cases read; simp only [List.length_cons]; omega
    · cases read

/-! ### Strings -/

/-- Reads the rest of a string whose opening quotation mark was seen, behind what was read of it. -/
def string (done : String) (text : List Char) : Scan String :=
  match text with
  | [] => .error (.before .endInString [])
  | '"' :: rest => .ok (done, rest)
  | '\\' :: rest =>
    match _read : escape rest with
    | .ok (character, rest) => string (done.push character) rest
    | .error fault => .error fault
  | character :: rest =>
    if character.toNat < 0x20 then .error (.on .controlCharacter text)
    else string (done.push character) rest
termination_by text.length
decreasing_by
  · have := escape_length _read
    simp only [List.length_cons]; omega
  · simp only [List.length_cons]; omega

theorem string_length {done value : String} {text rest : List Char}
    (read : string done text = .ok (value, rest)) : rest.length < text.length := by
  fun_induction string done text with
  | case1 => cases read
  | case2 =>
    simp only [Except.ok.injEq, Prod.mk.injEq] at read
    simp only [← read.2, List.length_cons]; omega
  | case3 done more character behind escaped inductionHypothesis =>
    have := inductionHypothesis read
    have := escape_length escaped
    simp only [List.length_cons]; omega
  | case4 => cases read
  | case5 => cases read
  | case6 done character more _ _ _ inductionHypothesis =>
    have := inductionHypothesis read
    simp only [List.length_cons]; omega

end FlowGate.Lexeme
