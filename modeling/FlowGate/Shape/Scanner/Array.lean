/-
This file reads the fields of a record from an array that holds them in order. An array that ends
before a field that it has to hold is reported behind its closing bracket.
-/

import FlowGate.Shape.Scanner.Value

namespace FlowGate.Scanner

open Lexeme Reader

/-! ### Elements -/

/-- A reader from the front of a text that may leave it as it is. -/
structure Part (α : Type) where
  run : List Char → Scan α
  bounded : ∀ {text value rest}, run text = .ok (value, rest) → rest.length ≤ text.length

/-- Goes to the next value of an array, or tells that its closing bracket comes next. -/
def nextValue (first : Bool) (text : List Char) : Scan Bool :=
  match skipBlanks text with
  | [] => .error (.before .endInList [])
  | rest@(']' :: _) => .ok (false, rest)
  | rest@(',' :: behind) =>
    if first then .ok (true, rest)
    else
      match skipBlanks behind with
      | [] => .error (.before .endInValue [])
      | rest@(']' :: _) => .error (.on .trailingComma rest)
      | rest => .ok (true, rest)
  | rest => if first then .ok (true, rest) else .error (.on .expectedCommaOrBracket rest)

theorem nextValue_length {first more : Bool} {text rest : List Char}
    (read : nextValue first text = .ok (more, rest)) : rest.length ≤ text.length := by
  have blanks := skipBlanks_length text
  unfold nextValue at read
  split at read
  · cases read
  · next found => rw [found] at blanks; cases read; exact blanks
  · next found =>
    rw [found] at blanks
    split at read
    · cases read; exact blanks
    · split at read
      · cases read
      · cases read
      · next behind _ _ _ _ =>
        cases read
        have := skipBlanks_length behind
        simp only [List.length_cons] at blanks
        omega
  · split at read
    · cases read; exact blanks
    · cases read

/-- Goes behind the closing bracket of an array of which all fields were read. -/
def closeArray (held : α) (text : List Char) : Scan α :=
  match skipBlanks text with
  | [] => .error (.before .endInList [])
  | ']' :: rest => .ok (held, rest)
  | ',' :: rest =>
    match skipBlanks rest with
    | rest@(']' :: _) => .error (.on .trailingComma rest)
    | rest => .error (.on .trailingCharacters rest)
  | rest => .error (.on .trailingCharacters rest)

theorem closeArray_length {held value : α} {text rest : List Char}
    (read : closeArray held text = .ok (value, rest)) : rest.length < text.length := by
  unfold closeArray at read
  split at read
  · cases read
  · next found => cases read; exact skipBlanks_cons found
  · split at read <;> cases read
  · cases read

/-- Puts what a field holds before what the later fields hold. -/
def pairedWith (held : α) (others : Scan β) : Scan (α × β) :=
  mapped (fun others => (held, others)) others

/-- Reads a field of an array and the fields behind it. -/
def fieldThen (presence : Presence) (scanner : Scanner α) (tooShort : Mismatch) (first : Bool)
    (others : Bool → Part β) : Part (presence.Held α × β) where
  run text :=
    match nextValue first text with
    | .error fault => .error fault
    | .ok (true, rest) =>
      match (held presence scanner).run rest with
      | .error fault => .error fault
      | .ok (held, rest) => pairedWith held ((others false).run rest)
    | .ok (false, rest) =>
      match presence.whenListEnds with
      | none => .error (.before (.mismatch tooShort) (rest.drop 1))
      | some held => pairedWith held ((others first).run rest)
  bounded result := by
    split at result
    · cases result
    · next went =>
      have := nextValue_length went
      split at result
      · cases result
      · next read =>
        have := (held presence scanner).shorter read
        obtain ⟨_, later⟩ := mapped_eq_ok result
        have := (others false).bounded later
        omega
    · next went =>
      have := nextValue_length went
      split at result
      · cases result
      · obtain ⟨_, later⟩ := mapped_eq_ok result
        have := (others first).bounded later
        omega

end FlowGate.Scanner
