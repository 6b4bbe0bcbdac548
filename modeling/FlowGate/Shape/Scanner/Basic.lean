/-
This file holds readers of single values from the front of a text. A reader always takes something
off the text, which is what makes the reading of lists and records end. A value of the wrong type is
reported where it was met: words, numbers and strings are read whole first, arrays and objects are
not entered.
-/

import FlowGate.Json.Reader
import FlowGate.Shape.OfJson

namespace FlowGate

open Lexeme Reader

/-- A reader from the front of a text that always takes something off it. -/
structure Scanner (α : Type) where
  run : List Char → Scan α
  shorter : ∀ {text value rest}, run text = .ok (value, rest) → rest.length < text.length

namespace Scanner

/-! ### Combining readers -/

/-- Changes what was read. -/
def mapped (change : α → β) (read : Scan α) : Scan β :=
  match read with
  | .error fault => .error fault
  | .ok (value, rest) => .ok (change value, rest)

theorem mapped_eq_ok {change : α → β} {read : Scan α} {value : β} {rest : List Char}
    (result : mapped change read = .ok (value, rest)) : ∃ before, read = .ok (before, rest) := by
  unfold mapped at result
  split at result
  · cases result
  · cases result; exact ⟨_, rfl⟩

/-- Changes what a reader reads. -/
def map (change : α → β) (scanner : Scanner α) : Scanner β where
  run text := mapped change (scanner.run text)
  shorter result := (mapped_eq_ok result).elim fun _ read => scanner.shorter read

/-- Reads behind a colon. -/
def behindColon (scanner : Scanner α) : Scanner α where
  run text :=
    match colon text with
    | .error fault => .error fault
    | .ok ((), rest) => scanner.run rest
  shorter result := by
    split at result
    · cases result
    · next read => exact Nat.lt_trans (scanner.shorter result) (colon_length read)

/-! ### Values of the wrong type -/

/-- The fault of a value of the wrong type that was read whole. -/
def wrongType (wanted : Wanted) (toFound : α → Found) (read : Scan α) : Fault :=
  match read with
  | .error fault => fault
  | .ok (value, rest) => .before (.mismatch (.wrongType (toFound value) wanted)) rest

/-- The fault of a value that is not of the type that is wanted. -/
def unexpected (wanted : Wanted) (text : List Char) : Fault :=
  match text with
  | [] => .before .endInValue []
  | 'n' :: rest => wrongType wanted (fun () => .null) (word () ['u', 'l', 'l'] rest)
  | 't' :: rest => wrongType wanted .boolean (word true ['r', 'u', 'e'] rest)
  | 'f' :: rest => wrongType wanted .boolean (word false ['a', 'l', 's', 'e'] rest)
  | '"' :: rest => wrongType wanted .string (string "" rest)
  | '-' :: rest => wrongType wanted .number (number true rest)
  | '[' :: _ => .before (.mismatch (.wrongType .sequence wanted)) text
  | '\x7b' :: _ => .before (.mismatch (.wrongType .map wanted)) text
  | character :: _ =>
    if isDigit character then wrongType wanted .number (number false text)
    else .on .expectedValue text

end Scanner

end FlowGate
