/-
This file reads a JSON value from a text: it runs the machine until a value stands on its own, and
a text may hold nothing but blanks behind it.
-/

import FlowGate.Json.Reader.Progress

namespace FlowGate.Reader

open Lexeme

/-! ### Values -/

/-- Runs the machine to its end. -/
def run (turn : Turn) (frames : List Frame) (text : List Char) : Scan Json :=
  match _moved : step turn frames text with
  | .error fault => .error fault
  | .ok (.finished value rest) => .ok (value, rest)
  | .ok (.going turn frames rest) => run turn frames rest
termination_by text.length
decreasing_by exact step_length _moved

theorem run_length {turn : Turn} {frames : List Frame} {text rest : List Char} {value : Json}
    (read : run turn frames text = .ok (value, rest)) : rest.length ≤ text.length := by
  fun_induction run turn frames text with
  | case1 => cases read
  | case2 turn frames text result behind moved =>
    cases read
    unfold step at moved
    split at moved
    · exact absurd moved (beginValue_ne_finished _ _ _ _)
    · cases moved; exact Nat.le_refl _
    · exact absurd moved (placeInList_ne_finished _ _ _ _ _)
    · exact absurd moved (placeInObject_ne_finished _ _ _ _ _)
  | case3 turn frames text turn' frames' behind moved inductionHypothesis =>
    exact Nat.le_trans (inductionHypothesis read) (Nat.le_of_lt (step_length moved))

/-- Reads one value from the front of a text. -/
def value (text : List Char) : Scan Json :=
  run .value [] text

theorem value_length {text rest : List Char} {result : Json}
    (read : value text = .ok (result, rest)) : rest.length < text.length := by
  unfold value run at read
  split at read
  · cases read
  · next moved => exact absurd moved (beginValue_ne_finished _ _ _ _)
  · next moved => exact Nat.lt_of_le_of_lt (run_length read) (step_length moved)

/-- Fails when more than blanks follows. -/
def nothingMore (text : List Char) : Except Fault Unit :=
  match skipBlanks text with
  | [] => .ok ()
  | rest => .error (.on .trailingCharacters rest)

end FlowGate.Reader

namespace FlowGate

/-- Reads a text that holds one value and nothing else. -/
def Json.read (text : String) : Except Fault Json :=
  match Reader.value text.toList with
  | .error fault => .error fault
  | .ok (value, rest) =>
    match Reader.nothingMore rest with
    | .error fault => .error fault
    | .ok () => .ok value

end FlowGate
