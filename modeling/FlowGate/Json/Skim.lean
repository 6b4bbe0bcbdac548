/-
This file passes over a JSON value whose content does not matter.
-/

import FlowGate.Json.Skim.Progress

namespace FlowGate.Skim

/-- Runs to the end of the value. -/
def run (turn : Turn) (enclosing : List Bracket) (text : List Char) : Except Fault (List Char) :=
  match _moved : step turn enclosing text with
  | .error fault => .error fault
  | .ok (.finished rest) => .ok rest
  | .ok (.going turn enclosing rest) => run turn enclosing rest
termination_by text.length
decreasing_by exact step_length _moved

theorem run_length {turn : Turn} {enclosing : List Bracket} {text rest : List Char}
    (passed : run turn enclosing text = .ok rest) : rest.length ≤ text.length := by
  fun_induction run turn enclosing text with
  | case1 => cases passed
  | case2 turn enclosing text behind moved =>
    cases passed
    unfold step at moved
    split at moved
    · exact absurd moved (beginValue_ne_finished _ _ _)
    · exact absurd moved (firstMember_ne_finished _ _ _ _)
    · exact absurd moved (nextMember_ne_finished _ _ _ _)
    · cases moved; exact Nat.le_refl _
  | case3 turn enclosing text turn' enclosing' behind moved inductionHypothesis =>
    exact Nat.le_trans (inductionHypothesis passed) (Nat.le_of_lt (step_length moved))

/-- Passes over one value at the front of a text. -/
def value (text : List Char) : Except Fault (List Char) :=
  run .value [] text

theorem value_length {text rest : List Char} (passed : value text = .ok rest) :
    rest.length < text.length := by
  unfold value run at passed
  split at passed
  · cases passed
  · next moved => exact absurd moved (beginValue_ne_finished _ _ _)
  · next moved => exact Nat.lt_of_le_of_lt (run_length passed) (step_length moved)

end FlowGate.Skim
