/-
This file shows that the machine gets on: each step that does not end the reading takes something
off the text, and reading ends only when a value stands on its own.
-/

import FlowGate.Json.Reader.Machine

namespace FlowGate.Reader

open Lexeme

/-! ### Each step shortens the text -/

theorem withKey_length {entries : List (String × Json)} {frames frames' : List Frame}
    {text rest : List Char} {turn : Turn}
    (moved : withKey entries frames text = .ok (.going turn frames' rest)) :
    rest.length < text.length := by
  unfold withKey at moved
  split at moved
  · cases moved
  · next read => cases moved; exact key_length read

theorem placing_length {make : α → Json} {frames frames' : List Frame} {read : Scan α}
    {rest : List Char} {turn : Turn} {bound : Nat}
    (shorter : ∀ {value rest}, read = .ok (value, rest) → rest.length < bound)
    (moved : placing make frames read = .ok (.going turn frames' rest)) : rest.length < bound := by
  unfold placing at moved
  split at moved
  · cases moved
  · cases moved; exact shorter rfl

theorem beginValue_length {frames frames' : List Frame} {text rest : List Char} {turn : Turn}
    (moved : beginValue frames text = .ok (.going turn frames' rest)) :
    rest.length < text.length := by
  have blanks := skipBlanks_length text
  unfold beginValue at moved
  split at moved
  · cases moved
  iterate 3
    next found =>
      exact placing_length (fun read =>
        Nat.lt_of_le_of_lt (word_length read) (skipBlanks_cons found)) moved
  · next found =>
    exact placing_length (fun read =>
      Nat.lt_trans (string_length read) (skipBlanks_cons found)) moved
  · next found =>
    exact placing_length (fun read =>
      Nat.lt_trans (number_length read) (skipBlanks_cons found)) moved
  · next found =>
    have behind := skipBlanks_cons found
    split at moved
    · cases moved
    · next inner => cases moved; exact Nat.lt_trans (skipBlanks_cons inner) behind
    · cases moved; exact Nat.lt_of_le_of_lt (skipBlanks_length _) behind
  · next found =>
    have behind := skipBlanks_cons found
    split at moved
    · cases moved
    · next inner => cases moved; exact Nat.lt_trans (skipBlanks_cons inner) behind
    · next inner =>
      exact Nat.lt_trans (withKey_length moved) (Nat.lt_trans (skipBlanks_cons inner) behind)
    · cases moved
  · next found =>
    rw [found] at blanks
    split at moved
    · exact placing_length (fun read => Nat.lt_of_lt_of_le (number_length read) blanks) moved
    · cases moved

theorem placeInList_length {items : List Json} {frames frames' : List Frame}
    {text rest : List Char} {turn : Turn}
    (moved : placeInList items frames text = .ok (.going turn frames' rest)) :
    rest.length < text.length := by
  unfold placeInList at moved
  split at moved
  · cases moved
  · next found => cases moved; exact skipBlanks_cons found
  · next found =>
    have behind := skipBlanks_cons found
    split at moved
    · cases moved
    · cases moved
    · cases moved; exact Nat.lt_of_le_of_lt (skipBlanks_length _) behind
  · cases moved

theorem placeInObject_length {entries : List (String × Json)} {frames frames' : List Frame}
    {text rest : List Char} {turn : Turn}
    (moved : placeInObject entries frames text = .ok (.going turn frames' rest)) :
    rest.length < text.length := by
  unfold placeInObject at moved
  split at moved
  · cases moved
  · next found => cases moved; exact skipBlanks_cons found
  · next found =>
    have behind := skipBlanks_cons found
    split at moved
    · cases moved
    · next inner =>
      exact Nat.lt_trans (withKey_length moved) (Nat.lt_trans (skipBlanks_cons inner) behind)
    · cases moved
    · cases moved
  · cases moved

theorem step_length {turn turn' : Turn} {frames frames' : List Frame} {text rest : List Char}
    (moved : step turn frames text = .ok (.going turn' frames' rest)) :
    rest.length < text.length := by
  unfold step at moved
  split at moved
  · exact beginValue_length moved
  · cases moved
  · exact placeInList_length moved
  · exact placeInObject_length moved

/-! ### Only a value on its own ends the reading -/

theorem placing_ne_finished (make : α → Json) (frames : List Frame) (read : Scan α)
    (value : Json) (rest : List Char) : placing make frames read ≠ .ok (.finished value rest) := by
  unfold placing
  split <;> simp

theorem withKey_ne_finished (entries : List (String × Json)) (frames : List Frame)
    (text : List Char) (value : Json) (rest : List Char) :
    withKey entries frames text ≠ .ok (.finished value rest) := by
  unfold withKey
  split <;> simp

theorem beginValue_ne_finished (frames : List Frame) (text : List Char) (value : Json)
    (rest : List Char) : beginValue frames text ≠ .ok (.finished value rest) := by
  unfold beginValue
  repeat' split
  all_goals first
    | exact placing_ne_finished _ _ _ _ _
    | exact withKey_ne_finished _ _ _ _ _
    | simp

theorem placeInList_ne_finished (items : List Json) (frames : List Frame) (text : List Char)
    (value : Json) (rest : List Char) :
    placeInList items frames text ≠ .ok (.finished value rest) := by
  unfold placeInList
  repeat' split
  all_goals simp

theorem placeInObject_ne_finished (entries : List (String × Json)) (frames : List Frame)
    (text : List Char) (value : Json) (rest : List Char) :
    placeInObject entries frames text ≠ .ok (.finished value rest) := by
  unfold placeInObject
  repeat' split
  all_goals first
    | exact withKey_ne_finished _ _ _ _ _
    | simp

end FlowGate.Reader
