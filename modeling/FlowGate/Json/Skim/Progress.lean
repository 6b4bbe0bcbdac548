/-
This file shows that passing over gets on: each step that does not end it takes something off the
text, and it ends only when no bracket is open.
-/

import FlowGate.Json.Skim.Machine

namespace FlowGate.Skim

open Lexeme

/-! ### Each step shortens the text -/

theorem behind_length {enclosing enclosing' : List Bracket} {passed : Except Fault (List Char)}
    {rest : List Char} {turn : Turn} {bound : Nat}
    (shorter : ∀ {rest}, passed = .ok rest → rest.length < bound)
    (moved : behind enclosing passed = .ok (.going turn enclosing' rest)) :
    rest.length < bound := by
  unfold behind at moved
  split at moved
  · cases moved
  · cases moved; exact shorter rfl

theorem behindWord_length {enclosing enclosing' : List Bracket} {passed : Scan Unit}
    {rest : List Char} {turn : Turn} {bound : Nat}
    (shorter : ∀ {rest}, passed = .ok ((), rest) → rest.length < bound)
    (moved : behindWord enclosing passed = .ok (.going turn enclosing' rest)) :
    rest.length < bound := by
  unfold behindWord at moved
  split at moved
  · cases moved
  · cases moved; exact shorter rfl

theorem beginValue_length {enclosing enclosing' : List Bracket} {text rest : List Char}
    {turn : Turn} (moved : beginValue enclosing text = .ok (.going turn enclosing' rest)) :
    rest.length < text.length := by
  have blanks := skipBlanks_length text
  unfold beginValue at moved
  split at moved
  · cases moved
  iterate 3
    next found =>
      exact behindWord_length (fun passed =>
        Nat.lt_of_le_of_lt (word_length passed) (skipBlanks_cons found)) moved
  · next found =>
    exact behind_length (fun passed =>
      Nat.lt_trans (string_length passed) (skipBlanks_cons found)) moved
  · next found =>
    exact behind_length (fun passed =>
      Nat.lt_trans (number_length passed) (skipBlanks_cons found)) moved
  · next found => cases moved; exact skipBlanks_cons found
  · next found => cases moved; exact skipBlanks_cons found
  · next found =>
    rw [found] at blanks
    split at moved
    · exact behind_length (fun passed => Nat.lt_of_lt_of_le (number_length passed) blanks) moved
    · cases moved

theorem key_length {enclosing enclosing' : List Bracket} {text rest : List Char} {turn : Turn}
    (moved : key enclosing text = .ok (.going turn enclosing' rest)) :
    rest.length < text.length := by
  unfold key at moved
  split at moved
  · cases moved
  · next found =>
    have := skipBlanks_cons found
    split at moved
    · cases moved
    · next passed =>
      have := string_length passed
      split at moved
      · cases moved
      · next read =>
        have := Reader.colon_length read
        cases moved; omega
  · cases moved

theorem member_length {bracket : Bracket} {enclosing enclosing' : List Bracket}
    {text rest : List Char} {turn : Turn}
    (moved : member bracket enclosing text = .ok (.going turn enclosing' rest)) :
    rest.length < text.length := by
  unfold member at moved
  split at moved
  · exact beginValue_length moved
  · exact key_length moved

theorem firstMember_length {bracket : Bracket} {enclosing enclosing' : List Bracket}
    {text rest : List Char} {turn : Turn}
    (moved : firstMember bracket enclosing text = .ok (.going turn enclosing' rest)) :
    rest.length < text.length := by
  unfold firstMember at moved
  split at moved
  · cases moved
  · cases moved
  · next found => cases moved; exact skipBlanks_cons found
  · next found => cases moved; exact skipBlanks_cons found
  · exact Nat.lt_of_lt_of_le (member_length moved) (skipBlanks_length text)

theorem nextMember_length {bracket : Bracket} {enclosing enclosing' : List Bracket}
    {text rest : List Char} {turn : Turn}
    (moved : nextMember bracket enclosing text = .ok (.going turn enclosing' rest)) :
    rest.length < text.length := by
  unfold nextMember at moved
  split at moved
  · cases moved
  · cases moved
  · next found => cases moved; exact skipBlanks_cons found
  · next found => cases moved; exact skipBlanks_cons found
  · next found => exact Nat.lt_trans (member_length moved) (skipBlanks_cons found)
  · cases moved
  · cases moved

theorem step_length {turn turn' : Turn} {enclosing enclosing' : List Bracket}
    {text rest : List Char}
    (moved : step turn enclosing text = .ok (.going turn' enclosing' rest)) :
    rest.length < text.length := by
  unfold step at moved
  split at moved
  · exact beginValue_length moved
  · exact firstMember_length moved
  · exact nextMember_length moved
  · cases moved

/-! ### Only an end without open brackets ends the passing -/

theorem behind_ne_finished (enclosing : List Bracket) (passed : Except Fault (List Char))
    (rest : List Char) : behind enclosing passed ≠ .ok (.finished rest) := by
  unfold behind
  split <;> simp

theorem behindWord_ne_finished (enclosing : List Bracket) (passed : Scan Unit)
    (rest : List Char) : behindWord enclosing passed ≠ .ok (.finished rest) := by
  unfold behindWord
  split <;> simp

theorem beginValue_ne_finished (enclosing : List Bracket) (text rest : List Char) :
    beginValue enclosing text ≠ .ok (.finished rest) := by
  unfold beginValue
  repeat' split
  all_goals first
    | exact behind_ne_finished _ _ _
    | exact behindWord_ne_finished _ _ _
    | simp

theorem key_ne_finished (enclosing : List Bracket) (text rest : List Char) :
    key enclosing text ≠ .ok (.finished rest) := by
  unfold key
  repeat' split
  all_goals simp

theorem member_ne_finished (bracket : Bracket) (enclosing : List Bracket)
    (text rest : List Char) : member bracket enclosing text ≠ .ok (.finished rest) := by
  unfold member
  split
  · exact beginValue_ne_finished _ _ _
  · exact key_ne_finished _ _ _

theorem firstMember_ne_finished (bracket : Bracket) (enclosing : List Bracket)
    (text rest : List Char) : firstMember bracket enclosing text ≠ .ok (.finished rest) := by
  unfold firstMember
  split
  all_goals first
    | exact member_ne_finished _ _ _ _
    | simp

theorem nextMember_ne_finished (bracket : Bracket) (enclosing : List Bracket)
    (text rest : List Char) : nextMember bracket enclosing text ≠ .ok (.finished rest) := by
  unfold nextMember
  split
  all_goals first
    | exact member_ne_finished _ _ _ _
    | simp

end FlowGate.Skim
