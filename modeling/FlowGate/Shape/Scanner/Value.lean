/-
This file reads the values that a field may hold: booleans, counts, strings, words, free-form
objects and lists.
-/

import FlowGate.Shape.Scanner.Basic

namespace FlowGate.Scanner

open Lexeme Reader

/-! ### Values without fields -/

/-- Reads a boolean. -/
def flag : Scanner Bool where
  run text :=
    match skipBlanks text with
    | 't' :: rest => word true ['r', 'u', 'e'] rest
    | 'f' :: rest => word false ['a', 'l', 's', 'e'] rest
    | rest => .error (unexpected .flag rest)
  shorter result := by
    split at result
    · next found => exact Nat.lt_of_le_of_lt (word_length result) (skipBlanks_cons found)
    · next found => exact Nat.lt_of_le_of_lt (word_length result) (skipBlanks_cons found)
    · cases result

/-- Takes a number that was read as a count. -/
def counted (read : Scan Number) : Scan UInt64 :=
  match read with
  | .error fault => .error fault
  | .ok (value, rest) =>
    match value.toCount with
    | .error mismatch => .error (.before (.mismatch mismatch) rest)
    | .ok count => .ok (count, rest)

theorem counted_eq_ok {read : Scan Number} {value : UInt64} {rest : List Char}
    (result : counted read = .ok (value, rest)) : ∃ before, read = .ok (before, rest) := by
  unfold counted at result
  split at result
  · cases result
  · split at result
    · cases result
    · cases result; exact ⟨_, rfl⟩

/-- Reads a count. -/
def count : Scanner UInt64 where
  run text :=
    match skipBlanks text with
    | '-' :: rest => counted (number true rest)
    | rest =>
      if beginsWithDigit rest then counted (number false rest)
      else .error (unexpected .count rest)
  shorter {text value rest} result := by
    have blanks := skipBlanks_length text
    split at result
    · next found =>
      obtain ⟨_, read⟩ := counted_eq_ok result
      exact Nat.lt_trans (number_length read) (skipBlanks_cons found)
    · split at result
      · obtain ⟨_, read⟩ := counted_eq_ok result
        exact Nat.lt_of_lt_of_le (number_length read) blanks
      · cases result

/-- Reads a string where `wanted` is wanted. -/
def stringFor (wanted : Wanted) : Scanner String where
  run text :=
    match skipBlanks text with
    | '"' :: rest => string "" rest
    | rest => .error (unexpected wanted rest)
  shorter result := by
    split at result
    · next found => exact Nat.lt_trans (string_length result) (skipBlanks_cons found)
    · cases result

/-- Reads the word of a tag behind the quotation mark that begins it. -/
def tagWord (words : List String) : Scanner (Fin words.length) where
  run text :=
    match string "" text with
    | .error fault => .error fault
    | .ok (word, rest) =>
      match Shape.wordIndex words word with
      | .error mismatch => .error (.before (.mismatch mismatch) rest)
      | .ok index => .ok (index, rest)
  shorter result := by
    split at result
    · cases result
    · next read =>
      split at result
      · cases result
      · cases result; exact string_length read

/-- Reads the word of a tag as the key of an object, behind the brace that opens the object. -/
def tagKey (words : List String) : Scanner (Fin words.length) where
  run text :=
    match skipBlanks text with
    | [] => .error (.before .endInObject [])
    | '"' :: rest => (tagWord words).run rest
    | rest@('\x7d' :: _) => .error (.on .expectedValue rest)
    | rest => .error (.on .keyNotString rest)
  shorter result := by
    split at result
    · cases result
    · next found => exact Nat.lt_trans ((tagWord words).shorter result) (skipBlanks_cons found)
    · cases result
    · cases result

/-- Reads `null`. -/
def unit : Scanner Unit where
  run text :=
    match skipBlanks text with
    | 'n' :: rest => word () ['u', 'l', 'l'] rest
    | rest => .error (unexpected .unit rest)
  shorter result := by
    split at result
    · next found => exact Nat.lt_of_le_of_lt (word_length result) (skipBlanks_cons found)
    · cases result

/-- Reads a tag: a string, or an object whose only key is the word and whose value is `null`. -/
def tag (words : List String) : Scanner (Fin words.length) where
  run text :=
    match skipBlanks text with
    | [] => .error (.before .endInValue [])
    | '"' :: rest => (tagWord words).run rest
    | '\x7b' :: rest =>
      match (tagKey words).run rest with
      | .error fault => .error fault
      | .ok (index, rest) =>
        match unit.behindColon.run rest with
        | .error fault => .error fault
        | .ok ((), rest) =>
          match skipBlanks rest with
          | [] => .error (.before .endInObject [])
          | '\x7d' :: rest => .ok (index, rest)
          | rest => .error (.before .expectedValue rest)
    | rest => .error (.on .expectedValue rest)
  shorter result := by
    split at result
    · cases result
    · next found => exact Nat.lt_trans ((tagWord words).shorter result) (skipBlanks_cons found)
    · next found =>
      have := skipBlanks_cons found
      split at result
      · cases result
      · next first =>
        have := (tagKey words).shorter first
        split at result
        · cases result
        · next second =>
          have := unit.behindColon.shorter second
          split at result
          · cases result
          · next found =>
            have := skipBlanks_cons found
            cases result; omega
          · cases result
    · cases result

/-- Reads a free-form object. -/
def freeForm : Scanner (List (String × Json)) where
  run text :=
    match skipBlanks text with
    | rest@('\x7b' :: _) =>
      match Reader.value rest with
      | .error fault => .error fault
      | .ok (.object fields, rest) => .ok (fields, rest)
      | .ok (_, rest) => .error (.before .expectedValue rest)
    | rest => .error (unexpected .map rest)
  shorter {text value rest} result := by
    have blanks := skipBlanks_length text
    split at result
    · next found =>
      rw [found] at blanks
      split at result
      · cases result
      · next read => cases result; exact Nat.lt_of_lt_of_le (value_length read) blanks
      · cases result
    · cases result

/-! ### Lists -/

/-- Reads the items of a list from the beginning of an item to the end of the list, behind the
items that were read, the last first. -/
def itemsFrom (item : Scanner α) (done : List α) (text : List Char) : Scan (List α) :=
  match _read : item.run text with
  | .error fault => .error fault
  | .ok (value, rest) =>
    match _found : skipBlanks rest with
    | [] => .error (.before .endInList [])
    | ']' :: rest => .ok ((value :: done).reverse, rest)
    | ',' :: rest =>
      match skipBlanks rest with
      | [] => .error (.before .endInValue [])
      | rest@(']' :: _) => .error (.on .trailingComma rest)
      | _ => itemsFrom item (value :: done) rest
    | rest => .error (.on .expectedCommaOrBracket rest)
termination_by text.length
decreasing_by exact Nat.lt_trans (skipBlanks_cons _found) (item.shorter _read)

theorem itemsFrom_length {item : Scanner α} {done values : List α} {text rest : List Char}
    (read : itemsFrom item done text = .ok (values, rest)) : rest.length < text.length := by
  fun_induction itemsFrom item done text with
  | case1 => cases read
  | case2 => cases read
  | case3 _ _ _ _ first _ found =>
    cases read
    exact Nat.lt_trans (skipBlanks_cons found) (item.shorter first)
  | case4 => cases read
  | case5 => cases read
  | case6 _ _ _ _ first _ found _ _ inductionHypothesis =>
    exact Nat.lt_trans (inductionHypothesis read)
      (Nat.lt_trans (skipBlanks_cons found) (item.shorter first))
  | case7 => cases read

/-- Reads a list. -/
def list (item : Scanner α) : Scanner (List α) where
  run text :=
    match skipBlanks text with
    | '[' :: rest =>
      match skipBlanks rest with
      | [] => .error (.before .endInList [])
      | ']' :: rest => .ok ([], rest)
      | rest => itemsFrom item [] rest
    | rest => .error (unexpected .sequence rest)
  shorter result := by
    split at result
    · next found =>
      have behind := skipBlanks_cons found
      split at result
      · cases result
      · next inner => cases result; exact Nat.lt_trans (skipBlanks_cons inner) behind
      · exact Nat.lt_trans (itemsFrom_length result)
          (Nat.lt_of_le_of_lt (skipBlanks_length _) behind)
    · cases result

/-- Reads what a field holds. -/
def held (presence : Presence) (scanner : Scanner α) : Scanner (presence.Held α) :=
  match presence with
  | .required => scanner
  | .omissible => scanner.map some
  | .nullable | .listed =>
    { run text :=
        match skipBlanks text with
        | 'n' :: rest => word none ['u', 'l', 'l'] rest
        | rest => mapped some (scanner.run rest)
      shorter {text value rest} result := by
        have blanks := skipBlanks_length text
        split at result
        · next found => exact Nat.lt_of_le_of_lt (word_length result) (skipBlanks_cons found)
        · obtain ⟨_, read⟩ := mapped_eq_ok result
          exact Nat.lt_of_lt_of_le (scanner.shorter read) blanks }

end FlowGate.Scanner
