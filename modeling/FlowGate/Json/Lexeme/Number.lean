/-
This file reads numbers. The digits of a number are collected in a significand as long as it fits
sixty-four bits; digits that do not fit raise the exponent when they stand before the point and are
skipped behind it. A number without point and exponent whose digits all fit is an integer.
-/

import FlowGate.Json.Lexeme.Basic

namespace FlowGate.Lexeme

/-! ### Reading -/

/-- Collects digits behind a significand as long as it stays within the largest one; gives the
significand, how many digits were collected, and the rest of the text. -/
def significand (value count : Nat) (text : List Char) : Nat × Nat × List Char :=
  match text with
  | [] => (value, count, [])
  | character :: rest =>
    match digit? character with
    | none => (value, count, text)
    | some digit =>
      if value * 10 + digit ≤ Number.largestSignificand then
        significand (value * 10 + digit) (count + 1) rest
      else (value, count, text)

/-- The largest exponent that is read as it stands. -/
def largestExponent : Nat := Nat.pow 2 31 - 1

/-- Collects the digits of an exponent; gives none, with the rest of the text, behind the digit
that makes it too large. -/
def exponentDigits (value : Nat) (text : List Char) : Option Nat × List Char :=
  match text with
  | [] => (some value, [])
  | character :: rest =>
    match digit? character with
    | none => (some value, text)
    | some digit =>
      if value * 10 + digit ≤ largestExponent then exponentDigits (value * 10 + digit) rest
      else (none, rest)

/-- The real `significand * 10 ^ exponent` with its sign, unless it is too large. -/
def real (negative : Bool) (significand : Nat) (exponent : Int) (rest : List Char) : Scan Number :=
  match Number.scaled? significand exponent with
  | some value => .ok (Number.signed negative value, rest)
  | none => .error (.before .numberOutOfRange rest)

/-- The sign of an exponent, positive when none is written. -/
def exponentSign (text : List Char) : Bool × List Char :=
  match text with
  | '+' :: rest => (false, rest)
  | '-' :: rest => (true, rest)
  | _ => (false, text)

/-- Reads an exponent whose mark was seen, and with it the number. An exponent that is too large
leaves zero, unless it makes the number too large. -/
def exponent (negative : Bool) (value : Nat) (start : Int) (text : List Char) : Scan Number :=
  let (downward, text) := exponentSign text
  match text with
  | [] => .error (.before .endInValue [])
  | character :: rest =>
    match digit? character with
    | none => .error (.on .badNumber text)
    | some digit =>
      match exponentDigits digit rest with
      | (some power, rest) =>
        real negative value (if downward then start - power else start + power) rest
      | (none, rest) =>
        if value ≠ 0 ∧ !downward then .error (.before .numberOutOfRange rest)
        else .ok (Number.signed negative 0.0, rest.dropWhile isDigit)

/-- Reads an exponent if one follows, and with it the number. -/
def scale (negative : Bool) (value : Nat) (start : Int) (text : List Char) : Scan Number :=
  match text with
  | 'e' :: rest | 'E' :: rest => exponent negative value start rest
  | _ => real negative value start text

/-- Reads the decimals whose point was seen, and with them the number. Digits that the significand
cannot take are skipped. -/
def decimals (negative : Bool) (value : Nat) (start : Int) (text : List Char) : Scan Number :=
  let (value, count, rest) := significand value 0 text
  if count = 0 ∧ !beginsWithDigit rest then
    if rest.isEmpty then .error (.before .endInValue []) else .error (.on .badNumber rest)
  else scale negative value (start - count) (rest.dropWhile isDigit)

/-- Reads what follows the whole part of a number, all digits of which the significand took. -/
def afterWhole (negative : Bool) (value : Nat) (text : List Char) : Scan Number :=
  match text with
  | '.' :: rest => decimals negative value 0 rest
  | 'e' :: rest | 'E' :: rest => exponent negative value 0 rest
  | _ => .ok (Number.ofWhole negative value, text)

/-- Reads what follows the part of a whole number that the significand took: each further digit
raises the exponent, and the number is real. -/
def afterLongWhole (negative : Bool) (value : Nat) (text : List Char) : Scan Number :=
  let more := (text.takeWhile isDigit).length
  match text.dropWhile isDigit with
  | '.' :: rest => decimals negative value more rest
  | rest => scale negative value more rest

/-- Reads a number behind its sign. A leading zero stands alone. -/
def number (negative : Bool) (text : List Char) : Scan Number :=
  match text with
  | [] => .error (.before .endInValue [])
  | character :: rest =>
    match digit? character with
    | none => .error (.on .badNumber text)
    | some 0 =>
      if beginsWithDigit rest then .error (.on .badNumber rest)
      else afterWhole negative 0 rest
    | some first =>
      let (value, _, rest) := significand first 0 rest
      if beginsWithDigit rest then afterLongWhole negative value rest
      else afterWhole negative value rest

/-! ### The rest of a number is shorter than its text -/

theorem significand_length (value count : Nat) (text : List Char) :
    (significand value count text).2.2.length ≤ text.length := by
  fun_induction significand value count text with
  | case1 => exact Nat.le_refl _
  | case2 => exact Nat.le_refl _
  | case3 => simp only [List.length_cons]; omega
  | case4 => exact Nat.le_refl _

theorem exponentDigits_length (value : Nat) (text : List Char) :
    (exponentDigits value text).2.length ≤ text.length := by
  fun_induction exponentDigits value text with
  | case1 => exact Nat.le_refl _
  | case2 => exact Nat.le_refl _
  | case3 => simp only [List.length_cons]; omega
  | case4 => simp only [List.length_cons]; omega

theorem real_rest {negative : Bool} {value : Nat} {power : Int} {text rest : List Char}
    {number : Number} (read : real negative value power text = .ok (number, rest)) :
    rest = text := by
  unfold real at read
  split at read
  · cases read; rfl
  · cases read

theorem exponentSign_length (text : List Char) :
    (exponentSign text).2.length ≤ text.length := by
  unfold exponentSign
  split <;> simp only [List.length_cons] <;> omega

theorem exponent_length {negative : Bool} {value : Nat} {start : Int} {text rest : List Char}
    {number : Number} (read : exponent negative value start text = .ok (number, rest)) :
    rest.length ≤ text.length := by
  have signed := exponentSign_length text
  unfold exponent at read
  split at read
  next downward behind found =>
  rw [found] at signed
  simp only at signed
  split at read
  · cases read
  · next character more =>
    simp only [List.length_cons] at signed
    split at read
    · cases read
    · next digit _ =>
      have collected := exponentDigits_length digit more
      split at read
      · next power ending powers =>
        rw [powers] at collected
        rw [real_rest read]
        simp only at collected; omega
      · next ending powers =>
        rw [powers] at collected
        have dropped : (ending.dropWhile isDigit).length ≤ ending.length :=
          (List.dropWhile_sublist isDigit).length_le
        split at read
        · cases read
        · simp only [Except.ok.injEq, Prod.mk.injEq] at read
          simp only [← read.2]
          simp only at collected; omega

theorem scale_length {negative : Bool} {value : Nat} {start : Int} {text rest : List Char}
    {number : Number} (read : scale negative value start text = .ok (number, rest)) :
    rest.length ≤ text.length := by
  unfold scale at read
  split at read
  · have := exponent_length read
    simp only [List.length_cons]; omega
  · have := exponent_length read
    simp only [List.length_cons]; omega
  · exact Nat.le_of_eq (congrArg List.length (real_rest read))

theorem decimals_length {negative : Bool} {value : Nat} {start : Int} {text rest : List Char}
    {number : Number} (read : decimals negative value start text = .ok (number, rest)) :
    rest.length ≤ text.length := by
  have collected := significand_length value 0 text
  unfold decimals at read
  split at read
  next taken count behind found =>
  rw [found] at collected
  simp only at collected
  split at read
  · split at read <;> cases read
  · have := scale_length read
    have : (behind.dropWhile isDigit).length ≤ behind.length :=
      (List.dropWhile_sublist isDigit).length_le
    omega

theorem afterWhole_length {negative : Bool} {value : Nat} {text rest : List Char}
    {number : Number} (read : afterWhole negative value text = .ok (number, rest)) :
    rest.length ≤ text.length := by
  unfold afterWhole at read
  split at read
  · have := decimals_length read
    simp only [List.length_cons]; omega
  · have := exponent_length read
    simp only [List.length_cons]; omega
  · have := exponent_length read
    simp only [List.length_cons]; omega
  · cases read; exact Nat.le_refl _

theorem afterLongWhole_length {negative : Bool} {value : Nat} {text rest : List Char}
    {number : Number} (read : afterLongWhole negative value text = .ok (number, rest)) :
    rest.length ≤ text.length := by
  have dropped : (text.dropWhile isDigit).length ≤ text.length :=
    (List.dropWhile_sublist isDigit).length_le
  unfold afterLongWhole at read
  simp only at read
  split at read
  · next behind found =>
    have := decimals_length read
    rw [found, List.length_cons] at dropped
    omega
  · have := scale_length read
    omega

theorem number_length {negative : Bool} {text rest : List Char} {value : Number}
    (read : number negative text = .ok (value, rest)) : rest.length < text.length := by
  unfold number at read
  split at read
  · cases read
  · next character more =>
    simp only [List.length_cons]
    split at read
    · cases read
    · split at read
      · cases read
      · have := afterWhole_length read
        omega
    · next digit _ _ =>
      have collected := significand_length digit 0 more
      split at read
      next taken count behind found =>
      rw [found] at collected
      simp only at collected
      split at read
      · have := afterLongWhole_length read
        omega
      · have := afterWhole_length read
        omega

end FlowGate.Lexeme
