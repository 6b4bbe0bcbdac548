/-
This file shows that words, numbers and strings are read back from the front of a text as they are
written. A string is read up to its closing quotation mark, character by character, whatever stands
for the character; a number is read up to a character that cannot go on with it, which is why what
follows a number has to be said.
-/

import FlowGate.Json.Lexeme.Number
import FlowGate.Json.Lexeme.String
import FlowGate.Json.Writer
import Mathlib.Data.Nat.Digits.Defs

namespace FlowGate.Lexeme

/-! ### Strings -/

/-- The characters that a written string has for one of its characters. -/
def spelled (character : Char) : List Char :=
  if Writer.isPlain character then [character] else (Writer.escaped character).toList

theorem toList_string (text : String) :
    (Writer.string text).toList = '"' :: (text.toList.flatMap spelled ++ ['"']) := by
  have folded : ∀ (characters : List Char) (done : String),
      (characters.foldl (fun done character =>
        if Writer.isPlain character then done.push character
        else done ++ Writer.escaped character) done).toList =
          done.toList ++ characters.flatMap spelled := by
    intro characters
    induction characters with
    | nil => intro done; simp
    | cons character rest inductionHypothesis =>
      intro done
      rw [List.foldl_cons, inductionHypothesis, List.flatMap_cons, spelled]
      split <;> simp
  rw [Writer.string, String.toList_push, String.foldl_eq_foldl_toList, folded]
  rfl

/-- The four digits of the code of a control character are read back. -/
theorem hexGroup_control {character : Char} (control : character.toNat < 0x20)
    (rest : List Char) :
    hexGroup ('0' :: '0' :: Writer.hexDigit (character.toNat / 16) ::
      Writer.hexDigit (character.toNat % 16) :: rest) = .ok (character.toNat, rest) := by
  have digits : ∀ code < 0x20, hexGroup? '0' '0' (Writer.hexDigit (code / 16))
      (Writer.hexDigit (code % 16)) = some code := by decide
  rw [hexGroup, digits _ control]

/-- What stands for a character that does not stand for itself is read back. -/
theorem escape_escaped {character : Char} (special : Writer.isPlain character = false) :
    ∃ tail, (Writer.escaped character).toList = '\\' :: tail ∧
      ∀ rest, escape (tail ++ rest) = .ok (character, rest) := by
  unfold Writer.escaped
  split
  · exact ⟨['"'], rfl, fun rest => rfl⟩
  · exact ⟨['\\'], rfl, fun rest => rfl⟩
  · exact ⟨['b'], rfl, fun rest => rfl⟩
  · exact ⟨['f'], rfl, fun rest => rfl⟩
  · exact ⟨['n'], rfl, fun rest => rfl⟩
  · exact ⟨['r'], rfl, fun rest => rfl⟩
  · exact ⟨['t'], rfl, fun rest => rfl⟩
  · next quotation backslash _ _ _ _ _ =>
    have control : character.toNat < 0x20 := by
      simp only [Writer.isPlain, Bool.and_eq_false_iff, decide_eq_false_iff_not] at special
      rcases special with (small | same) | same
      · omega
      · exact (same quotation).elim
      · exact (same backslash).elim
    rw [if_pos control]
    refine ⟨['u', '0', '0', Writer.hexDigit (character.toNat / 16),
      Writer.hexDigit (character.toNat % 16)], by simp, fun rest => ?_⟩
    show codedCharacter ('0' :: '0' :: _ :: _ :: rest) = _
    rw [codedCharacter, hexGroup_control control]
    have low : isLowSurrogate character.toNat = false := by
      simp only [isLowSurrogate, Bool.and_eq_false_iff, decide_eq_false_iff_not]
      omega
    have high : isHighSurrogate character.toNat = false := by
      simp only [isHighSurrogate, Bool.and_eq_false_iff, decide_eq_false_iff_not]
      omega
    simp only [low, high, Bool.false_eq_true, if_false, Char.ofNat_toNat]

theorem string_of_escape {done : String} {text rest : List Char} {character : Char}
    (read : escape text = .ok (character, rest)) :
    string done ('\\' :: text) = string (done.push character) rest := by
  rw [string]
  split
  · next found => rw [read] at found; cases found; rfl
  · next failed => rw [read] at failed; cases failed

theorem string_of_plain {done : String} {character : Char}
    (plain : Writer.isPlain character = true) (rest : List Char) :
    string done (character :: rest) = string (done.push character) rest := by
  simp only [Writer.isPlain, Bool.and_eq_true, decide_eq_true_eq] at plain
  obtain ⟨⟨large, quotation⟩, backslash⟩ := plain
  rw [string.eq_def]
  split
  · next empty => cases empty
  · next same => exact (quotation (List.cons.inj same).1).elim
  · next same => exact (backslash (List.cons.inj same).1).elim
  · next same =>
    cases same
    rw [if_neg (by omega)]

/-- A written string is read back behind what was read before. -/
theorem string_spelled (characters : List Char) (done : String) (rest : List Char) :
    string done (characters.flatMap spelled ++ '"' :: rest) =
      .ok (done ++ String.ofList characters, rest) := by
  induction characters generalizing done with
  | nil =>
    rw [List.flatMap_nil, List.nil_append, string]
    simp
  | cons character more inductionHypothesis =>
    have behind : done ++ String.ofList (character :: more) =
        done.push character ++ String.ofList more := by
      apply String.toList_inj.1
      simp
    rw [List.flatMap_cons, List.append_assoc, behind, ← inductionHypothesis, spelled]
    cases plain : Writer.isPlain character with
    | true =>
      rw [if_pos rfl]
      exact string_of_plain plain _
    | false =>
      obtain ⟨tail, escaped, read⟩ := escape_escaped plain
      rw [if_neg Bool.false_ne_true, escaped]
      exact string_of_escape (read _)

theorem string_written (text : String) (rest : List Char) :
    string "" (text.toList.flatMap spelled ++ '"' :: rest) = .ok (text, rest) := by
  rw [string_spelled, String.empty_append, String.ofList_toList]

/-! ### Numbers -/

/-- Nothing of a text goes on with a number that stands in front of it. -/
def Ends : List Char → Prop
  | [] => True
  | character :: _ => character = ',' ∨ character = ']' ∨ character = '\x7d'

theorem Ends.beginsWithDigit {rest : List Char} (ends : Ends rest) :
    beginsWithDigit rest = false := by
  cases rest with
  | nil => rfl
  | cons character rest => rcases ends with rfl | rfl | rfl <;> rfl

theorem digit?_of_isDigit {character : Char} (digit : character.isDigit = true) :
    digit? character = some (character.toNat - '0'.toNat) := by
  have range := Char.isDigit_iff_toNat.1 digit
  rw [digit?, if_pos ⟨Char.le_def.2 (UInt32.le_iff_toNat_le.2 range.1),
    Char.le_def.2 (UInt32.le_iff_toNat_le.2 range.2)⟩]

theorem le_ofDigitChars (digits : List Char) (value : Nat) :
    value ≤ Nat.ofDigitChars 10 digits value := by
  rw [Nat.ofDigitChars_eq_ofDigitChars_zero]
  have := Nat.le_mul_of_pos_left value (Nat.pow_pos (n := digits.length) (by decide : 0 < 10))
  omega

/-- Digits are collected as long as the number that they stand for is not too large. -/
theorem significand_digits {digits rest : List Char} (ends : Ends rest)
    (all : ∀ digit ∈ digits, digit.isDigit = true) {value : Nat} (count : Nat)
    (small : Nat.ofDigitChars 10 digits value ≤ Number.largestSignificand) :
    significand value count (digits ++ rest) =
      (Nat.ofDigitChars 10 digits value, count + digits.length, rest) := by
  induction digits generalizing value count with
  | nil =>
    cases rest with
    | nil => rfl
    | cons character rest => rcases ends with rfl | rfl | rfl <;> rfl
  | cons digit more inductionHypothesis =>
    rw [Nat.ofDigitChars_cons, Nat.mul_comm] at small ⊢
    have within := Nat.le_trans (le_ofDigitChars more _) small
    rw [List.cons_append, significand, digit?_of_isDigit (all digit List.mem_cons_self)]
    simp only [if_pos within]
    rw [inductionHypothesis (fun digit member => all digit (List.mem_cons_of_mem _ member)) _ small,
      List.length_cons, Nat.add_assoc, Nat.add_comm 1]

/-- The digits of a positive number do not begin with a zero. -/
theorem exists_toDigits {amount : Nat} (positive : 0 < amount) :
    ∃ first more, Nat.toDigits 10 amount = first :: more ∧ first.isDigit = true ∧
      digit? first ≠ some 0 := by
  induction amount using Nat.strongRecOn with
  | ind amount inductionHypothesis =>
    by_cases small : amount < 10
    · refine ⟨amount.digitChar, [], Nat.toDigits_of_lt_base small, ?_, ?_⟩
      · rw [Nat.isDigit_digitChar]
        exact decide_eq_true small
      · have nonzero : ∀ amount < 10, 0 < amount → digit? amount.digitChar ≠ some 0 := by decide
        exact nonzero amount small positive
    · obtain ⟨first, more, digits, digit, nonzero⟩ :=
        inductionHypothesis (amount / 10) (by omega) (by omega)
      refine ⟨first, more ++ [(amount % 10).digitChar], ?_, digit, nonzero⟩
      rw [Nat.toDigits_of_base_le (by decide) (by omega), digits, List.cons_append]

theorem toDigits_head (amount : Nat) :
    ∃ first more, Nat.toDigits 10 amount = first :: more ∧ isDigit first = true := by
  cases digits : Nat.toDigits 10 amount with
  | nil => exact absurd digits Nat.toDigits_ne_nil
  | cons first more =>
    have digit : first.isDigit = true :=
      Nat.isDigit_of_mem_toDigits (b := 10) (n := amount) (by decide) (by decide)
        (digits ▸ List.mem_cons_self)
    exact ⟨first, more, rfl, by rw [isDigit, digit?_of_isDigit digit]; rfl⟩

theorem afterWhole_of_ends {rest : List Char} (ends : Ends rest) (negative : Bool)
    (value : Nat) : afterWhole negative value rest = .ok (Number.ofWhole negative value, rest) := by
  cases rest with
  | nil => rfl
  | cons character rest => rcases ends with rfl | rfl | rfl <;> rfl

/-- A whole number is read back from its digits. -/
theorem number_toDigits {amount : Nat} (small : amount ≤ Number.largestSignificand)
    {rest : List Char} (ends : Ends rest) (negative : Bool) :
    number negative (Nat.toDigits 10 amount ++ rest) =
      .ok (Number.ofWhole negative amount, rest) := by
  by_cases zero : amount = 0
  · subst zero
    show (if beginsWithDigit rest then _ else afterWhole negative 0 rest) = _
    rw [ends.beginsWithDigit, if_neg Bool.false_ne_true, afterWhole_of_ends ends]
  · obtain ⟨first, more, digits, digit, nonzero⟩ := exists_toDigits (Nat.pos_of_ne_zero zero)
    have value := @Nat.ofDigitChars_ten_toDigits amount
    rw [digits, Nat.ofDigitChars_cons, Nat.mul_zero, Nat.zero_add] at value
    have all : ∀ digit ∈ more, digit.isDigit = true := by
      intro digit member
      refine Nat.isDigit_of_mem_toDigits (b := 10) (n := amount) (by decide) (by decide) ?_
      rw [digits]
      exact List.mem_cons_of_mem _ member
    have collected := significand_digits ends all 0 (value ▸ small)
    rw [value] at collected
    rw [digits, List.cons_append, number]
    rw [digit?_of_isDigit digit] at nonzero ⊢
    split
    · next none => cases none
    · next none => exact absurd none nonzero
    · next found =>
      cases found
      rw [collected]
      simp only [ends.beginsWithDigit]
      exact afterWhole_of_ends ends negative amount

end FlowGate.Lexeme
