/-
This file shows that the text of a value is read back as the value with its objects in order, as
long as all of its numbers are integers. The writer keeps a list of what it has still to write, and
the reader a list of the arrays and objects that are still open; both are taken apart value by
value. Wherever the reader stands before the text of a value, it comes to stand behind that text
with the value, whatever it has open and however deep the value is nested.
-/

import FlowGate.Json.Reader
import FlowGate.Proofs.Lexemes
import FlowGate.Proofs.Sorting

namespace FlowGate

/-! ### Integers -/

/-- Whether a number is an integer. -/
def Number.isInteger : Number → Bool
  | .integer _ _ _ => true
  | .real _ => false

namespace Json

mutual

/-- Whether all numbers in a value are integers. -/
def whole : Json → Bool
  | .number value => value.isInteger
  | .array items => wholeItems items
  | .object fields => wholeFields fields
  | _ => true

def wholeItems : List Json → Bool
  | [] => true
  | item :: rest => item.whole && wholeItems rest

def wholeFields : List (String × Json) → Bool
  | [] => true
  | (_, value) :: rest => value.whole && wholeFields rest

end

end Json

/-! ### Texts of values -/

namespace Writer

/-- The characters of what is still to be written. -/
def spelt (todo : List Piece) : List Char :=
  (pieces "" todo).toList

/-- What is written already stays in front. -/
theorem toList_pieces (todo : List Piece) (done : String) :
    (pieces done todo).toList = done.toList ++ spelt todo := by
  generalize weighs : pending todo = weight
  induction weight using Nat.strongRecOn generalizing todo done with
  | ind weight inductionHypothesis =>
    subst weighs
    rw [spelt]
    cases todo with
    | nil => rw [pieces, pieces]; simp
    | cons piece rest =>
      cases piece with
      | closing bracket =>
        have lighter : pending rest < pending (.closing bracket :: rest) := by
          rw [pending]
          omega
        rw [pieces, pieces, inductionHypothesis _ lighter rest _ rfl,
          inductionHypothesis _ lighter rest ("" ++ bracket) rfl]
        simp
      | item lead value =>
        have lighter : pending (inside value ++ rest) < pending (.item lead value :: rest) := by
          have := pending_inside value
          rw [pending, pending_append]
          omega
        rw [pieces, pieces, inductionHypothesis _ lighter (inside value ++ rest) _ rfl,
          inductionHypothesis _ lighter (inside value ++ rest) ("" ++ lead ++ opening value) rfl]
        simp

theorem spelt_nil : spelt [] = [] := by
  rw [spelt, pieces]
  rfl

theorem spelt_closing (bracket : String) (rest : List Piece) :
    spelt (.closing bracket :: rest) = bracket.toList ++ spelt rest := by
  rw [spelt, pieces, toList_pieces]
  simp

theorem spelt_item (lead : String) (value : Json) (rest : List Piece) :
    spelt (.item lead value :: rest) =
      lead.toList ++ (opening value).toList ++ spelt (inside value ++ rest) := by
  rw [spelt, pieces, toList_pieces]
  simp

/-- By induction on what is pending: a value in front gives way to the pieces inside it, which are
lighter but may be more. -/
theorem spelt_append (first second : List Piece) :
    spelt (first ++ second) = spelt first ++ spelt second := by
  generalize weighs : pending first = weight
  induction weight using Nat.strongRecOn generalizing first with
  | ind weight inductionHypothesis =>
    subst weighs
    cases first with
    | nil => rw [spelt_nil]; rfl
    | cons piece rest =>
      cases piece with
      | closing bracket =>
        have lighter : pending rest < pending (.closing bracket :: rest) := by
          rw [pending]
          omega
        rw [List.cons_append, spelt_closing, spelt_closing,
          inductionHypothesis _ lighter rest rfl, List.append_assoc]
      | item lead value =>
        have lighter : pending (inside value ++ rest) < pending (.item lead value :: rest) := by
          have := pending_inside value
          rw [pending, pending_append]
          omega
        rw [List.cons_append, spelt_item, spelt_item, ← List.append_assoc (inside value),
          inductionHypothesis _ lighter (inside value ++ rest) rfl, ← List.append_assoc]

end Writer

/-- The characters of the text of a value. -/
def Json.written (value : Json) : List Char :=
  value.write.toList

namespace Json

open Writer (spelt)

theorem written_eq (value : Json) :
    value.written = (Writer.opening value).toList ++ spelt (Writer.inside value) := by
  show spelt [.item "" value] = _
  rw [Writer.spelt_item, List.append_nil]
  rfl

theorem spelt_item (lead : String) (value : Json) (rest : List Writer.Piece) :
    spelt (.item lead value :: rest) = lead.toList ++ value.written ++ spelt rest := by
  rw [Writer.spelt_item, Writer.spelt_append, written_eq]
  simp

/-- The text of the items behind the first one. -/
def laterItems (items : List Json) : List Char :=
  items.flatMap fun item => ',' :: item.written

/-- The text of an entry. -/
def writtenEntry (entry : String × Json) : List Char :=
  '"' :: (entry.1.toList.flatMap Lexeme.spelled ++ '"' :: ':' :: entry.2.written)

/-- The text of the entries behind the first one. -/
def laterEntries (fields : List (String × Json)) : List Char :=
  fields.flatMap fun entry => ',' :: writtenEntry entry

theorem written_array_nil : (array []).written = ['[', ']'] := by
  rw [written_eq]
  show '[' :: spelt [.closing "]"] = _
  rw [Writer.spelt_closing, Writer.spelt_nil]
  rfl

theorem written_array_cons (item : Json) (rest : List Json) :
    (array (item :: rest)).written = '[' :: (item.written ++ (laterItems rest ++ [']'])) := by
  have later : spelt (rest.map Writer.laterItem) = laterItems rest := by
    induction rest with
    | nil => exact Writer.spelt_nil
    | cons next more inductionHypothesis =>
      rw [List.map_cons, Writer.laterItem, spelt_item, inductionHypothesis]
      rfl
  rw [written_eq, Writer.inside, Writer.items, Writer.spelt_append, spelt_item, later,
    Writer.spelt_closing, Writer.spelt_nil, Writer.opening]
  simp

theorem written_object_nil : (object []).written = ['\x7b', '\x7d'] := by
  rw [written_eq]
  show '\x7b' :: spelt [.closing "\x7d"] = _
  rw [Writer.spelt_closing, Writer.spelt_nil]
  rfl

theorem toList_named (key : String) (value : Json) :
    (Writer.named key).toList ++ value.written = writtenEntry (key, value) := by
  rw [Writer.named, String.toList_append, Lexeme.toList_string, writtenEntry]
  simp

theorem written_object_cons (entry : String × Json) (rest : List (String × Json)) :
    (object (entry :: rest)).written =
      '\x7b' :: (writtenEntry entry ++ (laterEntries rest ++ ['\x7d'])) := by
  have later : spelt (rest.map Writer.laterEntry) = laterEntries rest := by
    induction rest with
    | nil => exact Writer.spelt_nil
    | cons next more inductionHypothesis =>
      rw [List.map_cons, Writer.laterEntry, spelt_item, inductionHypothesis, String.toList_append,
        List.append_assoc ",".toList, toList_named]
      rfl
  obtain ⟨key, value⟩ := entry
  rw [written_eq, Writer.inside, Writer.entries, Writer.spelt_append, spelt_item, toList_named,
    later, Writer.spelt_closing, Writer.spelt_nil, Writer.opening]
  simp

end Json

/-! ### Before a value -/

namespace Reader

open Lexeme

theorem run_of_going {turn turn' : Turn} {frames frames' : List Frame} {text rest : List Char}
    (moved : step turn frames text = .ok (.going turn' frames' rest)) :
    run turn frames text = run turn' frames' rest := by
  rw [run.eq_def]
  split
  · next failed => rw [moved] at failed; cases failed
  · next ended => rw [moved] at ended; cases ended
  · next again => rw [moved] at again; cases again; rfl

theorem skipBlanks_of_not_blank {character : Char} (solid : isBlank character = false)
    (rest : List Char) : skipBlanks (character :: rest) = character :: rest :=
  List.dropWhile_cons_of_neg (by rw [solid]; exact Bool.false_ne_true)

theorem not_blank_of_isDigit {character : Char} (digit : isDigit character = true) :
    isBlank character = false := by
  rw [Bool.eq_false_iff]
  intro blank
  simp only [isBlank, Bool.or_eq_true, decide_eq_true_eq] at blank
  rcases blank with ((rfl | rfl) | rfl) | rfl <;> cases digit

/-- A digit begins a number. -/
theorem beginValue_digit {character : Char} (digit : isDigit character = true)
    (frames : List Frame) (rest : List Char) :
    beginValue frames (character :: rest) =
      placing .number frames (number false (character :: rest)) := by
  rw [beginValue, skipBlanks_of_not_blank (not_blank_of_isDigit digit)]
  split
  all_goals first
    | next same => cases same; rw [if_pos digit]
    | next same => cases same <;> cases digit

/-- Behind a comma in an array stands the next item. -/
theorem placeInList_comma {character : Char} (solid : isBlank character = false)
    (unclosed : character ≠ ']') (items : List Json) (frames : List Frame) (rest : List Char) :
    placeInList items frames (',' :: character :: rest) =
      .ok (.going .value (.list items :: frames) (character :: rest)) := by
  rw [placeInList, skipBlanks_of_not_blank rfl]
  simp only [skipBlanks_of_not_blank solid]
  split
  · next same => cases same
  · next same => cases same; exact absurd rfl unclosed
  · rfl

/-- Behind the opening bracket of an array stands the first item. -/
theorem beginValue_list {character : Char} (solid : isBlank character = false)
    (unclosed : character ≠ ']') (frames : List Frame) (rest : List Char) :
    beginValue frames ('[' :: character :: rest) =
      .ok (.going .value (.list [] :: frames) (character :: rest)) := by
  rw [beginValue, skipBlanks_of_not_blank rfl]
  simp only [skipBlanks_of_not_blank solid]
  split
  · next same => cases same
  · next same => cases same; exact absurd rfl unclosed
  · rfl

end Reader

namespace Json

open Lexeme Reader

theorem written_of_leaf {value : Json} (leaf : Writer.inside value = []) :
    value.written = (Writer.opening value).toList := by
  rw [written_eq, leaf, Writer.spelt_nil, List.append_nil]

theorem written_string (text : String) :
    (string text).written = '"' :: (text.toList.flatMap spelled ++ ['"']) := by
  rw [written_of_leaf rfl]
  exact toList_string text

/-- The text of an integer is the digits of its amount, behind a minus sign if it is negative. -/
theorem written_integer {value : Int} (lower : -9223372036854775808 ≤ value)
    (upper : value < 18446744073709551616) :
    (number (.integer value lower upper)).written =
      if value < 0 then '-' :: Nat.toDigits 10 value.natAbs else Nat.toDigits 10 value.natAbs := by
  rw [written_of_leaf rfl]
  show (toString value).toList = _
  rw [Int.toString_eq_repr]
  cases value with
  | ofNat amount => exact Nat.toList_repr
  | negSucc amount =>
    rw [if_pos (Int.negSucc_lt_zero amount), Int.natAbs_negSucc, ← Nat.toList_repr]
    exact String.toList_append

/-- The text of a value begins neither with a blank nor with a closing bracket. -/
theorem written_head {value : Json} (whole : value.whole = true) :
    ∃ first more, value.written = first :: more ∧ isBlank first = false ∧ first ≠ ']' := by
  cases value with
  | null => exact ⟨_, _, written_of_leaf rfl, rfl, by decide⟩
  | bool value => cases value <;> exact ⟨_, _, written_of_leaf rfl, rfl, by decide⟩
  | number value =>
    cases value with
    | real value => exact absurd whole Bool.false_ne_true
    | integer value lower upper =>
      rw [written_integer]
      split
      · exact ⟨_, _, rfl, rfl, by decide⟩
      · obtain ⟨first, more, digits, digit⟩ := toDigits_head value.natAbs
        refine ⟨first, more, digits, not_blank_of_isDigit digit, ?_⟩
        rintro rfl
        cases digit
  | string text => exact ⟨_, _, written_string text, rfl, by decide⟩
  | array items =>
    cases items with
    | nil => exact ⟨_, _, written_array_nil, rfl, by decide⟩
    | cons item rest => exact ⟨_, _, written_array_cons item rest, rfl, by decide⟩
  | object fields =>
    cases fields with
    | nil => exact ⟨_, _, written_object_nil, rfl, by decide⟩
    | cons entry rest => exact ⟨_, _, written_object_cons entry rest, rfl, by decide⟩

/-! ### Behind a value -/

/-- Before the text of a value, whatever is open, the machine comes to stand behind that text with
the value in order. -/
def ReadsBack (value : Json) : Prop :=
  ∀ (frames : List Frame) (rest : List Char), Ends rest →
    run .value frames (value.written ++ rest) = run (.place value.sorted) frames rest

theorem ReadsBack.of_begin {value : Json}
    (began : ∀ (frames : List Frame) (rest : List Char), Ends rest →
      beginValue frames (value.written ++ rest) = .ok (.going (.place value.sorted) frames rest)) :
    value.ReadsBack :=
  fun frames rest ends => run_of_going (began frames rest ends)

theorem readsBack_string (text : String) : (string text).ReadsBack := by
  refine .of_begin fun frames rest _ => ?_
  rw [written_string]
  show placing .string frames (Lexeme.string "" (text.toList.flatMap spelled ++ ['"'] ++ rest)) = _
  rw [List.append_assoc, List.singleton_append, string_written]
  rfl

theorem ofWhole_natAbs {value : Int} (lower : -9223372036854775808 ≤ value)
    (upper : value < 18446744073709551616) :
    Number.ofWhole (decide (value < 0)) value.natAbs = .integer value lower upper := by
  rw [Number.ofWhole]
  by_cases negative : value < 0
  · have same : -(value.natAbs : Int) = value := by omega
    rw [dif_pos ⟨by omega, by omega, decide_eq_true negative⟩]
    simp only [same]
  · have same : (value.natAbs : Int) = value := by omega
    rw [dif_neg (fun fits => negative (of_decide_eq_true fits.2.2)),
      dif_pos ⟨decide_eq_false negative, by omega⟩]
    simp only [same]

theorem readsBack_integer {value : Int} (lower : -9223372036854775808 ≤ value)
    (upper : value < 18446744073709551616) :
    (number (.integer value lower upper)).ReadsBack := by
  refine .of_begin fun frames rest ends => ?_
  have small : value.natAbs ≤ Number.largestSignificand := by
    show value.natAbs ≤ 18446744073709551615
    omega
  have read : Lexeme.number (decide (value < 0)) (Nat.toDigits 10 value.natAbs ++ rest) =
      .ok (.integer value lower upper, rest) := by
    rw [number_toDigits small ends, ofWhole_natAbs]
  rw [written_integer]
  by_cases negative : value < 0
  · rw [decide_eq_true negative] at read
    rw [if_pos negative]
    show placing .number frames (Lexeme.number true (Nat.toDigits 10 value.natAbs ++ rest)) = _
    rw [read]
    rfl
  · rw [decide_eq_false negative] at read
    obtain ⟨first, more, digits, digit⟩ := toDigits_head value.natAbs
    rw [if_neg negative]
    rw [digits, List.cons_append] at read ⊢
    rw [beginValue_digit digit, read]
    rfl

theorem ends_laterItems (items : List Json) (rest : List Char) :
    Ends (laterItems items ++ ']' :: rest) := by
  cases items with
  | nil => exact Or.inr (Or.inl rfl)
  | cons => exact Or.inl rfl

theorem ends_laterEntries (fields : List (String × Json)) (rest : List Char) :
    Ends (laterEntries fields ++ '\x7d' :: rest) := by
  cases fields with
  | nil => exact Or.inr (Or.inr rfl)
  | cons => exact Or.inl rfl

/-- Behind an item of an array the other items and the closing bracket are read. No item begins with
a bracket, so a comma is never taken for a trailing one. -/
theorem run_laterItems {items : List Json} (whole : ∀ item ∈ items, item.whole = true)
    (back : ∀ item ∈ items, item.ReadsBack) (first : Json) (done : List Json)
    (frames : List Frame) (rest : List Char) :
    run (.place first) (.list done :: frames) (laterItems items ++ ']' :: rest) =
      run (.place (.array ((first :: done).reverse ++ items.map sorted))) frames rest := by
  induction items generalizing first done with
  | nil =>
    rw [List.map_nil, List.append_nil]
    exact run_of_going rfl
  | cons item more inductionHypothesis =>
    obtain ⟨head, tail, begins, solid, bracket⟩ := written_head (whole item List.mem_cons_self)
    have text : laterItems (item :: more) ++ ']' :: rest =
        ',' :: (item.written ++ (laterItems more ++ ']' :: rest)) := by
      simp [laterItems]
    have moved : step (.place first) (.list done :: frames)
        (',' :: (item.written ++ (laterItems more ++ ']' :: rest))) =
        .ok (.going .value (.list (first :: done) :: frames)
          (item.written ++ (laterItems more ++ ']' :: rest))) := by
      rw [begins, List.cons_append, step, placeInList_comma solid bracket]
    rw [text, run_of_going moved, back item List.mem_cons_self _ _ (ends_laterItems more rest),
      inductionHypothesis (fun item member => whole item (List.mem_cons_of_mem _ member))
        (fun item member => back item (List.mem_cons_of_mem _ member))]
    simp

theorem readsBack_array {items : List Json} (whole : ∀ item ∈ items, item.whole = true)
    (back : ∀ item ∈ items, item.ReadsBack) : (array items).ReadsBack := by
  intro frames rest ends
  rw [sorted_array]
  cases items with
  | nil =>
    rw [written_array_nil]
    exact run_of_going rfl
  | cons item more =>
    obtain ⟨head, tail, begins, solid, bracket⟩ := written_head (whole item List.mem_cons_self)
    have text : (array (item :: more)).written ++ rest =
        '[' :: (item.written ++ (laterItems more ++ ']' :: rest)) := by
      simp [written_array_cons]
    have began : step .value frames ('[' :: (item.written ++ (laterItems more ++ ']' :: rest))) =
        .ok (.going .value (.list [] :: frames)
          (item.written ++ (laterItems more ++ ']' :: rest))) := by
      rw [begins, List.cons_append, step, beginValue_list solid bracket]
    rw [text, run_of_going began, back item List.mem_cons_self _ _ (ends_laterItems more rest),
      run_laterItems (fun item member => whole item (List.mem_cons_of_mem _ member))
        (fun item member => back item (List.mem_cons_of_mem _ member))]
    rfl

theorem withKey_written (key : String) (entries : List (String × Json)) (frames : List Frame)
    (rest : List Char) :
    withKey entries frames (key.toList.flatMap spelled ++ '"' :: ':' :: rest) =
      .ok (.going .value (.object entries key :: frames) rest) := by
  rw [withKey, Reader.key, string_written]
  rfl

/-- Behind an entry of an object the other entries and the closing brace are read. -/
theorem run_laterEntries {fields : List (String × Json)}
    (back : ∀ entry ∈ fields, entry.2.ReadsBack) (key : String) (value : Json)
    (done : List (String × Json)) (frames : List Frame) (rest : List Char) :
    run (.place value) (.object done key :: frames) (laterEntries fields ++ '\x7d' :: rest) =
      run (.place (ofEntries (((key, value) :: done).reverse ++ sortedFields fields))) frames
        rest := by
  induction fields generalizing key value done with
  | nil =>
    rw [sortedFields, List.append_nil]
    exact run_of_going rfl
  | cons entry more inductionHypothesis =>
    obtain ⟨nextKey, next⟩ := entry
    have text : laterEntries ((nextKey, next) :: more) ++ '\x7d' :: rest =
        ',' :: '"' :: (nextKey.toList.flatMap spelled ++ '"' :: ':' ::
          (next.written ++ (laterEntries more ++ '\x7d' :: rest))) := by
      simp [laterEntries, writtenEntry]
    have moved : step (.place value) (.object done key :: frames)
        (',' :: '"' :: (nextKey.toList.flatMap spelled ++ '"' :: ':' ::
          (next.written ++ (laterEntries more ++ '\x7d' :: rest)))) = _ :=
      withKey_written nextKey ((key, value) :: done) frames _
    rw [text, run_of_going moved,
      back (nextKey, next) List.mem_cons_self _ _ (ends_laterEntries more rest),
      inductionHypothesis fun entry member => back entry (List.mem_cons_of_mem _ member)]
    simp [sortedFields]

theorem readsBack_object {fields : List (String × Json)}
    (back : ∀ entry ∈ fields, entry.2.ReadsBack) : (object fields).ReadsBack := by
  intro frames rest ends
  rw [sorted]
  cases fields with
  | nil =>
    rw [written_object_nil, sortedFields, @ofEntries_of_distinct [] List.nodup_nil, byKey,
      List.mergeSort_nil]
    exact run_of_going rfl
  | cons entry more =>
    obtain ⟨key, value⟩ := entry
    have text : (object ((key, value) :: more)).written ++ rest =
        '\x7b' :: '"' :: (key.toList.flatMap spelled ++ '"' :: ':' ::
          (value.written ++ (laterEntries more ++ '\x7d' :: rest))) := by
      simp [written_object_cons, writtenEntry]
    have began : step .value frames ('\x7b' :: '"' :: (key.toList.flatMap spelled ++ '"' :: ':' ::
        (value.written ++ (laterEntries more ++ '\x7d' :: rest)))) = _ :=
      withKey_written key [] frames _
    rw [text, run_of_going began,
      back (key, value) List.mem_cons_self _ _ (ends_laterEntries more rest),
      run_laterEntries fun entry member => back entry (List.mem_cons_of_mem _ member)]
    rfl

mutual

/-- The text of a value is read back, however deep the value is nested. -/
theorem readsBack (value : Json) (whole : value.whole = true) : value.ReadsBack := by
  cases value with
  | null => exact .of_begin fun frames rest _ => by rw [written_of_leaf rfl]; rfl
  | bool value =>
    cases value <;> exact .of_begin fun frames rest _ => by rw [written_of_leaf rfl]; rfl
  | number value =>
    cases value with
    | real value => exact absurd whole Bool.false_ne_true
    | integer value lower upper => exact readsBack_integer lower upper
  | string text => exact readsBack_string text
  | array items =>
    rw [Json.whole] at whole
    have each := readsBack_items items whole
    exact readsBack_array (fun item member => (each item member).1)
      fun item member => (each item member).2
  | object fields =>
    rw [Json.whole] at whole
    exact readsBack_object (readsBack_fields fields whole)

theorem readsBack_items (items : List Json) (whole : wholeItems items = true) :
    ∀ item ∈ items, item.whole = true ∧ item.ReadsBack := by
  cases items with
  | nil => exact fun item member => by cases member
  | cons item rest =>
    rw [wholeItems, Bool.and_eq_true] at whole
    rintro other (_ | ⟨_, member⟩)
    · exact ⟨whole.1, readsBack item whole.1⟩
    · exact readsBack_items rest whole.2 other member

theorem readsBack_fields (fields : List (String × Json)) (whole : wholeFields fields = true) :
    ∀ entry ∈ fields, entry.2.ReadsBack := by
  cases fields with
  | nil => exact fun entry member => by cases member
  | cons entry rest =>
    obtain ⟨name, value⟩ := entry
    rw [wholeFields, Bool.and_eq_true] at whole
    rintro other (_ | ⟨_, member⟩)
    · exact readsBack value whole.1
    · exact readsBack_fields rest whole.2 other member

end

/-- The text of a value whose numbers are integers is read as the value with its keys in order. -/
theorem read_of_whole {value : Json} (whole : value.whole = true) :
    Json.read value.write = .ok value.sorted := by
  have back := readsBack value whole [] [] trivial
  rw [List.append_nil] at back
  have ended : run (.place value.sorted) [] [] = .ok (value.sorted, []) := by rw [run.eq_def]; rfl
  have read : Reader.value value.write.toList = .ok (value.sorted, []) := back.trans ended
  rw [Json.read, read]
  rfl

end Json

end FlowGate
