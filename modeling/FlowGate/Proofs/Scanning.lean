/-
This file shows that a text which was written in some shape is scanned back. A scanner reads the
text of a value straight into what carries it, without a value in between, so this is not said by
what holds of values. Behind a value stands the end of the text, a comma or a closing bracket, and
the scanner leaves it there. The entries of a record fill a draft one after the other; each of them
meets a slot that is still empty, since the names of the fields differ.
-/

import FlowGate.Proofs.Rearranging
import FlowGate.Proofs.Rereading
import FlowGate.Shape.OfText

namespace FlowGate

open Lexeme Reader

/-! ### Scanners and texts -/

/-- A scanner takes a text off the front and reads a value in it, whatever may follow a value. -/
def Scanner.Reads (scanner : Scanner α) (text : List Char) (value : α) : Prop :=
  ∀ rest, Ends rest → scanner.run (text ++ rest) = .ok (value, rest)

theorem Scanner.Reads.map {scanner : Scanner α} {text : List Char} {value : α}
    (reads : scanner.Reads text value) (change : α → β) :
    (scanner.map change).Reads text (change value) := by
  intro rest ends
  show mapped change (scanner.run (text ++ rest)) = _
  rw [reads rest ends]
  rfl

theorem Json.written_ofUInt64 (value : UInt64) :
    (number (.ofUInt64 value)).written = Nat.toDigits 10 value.toNat := by
  rw [Number.ofUInt64, written_integer, if_neg (by omega), Int.natAbs_natCast]

theorem Json.written_object_head (fields : List (String × Json)) :
    ∃ more, (object fields).written = '\x7b' :: more := by
  cases fields with
  | nil => exact ⟨_, written_object_nil⟩
  | cons entry rest => exact ⟨_, written_object_cons entry rest⟩

/-- A text begins neither with a blank nor with a closing bracket, nor does it begin like `null`. -/
def Solid (text : List Char) : Prop :=
  ∃ first more, text = first :: more ∧ isBlank first = false ∧ first ≠ ']' ∧ first ≠ 'n'

theorem Shape.solid_written (shape : Shape) (value : shape.Carrier) :
    Solid (shape.toJson value).written := by
  cases shape with
  | flag => cases value <;> exact ⟨_, _, Json.written_of_leaf rfl, rfl, by decide, by decide⟩
  | count =>
    obtain ⟨first, more, digits, digit⟩ := toDigits_head value.toNat
    refine ⟨first, more, (Json.written_ofUInt64 value).trans digits,
      not_blank_of_isDigit digit, ?_, ?_⟩
    · rintro rfl
      cases digit
    · rintro rfl
      cases digit
  | text => exact ⟨_, _, Json.written_string value, rfl, by decide, by decide⟩
  | tag words => exact ⟨_, _, Json.written_string _, rfl, by decide, by decide⟩
  | map =>
    obtain ⟨more, text⟩ := Json.written_object_head value
    exact ⟨_, more, text, rfl, by decide, by decide⟩
  | list item =>
    cases value with
    | nil => exact ⟨_, _, Json.written_array_nil, rfl, by decide, by decide⟩
    | cons first rest =>
      exact ⟨_, _, Json.written_array_cons _ _, rfl, by decide, by decide⟩
  | record name fields =>
    obtain ⟨more, text⟩ := Json.written_object_head (fields.toEntries value)
    exact ⟨_, more, text, rfl, by decide, by decide⟩

namespace Scanner

/-! ### Values without fields -/

theorem reads_flag (value : Bool) : flag.Reads (Json.bool value).written value := by
  intro rest ends
  cases value <;> rw [Json.written_of_leaf rfl] <;> rfl

theorem reads_count (value : UInt64) :
    count.Reads (Json.number (.ofUInt64 value)).written value := by
  intro rest ends
  have upper := value.toNat_lt
  have small : value.toNat ≤ Number.largestSignificand := by
    show value.toNat ≤ 18446744073709551615
    omega
  have whole : Number.ofWhole false value.toNat = .ofUInt64 value := by
    have exact := @Json.ofWhole_natAbs value.toNat (by omega) (by omega)
    rwa [decide_eq_false (by omega), Int.natAbs_natCast] at exact
  have read := number_toDigits small ends false
  obtain ⟨first, more, digits, digit⟩ := toDigits_head value.toNat
  rw [Json.written_ofUInt64]
  rw [digits, List.cons_append] at read ⊢
  rw [whole] at read
  simp only [count, skipBlanks_of_not_blank (not_blank_of_isDigit digit)]
  split
  · next same => cases same; cases digit
  · rw [beginsWithDigit, if_pos digit, read, counted, Number.toCount_ofUInt64]

theorem reads_text (wanted : Wanted) (value : String) :
    (stringFor wanted).Reads (Json.string value).written value := by
  intro rest ends
  rw [Json.written_string]
  show string "" (value.toList.flatMap spelled ++ ['"'] ++ rest) = _
  rw [List.append_assoc, List.singleton_append, string_written]

theorem reads_tag {words : List String} (distinct : words.Nodup) (index : Fin words.length) :
    (tag words).Reads ((Shape.tag words).toJson index).written index := by
  intro rest ends
  rw [Shape.toJson, Json.written_string]
  show (tagWord words).run (_ ++ ['"'] ++ rest) = _
  rw [List.append_assoc, List.singleton_append]
  dsimp only [tagWord]
  rw [string_written]
  dsimp only
  rw [Shape.wordIndex_getElem distinct]

/-- A free-form object is read by the reader of values, which puts its entries in order. -/
theorem reads_freeForm {fields : List (String × Json)} (whole : (Json.object fields).whole = true)
    (inOrder : (Json.object fields).sorted = .object fields) :
    freeForm.Reads (Json.object fields).written fields := by
  intro rest ends
  have ended : Reader.run (.place (.object fields)) [] rest = .ok (.object fields, rest) := by
    rw [Reader.run.eq_def]
    rfl
  have read : Reader.value ((Json.object fields).written ++ rest) = .ok (.object fields, rest) := by
    rw [Reader.value, Json.readsBack _ whole [] rest ends, inOrder, ended]
  obtain ⟨more, text⟩ := Json.written_object_head fields
  rw [text, List.cons_append] at read ⊢
  simp only [freeForm, skipBlanks_of_not_blank (rfl : isBlank '\x7b' = false), read]

/-! ### Lists -/

section Lists

variable {item : Scanner α} {write : α → Json} (solid : ∀ value, Solid (write value).written)

/-- Behind an item and a comma stands the next item. -/
theorem itemsFrom_comma {value : α} {text : List Char} {head : Char} {tail : List Char}
    (read : item.run text = .ok (value, ',' :: head :: tail)) (blank : isBlank head = false)
    (bracket : head ≠ ']') (done : List α) :
    itemsFrom item done text = itemsFrom item (value :: done) (head :: tail) := by
  rw [itemsFrom, read]
  dsimp only
  split
  · next found => cases found
  · next found => cases found
  · next found =>
    cases found
    rw [skipBlanks_of_not_blank blank]
    split
    · next same => cases same
    · next same => cases same; exact absurd rfl bracket
    · rfl
  · next others => exact absurd rfl (others _)

include solid

/-- Behind the opening bracket of an array its items and the closing bracket are read. -/
theorem itemsFrom_written {value : α} {more : List α}
    (reads : ∀ each ∈ value :: more, item.Reads (write each).written each) (done : List α)
    (rest : List Char) :
    itemsFrom item done
        ((write value).written ++ (Json.laterItems (more.map write) ++ ']' :: rest)) =
      .ok (done.reverse ++ value :: more, rest) := by
  have read := reads value List.mem_cons_self _ (Json.ends_laterItems (more.map write) rest)
  induction more generalizing value done with
  | nil =>
    rw [itemsFrom, read]
    show Except.ok ((value :: done).reverse, rest) = _
    rw [List.reverse_cons]
  | cons next more inductionHypothesis =>
    obtain ⟨head, tail, begins, blank, bracket, -⟩ := solid next
    have text : Json.laterItems ((next :: more).map write) ++ ']' :: rest =
        ',' :: ((write next).written ++ (Json.laterItems (more.map write) ++ ']' :: rest)) := by
      simp [Json.laterItems]
    have reads' : ∀ each ∈ next :: more, item.Reads (write each).written each :=
      fun each member => reads each (List.mem_cons_of_mem _ member)
    have later := inductionHypothesis reads' (value :: done)
      (reads' next List.mem_cons_self _ (Json.ends_laterItems _ rest))
    rw [text, begins, List.cons_append] at read
    rw [begins, List.cons_append] at later
    rw [text, begins, List.cons_append, itemsFrom_comma read blank bracket, later,
      List.reverse_cons, List.append_assoc, List.singleton_append]

theorem reads_list {values : List α}
    (reads : ∀ each ∈ values, item.Reads (write each).written each) :
    (list item).Reads (Json.array (values.map write)).written values := by
  intro rest ends
  cases values with
  | nil =>
    rw [List.map_nil, Json.written_array_nil]
    rfl
  | cons value more =>
    obtain ⟨head, tail, begins, blank, bracket, -⟩ := solid value
    have read := itemsFrom_written solid reads [] rest
    have text : (Json.array ((value :: more).map write)).written ++ rest =
        '[' :: head :: (tail ++ (Json.laterItems (more.map write) ++ ']' :: rest)) := by
      simp [Json.written_array_cons, begins]
    rw [begins, List.cons_append] at read
    rw [text]
    simp only [list, skipBlanks_of_not_blank (rfl : isBlank '[' = false),
      skipBlanks_of_not_blank blank]
    split
    · next same => cases same
    · next same => cases same; exact absurd rfl bracket
    · exact read

end Lists

/-! ### Entries -/

/-- The value of a field is read where the field may be `null`: that word is looked for first, but
the text begins with another letter. -/
theorem reads_held (presence : Presence) {scanner : Scanner α} {text : List Char} {value : α}
    {held : presence.Held α} (given : presence.given? held = some value)
    (reads : scanner.Reads text value) (solid : Solid text) :
    (Scanner.held presence scanner).Reads text held := by
  obtain ⟨first, more, rfl, blank, -, letter⟩ := solid
  cases presence with
  | required =>
    cases given
    exact reads
  | omissible =>
    cases given
    exact reads.map some
  | nullable | listed =>
    cases given
    intro rest ends
    simp only [Scanner.held, List.cons_append, skipBlanks_of_not_blank blank]
    split
    · next same => cases same; exact absurd rfl letter
    · exact reads.map some rest ends

/-- The values of entries are read into a draft one after the other. -/
inductive Fills (use : String → δ → KeyUse δ) : δ → List (String × Json) → δ → Prop
  | nil (draft : δ) : Fills use draft [] draft
  | cons {draft next filled : δ} {key : String} {value : Json} {rest : List (String × Json)}
      {scanner : Scanner δ} (known : use key draft = .known scanner)
      (reads : scanner.Reads value.written next) (later : Fills use next rest filled) :
      Fills use draft ((key, value) :: rest) filled

section Entries

variable {use : String → δ → KeyUse δ} {draft next : δ} {key : String} {text rest : List Char}

theorem member_written {value : Json} {scanner : Scanner δ}
    (known : use key draft = .known scanner) (reads : scanner.Reads value.written next)
    (ends : Ends rest) :
    member use draft key (':' :: (value.written ++ rest)) = .ok (next, rest) := by
  rw [member, known]
  exact reads rest ends

theorem entriesFrom_brace {behind : List Char} (named : string "" text = .ok (key, behind))
    (read : member use draft key behind = .ok (next, '\x7d' :: rest)) :
    entriesFrom use draft text = .ok (next, rest) := by
  rw [entriesFrom, named]
  dsimp only
  rw [read]
  rfl

theorem entriesFrom_comma {behind : List Char} (named : string "" text = .ok (key, behind))
    (read : member use draft key behind = .ok (next, ',' :: '"' :: rest)) :
    entriesFrom use draft text = entriesFrom use next rest := by
  rw [entriesFrom, named]
  dsimp only
  rw [read]
  rfl

/-- Behind the opening quotation mark of a key the entries of an object and its closing brace are
read. -/
theorem Fills.entriesFrom {value : Json} {more : List (String × Json)} {filled : δ}
    (fills : Fills use draft ((key, value) :: more) filled) (rest : List Char) :
    entriesFrom use draft (key.toList.flatMap spelled ++ '"' :: ':' ::
        (value.written ++ (Json.laterEntries more ++ '\x7d' :: rest))) =
      .ok (filled, rest) := by
  induction more generalizing draft key value with
  | nil =>
    obtain _ | ⟨known, reads, _ | _⟩ := fills
    have read := member_written known reads (Json.ends_laterEntries [] rest)
    exact entriesFrom_brace (string_written _ _) read
  | cons entry more inductionHypothesis =>
    obtain ⟨nextKey, nextValue⟩ := entry
    obtain _ | ⟨known, reads, later⟩ := fills
    have text : Json.laterEntries ((nextKey, nextValue) :: more) ++ '\x7d' :: rest =
        ',' :: '"' :: (nextKey.toList.flatMap spelled ++ '"' :: ':' ::
          (nextValue.written ++ (Json.laterEntries more ++ '\x7d' :: rest))) := by
      simp [Json.laterEntries, Json.writtenEntry]
    have read := member_written known reads
      (Json.ends_laterEntries ((nextKey, nextValue) :: more) rest)
    rw [text] at read ⊢
    rw [entriesFrom_comma (string_written _ _) read, inductionHypothesis later]

/-- Behind the opening brace of an object its entries fill a blank draft. -/
theorem Fills.object {entries : List (String × Json)} {blank filled : δ}
    (fills : Fills use blank entries filled) (rest : List Char) :
    ∃ behind, (Json.object entries).written ++ rest = '\x7b' :: behind ∧
      Scanner.entries use blank behind = .ok (filled, rest) := by
  cases fills with
  | nil =>
    refine ⟨'\x7d' :: rest, ?_, rfl⟩
    rw [Json.written_object_nil]
    rfl
  | @cons _ _ _ key value more _ known reads later =>
    refine ⟨'"' :: (key.toList.flatMap spelled ++ '"' :: ':' ::
      (value.written ++ (Json.laterEntries more ++ '\x7d' :: rest))), ?_, ?_⟩
    · simp [Json.written_object_cons, Json.writtenEntry]
    · exact Fills.entriesFrom (.cons known reads later) rest

/-- An object whose entries fill a draft that can be completed is read as a record. -/
theorem Fills.record {entries : List (String × Json)} {blank filled : δ} {held : α}
    {name : String} {completed : δ → Except Mismatch α} {elements : Part α}
    (fills : Fills use blank entries filled) (complete : completed filled = .ok held) :
    (Scanner.record name use blank completed elements).Reads (Json.object entries).written
      held := by
  intro rest ends
  obtain ⟨behind, text, read⟩ := fills.object rest
  rw [text]
  simp only [Scanner.record, skipBlanks_of_not_blank (rfl : isBlank '\x7b' = false), read,
    complete]

end Entries

end Scanner

/-! ### Fields -/

namespace Fields

/-- The draft in which every field that has a value was met. -/
def filled : (fields : Fields) → fields.Carrier → fields.Draft
  | .nil, () => ()
  | .field _ presence _ rest, (held, others) =>
    ((presence.given? held).map fun _ => held, rest.filled others)

theorem slot_or_whenAbsent (presence : Presence) (held : presence.Held α) :
    ((presence.given? held).map fun _ => held).or presence.whenAbsent = some held := by
  cases presence with
  | required => rfl
  | omissible | nullable | listed => cases held <;> rfl

theorem completed_filled (fields : Fields) (held : fields.Carrier) :
    fields.completed (fields.filled held) = .ok held := by
  cases fields with
  | nil => rfl
  | field name presence shape rest =>
    obtain ⟨held, others⟩ := held
    rw [filled, completed, slot_or_whenAbsent]
    simp only [rest.completed_filled others]

/-- Entries of later fields are read past an earlier one of another name. -/
theorem fills_rest {name : String} {presence : Presence} {shape : Shape} {rest : Fields}
    (slot : Option (presence.Held shape.Carrier)) {draft filled : rest.Draft}
    {entries : List (String × Json)} (fills : Scanner.Fills rest.use draft entries filled)
    (apart : name ∉ Json.keys entries) :
    Scanner.Fills (Fields.field name presence shape rest).use (slot, draft) entries
      (slot, filled) := by
  induction fills with
  | nil draft => exact .nil _
  | @cons draft next filled key value more scanner known reads later inductionHypothesis =>
    have differs : key ≠ name := fun same => apart (same ▸ List.mem_cons_self)
    have known' : (Fields.field name presence shape rest).use key (slot, draft) =
        .known (scanner.map fun others => (slot, others)) := by
      show (if key = name then _ else (rest.use key draft).map _) = _
      rw [if_neg differs, known]
      rfl
    exact .cons known' (reads.map _)
      (inductionHypothesis fun member => apart (List.mem_cons_of_mem _ member))

end Fields

/-! ### Shapes -/

/-- A value whose text is read as the value itself. -/
abbrev Json.Stable (value : Json) : Prop :=
  value.whole = true ∧ value.sorted = value

mutual

/-- What was written in a shape without ambiguity is scanned back, if its maps are. -/
theorem Shape.reads_written (shape : Shape) (clear : shape.clear = true) (value : shape.Carrier)
    (stable : ∀ map ∈ shape.maps value, (Json.object map).Stable) :
    shape.scanner.Reads (shape.toJson value).written value := by
  cases shape with
  | flag => exact Scanner.reads_flag value
  | count => exact Scanner.reads_count value
  | text => exact Scanner.reads_text .text value
  | tag words => exact Scanner.reads_tag (of_decide_eq_true clear) value
  | map =>
    obtain ⟨whole, inOrder⟩ := stable value (List.mem_singleton_self value)
    exact Scanner.reads_freeForm whole inOrder
  | list item =>
    refine Scanner.reads_list item.solid_written fun each member => ?_
    exact item.reads_written clear each fun map inside =>
      stable map (List.mem_flatMap.2 ⟨each, member, inside⟩)
  | record name fields =>
    exact (fields.fills_written clear value stable).record (fields.completed_filled value)

/-- The entries that fields write fill a blank draft. -/
theorem Fields.fills_written (fields : Fields) (clear : fields.clear = true)
    (held : fields.Carrier) (stable : ∀ map ∈ fields.maps held, (Json.object map).Stable) :
    Scanner.Fills fields.use fields.blank (fields.toEntries held) (fields.filled held) := by
  cases fields with
  | nil => exact .nil _
  | field name presence shape rest =>
    obtain ⟨held, others⟩ := held
    obtain ⟨absent, clear, later⟩ := Fields.clear_field clear
    rw [Fields.maps] at stable
    have below := rest.fills_written later others fun map inside =>
      stable map (List.mem_append_right _ inside)
    have apart : name ∉ Json.keys (rest.toEntries others) := fun member =>
      absent ((rest.keys_toEntries_sublist others).subset member)
    rw [Fields.toEntries, Fields.filled, Fields.blank]
    cases given : presence.given? held with
    | none => exact Fields.fills_rest none below apart
    | some value =>
      have reads := shape.reads_written clear value fun map inside => by
        refine stable map (List.mem_append_left _ ?_)
        rw [given]
        exact List.mem_flatMap.2 ⟨value, List.mem_singleton_self _, inside⟩
      have field := Scanner.reads_held presence given reads (shape.solid_written value)
      have known : (Fields.field name presence shape rest).use name (none, rest.blank) =
          .known ((Scanner.held presence shape.scanner).map
            fun held => (some held, rest.blank)) := by
        rw [Fields.use, if_pos rfl]
      exact .cons known (field.map _) (Fields.fills_rest (some held) below apart)

end

/-- What was written in a form whose shape is without ambiguity is read back from its text. -/
theorem Form.read_written (form : Form α) (clear : form.shape.clear = true) (value : α)
    (stable : ∀ map ∈ form.shape.maps (form.toCarrier value), (Json.object map).Stable) :
    form.read (form.toJson value).write = .ok value := by
  have reads := form.shape.reads_written clear (form.toCarrier value) stable [] trivial
  rw [List.append_nil] at reads
  have scanned : form.shape.scanner.run (form.toJson value).write.toList =
      .ok (form.toCarrier value, []) := reads
  rw [Form.read, scanned]
  exact congrArg Except.ok (form.lossless value)

/-- What was written in a form without free-form maps is read back from its text. -/
theorem Form.read_written_of_plain (form : Form α) (clear : form.shape.clear = true)
    (plain : form.shape.plain = true) (value : α) :
    form.read (form.toJson value).write = .ok value := by
  refine form.read_written clear value fun map member => ?_
  rw [form.shape.maps_of_plain plain] at member
  cases member

end FlowGate
