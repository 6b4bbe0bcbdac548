/-
This file reads values of a shape straight from a text. What is wrong with a record as a whole, a
field that is given twice or one that is missing, is reported where the record ends; everything
else where it stands.
-/

import FlowGate.Shape.Scanner.Array
import FlowGate.Shape.Scanner.Object

namespace FlowGate

open Lexeme Reader

/-! ### Drafts -/

/-- What was read so far of the fields of an object. -/
abbrev Fields.Draft : Fields → Type
  | .nil => Unit
  | .field _ presence shape rest => Option (presence.Held shape.Carrier) × rest.Draft

/-- Nothing read so far. -/
def Fields.blank : (fields : Fields) → fields.Draft
  | .nil => ()
  | .field _ _ _ rest => (none, rest.blank)

/-- The fields of an object that was read to its end. -/
def Fields.completed : (fields : Fields) → fields.Draft → Except Mismatch fields.Carrier
  | .nil, () => .ok ()
  | .field name presence _ rest, (slot, others) =>
    match slot.or presence.whenAbsent with
    | none => .error (.missingField name)
    | some held =>
      match rest.completed others with
      | .error mismatch => .error mismatch
      | .ok others => .ok (held, others)

/-! ### Records -/

/-- Reads a record from an object or from an array of its fields in order. -/
def Scanner.record (name : String) (use : String → δ → KeyUse δ) (blank : δ)
    (completed : δ → Except Mismatch α) (elements : Scanner.Part α) : Scanner α where
  run text :=
    match skipBlanks text with
    | '\x7b' :: rest =>
      match Scanner.entries use blank rest with
      | .error fault => .error fault
      | .ok (draft, rest) =>
        match completed draft with
        | .error mismatch => .error (.before (.mismatch mismatch) rest)
        | .ok held => .ok (held, rest)
    | '[' :: rest =>
      match elements.run rest with
      | .error fault => .error fault
      | .ok (held, rest) => Scanner.closeArray held rest
    | rest => .error (Scanner.unexpected (.record name) rest)
  shorter result := by
    split at result
    · next found =>
      have := skipBlanks_cons found
      split at result
      · cases result
      · next read =>
        have := Scanner.entries_length read
        split at result
        · cases result
        · cases result; omega
    · next found =>
      have := skipBlanks_cons found
      split at result
      · cases result
      · next read =>
        have := elements.bounded read
        have := Scanner.closeArray_length result
        omega
    · cases result

/-! ### Shapes -/

mutual

/-- Reads a value of a shape. -/
def Shape.scanner : (shape : Shape) → Scanner shape.Carrier
  | .flag => .flag
  | .count => .count
  | .text => .stringFor .text
  | .tag words => .tag words
  | .map => .freeForm
  | .list item => .list item.scanner
  | .record name fields =>
    .record name fields.use fields.blank fields.completed (fields.elements name fields.size 0 true)

/-- What a key means to a record of which a part was read. -/
def Fields.use : (fields : Fields) → String → fields.Draft → KeyUse fields.Draft
  | .nil, _, () => .unknown
  | .field name presence shape rest, key, (slot, others) =>
    if key = name then
      match slot with
      | some _ => .repeated
      | none =>
        .known ((Scanner.held presence shape.scanner).map fun held => (some held, others))
    else (rest.use key others).map fun others => (slot, others)

/-- Reads fields from the values of an array, where `position` fields of a record of `size` fields
were read before. -/
def Fields.elements :
    (fields : Fields) → (record : String) → (size position : Nat) → (first : Bool) →
      Scanner.Part fields.Carrier
  | .nil, _, _, _, _ =>
    { run text := .ok ((), text), bounded result := by cases result; exact Nat.le_refl _ }
  | .field _ presence shape rest, record, size, position, first =>
    Scanner.fieldThen presence shape.scanner (.tooShort position record size) first
      (rest.elements record size (position + 1))

end

/-- Reads a text that holds one value of a form and nothing else. -/
def Form.read (form : Form α) (text : String) : Except Fault α :=
  match form.shape.scanner.run text.toList with
  | .error fault => .error fault
  | .ok (value, rest) =>
    match nothingMore rest with
    | .error fault => .error fault
    | .ok () => .ok (form.ofCarrier value)

end FlowGate
