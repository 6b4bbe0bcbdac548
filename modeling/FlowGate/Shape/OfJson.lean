/-
This file reads values of a shape from JSON. A record is read from an object, where unknown keys
do not matter, or from an array of its fields in order. Of several faults in an object, a field
that is misread comes before a field that is missing; of two misread ones the one whose name is
smaller comes first, and of two missing ones the one that is declared first.
-/

import FlowGate.Json.Mismatch
import FlowGate.Shape.Basic

namespace FlowGate

/-! ### Values without fields -/

/-- Reads a number as a count below `2 ^ 64`. -/
def Number.toCount : Number → Except Mismatch UInt64
  | value@(.integer amount _ _) =>
    if 0 ≤ amount then .ok amount.toNat.toUInt64
    else .error (.wrongValue (.number value) .count)
  | value@(.real _) => .error (.wrongType (.number value) .count)

/-- The position of a word in a list of words. -/
def Shape.wordIndex (words : List String) (word : String) : Except Mismatch (Fin words.length) :=
  match words.finIdxOf? word with
  | some index => .ok index
  | none => .error (.unknownTag word words)

/-- Reads a word: a string, or an object whose only key it is and whose value is `null`. -/
def Shape.tagOfJson (words : List String) : Json → Except Mismatch (Fin words.length)
  | .string word => wordIndex words word
  | .object [(word, value)] =>
    match wordIndex words word with
    | .error mismatch => .error mismatch
    | .ok index => if value.isNull then .ok index else .error (.wrongType value.found .unit)
  | .object _ => .error (.wrongValue .map .singleEntry)
  | other => .error (.wrongType other.found .tag)

/-- Reads what a field holds. -/
def Presence.ofJson (presence : Presence) (read : Json → Except Mismatch α) (value : Json) :
    Except Mismatch (presence.Held α) :=
  match presence with
  | .required => read value
  | .omissible => (read value).map some
  | .nullable | .listed => if value.isNull then .ok none else (read value).map some

/-! ### Faults of objects -/

/-- What is wrong with an object that should hold a record. -/
inductive Shortfall where
  | misread (field : String) (reason : Mismatch)
  | missing (field : String)

/-- The mismatch that a shortfall amounts to. -/
def Shortfall.mismatch : Shortfall → Mismatch
  | .misread _ reason => reason
  | .missing field => .missingField field

/-- The one of two shortfalls that is reported, where the first belongs to an earlier field. -/
def Shortfall.reported : Shortfall → Shortfall → Shortfall
  | .misread field reason, .misread field' reason' =>
    if field' < field then .misread field' reason' else .misread field reason
  | .missing _, .misread field reason => .misread field reason
  | earlier, _ => earlier

/-- Two parts of a record together, or the shortfall to report. -/
def Shortfall.both : Except Shortfall α → Except Shortfall β → Except Shortfall (α × β)
  | .ok first, .ok second => .ok (first, second)
  | .ok _, .error shortfall => .error shortfall
  | .error shortfall, .ok _ => .error shortfall
  | .error first, .error second => .error (first.reported second)

/-- Reads a field of an object. -/
def Presence.ofEntry (presence : Presence) (name : String) (read : Json → Except Mismatch α)
    (entry : Option Json) : Except Shortfall (presence.Held α) :=
  match entry with
  | some value => (presence.ofJson read value).mapError (.misread name)
  | none =>
    match presence.whenAbsent with
    | some held => .ok held
    | none => .error (.missing name)

/-! ### Shapes -/

mutual

/-- Reads a value of a shape. -/
def Shape.ofJson : (shape : Shape) → Json → Except Mismatch shape.Carrier
  | .flag, value =>
    match value with
    | .bool flag => .ok flag
    | other => .error (.wrongType other.found .flag)
  | .count, value =>
    match value with
    | .number number => number.toCount
    | other => .error (.wrongType other.found .count)
  | .text, value =>
    match value with
    | .string text => .ok text
    | other => .error (.wrongType other.found .text)
  | .tag words, value => Shape.tagOfJson words value
  | .map, value =>
    match value with
    | .object fields => .ok fields
    | other => .error (.wrongType other.found .map)
  | .list item, value =>
    match value with
    | .array values => values.mapM item.ofJson
    | other => .error (.wrongType other.found .sequence)
  | .record name fields, value =>
    match value with
    | .object entries => (fields.ofEntries entries).mapError Shortfall.mismatch
    | .array values =>
      match fields.ofValues name fields.size 0 values with
      | .error mismatch => .error mismatch
      | .ok (held, []) => .ok held
      | .ok (_, _ :: _) => .error (.tooLong values.length)
    | other => .error (.wrongType other.found (.record name))

/-- Reads fields from the entries of an object. -/
def Fields.ofEntries : (fields : Fields) → List (String × Json) → Except Shortfall fields.Carrier
  | .nil, _ => .ok ()
  | .field name presence shape rest, entries =>
    Shortfall.both (presence.ofEntry name shape.ofJson (Json.field? name entries))
      (rest.ofEntries entries)

/-- Reads fields from the values of an array, where `position` fields of a record of `size` fields
were read before, and gives the values that are left. -/
def Fields.ofValues :
    (fields : Fields) → (record : String) → (size position : Nat) → List Json →
      Except Mismatch (fields.Carrier × List Json)
  | .nil, _, _, _, values => .ok ((), values)
  | .field _ presence shape rest, record, size, position, values =>
    match values with
    | [] =>
      match presence.whenListEnds with
      | none => .error (.tooShort position record size)
      | some held =>
        match rest.ofValues record size (position + 1) [] with
        | .error mismatch => .error mismatch
        | .ok (others, left) => .ok ((held, others), left)
    | value :: values =>
      match presence.ofJson shape.ofJson value with
      | .error mismatch => .error mismatch
      | .ok held =>
        match rest.ofValues record size (position + 1) values with
        | .error mismatch => .error mismatch
        | .ok (others, left) => .ok ((held, others), left)

end

/-- Reads a value of a form. -/
def Form.ofJson (form : Form α) (value : Json) : Except Mismatch α :=
  (form.shape.ofJson value).map form.ofCarrier

end FlowGate
