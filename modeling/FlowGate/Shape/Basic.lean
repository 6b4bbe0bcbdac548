/-
This file describes the forms of the records that a document, a client or an option text holds. A
shape is data, so one reader from values, one reader from texts and one writer serve every record,
and what holds of all shapes is proved once. The carrier of a shape is the type of what is read:
a record is carried as the tuple of its fields.
-/

import FlowGate.Json.Basic

namespace FlowGate

/-- Whether a field has to be given, and what stands for its absence. -/
inductive Presence where
  /-- The field has to be given. -/
  | required
  /-- The field may be left out; `null` is a value like any other. -/
  | omissible
  /-- The field may be left out or be `null`. -/
  | nullable
  /-- The field may be left out of an object or be `null`; a list has to hold it. -/
  | listed
  deriving DecidableEq, Repr

mutual

/-- The form of a value. -/
inductive Shape where
  | flag
  | count
  | text
  | tag (words : List String)
  | map
  | list (item : Shape)
  | record (name : String) (fields : Fields)

/-- The fields of a record, in the order of their declaration. -/
inductive Fields where
  | nil
  | field (name : String) (presence : Presence) (shape : Shape) (rest : Fields)

end

/-- What a field holds when its value has the type `α`. -/
abbrev Presence.Held (presence : Presence) (α : Type) : Type :=
  match presence with
  | .required => α
  | .omissible | .nullable | .listed => Option α

mutual

/-- The type of the values of a shape. -/
abbrev Shape.Carrier : Shape → Type
  | .flag => Bool
  | .count => UInt64
  | .text => String
  | .tag words => Fin words.length
  | .map => List (String × Json)
  | .list item => List item.Carrier
  | .record _ fields => fields.Carrier

/-- The type of the tuples that fields hold. -/
abbrev Fields.Carrier : Fields → Type
  | .nil => Unit
  | .field _ presence shape rest => presence.Held shape.Carrier × rest.Carrier

end

/-- The number of fields. -/
def Fields.size : Fields → Nat
  | .nil => 0
  | .field _ _ _ rest => rest.size + 1

/-- The names of the fields, in the order of their declaration. -/
def Fields.names : Fields → List String
  | .nil => []
  | .field name _ _ rest => name :: rest.names

/-- What a field holds when an object leaves it out, if it may. -/
def Presence.whenAbsent : (presence : Presence) → Option (presence.Held α)
  | .required => none
  | .omissible | .nullable | .listed => some none

/-- What a field holds when a list ends before it, if it may. -/
def Presence.whenListEnds : (presence : Presence) → Option (presence.Held α)
  | .required | .listed => none
  | .omissible | .nullable => some none

/-- The value of a field, if it has one. -/
def Presence.given? : (presence : Presence) → presence.Held α → Option α
  | .required, value => some value
  | .omissible, value | .nullable, value | .listed, value => value

/-! ### Writing -/

mutual

/-- A value of a shape as JSON. -/
def Shape.toJson : (shape : Shape) → shape.Carrier → Json
  | .flag, value => .bool value
  | .count, value => .number (.ofUInt64 value)
  | .text, value => .string value
  | .tag words, index => .string words[index]
  | .map, fields => .object fields
  | .list item, values => .array (values.map item.toJson)
  | .record _ fields, held => .object (fields.toEntries held)

/-- The entries of fields in the order of their declaration; those without a value are left
out. -/
def Fields.toEntries : (fields : Fields) → fields.Carrier → List (String × Json)
  | .nil, () => []
  | .field name presence shape rest, (held, others) =>
    match presence.given? held with
    | some value => (name, shape.toJson value) :: rest.toEntries others
    | none => rest.toEntries others

end

/-! ### Forms -/

/-- A shape for a type: its values are carried without loss. -/
structure Form (α : Type) where
  shape : Shape
  toCarrier : α → shape.Carrier
  ofCarrier : shape.Carrier → α
  lossless : ∀ value, ofCarrier (toCarrier value) = value

/-- A value as JSON. -/
def Form.toJson (form : Form α) (value : α) : Json :=
  form.shape.toJson (form.toCarrier value)

end FlowGate
