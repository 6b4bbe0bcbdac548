/-
This file says how a value can fail to have the form that is asked of it. A mismatch is data: what
was met, what was wanted, and which fields were missing or given twice; `Mismatch.message` is the
only place where its words are chosen.
-/

import FlowGate.Json.Number
import FlowGate.Text.Quoted

namespace FlowGate

/-- What was met where something else was wanted; arrays and objects are not looked into. -/
inductive Found where
  | null
  | boolean (value : Bool)
  | number (value : Number)
  | string (value : String)
  | sequence
  | map

/-- What a value was wanted to be. -/
inductive Wanted where
  | text
  | flag
  | count
  | sequence
  | map
  | record (name : String)
  | unit
  | tag
  | singleEntry
  deriving DecidableEq, Repr

/-- Why a value has not the form that is asked of it. -/
inductive Mismatch where
  | wrongType (found : Found) (wanted : Wanted)
  | wrongValue (found : Found) (wanted : Wanted)
  | tooShort (length : Nat) (record : String) (size : Nat)
  | tooLong (length : Nat)
  | missingField (name : String)
  | repeatedField (name : String)
  | unknownTag (tag : String) (known : List String)

/-- A value as it is named when it is not what was wanted. -/
def Json.found : Json → Found
  | .null => .null
  | .bool value => .boolean value
  | .number value => .number value
  | .string value => .string value
  | .array _ => .sequence
  | .object _ => .map

/-- The words for what was met. -/
def Found.words : Found → String
  | .null => "null"
  | .boolean value => s!"boolean `{value}`"
  | .number (.integer value _ _) => s!"integer `{value}`"
  | .number (.real value) => s!"floating point `{Number.realText value}`"
  | .string value => "string " ++ Text.quoted value
  | .sequence => "sequence"
  | .map => "map"

/-- The words for what was wanted. -/
def Wanted.words : Wanted → String
  | .text => "a string"
  | .flag => "a boolean"
  | .count => "usize"
  | .sequence => "a sequence"
  | .map => "a map"
  | .record name => s!"struct {name}"
  | .unit => "unit"
  | .tag => "string or map"
  | .singleEntry => "map with a single key"

/-- Names between marks, separated by commas. -/
def listed (names : List String) : String :=
  ", ".intercalate (names.map fun name => s!"`{name}`")

/-- The words of a mismatch. -/
def Mismatch.message : Mismatch → String
  | .wrongType found wanted => s!"invalid type: {found.words}, expected {wanted.words}"
  | .wrongValue found wanted => s!"invalid value: {found.words}, expected {wanted.words}"
  | .tooShort length record size =>
    s!"invalid length {length}, expected struct {record} with {size} element" ++
      (if size = 1 then "" else "s")
  | .tooLong length => s!"invalid length {length}, expected fewer elements in array"
  | .missingField name => s!"missing field `{name}`"
  | .repeatedField name => s!"duplicate field `{name}`"
  | .unknownTag tag known => s!"unknown variant `{tag}`, expected one of {listed known}"

end FlowGate
