/-
This file holds JSON values. A number is an integer in the range of sixty-four bits or a real
number; an object is the list of its entries in the order in which they are written. Objects that
come from a text hold their keys in ascending order, each key once, and `Json.ofEntries` brings
entries into that form. Values may be nested to any depth, so comparing two of them keeps a list
of the pairs still to compare instead of descending.
-/

namespace FlowGate

/-- An integer that fits sixty-four bits, from `-2 ^ 63` to below `2 ^ 64`, or a real number. -/
inductive Number where
  | integer (value : Int) (lower : -9223372036854775808 ≤ value)
    (upper : value < 18446744073709551616)
  | real (value : Float)

/-- A JSON value. -/
inductive Json where
  | null
  | bool (value : Bool)
  | number (value : Number)
  | string (value : String)
  | array (items : List Json)
  | object (fields : List (String × Json))

/-- A natural number below `2 ^ 64` as a number. -/
def Number.ofUInt64 (value : UInt64) : Number :=
  .integer value.toNat (by omega) (by have := value.toNat_lt; omega)

/-- Integers are equal when they are the same, reals when they compare equal; an integer differs
from every real. -/
def Number.same : Number → Number → Bool
  | .integer first _ _, .integer second _ _ => first == second
  | .real first, .real second => first == second
  | _, _ => false

instance : BEq Number := ⟨Number.same⟩

instance : Inhabited Json := ⟨.null⟩

namespace Json

/-! ### Kinds -/

/-- The six kinds of JSON value. -/
inductive Kind where
  | null
  | boolean
  | number
  | string
  | array
  | object
  deriving DecidableEq, Repr

/-- The kind of a value. -/
def kind : Json → Kind
  | .null => .null
  | .bool _ => .boolean
  | .number _ => .number
  | .string _ => .string
  | .array _ => .array
  | .object _ => .object

/-- The words that name a kind in a message. -/
def Kind.words : Kind → String
  | .null => "null"
  | .boolean => "a boolean"
  | .number => "a number"
  | .string => "a string"
  | .array => "an array"
  | .object => "an object"

/-- Whether the value is `null`. -/
def isNull : Json → Bool
  | .null => true
  | _ => false

/-! ### Entries -/

/-- The keys of entries, in order. -/
def keys (fields : List (String × Json)) : List String :=
  fields.map (·.1)

/-- The values of entries, in order. -/
def values (fields : List (String × Json)) : List Json :=
  fields.map (·.2)

/-- The value of a key, if an entry has it. -/
def field? (name : String) (fields : List (String × Json)) : Option Json :=
  fields.lookup name

/-- The value of a key, where `null` counts as no value. -/
def present? (name : String) (fields : List (String × Json)) : Option Json :=
  (field? name fields).filter fun value => !value.isNull

/-- The last of neighbouring entries with one key. -/
def lastOfEachKey (entries : List (String × Json)) : List (String × Json) :=
  entries.foldr
    (fun entry kept =>
      match kept with
      | [] => [entry]
      | next :: _ => if entry.1 = next.1 then kept else entry :: kept)
    []

/-- The object with these entries: keys ascend, and of repeated keys the last one counts. -/
def ofEntries (entries : List (String × Json)) : Json :=
  .object (lastOfEachKey (entries.mergeSort fun first second => decide (first.1 ≤ second.1)))

/-! ### Size -/

mutual

/-- The number of values in a value, itself included. -/
def weight : Json → Nat
  | .array items => 1 + weightOfItems items
  | .object fields => 1 + weightOfFields fields
  | _ => 1

/-- The number of values in a list of values. -/
def weightOfItems : List Json → Nat
  | [] => 0
  | item :: rest => item.weight + weightOfItems rest

/-- The number of values in a list of entries. -/
def weightOfFields : List (String × Json) → Nat
  | [] => 0
  | (_, value) :: rest => value.weight + weightOfFields rest

end

theorem weightOfItems_append (first second : List Json) :
    weightOfItems (first ++ second) = weightOfItems first + weightOfItems second := by
  induction first with
  | nil => simp [weightOfItems]
  | cons item rest inductionHypothesis => simp only [List.cons_append, weightOfItems]; omega

theorem weightOfItems_values (fields : List (String × Json)) :
    weightOfItems (values fields) = weightOfFields fields := by
  induction fields with
  | nil => rfl
  | cons entry rest inductionHypothesis =>
    rw [values] at inductionHypothesis ⊢
    simp only [List.map_cons, weightOfItems, weightOfFields, inductionHypothesis]

/-! ### Equality -/

/-- Whether the first values equal the second ones, pair by pair, besides the pairs before them:
arrays and objects add the pairs of their members to the list. -/
def sameAll : List Json → List Json → Bool
  | [], [] => true
  | .null :: rest, .null :: others => sameAll rest others
  | .bool first :: rest, .bool second :: others => first == second && sameAll rest others
  | .number first :: rest, .number second :: others => first == second && sameAll rest others
  | .string first :: rest, .string second :: others => first == second && sameAll rest others
  | .array items :: rest, .array items' :: others =>
    items.length == items'.length && sameAll (items ++ rest) (items' ++ others)
  | .object fields :: rest, .object fields' :: others =>
    keys fields == keys fields' && sameAll (values fields ++ rest) (values fields' ++ others)
  | _, _ => false
termination_by values => weightOfItems values
decreasing_by
  all_goals
    simp only [weightOfItems, weightOfItems_append, weightOfItems_values, weight]
    omega

/-- Whether two values are equal: members in order, numbers as numbers. -/
def same (first second : Json) : Bool :=
  sameAll [first] [second]

instance : BEq Json := ⟨same⟩

end Json

end FlowGate
