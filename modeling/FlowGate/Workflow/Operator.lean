/-
This file lists the operators that a condition may compare with, and their names on the wire.
-/

import FlowGate.Json.Basic

namespace FlowGate

/-- How a condition compares its values. -/
inductive Operator where
  | textContains
  | textDoesNotContain
  | textExactlyMatches
  | textDoesNotExactlyMatch
  | textStartsWith
  | textDoesNotStartWith
  | textEndsWith
  | textDoesNotEndWith
  | numberIsGreaterThan
  | numberIsLessThan
  | numberIsEqualTo
  | booleanIsTrue
  | booleanIsFalse
  | dateIsBefore
  | dateIsEqual
  | dateIsAfter
  | listContains
  | listDoesNotContain
  | listIsEmpty
  | listIsNotEmpty
  | exists_
  | doesNotExist
  deriving DecidableEq, Repr

namespace Operator

/-- All operators, in the order of their declaration. -/
def all : List Operator :=
  [.textContains, .textDoesNotContain, .textExactlyMatches, .textDoesNotExactlyMatch,
    .textStartsWith, .textDoesNotStartWith, .textEndsWith, .textDoesNotEndWith,
    .numberIsGreaterThan, .numberIsLessThan, .numberIsEqualTo, .booleanIsTrue, .booleanIsFalse,
    .dateIsBefore, .dateIsEqual, .dateIsAfter, .listContains, .listDoesNotContain, .listIsEmpty,
    .listIsNotEmpty, .exists_, .doesNotExist]

/-- The name of an operator on the wire. -/
def tag : Operator → String
  | .textContains => "TEXT_CONTAINS"
  | .textDoesNotContain => "TEXT_DOES_NOT_CONTAIN"
  | .textExactlyMatches => "TEXT_EXACTLY_MATCHES"
  | .textDoesNotExactlyMatch => "TEXT_DOES_NOT_EXACTLY_MATCH"
  | .textStartsWith => "TEXT_STARTS_WITH"
  | .textDoesNotStartWith => "TEXT_DOES_NOT_START_WITH"
  | .textEndsWith => "TEXT_ENDS_WITH"
  | .textDoesNotEndWith => "TEXT_DOES_NOT_END_WITH"
  | .numberIsGreaterThan => "NUMBER_IS_GREATER_THAN"
  | .numberIsLessThan => "NUMBER_IS_LESS_THAN"
  | .numberIsEqualTo => "NUMBER_IS_EQUAL_TO"
  | .booleanIsTrue => "BOOLEAN_IS_TRUE"
  | .booleanIsFalse => "BOOLEAN_IS_FALSE"
  | .dateIsBefore => "DATE_IS_BEFORE"
  | .dateIsEqual => "DATE_IS_EQUAL"
  | .dateIsAfter => "DATE_IS_AFTER"
  | .listContains => "LIST_CONTAINS"
  | .listDoesNotContain => "LIST_DOES_NOT_CONTAIN"
  | .listIsEmpty => "LIST_IS_EMPTY"
  | .listIsNotEmpty => "LIST_IS_NOT_EMPTY"
  | .exists_ => "EXISTS"
  | .doesNotExist => "DOES_NOT_EXIST"

/-- The operator with that name, if there is one. -/
def ofTag? (tag : String) : Option Operator :=
  all.find? fun operator => operator.tag == tag

theorem ofTag?_tag (operator : Operator) : ofTag? operator.tag = some operator := by
  cases operator <;> decide

end Operator

end FlowGate
