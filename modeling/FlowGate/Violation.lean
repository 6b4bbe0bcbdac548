/-
This file holds what is reported about a document: violations of the rules of workflows, each of a
kind with a stable code, and the one error that ends the reading of a document. Both are located
by the text of an access path. A violation also knows the number of the step it is about; that
number is not part of its wire form.
-/

import FlowGate.Path
import FlowGate.Shape.OfJson

namespace FlowGate

/-! ### Kinds -/

/-- What a violation is about. -/
inductive Violation.Kind where
  | decode
  | templateRequired
  | duplicateName
  | invalidDefaultBranch
  | splitRequiresBranch
  | duplicateOptionId
  | duplicateBranch
  | unknownBranchOption
  | missingBranch
  | optionRequiresCondition
  | branchRequiresCondition
  | emptyConditionGroup
  | unknownOperator
  deriving DecidableEq, Repr

namespace Violation.Kind

/-- All kinds, in the order of their declaration. -/
def all : List Kind :=
  [.decode, .templateRequired, .duplicateName, .invalidDefaultBranch, .splitRequiresBranch,
    .duplicateOptionId, .duplicateBranch, .unknownBranchOption, .missingBranch,
    .optionRequiresCondition, .branchRequiresCondition, .emptyConditionGroup, .unknownOperator]

/-- The name of a kind on the wire. -/
def tag : Kind → String
  | .decode => "DECODE"
  | .templateRequired => "TEMPLATE_REQUIRED"
  | .duplicateName => "DUPLICATE_NAME"
  | .invalidDefaultBranch => "INVALID_DEFAULT_BRANCH"
  | .splitRequiresBranch => "SPLIT_REQUIRES_BRANCH"
  | .duplicateOptionId => "DUPLICATE_OPTION_ID"
  | .duplicateBranch => "DUPLICATE_BRANCH"
  | .unknownBranchOption => "UNKNOWN_BRANCH_OPTION"
  | .missingBranch => "MISSING_BRANCH"
  | .optionRequiresCondition => "OPTION_REQUIRES_CONDITION"
  | .branchRequiresCondition => "BRANCH_REQUIRES_CONDITION"
  | .emptyConditionGroup => "EMPTY_CONDITION_GROUP"
  | .unknownOperator => "UNKNOWN_OPERATOR"

/-- The stable short code of a kind; its letter tells who raises it: decoding, the whole tree, a
split or a branch. -/
def code : Kind → String
  | .decode => "D001"
  | .templateRequired => "D002"
  | .duplicateName => "T001"
  | .invalidDefaultBranch => "T002"
  | .splitRequiresBranch => "S001"
  | .duplicateOptionId => "S002"
  | .duplicateBranch => "S003"
  | .unknownBranchOption => "S004"
  | .missingBranch => "S005"
  | .optionRequiresCondition => "S006"
  | .branchRequiresCondition => "B001"
  | .emptyConditionGroup => "B002"
  | .unknownOperator => "B003"

/-- Whether a violation of this kind ends the validation and stands alone. -/
def isFatal : Kind → Bool
  | .decode | .templateRequired => true
  | _ => false

/-- The position of a kind among all kinds. -/
def index (kind : Kind) : Fin all.length :=
  ⟨kind.ctorIdx, by cases kind <;> decide⟩

/-- The names of all kinds. -/
def tags : List String := all.map tag

theorem length_tags : tags.length = all.length := by simp [tags]

/-- The form of a kind: its name on the wire. -/
def form : Form Kind where
  shape := .tag tags
  toCarrier kind := kind.index.cast length_tags.symm
  ofCarrier index := all[index.cast length_tags]
  lossless kind := by cases kind <;> rfl

end Violation.Kind

/-! ### Violations -/

/-- What a client is told of one failure. -/
structure Report where
  path : String
  kind : Violation.Kind
  message : String
  deriving DecidableEq, Repr

/-- One reported failure, with the number of the step it is attributed to, if it is to one. -/
structure Violation extends Report where
  node : Option Nat
  deriving DecidableEq, Repr

/-- The form of a report on the wire. -/
def Report.form : Form Report where
  shape :=
    .record "Violation" (.field "path" .required .text
      (.field "kind" .required Violation.Kind.form.shape (.field "message" .required .text .nil)))
  toCarrier report :=
    (report.path, Violation.Kind.form.toCarrier report.kind, report.message, ())
  ofCarrier := fun (path, kind, message, ()) =>
    ⟨path, Violation.Kind.form.ofCarrier kind, message⟩
  lossless report := by simp only [Violation.Kind.form.lossless]

/-- A report as a violation that is attributed to no step. -/
def Report.violation (report : Report) : Violation :=
  { report with node := none }

namespace Violation

/-- A violation that is attributed to no step. -/
def plain (kind : Kind) (path message : String) : Violation :=
  (Report.mk path kind message).violation

/-- The violation, attributed to the step with that number. -/
def attributed (violation : Violation) (node : Nat) : Violation :=
  { violation with node := some node }

/-- The violation with its path taken relative to another one. -/
def under (violation : Violation) (base : String) : Violation :=
  { violation with path := rerooted violation.path base }

/-- The violation of a document without a template. -/
def templateRequired : Violation :=
  plain .templateRequired "template" "template is required"

/-- The violation as a line of text. -/
def display (violation : Violation) : String :=
  if violation.path.isEmpty then s!"[{violation.kind.code}] {violation.message}"
  else s!"[{violation.kind.code}] {violation.message} (at '{violation.path}')"

end Violation

/-! ### Errors -/

/-- Why a document cannot be taken for a workflow, and where. -/
structure DecodeError where
  path : String
  reason : String
  deriving DecidableEq, Repr

namespace DecodeError

/-- The error with its path taken relative to another one. -/
def under (error : DecodeError) (base : String) : DecodeError :=
  { error with path := rerooted error.path base }

/-- The error as a line of text. -/
def display (error : DecodeError) : String :=
  s!"{error.reason} (at '{error.path}')"

/-- The error as a violation. -/
def violation (error : DecodeError) : Violation :=
  .plain .decode error.path error.reason

end DecodeError

end FlowGate
