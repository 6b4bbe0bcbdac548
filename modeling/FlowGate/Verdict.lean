/-
This file judges documents. The verdict on a document is a success without violations, or a failure
with all of them; a document that cannot be taken for a workflow has a single one. On the wire a
verdict holds reports, which leave out the numbers of the nodes.
-/

import FlowGate.Rules.Tree
import FlowGate.Workflow.Reading

namespace FlowGate

/-- The outcome of a validation: whether it succeeded, and what was found when it did not. -/
structure Verdict (α : Type) where
  success : Bool
  errors : Option (List α)
  deriving DecidableEq, Repr

namespace Verdict

/-- The verdict that follows from violations. -/
def ofViolations (violations : List α) : Verdict α :=
  if violations.isEmpty then ⟨true, none⟩ else ⟨false, some violations⟩

/-- What was found. -/
def violations (verdict : Verdict α) : List α :=
  verdict.errors.getD []

/-- The same verdict with everything that was found changed. -/
def map (change : α → β) (verdict : Verdict α) : Verdict β :=
  ⟨verdict.success, verdict.errors.map (List.map change)⟩

/-- The form of a verdict on the wire. -/
def form : Form (Verdict Report) where
  shape :=
    .record "ValidationResult" (.field "success" .required .flag
      (.field "errors" .listed Report.form.list.shape .nil))
  toCarrier verdict := (verdict.success, verdict.errors.map Report.form.list.toCarrier, ())
  ofCarrier := fun (success, errors, ()) => ⟨success, errors.map Report.form.list.ofCarrier⟩
  lossless verdict := by
    rcases verdict with ⟨success, _ | errors⟩
    · rfl
    · simp only [Option.map_some, Report.form.list.lossless]

/-- A verdict in its wire form. -/
def toJson (verdict : Verdict Violation) : Json :=
  form.toJson (verdict.map Violation.toReport)

/-- The verdict that a value in wire form holds; its violations are attributed to no node. -/
def ofJson (value : Json) : Except Mismatch (Verdict Violation) :=
  (form.ofJson value).map fun verdict => verdict.map Report.violation

/-- The verdict that a text in wire form holds; its violations are attributed to no node. -/
def read (text : String) : Except Fault (Verdict Violation) :=
  (form.read text).map fun verdict => verdict.map Report.violation

end Verdict

/-! ### Validation -/

/-- The violations of a workflow, or the violation that it cannot be walked. -/
def Workflow.check (workflow : Workflow) (options : Options) : List Violation :=
  match workflow.violations options with
  | .ok violations => violations
  | .error refusal => [refusal.error.violation]

/-- The verdict on a document. -/
def validate (options : Options) (document : Json) : Verdict Violation :=
  match Workflow.ofJson options document with
  | .ok workflow => .ofViolations (workflow.check options)
  | .error refusal => .ofViolations [refusal.error.violation]

/-- The verdict on the text of a document. -/
def validateText (options : Options) (text : String) : Verdict Violation :=
  match Json.readDocument text with
  | .ok document => validate options document
  | .error refusal => .ofViolations [refusal.error.violation]

end FlowGate
