/-
This file writes workflows in their wire form. A node is an object of its header, its type, its
settings and its continuations; a continuation that leads nowhere is left out, and so is an
absent template, while the ways of a split are always listed. Two workflows are the same when
their wire forms are.
-/

import FlowGate.Json.Writer
import FlowGate.Traversal

namespace FlowGate

/-- An entry for a continuation, if there is one. -/
def continuation (name : String) (child : Option Json) : List (String × Json) :=
  child.toList.map fun child => (name, child)

/-- The entries of a header. -/
def Header.entries (header : Header) : List (String × Json) :=
  [("name", .string header.name), ("displayName", .string header.displayName),
    ("valid", .bool header.valid)]

/-- The settings of a step. -/
def Task.settings : Task α → Json
  | .code settings => CodeSettings.form.toJson settings
  | .block settings => BlockSettings.form.toJson settings
  | .branch settings _ _ => BranchSettings.form.toJson settings
  | .split settings _ => SplitSettings.form.toJson settings
  | .loop settings _ => LoopSettings.form.toJson settings

/-- One way of a split. -/
def Branch.toJson (branch : Branch Json) : Json :=
  .object (("optionId", .string branch.optionId) :: continuation "nextAction" branch.next)

/-- The entries of the continuations that only a step of its kind has. -/
def Task.continuations : Task Json → List (String × Json)
  | .code _ | .block _ => []
  | .branch _ onSuccess onFailure =>
    continuation "onSuccessAction" onSuccess ++ continuation "onFailureAction" onFailure
  | .split _ branches => [("branches", .array (branches.map Branch.toJson))]
  | .loop _ body => continuation "firstLoopAction" body

/-- A step whose continuations are written. -/
def Step.toJson (step : Step Json) : Json :=
  .object (step.header.entries ++
    [("type", .string step.task.kindName), ("settings", step.task.settings)] ++
    step.task.continuations ++ continuation "nextAction" step.next)

/-- A step and everything that follows it. -/
def Action.toJson (action : Action) : Json :=
  (action.visits.assemble Step.toJson).getD .null

/-- The settings of a trigger. -/
def TriggerKind.settings : TriggerKind → Json
  | .empty settings => .object settings
  | .block settings => BlockTriggerSettings.form.toJson settings

/-- A trigger and everything that follows it. -/
def Trigger.toJson (trigger : Trigger) : Json :=
  .object (trigger.header.entries ++
    [("type", .string trigger.kind.kindName), ("settings", trigger.kind.settings)] ++
    continuation "nextAction" (trigger.next.map Action.toJson))

/-- A template. -/
def Template.toJson (template : Template) : Json :=
  .object [("displayName", .string template.displayName), ("trigger", template.trigger.toJson),
    ("valid", .bool template.valid)]

/-- A workflow. -/
def Workflow.toJson (workflow : Workflow) : Json :=
  .object ([("name", .string workflow.name), ("description", .string workflow.description),
    ("tags", .array (workflow.tags.names.map .string))] ++
    continuation "template" (workflow.template.map Template.toJson))

/-- The text of a workflow. -/
def Workflow.write (workflow : Workflow) : String :=
  workflow.toJson.write

instance : BEq Workflow := ⟨fun first second => first.toJson == second.toJson⟩

end FlowGate
