/-
This file holds the rules for a whole workflow and brings all rules together. Of nodes with one
name the first is right and every other one is found; the default branch of a split has to be one
of its options. The violations of a workflow are those of its steps in the order in which they are
visited, then those about names, then those about default branches.
-/

import FlowGate.Rules.Step
import FlowGate.Walk

namespace FlowGate

/-! ### Findings by node -/

/-- A finding in the node with a number, located in the document. -/
def Walk.locate (walk : Walk) (number : Nat) (finding : Finding) : Violation :=
  (finding.violation.under (walk.path number)).attributed number

/-- Findings in the node with a number, located in the document. -/
def Walk.locateAll (walk : Walk) (number : Nat) (findings : List Finding) : List Violation :=
  match findings with
  | [] => []
  | _ :: _ => findings.map (walk.locate number)

/-! ### Whole workflows -/

/-- A node whose name an earlier one has. -/
def Walk.repeatedName? (walk : Walk) (known : Std.HashMap String Nat) (numbered : Node × Nat) :
    Option Violation :=
  match known[numbered.1.name]? with
  | some first =>
    if first < numbered.2 then
      some (walk.locate numbered.2
        ⟨[.field "name"], .duplicateName numbered.1.name (walk.path first)⟩)
    else none
  | none => none

/-- A split whose default branch is none of its options. -/
def SplitSettings.defaultFinding? (settings : SplitSettings) : Option Finding :=
  if settings.options.any fun option => option.id == settings.defaultBranch then none
  else
    some ⟨[.field "settings", .field "defaultBranch"],
      .invalidDefaultBranch settings.defaultBranch⟩

/-- The finding about the default branch of a node. -/
def Node.defaultFinding? (node : Node) : Option Finding :=
  match node.step?.map Step.task with
  | some (.split settings _) => settings.defaultFinding?
  | _ => none

/-- The violations of the rules for whole workflows. -/
def Walk.treeViolations (walk : Walk) : List Violation :=
  let known := firstPositions walk.names
  walk.numbered.filterMap (walk.repeatedName? known) ++
    walk.numbered.filterMap fun (node, number) => node.defaultFinding?.map (walk.locate number)

/-- The violations of the rules for one step, step by step. -/
def Walk.stepViolations (walk : Walk) (options : Options) : List Violation :=
  walk.numbered.flatMap fun (node, number) =>
    match node.step? with
    | none => []
    | some step => walk.locateAll number (step.findings options)

/-- All violations of a workflow that was walked. -/
def Walk.violations (walk : Walk) (options : Options) : List Violation :=
  walk.stepViolations options ++ walk.treeViolations

/-- All violations of a workflow. Without a template it has exactly one; the walk fails when the
workflow is nested too deeply. -/
def Workflow.violations (workflow : Workflow) (options : Options) :
    Except Refusal (List Violation) :=
  match workflow.template with
  | none => .ok [.templateRequired]
  | some template => (template.trigger.walk options).map fun walk => walk.violations options

end FlowGate
