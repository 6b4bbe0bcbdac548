/-
This file sets the marks of validity in a workflow. A node is valid when no violation is
attributed to its number, and a template is valid when there are no violations at all; the marks
that a document came with do not matter. Nothing but the marks changes.
-/

import FlowGate.Traversal
import FlowGate.Violation
import Std.Data.HashSet

namespace FlowGate

/-- Sets the marks of steps that are listed, where the first of them has the number one. -/
def Visits.marked (visits : Visits (Step α)) (valid : Nat → Bool) : Visits (Step α) :=
  visits.mapIdx fun index visit => { visit with item := visit.item.marked (valid (index + 1)) }

/-- Sets the marks of an action and of everything that follows it. -/
def Action.marked (action : Action) (valid : Nat → Bool) : Action :=
  ((action.visits.marked valid).assemble Action.mk).getD action

/-- Sets the marks of a trigger and of everything that follows it. -/
def Trigger.marked (trigger : Trigger) (valid : Nat → Bool) : Trigger :=
  { trigger with
    header := { trigger.header with valid := valid 0 }
    next := trigger.next.map fun action => action.marked valid }

/-- The numbers of the nodes that violations are attributed to. -/
def invalidNodes (violations : List Violation) : Std.HashSet Nat :=
  Std.HashSet.ofList (violations.filterMap Violation.node)

/-- Sets the marks of a workflow as its violations tell. -/
def Workflow.marked (workflow : Workflow) (violations : List Violation) : Workflow :=
  let invalid := invalidNodes violations
  { workflow with
    template := workflow.template.map fun template =>
      { template with
        valid := violations.isEmpty
        trigger := template.trigger.marked fun number => !invalid.contains number } }

end FlowGate
