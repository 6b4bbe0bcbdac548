/-
This file follows access paths through the wire form of a workflow. What an edge stands for leads
from a written step to the value of the continuation along that edge, and so the path of a node
leads from the document to the node as it is written. The fields of a written node are found by
their names: its settings, its name and, in a split, the ways with the options that they name.
-/

import FlowGate.Proofs.Roundtrip

namespace FlowGate

/-! ### Paths through values -/

theorem AccessPath.follow_append (first second : AccessPath) (value : Json) :
    follow (first ++ second) value = (follow first value).bind (follow second) := by
  induction first generalizing value with
  | nil => rfl
  | cons segment rest inductionHypothesis =>
    rw [List.cons_append, follow, follow, Option.bind_assoc]
    exact congrArg _ (funext inductionHypothesis)

/-- A field that is present leads to its value. -/
theorem AccessPath.follow_field {name : String} {fields : List (String × Json)} {value : Json}
    (present : Json.present? name fields = some value) (rest : AccessPath) :
    follow (.field name :: rest) (.object fields) = follow rest value := by
  have found : Json.field? name fields = some value := (Option.filter_eq_some_iff.1 present).1
  rw [follow, Segment.follow, found, Option.bind_some]

theorem AccessPath.follow_index {items : List Json} {position : Nat} {value : Json}
    (here : items[position]? = some value) (rest : AccessPath) :
    follow (.index position :: rest) (.array items) = follow rest value := by
  rw [follow, Segment.follow, here, Option.bind_some]

/-! ### Edges -/

/-- What an edge stands for leads from a written step to the continuation along the edge. -/
theorem Step.follow_edge {step : Step Json} (written : step.Written) {edge : Edge} {value : Json}
    (found : step.along edge = some value) :
    edge.segments.follow step.toJson = some value := by
  obtain ⟨next, success, failure, body⟩ := Step.present?_continuation written
  rw [Step.toJson_eq]
  cases edge with
  | next => exact AccessPath.follow_field (next.trans found) []
  | onSuccess => exact AccessPath.follow_field (success.trans found) []
  | onFailure => exact AccessPath.follow_field (failure.trans found) []
  | loopBody => exact AccessPath.follow_field (body.trans found) []
  | branch index =>
    have ways := Step.present?_branches written
    obtain ⟨header, task, last⟩ := step
    cases task with
    | split settings branches =>
      obtain ⟨way, here, after⟩ := Option.bind_eq_some_iff.1 found
      have listed : (branches.map Branch.toJson)[index]? = some way.toJson := by
        rw [List.getElem?_map, here, Option.map_some]
      have member : way ∈ branches := List.mem_of_getElem? here
      have next := Branch.present?_next (Step.written_branches written way member)
      rw [Edge.segments, AccessPath.follow_field ways, AccessPath.follow_index listed]
      exact AccessPath.follow_field (next.trans after) []
    | _ => cases found

/-! ### Written nodes -/

/-- A node and everything that follows it, as it is written. -/
def Node.toJson : Node → Json
  | .trigger start => start.toJson
  | .action tree => tree.toJson

theorem Action.bare_written (action : Action) :
    (action.written.bare : Step β) = action.step.bare := by
  rw [written, Step.bare_hang, Step.bare_bare]

theorem Node.follow_edge {node child : Node} {edge : Edge} (found : node.along edge = some child) :
    edge.segments.follow node.toJson = some child.toJson := by
  cases node with
  | trigger start =>
    cases edge <;> try cases found
    obtain ⟨next, after, rfl⟩ := Option.map_eq_some_iff.1 found
    refine AccessPath.follow_field (start.present?_next.trans ?_) []
    rw [after]
    rfl
  | action tree =>
    obtain ⟨next, after, rfl⟩ := Option.map_eq_some_iff.1 found
    have member : (edge, next.toJson) ∈ tree.written.children := by
      rw [Action.children_written]
      exact List.mem_map.2 ⟨(edge, next), Step.mem_children.2 after, rfl⟩
    rw [toJson, Action.toJson_eq]
    exact Step.follow_edge tree.continuations_written (Step.mem_children.1 member)

/-- The path from a node to another one leads there in the written form of the node. -/
theorem Node.follow_segments {node target : Node} {path : List Edge}
    (found : node.follow path = some target) :
    AccessPath.follow (path.flatMap Edge.segments) node.toJson = some target.toJson := by
  induction path generalizing node with
  | nil =>
    cases found
    rfl
  | cons edge rest inductionHypothesis =>
    obtain ⟨child, here, later⟩ := Option.bind_eq_some_iff.1 found
    rw [List.flatMap_cons, AccessPath.follow_append, Node.follow_edge here, Option.bind_some,
      inductionHypothesis later]

/-- The path of a node leads to the node in the written form of its workflow. -/
theorem Workflow.follow_stepSegments {workflow : Workflow} {template : Template}
    (present : workflow.template = some template) {path : List Edge} {node : Node}
    (found : (Node.trigger template.trigger).follow path = some node) :
    (stepSegments path).follow workflow.toJson = some node.toJson := by
  have root : rootPath.follow workflow.toJson = some template.trigger.toJson := by
    obtain ⟨name, description, tags, template'⟩ := workflow
    cases present
    rfl
  rw [stepSegments, AccessPath.follow_append, root, Option.bind_some]
  exact Node.follow_segments found

/-! ### Fields of written nodes -/

theorem Node.follow_name (node : Node) :
    AccessPath.follow [.field "name"] node.toJson = some (.string node.name) := by
  cases node with
  | trigger start => rfl
  | action tree =>
    have header : tree.written.header = tree.step.header :=
      congrArg (Step.header (α := Empty)) tree.bare_written
    rw [toJson, Action.toJson_eq, name, Node.header, ← header]
    rfl

theorem Task.settings_bare (task : Task α) : (task.bare : Task β).settings = task.settings := by
  cases task <;> rfl

theorem Action.task_written (action : Action) :
    (action.written.task.bare : Task β) = action.step.task.bare :=
  congrArg Step.task action.bare_written

theorem Node.step?_eq_some {node : Node} {step : Step Action} :
    node.step? = some step ↔ node = .action (.mk step) := by
  cases node with
  | trigger start => simp [step?]
  | action tree =>
    cases tree
    simp [step?, Action.step]

/-- The settings of a written node are those of its step. -/
theorem Node.follow_settings {node : Node} {step : Step Action} (stepped : node.step? = some step)
    (rest : AccessPath) :
    AccessPath.follow (.field "settings" :: rest) node.toJson =
      AccessPath.follow rest step.task.settings := by
  obtain rfl := Node.step?_eq_some.1 stepped
  have same : (Action.mk step).written.task.settings = step.task.settings := by
    rw [← Task.settings_bare (β := Empty), Action.task_written, Task.settings_bare]
    rfl
  rw [toJson, Action.toJson_eq, Step.toJson_eq, ← same]
  exact AccessPath.follow_field (present?_settings_node (Task.isNull_settings _) _ _ _) rest

theorem Branch.optionIds_of_bare {first : List (Branch α)} {second : List (Branch β)}
    (same : (first.map fun branch => (⟨branch.optionId, none⟩ : Branch Empty)) =
      second.map fun branch => ⟨branch.optionId, none⟩) :
    first.map Branch.optionId = second.map Branch.optionId := by
  have ids := congrArg (List.map Branch.optionId) same
  rwa [List.map_map, List.map_map] at ids

/-- The ways of a written split name the options that its ways name. -/
theorem Node.follow_branches {node : Node} {step : Step Action} {settings : SplitSettings}
    {branches : List (Branch Action)} (stepped : node.step? = some step)
    (task : step.task = .split settings branches) :
    ∃ written : List (Branch Json), written.map Branch.optionId = branches.map Branch.optionId ∧
      ∀ rest, AccessPath.follow (.field "branches" :: rest) node.toJson =
        AccessPath.follow rest (.array (written.map Branch.toJson)) := by
  obtain rfl := Node.step?_eq_some.1 stepped
  have ways := Step.present?_branches (Action.mk step).continuations_written
  have same : ((Action.mk step).written.task.bare : Task Empty) = step.task.bare :=
    Action.task_written _
  rw [task] at same
  cases found : (Action.mk step).written.task with
  | split settings' written =>
    rw [found] at ways same
    refine ⟨written, Branch.optionIds_of_bare (Task.split.inj same).2, fun rest => ?_⟩
    rw [toJson, Action.toJson_eq, Step.toJson_eq]
    exact AccessPath.follow_field ways rest
  | _ => rw [found] at same; cases same

end FlowGate
