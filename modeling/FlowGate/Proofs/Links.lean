/-
This file follows a document without knowing what its nodes are. Every object may lead on under
each of the fields that continuations stand under, whatever its type says, and a `null` leads
nowhere. The values that are met, each before those that it leads to, are the nodes of the
document, and what each of them tells of itself is its record.
-/

import FlowGate.Proofs.Rebuilding

namespace FlowGate

/-! ### Links -/

namespace Json

/-- What stands under a key of an object, where `null` counts as nothing. -/
def under? (name : String) : Json → Option Json
  | .object fields => present? name fields
  | _ => none

/-- What a value leads to under a key, with the path that leads there. -/
def linked (name : String) (value : Json) : List (AccessPath × Json) :=
  (value.under? name).toList.map fun child => ([.field name], child)

/-- What a value leads to on the ways that it lists. -/
def linkedWays (value : Json) : List (AccessPath × Json) :=
  match value.under? "branches" with
  | some (.array items) =>
    items.zipIdx.flatMap fun (item, position) =>
      (item.linked "nextAction").map fun link =>
        ([.field "branches", .index position] ++ link.1, link.2)
  | _ => []

/-- What a value leads to besides the action that comes next. -/
def ownLinks (value : Json) : List (AccessPath × Json) :=
  value.linked "onSuccessAction" ++ value.linked "onFailureAction" ++ value.linkedWays ++
    value.linked "firstLoopAction"

/-- All that a value leads to, whatever its type is. -/
def links (value : Json) : List (AccessPath × Json) :=
  value.ownLinks ++ value.linked "nextAction"

/-! ### Links lead to lighter values -/

theorem weight_of_under? {name : String} {value child : Json}
    (found : value.under? name = some child) : child.weight < value.weight := by
  cases value with
  | object fields =>
    have lighter := @Reading.weight_present [name] (List.nodup_singleton name) fields
    rw [under?] at found
    rw [List.map_singleton, found, weightOfChildren_cons, weightOfChildren_nil] at lighter
    rw [weight, Nat.add_comm]
    exact Nat.lt_succ_of_le lighter
  | _ => cases found

theorem weight_of_mem {item : Json} {items : List Json} (member : item ∈ items) :
    item.weight < (Json.array items).weight := by
  obtain ⟨before, after, rfl⟩ := List.append_of_mem member
  rw [weight, weightOfItems_append, weightOfItems]
  omega

theorem weight_of_linked {name : String} {value : Json} {link : AccessPath × Json}
    (member : link ∈ value.linked name) : link.2.weight < value.weight := by
  obtain ⟨child, found, rfl⟩ := List.mem_map.1 member
  exact weight_of_under? (Option.mem_toList.1 found)

theorem weight_of_linkedWays {value : Json} {link : AccessPath × Json}
    (member : link ∈ value.linkedWays) : link.2.weight < value.weight := by
  rw [linkedWays] at member
  split at member
  · next items ways =>
    obtain ⟨⟨item, position⟩, listed, member⟩ := List.mem_flatMap.1 member
    obtain ⟨below, found, rfl⟩ := List.mem_map.1 member
    have inItems : item ∈ items := List.mem_of_getElem? (List.mem_zipIdx_iff_getElem?.1 listed)
    have lighter := weight_of_linked found
    exact Nat.lt_trans lighter (Nat.lt_trans (weight_of_mem inItems) (weight_of_under? ways))
  · cases member

/-- What a value leads to is lighter than the value. -/
theorem weight_of_links {value : Json} {link : AccessPath × Json} (member : link ∈ value.links) :
    link.2.weight < value.weight := by
  simp only [links, ownLinks, List.mem_append] at member
  rcases member with (((success | failure) | way) | body) | next
  · exact weight_of_linked success
  · exact weight_of_linked failure
  · exact weight_of_linkedWays way
  · exact weight_of_linked body
  · exact weight_of_linked next

/-! ### Nodes of a document -/

/-- A value and all that it leads to, each with its path; `path` is the path of the value. -/
def nodes (path : AccessPath) (value : Json) : List (AccessPath × Json) :=
  (path, value) :: value.links.attach.flatMap fun ⟨link, _⟩ => link.2.nodes (path ++ link.1)
termination_by value.weight
decreasing_by
  next member => exact weight_of_links member

theorem nodes_eq (path : AccessPath) (value : Json) :
    value.nodes path =
      (path, value) :: value.links.flatMap fun link => link.2.nodes (path ++ link.1) := by
  rw [nodes]
  have same := @List.attach_map_val _ _ value.links fun link => link.2.nodes (path ++ link.1)
  rw [List.flatMap_def, List.flatMap_def, ← same]

end Json

/-! ### Records -/

/-- The settings of a node, as they are decoded for its type. -/
inductive NodeSettings where
  | trigger (kind : TriggerKind)
  | code (settings : CodeSettings)
  | block (settings : BlockSettings)
  | branch (settings : BranchSettings)
  | split (settings : SplitSettings)
  | loop (settings : LoopSettings)

/-- What a node tells of itself. -/
structure NodeRecord where
  kindName : String
  name : String
  displayName : String
  settings : NodeSettings

/-- The settings of an action of some type. -/
def stepSettings? (kind : String) (fields : List (String × Json)) : Option NodeSettings :=
  match kind with
  | "CODE" => (Reading.settings CodeSettings.form fields).toOption.map .code
  | "BLOCK" => (Reading.settings BlockSettings.form fields).toOption.map .block
  | "BRANCH" => (Reading.settings BranchSettings.form fields).toOption.map .branch
  | "SPLIT" => (Reading.settings SplitSettings.form fields).toOption.map .split
  | "LOOP_ON_ITEMS" => (Reading.settings LoopSettings.form fields).toOption.map .loop
  | _ => none

/-- The settings of a trigger of some type. -/
def triggerSettings? (kind : String) (fields : List (String × Json)) : Option NodeSettings :=
  (Reading.triggerKind kind fields).toOption.map .trigger

namespace Json

/-- A string that stands under a key. -/
def text? (name : String) (fields : List (String × Json)) : Option String :=
  match present? name fields with
  | some (.string text) => some text
  | _ => none

/-- What an object tells of itself, with the settings that are found for its type. -/
def record? (settings? : String → List (String × Json) → Option NodeSettings) :
    Json → Option NodeRecord
  | .object fields => do
    let kind ← text? "type" fields
    let name ← text? "name" fields
    let displayName ← text? "displayName" fields
    let settings ← settings? kind fields
    return ⟨kind, name, displayName, settings⟩
  | _ => none

/-- The records of the nodes that the trigger of a document leads to, the trigger first. -/
def records (start : Json) : List (String × Option NodeRecord) :=
  (rootPath.render, start.record? triggerSettings?) ::
    (start.links.flatMap fun link => link.2.nodes (rootPath ++ link.1)).map fun node =>
      (node.1.render, node.2.record? stepSettings?)

end Json

/-- The settings of what a step does. -/
def Task.nodeSettings : Task α → NodeSettings
  | .code settings => .code settings
  | .block settings => .block settings
  | .branch settings _ _ => .branch settings
  | .split settings _ => .split settings
  | .loop settings _ => .loop settings

/-- What a step tells of itself. -/
def Step.record (step : Step α) : NodeRecord :=
  ⟨step.task.kindName, step.header.name, step.header.displayName, step.task.nodeSettings⟩

/-- The settings of a node. -/
def Node.settings : Node → NodeSettings
  | .trigger start => .trigger start.kind
  | .action tree => tree.step.task.nodeSettings

/-- What a node tells of itself. -/
def Node.record (node : Node) : NodeRecord :=
  ⟨node.kindName, node.name, node.header.displayName, node.settings⟩

end FlowGate
