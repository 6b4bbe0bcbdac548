/-
This file shows that violations point at what they are about. Each of them is attributed to a node
of the walk, its path is the path of that node with something behind it, and when the text of the
path is read and followed through the wire form of the workflow it leads to the offending value:
a name, the id of an option, an operator, or a list that is empty and should not be. What a rule
finds is located within its node first; the path of the node is put in front of it at the end.
-/

import FlowGate.Proofs.Access
import FlowGate.Proofs.Numbering
import FlowGate.Proofs.PathText

namespace FlowGate

/-! ### What violations are about -/

/-- The settings of a split, and the options that its ways name. -/
def Node.split? (node : Node) : Option (SplitSettings × List String) :=
  match node.step?.map Step.task with
  | some (.split settings branches) => some (settings, branches.map Branch.optionId)
  | _ => none

/-- Whether a violation of some kind in a node may be about a value. -/
def Violation.Kind.Concerns (node : Node) (value : Json) : Violation.Kind → Prop
  | .decode | .templateRequired => False
  | .duplicateName => value = .string node.name
  | .invalidDefaultBranch =>
    ∃ settings ways, node.split? = some (settings, ways) ∧
      value = .string settings.defaultBranch ∧
      settings.defaultBranch ∉ settings.options.map SplitOption.id
  | .duplicateOptionId | .missingBranch =>
    ∃ settings ways id, node.split? = some (settings, ways) ∧
      id ∈ settings.options.map SplitOption.id ∧ value = .string id
  | .duplicateBranch | .unknownBranchOption =>
    ∃ settings ways id, node.split? = some (settings, ways) ∧ id ∈ ways ∧ value = .string id
  | .splitRequiresBranch | .branchRequiresCondition | .optionRequiresCondition
  | .emptyConditionGroup => value = .array []
  | .unknownOperator => ∃ tag, value = .string tag ∧ ∀ operator : Operator, operator.tag ≠ tag

/-- A finding is located in its node, at a value that it may be about. -/
structure Finding.Points (finding : Finding) (node : Node) : Prop where
  plain : finding.place.plain = true
  named : ∃ name rest, finding.place = .field name :: rest ∧ name ≠ ""
  leads : ∃ value, finding.place.follow node.toJson = some value ∧
    finding.breach.kind.Concerns node value

/-! ### Fields of settings -/

theorem Form.toJson_list (form : Form α) (values : List α) :
    form.list.toJson values = .array (values.map form.toJson) := by
  simp only [toJson, list, Shape.toJson, List.map_map]
  rfl

theorem AccessPath.follow_list {form : Form α} {values : List α} {position : Nat} {value : α}
    (here : values[position]? = some value) (rest : AccessPath) :
    follow (.index position :: rest) (form.list.toJson values) =
      follow rest (form.toJson value) := by
  rw [Form.toJson_list]
  exact AccessPath.follow_index (by rw [List.getElem?_map, here, Option.map_some]) rest

/-! ### Conditions -/

/-- The operator of a condition that is found is not known. -/
theorem Condition.finding?_eq_some {place : AccessPath} {condition : Condition} {position : Nat}
    {finding : Finding} (found : finding? place (condition, position) = some finding) :
    finding = ⟨place ++ [.index position, .field "operator"],
        .unknownOperator condition.operator⟩ ∧
      ∀ operator : Operator, operator.tag ≠ condition.operator := by
  have unknown : ∀ operator : Operator, operator.tag ≠ condition.operator := by
    intro operator same
    rw [finding?_eq_none.2 ⟨operator, same⟩] at found
    cases found
  rw [finding?] at found
  split at found <;> cases found
  exact ⟨rfl, unknown⟩

/-- What is found in groups of conditions lies behind the place of the groups, and leads from the
groups to what it is about. -/
theorem ConditionGroups.mem_findings {groups : ConditionGroups} {place : AccessPath}
    {rejectEmpty : Bool} {finding : Finding}
    (member : finding ∈ groups.findings place rejectEmpty) :
    ∃ rest value, finding.place = place ++ rest ∧ rest.plain = true ∧
      rest.follow (form.toJson groups) = some value ∧
      ∀ node, finding.breach.kind.Concerns node value := by
  obtain ⟨⟨group, position⟩, listed, found⟩ := List.mem_flatMap.1 member
  have here : groups[position]? = some group := List.mem_zipIdx_iff_getElem?.1 listed
  rcases List.mem_append.1 found with empty | unknown
  · split at empty
    · next given =>
      obtain rfl := List.mem_singleton.1 empty
      obtain rfl : group = [] := List.isEmpty_iff.1 (Bool.and_eq_true_iff.1 given).1
      exact ⟨[.index position], .array [], rfl, rfl, AccessPath.follow_list here [], fun _ => rfl⟩
    · cases empty
  · obtain ⟨⟨condition, number⟩, inGroup, found⟩ := List.mem_filterMap.1 unknown
    obtain ⟨rfl, apart⟩ := Condition.finding?_eq_some found
    have there : group[number]? = some condition := List.mem_zipIdx_iff_getElem?.1 inGroup
    refine ⟨[.index position, .index number, .field "operator"], .string condition.operator,
      ?_, rfl, ?_, fun _ => ⟨_, rfl, apart⟩⟩
    · rw [List.append_assoc]
      rfl
    · exact (AccessPath.follow_list here _).trans (AccessPath.follow_list there _)

/-- What is found in groups of conditions points at something if their place leads to them. -/
theorem Finding.points_of_groups {node : Node} {groups : ConditionGroups} {place : AccessPath}
    {rejectEmpty : Bool} {finding : Finding} (plain : place.plain = true)
    (named : ∃ name rest, place = .field name :: rest ∧ name ≠ "")
    (leads : ∀ rest, AccessPath.follow (place ++ rest) node.toJson =
      AccessPath.follow rest (ConditionGroups.form.toJson groups))
    (member : finding ∈ groups.findings place rejectEmpty) : finding.Points node := by
  obtain ⟨rest, value, located, ordinary, found, concerns⟩ := ConditionGroups.mem_findings member
  refine ⟨?_, ?_, value, ?_, concerns node⟩
  · rw [located, AccessPath.plain_append, plain, ordinary]
    rfl
  · obtain ⟨name, others, rfl, nonempty⟩ := named
    exact ⟨name, others ++ rest, located, nonempty⟩
  · rw [located, leads, found]

/-! ### Branches -/

theorem BranchSettings.points {settings : BranchSettings} {onSuccess onFailure : Option Action}
    {node : Node} {step : Step Action} (stepped : node.step? = some step)
    (task : step.task = .branch settings onSuccess onFailure) {options : Options}
    {finding : Finding} (member : finding ∈ settings.findings options) : finding.Points node := by
  have leads : ∀ rest, AccessPath.follow (conditionsPlace ++ rest) node.toJson =
      AccessPath.follow rest (ConditionGroups.form.toJson settings.conditions) := by
    intro rest
    have found := Node.follow_settings stepped (.field "conditions" :: rest)
    rw [task] at found
    exact found
  rcases List.mem_append.1 member with empty | inGroups
  · split at empty
    · next none =>
      obtain rfl := List.mem_singleton.1 empty
      refine ⟨by decide, ⟨_, _, rfl, by decide⟩, .array [], ?_, rfl⟩
      have none : settings.conditions = [] := List.isEmpty_iff.1 none
      rw [← List.append_nil conditionsPlace, leads, none]
      rfl
    · cases empty
  · exact Finding.points_of_groups (by decide) ⟨_, _, rfl, by decide⟩ leads inGroups

/-! ### Splits -/

theorem Node.split?_eq_some {node : Node} {settings : SplitSettings} {ways : List String} :
    node.split? = some (settings, ways) ↔ ∃ step branches, node.step? = some step ∧
      step.task = .split settings branches ∧ branches.map Branch.optionId = ways := by
  rw [split?]
  cases node.step? with
  | none => simp
  | some step => cases task : step.task <;> simp [task]

section Split

variable {node : Node} {settings : SplitSettings} {ways : List String}
  (split : node.split? = some (settings, ways))

include split

theorem Node.follow_splitSettings (rest : AccessPath) :
    AccessPath.follow (.field "settings" :: rest) node.toJson =
      AccessPath.follow rest (SplitSettings.form.toJson settings) := by
  obtain ⟨step, branches, stepped, task, -⟩ := Node.split?_eq_some.1 split
  rw [Node.follow_settings stepped, task]
  rfl

theorem Node.follow_optionsPlace (rest : AccessPath) :
    AccessPath.follow (optionsPlace ++ rest) node.toJson =
      AccessPath.follow rest (SplitOption.form.list.toJson settings.options) :=
  Node.follow_splitSettings split (.field "options" :: rest)

theorem Node.follow_optionPlace {position : Nat} {option : SplitOption}
    (here : settings.options[position]? = some option) (rest : AccessPath) :
    AccessPath.follow (optionPlace position ++ rest) node.toJson =
      AccessPath.follow rest (SplitOption.form.toJson option) := by
  rw [optionPlace, List.append_assoc, Node.follow_optionsPlace split]
  exact AccessPath.follow_list here rest

theorem Node.follow_ways :
    ∃ branches : List (Branch Json), branches.map Branch.optionId = ways ∧ ∀ rest,
      AccessPath.follow (.field "branches" :: rest) node.toJson =
        AccessPath.follow rest (.array (branches.map Branch.toJson)) := by
  obtain ⟨step, branches, stepped, task, rfl⟩ := Node.split?_eq_some.1 split
  exact Node.follow_branches stepped task

theorem Node.follow_wayPlace {position : Nat} {id : String} (here : ways[position]? = some id) :
    AccessPath.follow (wayPlace position) node.toJson = some (.string id) := by
  obtain ⟨branches, rfl, leads⟩ := Node.follow_ways split
  rw [List.getElem?_map] at here
  obtain ⟨way, there, rfl⟩ := Option.map_eq_some_iff.1 here
  have listed : (branches.map Branch.toJson)[position]? = some way.toJson := by
    rw [List.getElem?_map, there, Option.map_some]
  rw [wayPlace, leads, AccessPath.follow_index listed]
  rfl

/-- The place of the id of an option leads to the id. -/
theorem Finding.points_of_optionId {position : Nat} {id : String}
    (here : (settings.options.map SplitOption.id)[position]? = some id) {breach : Breach}
    (kind : breach.kind = .duplicateOptionId ∨ breach.kind = .missingBranch) :
    Finding.Points ⟨optionPlace position ++ [.field "id"], breach⟩ node := by
  have member : id ∈ settings.options.map SplitOption.id := List.mem_of_getElem? here
  rw [List.getElem?_map] at here
  obtain ⟨option, there, rfl⟩ := Option.map_eq_some_iff.1 here
  refine ⟨rfl, ⟨_, _, rfl, by decide⟩, .string option.id, Node.follow_optionPlace split there _, ?_⟩
  rcases kind with kind | kind <;> rw [kind] <;>
    exact ⟨settings, ways, option.id, split, member, rfl⟩

/-- The place of the option that a way names leads to the name. -/
theorem Finding.points_of_way {position : Nat} {id : String} (here : ways[position]? = some id)
    {breach : Breach} (kind : breach.kind = .duplicateBranch ∨ breach.kind = .unknownBranchOption) :
    Finding.Points ⟨wayPlace position, breach⟩ node := by
  have member : id ∈ ways := List.mem_of_getElem? here
  refine ⟨rfl, ⟨_, _, rfl, by decide⟩, .string id, Node.follow_wayPlace split here, ?_⟩
  rcases kind with kind | kind <;> rw [kind] <;> exact ⟨settings, ways, id, split, member, rfl⟩

end Split

/-! ### How options and ways match -/

namespace SplitIndex

variable {index : SplitIndex} {id : String} {position : Nat} {finding : Finding}

theorem repeatedOption?_eq_some : index.repeatedOption? (id, position) = some finding ↔
    ∃ first, index.options[id]? = some first ∧ first < position ∧
      finding = ⟨optionPlace position ++ [.field "id"], .duplicateOptionId id first⟩ := by
  rw [repeatedOption?]
  cases index.options[id]? with
  | none => simp
  | some first => simp [eq_comm]

theorem wrongWay?_eq_some : index.wrongWay? (id, position) = some finding ↔
    (index.ways[id]? ≠ some position ∧ finding = ⟨wayPlace position, .duplicateBranch id⟩) ∨
      (index.ways[id]? = some position ∧ index.options.contains id = false ∧
        finding = ⟨wayPlace position, .unknownBranchOption id⟩) := by
  rw [wrongWay?]
  by_cases first : index.ways[id]? = some position <;>
    cases index.options.contains id <;> simp [first, eq_comm]

theorem optionWithoutWay?_eq_some : index.optionWithoutWay? (id, position) = some finding ↔
    index.options[id]? = some position ∧ index.ways.contains id = false ∧
      finding = ⟨optionPlace position ++ [.field "id"], .missingBranch id⟩ := by
  rw [optionWithoutWay?]
  by_cases first : index.options[id]? = some position <;>
    cases index.ways.contains id <;> simp [first, eq_comm]

end SplitIndex

section Split

variable {node : Node} {settings : SplitSettings} {ways : List String}
  (split : node.split? = some (settings, ways))

include split

theorem Finding.points_of_emptiness {finding : Finding}
    (member : finding ∈ SplitIndex.emptiness (settings.options.map SplitOption.id) ways) :
    finding.Points node := by
  rw [SplitIndex.emptiness] at member
  split at member
  · next none =>
    obtain rfl := List.mem_singleton.1 member
    have none : settings.options = [] := List.map_eq_nil_iff.1 (List.isEmpty_iff.1 none)
    refine ⟨by decide, ⟨_, _, rfl, by decide⟩, .array [], ?_, rfl⟩
    rw [← List.append_nil optionsPlace, Node.follow_optionsPlace split, none]
    rfl
  · split at member
    · next none =>
      obtain rfl := List.mem_singleton.1 member
      obtain ⟨branches, same, leads⟩ := Node.follow_ways split
      rw [List.isEmpty_iff.1 none, List.map_eq_nil_iff] at same
      refine ⟨by decide, ⟨_, _, rfl, by decide⟩, .array [], ?_, rfl⟩
      rw [leads, same]
      rfl
    · cases member

theorem Finding.points_of_matching {finding : Finding}
    (member : finding ∈ matchingFindings (settings.options.map SplitOption.id) ways) :
    finding.Points node := by
  rw [matchingFindings, List.mem_append, List.mem_append, List.mem_append] at member
  rcases member with ((empty | repeated) | wrong) | without
  · exact Finding.points_of_emptiness split empty
  · obtain ⟨⟨id, position⟩, listed, found⟩ := List.mem_filterMap.1 repeated
    obtain ⟨first, -, -, rfl⟩ := SplitIndex.repeatedOption?_eq_some.1 found
    exact Finding.points_of_optionId split (List.mem_zipIdx_iff_getElem?.1 listed) (Or.inl rfl)
  · obtain ⟨⟨id, position⟩, listed, found⟩ := List.mem_filterMap.1 wrong
    have here : ways[position]? = some id := List.mem_zipIdx_iff_getElem?.1 listed
    rcases SplitIndex.wrongWay?_eq_some.1 found with ⟨-, rfl⟩ | ⟨-, -, rfl⟩
    · exact Finding.points_of_way split here (Or.inl rfl)
    · exact Finding.points_of_way split here (Or.inr rfl)
  · obtain ⟨⟨id, position⟩, listed, found⟩ := List.mem_filterMap.1 without
    obtain ⟨-, -, rfl⟩ := SplitIndex.optionWithoutWay?_eq_some.1 found
    exact Finding.points_of_optionId split (List.mem_zipIdx_iff_getElem?.1 listed) (Or.inr rfl)

theorem SplitOption.points {option : SplitOption} {position : Nat}
    (here : settings.options[position]? = some option) {options : Options} {finding : Finding}
    (member : finding ∈ findings settings.defaultBranch options (option, position)) :
    finding.Points node := by
  have leads : ∀ rest, AccessPath.follow
      (optionPlace position ++ [.field "conditions"] ++ rest) node.toJson =
        AccessPath.follow rest (ConditionGroups.form.toJson option.conditions) := by
    intro rest
    rw [List.append_assoc, Node.follow_optionPlace split here]
    rfl
  rcases List.mem_append.1 member with empty | inGroups
  · split at empty
    · next given =>
      obtain rfl := List.mem_singleton.1 empty
      have none : option.conditions = [] := List.isEmpty_iff.1 (Bool.and_eq_true_iff.1 given).1
      refine ⟨rfl, ⟨_, _, rfl, by decide⟩, .array [], ?_, rfl⟩
      rw [← List.append_nil (optionPlace position ++ _), leads, none]
      rfl
    · cases empty
  · exact Finding.points_of_groups rfl ⟨_, _, rfl, by decide⟩ leads inGroups

theorem SplitSettings.points {options : Options} {finding : Finding}
    (member : finding ∈ settings.findings ways options) : finding.Points node := by
  rcases List.mem_append.1 member with matching | inOptions
  · exact Finding.points_of_matching split matching
  · obtain ⟨⟨option, position⟩, listed, found⟩ := List.mem_flatMap.1 inOptions
    exact SplitOption.points split (List.mem_zipIdx_iff_getElem?.1 listed) found

theorem SplitSettings.points_default {finding : Finding}
    (found : settings.defaultFinding? = some finding) : finding.Points node := by
  rw [defaultFinding?] at found
  split at found
  · cases found
  · next absent =>
    cases found
    refine ⟨rfl, ⟨_, _, rfl, by decide⟩, .string settings.defaultBranch,
      Node.follow_splitSettings split _, settings, ways, split, rfl, fun member => absent ?_⟩
    obtain ⟨option, inOptions, same⟩ := List.mem_map.1 member
    exact List.any_eq_true.2 ⟨option, inOptions, beq_iff_eq.2 same⟩

end Split

/-! ### Nodes -/

/-- What the rules find in a step points at something in its node. -/
theorem Step.points {node : Node} {step : Step Action} (stepped : node.step? = some step)
    {options : Options} {finding : Finding} (member : finding ∈ step.findings options) :
    finding.Points node := by
  rw [findings] at member
  cases task : step.task with
  | branch settings onSuccess onFailure =>
    rw [task] at member
    exact BranchSettings.points stepped task member
  | split settings branches =>
    rw [task] at member
    exact SplitSettings.points (Node.split?_eq_some.2 ⟨step, branches, stepped, task, rfl⟩) member
  | _ => rw [task] at member; cases member

theorem Node.points_default {node : Node} {finding : Finding}
    (found : node.defaultFinding? = some finding) : finding.Points node := by
  rw [defaultFinding?] at found
  cases stepped : node.step? with
  | none => rw [stepped] at found; cases found
  | some step =>
    rw [stepped, Option.map_some] at found
    cases task : step.task with
    | split settings branches =>
      rw [task] at found
      exact SplitSettings.points_default
        (Node.split?_eq_some.2 ⟨step, branches, stepped, task, rfl⟩) found
    | _ => rw [task] at found; cases found

theorem Node.points_name (node : Node) (firstPath : String) :
    Finding.Points ⟨[.field "name"], .duplicateName node.name firstPath⟩ node :=
  ⟨rfl, ⟨_, _, rfl, by decide⟩, .string node.name, node.follow_name, rfl⟩

/-! ### Violations -/

theorem Walk.mem_locateAll {walk : Walk} {number : Nat} {findings : List Finding}
    {violation : Violation} (member : violation ∈ walk.locateAll number findings) :
    ∃ finding ∈ findings, violation = walk.locate number finding := by
  cases findings with
  | nil => cases member
  | cons first rest =>
    obtain ⟨finding, found, same⟩ := List.mem_map.1 member
    exact ⟨finding, found, same.symm⟩

/-- Each violation is a finding that points at something in a node of the walk. -/
theorem Walk.exists_finding {walk : Walk} {options : Options} {violation : Violation}
    (member : violation ∈ walk.violations options) :
    ∃ node number finding, (node, number) ∈ walk.numbered ∧
      violation = walk.locate number finding ∧ finding.Points node := by
  rw [violations, treeViolations, List.mem_append, List.mem_append] at member
  rcases member with inStep | repeated | default
  · obtain ⟨⟨node, number⟩, numbered, found⟩ := List.mem_flatMap.1 inStep
    cases stepped : node.step? with
    | none => simp [stepped] at found
    | some step =>
      simp only [stepped] at found
      obtain ⟨finding, inFindings, located⟩ := Walk.mem_locateAll found
      exact ⟨node, number, finding, numbered, located, Step.points stepped inFindings⟩
  · obtain ⟨⟨node, number⟩, numbered, found⟩ := List.mem_filterMap.1 repeated
    obtain ⟨first, -, -, rfl⟩ := repeatedName?_eq_some.1 found
    exact ⟨node, number, _, numbered, rfl, node.points_name _⟩
  · obtain ⟨⟨node, number⟩, numbered, found⟩ := List.mem_filterMap.1 default
    obtain ⟨finding, here, located⟩ := Option.map_eq_some_iff.1 found
    exact ⟨node, number, finding, numbered, located.symm, Node.points_default here⟩

/-! ### Paths of violations -/

theorem plain_stepSegments (path : List Edge) : (stepSegments path).plain = true := by
  have edges : ∀ edge : Edge, edge.segments.plain = true := by
    intro edge
    cases edge <;> rfl
  rw [stepSegments, AccessPath.plain_append, Bool.and_eq_true]
  refine ⟨by decide, ?_⟩
  rw [AccessPath.plain, List.all_flatMap, List.all_eq_true]
  exact fun edge _ => edges edge

section Located

variable {finding : Finding} {node : Node} (points : finding.Points node)

include points

/-- The path of a violation is the path of its node with something behind it. What stands behind
begins with a name, so a point joins the two texts, and reading takes them apart there. -/
theorem Walk.path_locate (walk : Walk) (number : Nat) :
    finding.place.render ≠ "" ∧
      (walk.locate number finding).path = walk.path number ++ "." ++ finding.place.render ∧
      AccessPath.ofText (walk.locate number finding).path =
        stepSegments (walk.visits.edgesTo number []) ++ finding.place := by
  obtain ⟨name, rest, place, nonempty⟩ := points.named
  have edges := plain_stepSegments (walk.visits.edgesTo number [])
  have relative : finding.place.render ≠ "" :=
    AccessPath.render_ne_empty points.plain (place ▸ List.cons_ne_nil _ _)
  have base : (stepSegments (walk.visits.edgesTo number [])).render ≠ "" :=
    AccessPath.render_ne_empty edges (List.cons_ne_nil _ _)
  have path : (walk.locate number finding).path =
      (stepSegments (walk.visits.edgesTo number [])).render ++ "." ++ finding.place.render := by
    rw [render_stepSegments] at base ⊢
    show rerooted finding.place.render (stepPath (walk.visits.edgesTo number [])) = _
    rw [rerooted, if_neg (by rwa [String.isEmpty_iff]), fieldPath_of_ne base]
  refine ⟨relative, ?_, ?_⟩
  · rw [path, render_stepSegments]
    rfl
  · rw [path, place, ← AccessPath.render_append base nonempty, ← place]
    refine AccessPath.ofText_render ?_
    rw [AccessPath.plain_append, edges, points.plain]
    rfl

end Located

/-- A workflow with a template has the violations that its walk lists. -/
theorem Workflow.violations_eq_ok {workflow : Workflow} {template : Template}
    (present : workflow.template = some template) {options : Options}
    {violations : List Violation} :
    workflow.violations options = .ok violations ↔
      template.trigger.walk options = .ok template.trigger.listing ∧
        violations = template.trigger.listing.violations options := by
  rw [Workflow.violations, present]
  constructor
  · intro found
    obtain ⟨walk, walked, rfl⟩ := map_eq_ok.1 found
    obtain ⟨-, rfl⟩ := Trigger.walk_eq_ok.1 walked
    exact ⟨walked, rfl⟩
  · rintro ⟨walked, rfl⟩
    exact congrArg (Except.map _) walked

/-- Every violation of a workflow with a template is attributed to a node of the walk. Its path is
the path of that node with something behind it, and it leads through the wire form of the workflow
to the value that the violation is about. -/
theorem Workflow.violations_point (workflow : Workflow) (options : Options) (template : Template)
    (present : workflow.template = some template) (violations : List Violation)
    (found : workflow.violations options = .ok violations) :
    ∃ walk, template.trigger.walk options = .ok walk ∧ ∀ violation ∈ violations,
      ∃ number visit relative value, violation.node = some number ∧
        walk.visits[number]? = some visit ∧ relative ≠ "" ∧
        violation.path = walk.path number ++ "." ++ relative ∧
        (AccessPath.ofText violation.path).follow workflow.toJson = some value ∧
        violation.kind.Concerns visit.item value := by
  obtain ⟨walked, rfl⟩ := (Workflow.violations_eq_ok present).1 found
  refine ⟨_, walked, fun violation member => ?_⟩
  obtain ⟨node, number, finding, numbered, rfl, points⟩ := Walk.exists_finding member
  obtain ⟨relative, path, segments⟩ := Walk.path_locate points template.trigger.listing number
  obtain ⟨value, leads, concerns⟩ := points.leads
  obtain ⟨visit, listed, rfl⟩ : ∃ visit, template.trigger.listing.visits[number]? = some visit ∧
      visit.item = node := by
    have here := List.mem_zipIdx_iff_getElem?.1 numbered
    rw [List.getElem?_map] at here
    simpa using here
  refine ⟨number, visit, _, value, rfl, listed, relative, path, ?_, concerns⟩
  rw [segments, AccessPath.follow_append,
    Workflow.follow_stepSegments present (Trigger.follow_listing numbered), Option.bind_some, leads]

/-- A workflow whose only action has the name of the trigger. -/
def Workflow.repeated : Workflow where
  name := "repeated"
  description := ""
  tags := .empty
  template := some {
    displayName := "Repeated"
    valid := true
    trigger := {
      header := ⟨"start", "Start", true⟩
      kind := .empty []
      next := some (.mk ⟨⟨"start", "Again", true⟩,
        .split ⟨[⟨"late", "Late", []⟩], "early", none⟩ [⟨"soon", none⟩], none⟩) } }

theorem Workflow.withinDepth_repeated :
    (repeated.template.get rfl).trigger.WithinDepth Options.default.maxDepth.toNat :=
  Trigger.withinDepth_of_weight (show 1 ≤ 10000 by decide)

theorem Workflow.violations_repeated :
    ∃ violations, repeated.violations .default = .ok violations ∧ violations ≠ [] := by
  refine ⟨_, (violations_eq_ok rfl).2 ⟨Trigger.walk_eq_ok.2 ⟨withinDepth_repeated, rfl⟩, rfl⟩,
    fun none => ?_⟩
  have sound := Trigger.violations_listing.1 none
  have trigger : (Node.trigger (repeated.template.get rfl).trigger).follow [] = some _ := rfl
  have action : (Node.trigger (repeated.template.get rfl).trigger).follow [.next] = some _ := rfl
  exact absurd (sound.names trigger action rfl) (by decide)

theorem Workflow.violations_point_repeated :
    ∃ violations violation number value, repeated.violations .default = .ok violations ∧
      violation ∈ violations ∧ violation.node = some number ∧
      (AccessPath.ofText violation.path).follow repeated.toJson = some value := by
  obtain ⟨violations, found, nonempty⟩ := violations_repeated
  obtain ⟨violation, member⟩ := List.exists_mem_of_ne_nil _ nonempty
  obtain ⟨walk, -, points⟩ := violations_point repeated .default _ rfl violations found
  obtain ⟨number, visit, relative, value, node, -, -, -, leads, -⟩ := points violation member
  exact ⟨violations, violation, number, value, found, member, node, leads⟩

end FlowGate
