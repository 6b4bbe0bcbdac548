/-
This file shows that the verdict on a document is exact: it is a success if and only if the
document is read, has a template, and its workflow meets all that the rules ask. The workflow is
looked at node by node, where a node is whatever a path leads to; numbers, positions and the order
of visits do not show in what is asked. Nothing of a node counts but its name and its facts.
-/

import FlowGate.Proofs.DepthCap
import FlowGate.Proofs.Facts
import FlowGate.Verdict

namespace FlowGate

/-! ### What is asked of a workflow -/

/-- The facts of a node; the rules ask nothing of what a trigger does. -/
def Node.facts (node : Node) : Facts :=
  match node.step? with
  | none => .free
  | some step => step.task.facts

/-- What is asked of a workflow: no two of its nodes have one name, and each of them meets what is
asked of a step. -/
structure Trigger.Sound (rejectEmpty : Bool) (start : Trigger) : Prop where
  names : ∀ {path path' node node'}, (Node.trigger start).follow path = some node →
    (Node.trigger start).follow path' = some node' → node.name = node'.name → path = path'
  steps : ∀ {path node}, (Node.trigger start).follow path = some node →
    node.facts.Sound rejectEmpty

/-! ### What the rules look at -/

/-- What the rules look at in the node that a path leads to: its name and its facts. -/
def Trigger.outline (start : Trigger) (path : List Edge) : Option (String × Facts) :=
  ((Node.trigger start).follow path).map fun node => (node.name, node.facts)

section Outline

variable {start other : Trigger}

theorem Trigger.follow_of_outline (same : start.outline = other.outline) {path : List Edge}
    {node : Node} (found : (Node.trigger start).follow path = some node) :
    ∃ node', (Node.trigger other).follow path = some node' ∧ node'.name = node.name ∧
      node'.facts = node.facts := by
  have here := congrFun same path
  rw [outline, outline, found, Option.map_some] at here
  obtain ⟨node', found', equal⟩ := Option.map_eq_some_iff.1 here.symm
  exact ⟨node', found', congrArg Prod.fst equal, congrArg Prod.snd equal⟩

/-- What is asked of a workflow is asked of its outline. -/
theorem Trigger.Sound.of_outline {rejectEmpty : Bool} (sound : start.Sound rejectEmpty)
    (same : start.outline = other.outline) : other.Sound rejectEmpty where
  names found found' named := by
    obtain ⟨node, here, name, -⟩ := Trigger.follow_of_outline same.symm found
    obtain ⟨node', here', name', -⟩ := Trigger.follow_of_outline same.symm found'
    exact sound.names here here' (name.trans (named.trans name'.symm))
  steps found := by
    obtain ⟨node, here, -, facts⟩ := Trigger.follow_of_outline same.symm found
    rw [← facts]
    exact sound.steps here

theorem Trigger.WithinDepth.of_outline {depth : Nat} (within : start.WithinDepth depth)
    (same : start.outline = other.outline) : other.WithinDepth depth := by
  intro path target found
  obtain ⟨node, here, -⟩ := Trigger.follow_of_outline same.symm found
  exact within path node here

end Outline

/-! ### Violations of a listing -/

/-- The listed nodes, in the order of visits. -/
def Walk.nodes (walk : Walk) : List Node :=
  walk.visits.toList.map Visit.item

theorem Walk.names_eq (walk : Walk) : walk.names = walk.nodes.map Node.name := by
  rw [names, nodes, List.map_map]
  rfl

/-- A node is reported just if its name first stands at an earlier number. -/
theorem Walk.repeatedName?_eq_some {walk : Walk} {node : Node} {number : Nat}
    {violation : Violation} :
    walk.repeatedName? (firstPositions walk.names) (node, number) = some violation ↔
      ∃ first, walk.names.idxOf? node.name = some first ∧ first < number ∧
        violation =
          walk.locate number ⟨[.field "name"], .duplicateName node.name (walk.path first)⟩ := by
  rw [repeatedName?, getElem?_firstPositions]
  cases walk.names.idxOf? node.name with
  | none => simp
  | some first => simp [eq_comm]

theorem Walk.repeatedNames_eq_nil (walk : Walk) :
    walk.numbered.filterMap (walk.repeatedName? (firstPositions walk.names)) = [] ↔
      (walk.nodes.map Node.name).Nodup := by
  have each : ∀ (node : Node) (position : Nat),
      walk.repeatedName? (firstPositions walk.names) (node, position) = none ↔
        ∀ first, walk.names.idxOf? node.name = some first → position ≤ first := by
    intro node position
    simp only [Option.eq_none_iff_forall_ne_some, ne_eq, repeatedName?_eq_some, not_exists, not_and]
    exact ⟨fun never first here => Nat.not_lt.1 fun before => never _ first here before rfl,
      fun later _ first here before => absurd (later first here) (Nat.not_le.2 before)⟩
  rw [numbered, filterMap_zipIdx_eq_nil, ← names_eq, nodup_iff_not_earlier]
  refine forall_congr' fun position => ?_
  have here : walk.names[position]? = walk.nodes[position]?.map Node.name := by
    rw [names_eq, List.getElem?_map]
  simp only [each, here]
  show (∀ node, walk.nodes[position]? = some node → _) ↔ _
  cases walk.nodes[position]? <;> simp

theorem Walk.stepViolations_eq_nil (walk : Walk) (options : Options) :
    walk.stepViolations options = [] ↔
      ∀ node ∈ walk.nodes, ∀ step, node.step? = some step → step.findings options = [] := by
  rw [stepViolations, numbered, flatMap_zipIdx_eq_nil, ← forall_position]
  refine forall₃_congr fun position node here => ?_
  cases stepped : node.step? with
  | none => simp [stepped]
  | some step => cases found : step.findings options <;> simp [stepped, locateAll, found]

theorem Node.defaultFinding?_eq_none (node : Node) :
    node.defaultFinding? = none ↔
      ∀ step, node.step? = some step → step.task.defaultFinding? = none := by
  cases node with
  | trigger start => simp [defaultFinding?, step?]
  | action tree =>
    obtain ⟨header, task, next⟩ := tree
    cases task <;> simp [defaultFinding?, step?, Action.step, Task.defaultFinding?]

theorem Walk.defaultBranches_eq_nil (walk : Walk) :
    (walk.numbered.filterMap fun (node, number) =>
        node.defaultFinding?.map (walk.locate number)) = [] ↔
      ∀ node ∈ walk.nodes, ∀ step, node.step? = some step → step.task.defaultFinding? = none := by
  rw [numbered, filterMap_zipIdx_eq_nil, ← forall_position]
  refine forall₃_congr fun position node here => ?_
  rw [Option.map_eq_none_iff, Node.defaultFinding?_eq_none]

/-- The rules find nothing in a node that meets what is asked of it, and only in such a one. -/
theorem Node.sound_iff {node : Node} {options : Options} :
    node.facts.Sound options.rejectEmptyConditionGroups ↔
      ∀ step, node.step? = some step →
        step.findings options = [] ∧ step.task.defaultFinding? = none := by
  cases found : node.step? with
  | none => simp [facts, found, Facts.Sound]
  | some step => simp [facts, found, Step.findings_eq_nil]

/-- A listing has no violations if names differ and each node meets what is asked of it. -/
theorem Walk.violations_eq_nil (walk : Walk) (options : Options) :
    walk.violations options = [] ↔ (walk.nodes.map Node.name).Nodup ∧
      ∀ node ∈ walk.nodes, node.facts.Sound options.rejectEmptyConditionGroups := by
  rw [violations, treeViolations, List.append_eq_nil_iff, List.append_eq_nil_iff,
    stepViolations_eq_nil, repeatedNames_eq_nil, defaultBranches_eq_nil]
  simp only [Node.sound_iff]
  constructor
  · rintro ⟨steps, names, defaults⟩
    exact ⟨names, fun node member step found =>
      ⟨steps node member step found, defaults node member step found⟩⟩
  · rintro ⟨names, both⟩
    exact ⟨fun node member step found => (both node member step found).1, names,
      fun node member step found => (both node member step found).2⟩

/-! ### Violations of a workflow -/

theorem Trigger.nodes_listing (start : Trigger) :
    start.listing.nodes = (Node.trigger start).preorder.map (·.2) :=
  Tree.items_listed _ _ _ _ _

/-- Names differ in the listing just if two paths to one name are the same. -/
theorem Trigger.nodup_names {start : Trigger} :
    (start.listing.nodes.map Node.name).Nodup ↔
      ∀ {path path' node node'}, (Node.trigger start).follow path = some node →
        (Node.trigger start).follow path' = some node' → node.name = node'.name →
          path = path' := by
  have entries : ((Node.trigger start).preorder).Nodup :=
    List.Nodup.of_map _ (Node.trigger start).nodup_preorder
  rw [nodes_listing, List.map_map, List.nodup_map_iff_inj_on entries]
  simp only [← Node.mem_preorder]
  constructor
  · intro same path path' node node' found found' named
    exact congrArg Prod.fst (same (path, node) found (path', node') found' named)
  · rintro same ⟨path, node⟩ found ⟨path', node'⟩ found' named
    obtain rfl := same found found' named
    have equal := (Node.mem_preorder.1 found).symm.trans (Node.mem_preorder.1 found')
    rw [Option.some.inj equal]

/-- The listing of a workflow has no violations just if the workflow meets what is asked of it. -/
theorem Trigger.violations_listing {start : Trigger} {options : Options} :
    start.listing.violations options = [] ↔ start.Sound options.rejectEmptyConditionGroups := by
  rw [Walk.violations_eq_nil, Trigger.nodup_names]
  have members : ∀ {node}, node ∈ start.listing.nodes ↔
      ∃ path, (Node.trigger start).follow path = some node := by
    intro node
    simp [nodes_listing, Node.mem_preorder]
  constructor
  · rintro ⟨names, steps⟩
    exact ⟨names, fun found => steps _ (members.2 ⟨_, found⟩)⟩
  · intro sound
    refine ⟨sound.names, fun node member => ?_⟩
    obtain ⟨path, found⟩ := members.1 member
    exact sound.steps found

/-- A workflow has no violations just if it has a template, is not too deep and meets what is
asked of it. -/
theorem Workflow.violations_eq_nil {workflow : Workflow} {options : Options} :
    workflow.violations options = .ok [] ↔
      ∃ template, workflow.template = some template ∧
        template.trigger.WithinDepth options.maxDepth.toNat ∧
        template.trigger.Sound options.rejectEmptyConditionGroups := by
  rw [violations]
  cases workflow.template with
  | none => simp
  | some template =>
    simp only [Option.some.injEq, exists_eq_left', Trigger.walk_eq, map_refuseDeep,
      Trigger.withinDepth_iff, ← Trigger.violations_listing]
    cases firstAt (options.maxDepth.toNat + 1) (Node.trigger template.trigger).paths with
    | none => simp [refuseDeep]
    | some path => simp [refuseDeep]

/-! ### Verdicts -/

theorem Verdict.success_ofViolations {violations : List α} :
    (Verdict.ofViolations violations).success = true ↔ violations = [] := by
  cases violations <;> simp [ofViolations]

theorem Workflow.check_eq_nil {workflow : Workflow} {options : Options} :
    workflow.check options = [] ↔ workflow.violations options = .ok [] := by
  rw [check]
  cases workflow.violations options <;> simp

/-- The verdict is a success just if the document is read and its workflow has no violations. -/
theorem validate_success {options : Options} {document : Json} :
    (validate options document).success = true ↔
      ∃ workflow, Workflow.ofJson options document = .ok workflow ∧
        workflow.violations options = .ok [] := by
  rw [validate]
  cases Workflow.ofJson options document with
  | error refusal => simp [Verdict.ofViolations]
  | ok workflow =>
    simp [Verdict.success_ofViolations, Workflow.check_eq_nil]

theorem validate_success_of_read {options : Options} {document : Json} {workflow : Workflow}
    {template : Template} (read : Workflow.ofJson options document = .ok workflow)
    (present : workflow.template = some template) :
    (validate options document).success = true ↔
      template.trigger.Sound options.rejectEmptyConditionGroups := by
  rw [validate_success]
  simp only [Workflow.violations_eq_nil]
  constructor
  · rintro ⟨workflow', read', template', present', -, sound⟩
    rw [read] at read'
    cases read'
    rw [present] at present'
    cases present'
    exact sound
  · intro sound
    exact ⟨workflow, read, template, present, Workflow.withinDepth_of_read read present, sound⟩

/-! ### A workflow that meets what is asked of it -/

namespace Workflow

/-- A workflow of a trigger and one branch, under some names that do not count. -/
def guarded (name displayName : String) (valid : Bool) : Workflow where
  name
  description := displayName
  tags := .empty
  template := some {
    displayName
    valid
    trigger := {
      header := ⟨"start", displayName, valid⟩
      kind := .empty []
      next := some (.mk ⟨⟨"check", displayName, valid⟩,
        .branch ⟨[[⟨"EXISTS", displayName, none, some valid⟩]], none⟩ none none, none⟩) } }

/-- The trigger of such a workflow. -/
def guardedTrigger (displayName : String) (valid : Bool) : Trigger :=
  ((guarded "" displayName valid).template.get rfl).trigger

theorem ofJson_guarded (name displayName : String) (valid : Bool) :
    ofJson .default (guarded name displayName valid).toJson =
      .ok (guarded name displayName valid) := by
  have within : (guardedTrigger displayName valid).WithinDepth 10000 :=
    Trigger.withinDepth_of_weight (show 1 ≤ 10000 by decide)
  exact ofJson_toJson_of_present rfl within

theorem follow_guarded {displayName : String} {valid : Bool} {path : List Edge} {node : Node}
    (found : (Node.trigger (guardedTrigger displayName valid)).follow path = some node) :
    (path = [] ∧ node.name = "start" ∧ node.facts = .free) ∨
      (path = [.next] ∧ node.name = "check" ∧ node.facts = .branch [["EXISTS"]]) := by
  rcases path with _ | ⟨edge, _ | ⟨edge', rest⟩⟩
  · cases found
    exact Or.inl ⟨rfl, rfl, rfl⟩
  · cases edge <;> cases found
    exact Or.inr ⟨rfl, rfl, rfl⟩
  · cases edge <;> cases edge' <;> cases found

theorem sound_guarded (displayName : String) (valid : Bool) :
    (guardedTrigger displayName valid).Sound false := by
  refine ⟨fun found found' named => ?_, fun found => ?_⟩
  · rcases follow_guarded found with ⟨rfl, name, -⟩ | ⟨rfl, name, -⟩ <;>
      rcases follow_guarded found' with ⟨rfl, name', -⟩ | ⟨rfl, name', -⟩ <;>
      simp_all
  · rcases follow_guarded found with ⟨-, -, facts⟩ | ⟨-, -, facts⟩ <;> rw [facts]
    · trivial
    · refine ⟨List.cons_ne_nil _ _, ?_, fun reject => by cases reject⟩
      simp only [OperatorGroups.Known, List.mem_singleton, forall_eq]
      exact ⟨.exists_, rfl⟩

end Workflow

/-! ### Exactness -/

/-- The verdict on a document is a success if and only if the document is read, has a template, and
its workflow meets what is asked of it. Nothing else that a document holds counts: documents that
are read, and whose workflows have nodes of the same names and facts at the same paths, have the
same verdict. -/
theorem validate_exact (options : Options) (document : Json) :
    ((validate options document).success = true ↔
      ∃ workflow template, Workflow.ofJson options document = .ok workflow ∧
        workflow.template = some template ∧
        template.trigger.Sound options.rejectEmptyConditionGroups) ∧
    ∀ others document' workflow template workflow' template',
      Workflow.ofJson options document = .ok workflow → workflow.template = some template →
      Workflow.ofJson others document' = .ok workflow' → workflow'.template = some template' →
      options.rejectEmptyConditionGroups = others.rejectEmptyConditionGroups →
      template.trigger.outline = template'.trigger.outline →
      (validate options document).success = (validate others document').success := by
  refine ⟨⟨fun success => ?_, ?_⟩, ?_⟩
  · obtain ⟨workflow, read, none⟩ := validate_success.1 success
    obtain ⟨template, present, -, sound⟩ := Workflow.violations_eq_nil.1 none
    exact ⟨workflow, template, read, present, sound⟩
  · rintro ⟨workflow, template, read, present, sound⟩
    exact (validate_success_of_read read present).2 sound
  · intro others document' workflow template workflow' template' read present read' present'
      reject same
    rw [Bool.eq_iff_iff, validate_success_of_read read present,
      validate_success_of_read read' present', reject]
    exact ⟨fun sound => sound.of_outline same, fun sound => sound.of_outline same.symm⟩

theorem validate_exact_guarded :
    (validate .default (Workflow.guarded "daily" "Daily" true).toJson).success = true ∧
      (validate .default (Workflow.guarded "weekly" "Weekly" false).toJson).success = true := by
  have daily := (validate_exact .default (Workflow.guarded "daily" "Daily" true).toJson).1.2
    ⟨_, _, Workflow.ofJson_guarded _ _ _, rfl, Workflow.sound_guarded "Daily" true⟩
  have outline : (Workflow.guardedTrigger "Daily" true).outline =
      (Workflow.guardedTrigger "Weekly" false).outline := by
    funext path
    rcases path with _ | ⟨edge, _ | ⟨edge', rest⟩⟩
    · rfl
    · cases edge <;> rfl
    · cases edge <;> cases edge' <;> rfl
  have same := (validate_exact .default (Workflow.guarded "daily" "Daily" true).toJson).2 .default
    (Workflow.guarded "weekly" "Weekly" false).toJson _ _ _ _ (Workflow.ofJson_guarded _ _ _) rfl
    (Workflow.ofJson_guarded _ _ _) rfl rfl outline
  exact ⟨daily, same ▸ daily⟩

end FlowGate
