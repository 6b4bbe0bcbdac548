/-
This file is about setting the marks of validity. A marked workflow has the nodes of the workflow
at the same paths, and they differ from these in their marks alone. The rules do not look at
marks, so a workflow meets what is asked of it if and only if it does once it is marked; and where
every number is to be marked as valid, every node is.
-/

import FlowGate.Proofs.Verdicts
import FlowGate.Validity

namespace FlowGate

/-! ### Nodes with a view -/

theorem withItem_comp (first : β → γ) (second : γ → δ) (entries : List (List Edge × β)) :
    (entries.map (withItem first)).map (withItem second) =
      entries.map (withItem (second ∘ first)) := by
  rw [List.map_map]
  rfl

/-- What a path leads to, as it shows in the order of visits. -/
theorem Node.mem_map_preorder {node : Node} {view : Node → δ} {path : List Edge} {shown : δ} :
    (path, shown) ∈ node.preorder.map (withItem view) ↔
      (node.follow path).map view = some shown := by
  rw [List.mem_map, Option.map_eq_some_iff]
  constructor
  · rintro ⟨⟨path', target⟩, member, same⟩
    cases same
    exact ⟨target, Node.mem_preorder.1 member, rfl⟩
  · rintro ⟨target, found, rfl⟩
    exact ⟨(path, target), Node.mem_preorder.2 found, rfl⟩

/-- Where two orders of visits look the same, so does what each path leads to. -/
theorem Node.follow_of_preorder {first second : Node} {view : Node → δ}
    (same : first.preorder.map (withItem view) = second.preorder.map (withItem view))
    (path : List Edge) : (first.follow path).map view = (second.follow path).map view := by
  refine Option.ext fun shown => ?_
  rw [← Node.mem_map_preorder, ← Node.mem_map_preorder, same]

/-! ### Marked trees -/

/-- The marks do not show where a step leads. -/
theorem Step.children_marked (step : Step α) (valid : Bool) :
    (step.marked valid).children = step.children := rfl

mutual

theorem Tree.proper_renew (tree : Tree (Step α)) {change : Nat → Step α → Step α}
    (same : ∀ number step, (change number step).children = step.children) (proper : tree.Proper)
    (number : Nat) : (tree.renew change number).Proper := by
  cases tree with
  | node item children =>
    obtain ⟨edges, below⟩ := children.proper_renew same proper.2 (number + 1)
    refine ⟨edges.trans (proper.1.trans ?_), below⟩
    rw [same]

theorem Forest.proper_renew (forest : Forest (Step α)) {change : Nat → Step α → Step α}
    (same : ∀ number step, (change number step).children = step.children)
    (proper : forest.Proper) (number : Nat) :
    (forest.renew change number).edges = forest.edges ∧ (forest.renew change number).Proper := by
  cases forest with
  | nil => exact ⟨rfl, trivial⟩
  | cons edge tree rest =>
    obtain ⟨edges, below⟩ := rest.proper_renew same proper.2 (number + tree.size)
    exact ⟨congrArg (edge :: ·) edges, tree.proper_renew same proper.1 number, below⟩

end

/-- The tree of an action, with the marks set. -/
def Action.markedTree (action : Action) (valid : Nat → Bool) : Tree (Step Action) :=
  action.tree.renew (fun number step => step.marked (valid (number + 1))) 0

theorem Action.markedTree_proper (action : Action) (valid : Nat → Bool) :
    (action.markedTree valid).Proper :=
  Tree.proper_renew _ (fun _ step => step.children_marked _) action.tree_proper 0

theorem Action.marked_eq (action : Action) (valid : Nat → Bool) :
    action.marked valid = (action.markedTree valid).fold Action.mk := by
  have listed : action.visits.marked valid =
      ((action.markedTree valid).listed 1 none (some .next) 0).toArray := by
    rw [Visits.marked, visits_eq, markedTree, Tree.listed_renew, List.mapIdx_toArray]
    simp only [Nat.zero_add]
  rw [marked, listed, Tree.assemble_listed]
  rfl

/-- A marked action looks like the action wherever its marks are not looked at. -/
theorem Action.preorder_marked (action : Action) (valid : Nat → Bool)
    (view : Header × Option (Task Empty) → δ) {view' : Step Action → δ}
    (same : ∀ number step, view (step.marked (valid number)).own = view' step) :
    (Node.action (action.marked valid)).preorder.map (withItem (view ∘ Node.own)) =
      action.tree.preorder.map (withItem view') := by
  have proper := action.markedTree_proper valid
  have shown : ∀ number step, (view ∘ Step.own) (step.marked (valid (number + 1))) = view' step :=
    fun number => same (number + 1)
  rw [marked_eq, ← withItem_comp, Tree.preorder_fold _ proper, withItem_comp, markedTree]
  exact Tree.preorder_renew _ shown 0

/-- An action looks like its tree. -/
theorem Action.preorder_own (action : Action) :
    (Node.action action).preorder.map (withItem Node.own) =
      action.tree.preorder.map (withItem Step.own) := by
  have built := action.tree.preorder_fold action.tree_proper
  rwa [fold_tree] at built

/-! ### Marked workflows -/

/-- The rules look at what a step does, wherever it leads. -/
theorem Task.facts_bare (task : Task α) : (task.bare : Task β).facts = task.facts := by
  cases task with
  | split settings branches =>
    rw [bare, facts, facts, List.map_map]
    rfl
  | _ => rfl

/-- What the rules look at in a node, told from the node without what follows it. -/
def sight (own : Header × Option (Task Empty)) : String × Facts :=
  (own.1.name, (own.2.map Task.facts).getD .free)

theorem sight_own (node : Node) : sight node.own = (node.name, node.facts) := by
  cases node with
  | trigger start => rfl
  | action tree => exact congrArg (Prod.mk tree.step.header.name) tree.step.task.facts_bare

/-- The marks are not among what the rules look at. -/
theorem Trigger.outline_marked (start : Trigger) (valid : Nat → Bool) :
    (start.marked valid).outline = start.outline := by
  have seen : (fun node : Node => (node.name, node.facts)) = sight ∘ Node.own :=
    funext fun node => (sight_own node).symm
  funext path
  obtain ⟨header, kind, next⟩ := start
  rw [outline, outline, seen]
  rcases path with _ | ⟨edge, rest⟩
  · rfl
  · cases edge with
    | next =>
      cases next with
      | none => rfl
      | some action =>
        have same : (Node.action (action.marked valid)).preorder.map (withItem (sight ∘ Node.own)) =
            (Node.action action).preorder.map (withItem (sight ∘ Node.own)) := by
          rw [← withItem_comp _ _ (Node.preorder (.action action)), Action.preorder_own,
            withItem_comp]
          exact action.preorder_marked valid sight fun _ _ => rfl
        exact Node.follow_of_preorder same rest
    | _ => rfl

/-- Where every number is marked as valid, every action is. -/
theorem Action.valid_marked {action : Action} {valid : Nat → Bool}
    (all : ∀ number, valid number = true) {path : List Edge} {node : Node}
    (found : (Node.action (action.marked valid)).follow path = some node) :
    node.header.valid = true := by
  have member : (path, node.header.valid) ∈
      (Node.action (action.marked valid)).preorder.map
        (withItem ((fun own => own.1.valid) ∘ Node.own)) :=
    List.mem_map_of_mem (Node.mem_preorder.2 found)
  rw [action.preorder_marked valid (fun own => own.1.valid) fun number _ => all number] at member
  obtain ⟨entry, -, same⟩ := List.mem_map.1 member
  exact (congrArg Prod.snd same).symm

/-- Where every number is marked as valid, every node is. -/
theorem Trigger.valid_marked {start : Trigger} {valid : Nat → Bool}
    (all : ∀ number, valid number = true) {path : List Edge} {node : Node}
    (found : (Node.trigger (start.marked valid)).follow path = some node) :
    node.header.valid = true := by
  obtain ⟨header, kind, next⟩ := start
  rcases path with _ | ⟨edge, rest⟩
  · cases found
    exact all 0
  · cases edge with
    | next =>
      cases next with
      | none => cases found
      | some action => exact Action.valid_marked all found
    | _ => cases found

/-- What the gate promises of a workflow that it lets pass: it has a template, the template and
every node is marked as valid, and there is nothing against it. -/
def Workflow.Accepted (workflow : Workflow) (options : Options) : Prop :=
  ∃ template, workflow.template = some template ∧ template.valid = true ∧
    (∀ path node, (Node.trigger template.trigger).follow path = some node →
      node.header.valid = true) ∧
    workflow.violations options = .ok []

theorem invalidNodes_nil (number : Nat) : (invalidNodes []).contains number = false := by
  simp [invalidNodes]

/-- The template of a marked workflow. -/
theorem Workflow.template_marked {workflow : Workflow} {template : Template}
    (present : workflow.template = some template) (violations : List Violation) :
    (workflow.marked violations).template = some { template with
      valid := violations.isEmpty
      trigger := template.trigger.marked fun number =>
        !(invalidNodes violations).contains number } := by
  rw [marked, present]
  rfl

/-- A workflow without violations is accepted once it is marked. -/
theorem Workflow.accepted_marked {workflow : Workflow} {options : Options}
    (none : workflow.violations options = .ok []) : (workflow.marked []).Accepted options := by
  obtain ⟨template, present, within, sound⟩ := Workflow.violations_eq_nil.1 none
  have all : ∀ number, (!(invalidNodes []).contains number) = true := by
    intro number
    rw [invalidNodes_nil]
    rfl
  have outline := template.trigger.outline_marked fun number => !(invalidNodes []).contains number
  have marked := Workflow.template_marked present []
  refine ⟨_, marked, rfl, fun path node found => Trigger.valid_marked all found, ?_⟩
  exact Workflow.violations_eq_nil.2
    ⟨_, marked, within.of_outline outline.symm, sound.of_outline outline.symm⟩

end FlowGate
