/-
This file shows that the marks of validity are set on the right nodes, and that nothing else
changes. Marking numbers the actions of a workflow by a listing of its own, in which the trigger
does not stand, while violations have the numbers of the walk. Both list an action by its tree, so
the walk of a marked workflow is the walk of the workflow with the mark of each number set; and
what a marked action is built from differs from the steps of the action in the marks alone.
-/

import FlowGate.Proofs.Marking
import FlowGate.Proofs.Regrowth

namespace FlowGate

/-! ### Workflows without marks -/

mutual

/-- The action with no step of it marked as valid. -/
def Action.unmarked : Action → Action
  | .mk ⟨header, task, next⟩ =>
    .mk ⟨{ header with valid := false }, unmarkedTask task, unmarkedNext next⟩

/-- What a step does, with no step on its ways marked as valid. -/
def Action.unmarkedTask : Task Action → Task Action
  | .code settings => .code settings
  | .block settings => .block settings
  | .branch settings onSuccess onFailure =>
    .branch settings (unmarkedNext onSuccess) (unmarkedNext onFailure)
  | .split settings branches => .split settings (unmarkedBranches branches)
  | .loop settings body => .loop settings (unmarkedNext body)

/-- The continuation with no step of it marked as valid. -/
def Action.unmarkedNext : Option Action → Option Action
  | none => none
  | some action => some action.unmarked

/-- The ways of a split with no step on them marked as valid. -/
def Action.unmarkedBranches : List (Branch Action) → List (Branch Action)
  | [] => []
  | ⟨optionId, next⟩ :: rest => ⟨optionId, unmarkedNext next⟩ :: unmarkedBranches rest

end

/-- The trigger with no node marked as valid. -/
def Trigger.unmarked (start : Trigger) : Trigger :=
  { start with
    header := { start.header with valid := false }
    next := start.next.map Action.unmarked }

/-- The workflow with nothing in it marked as valid. -/
def Workflow.unmarked (workflow : Workflow) : Workflow :=
  { workflow with
    template := workflow.template.map fun template =>
      { template with valid := false, trigger := template.trigger.unmarked } }

/-! ### Actions without marks -/

namespace Action

/-- A continuation with no step of it marked as valid. -/
def unmarkedChild (child : Edge × Action) : Edge × Action :=
  (child.1, child.2.unmarked)

theorem along_unmarkedNext (edge : Edge) (next : Option Action) :
    edge.along (unmarkedNext next) = (edge.along next).map unmarkedChild := by
  cases next <;> simp [unmarkedNext, Edge.along, unmarkedChild]

theorem children_unmarkedBranches (first : Nat) (branches : List (Branch Action)) :
    Branch.children first (unmarkedBranches branches) =
      (Branch.children first branches).map unmarkedChild := by
  induction branches generalizing first with
  | nil => rfl
  | cons branch rest inductionHypothesis =>
    rw [unmarkedBranches, Branch.children_cons, Branch.children_cons, List.map_append,
      inductionHypothesis, along_unmarkedNext]

theorem children_unmarkedTask (task : Task Action) :
    (unmarkedTask task).children = task.children.map unmarkedChild := by
  cases task with
  | split settings branches => exact children_unmarkedBranches 0 branches
  | _ => simp [unmarkedTask, Task.children, along_unmarkedNext]

theorem optionIds_unmarkedBranches (branches : List (Branch Action)) :
    (unmarkedBranches branches).map Branch.optionId = branches.map Branch.optionId := by
  induction branches with
  | nil => rfl
  | cons branch rest inductionHypothesis =>
    rw [unmarkedBranches, List.map_cons, List.map_cons, inductionHypothesis]

theorem bare_unmarkedTask (task : Task Action) :
    ((unmarkedTask task).bare : Task β) = task.bare := by
  cases task with
  | split settings branches =>
    rw [unmarkedTask, Task.bare, Task.bare, Branch.map_bare, Branch.map_bare,
      optionIds_unmarkedBranches]
  | _ => rfl

/-- An action without marks is its step without a mark, over its continuations without marks. -/
theorem unmarked_eq (action : Action) :
    action.unmarked =
      .mk ((action.step.bare.hang (action.step.children.map unmarkedChild)).marked false) := by
  obtain ⟨header, task, next⟩ := action
  let other : Step Action := ⟨header, unmarkedTask task, unmarkedNext next⟩
  have children : other.children = (Step.mk header task next).children.map unmarkedChild := by
    rw [Step.children, Step.children, List.map_append, children_unmarkedTask, along_unmarkedNext]
  have bare : (other.bare : Step Action) = (Step.mk header task next).bare := by
    rw [Step.bare, Step.bare, bare_unmarkedTask]
  rw [step, ← children, ← bare, other.hang_children, unmarked]
  rfl

/-- An action without marks is built from the tree of the action. -/
theorem unmarked_eq_fold (action : Action) :
    action.unmarked = action.tree.fold fun step => .mk (step.marked false) := by
  induction action using Opening.induction_children opened with
  | step action inductionHypothesis =>
    rw [unmarked_eq, fold_tree_eq]
    have same : action.step.children.map unmarkedChild = action.step.children.map fun child =>
        (child.1, child.2.tree.fold fun step => .mk (step.marked false)) :=
      List.map_congr_left fun child member => Prod.ext rfl (inductionHypothesis child member)
    rw [same]

end Action

/-! ### Marks and continuations -/

theorem Step.attach_marked (step : Step α) (valid : Bool) (edge : Edge) (child : α) :
    (step.marked valid).attach edge child = (step.attach edge child).marked valid := by
  obtain ⟨header, task, next⟩ := step
  cases edge <;> cases task <;> rfl

/-- The mark of a step does not depend on what hangs on it. -/
theorem Step.hang_marked (step : Step α) (valid : Bool) (children : List (Edge × α)) :
    (step.marked valid).hang children = (step.hang children).marked valid := by
  induction children with
  | nil => rfl
  | cons child rest inductionHypothesis =>
    rw [hang, List.foldr_cons]
    exact (congrArg (fun step => step.attach child.1 child.2) inductionHypothesis).trans
      (Step.attach_marked _ valid child.1 child.2)

/-- Nothing but the marks of an action is changed. -/
theorem Action.unmarked_marked (action : Action) (valid : Nat → Bool) :
    (action.marked valid).unmarked = action.unmarked := by
  rw [unmarked_eq_fold, unmarked_eq_fold, marked_eq,
    Tree.fold_tree_fold _ (action.markedTree_proper valid)]
  refine action.tree.fold_renew (fun number item children => ?_) 0
  show Action.mk (((item.bare.marked (valid (number + 1))).hang children).marked false) = _
  rw [Step.hang_marked]
  rfl

theorem Trigger.unmarked_marked (start : Trigger) (valid : Nat → Bool) :
    (start.marked valid).unmarked = start.unmarked := by
  obtain ⟨header, kind, next⟩ := start
  cases next with
  | none => rfl
  | some action =>
    show Trigger.mk _ kind (some (action.marked valid).unmarked) = _
    rw [Action.unmarked_marked]
    rfl

/-- Nothing but the marks of a workflow is changed. -/
theorem Workflow.unmarked_marked (workflow : Workflow) (violations : List Violation) :
    (workflow.marked violations).unmarked = workflow.unmarked := by
  obtain ⟨name, description, tags, template⟩ := workflow
  cases template with
  | none => rfl
  | some template =>
    show Workflow.mk name description tags
      (some ⟨template.displayName, false, (template.trigger.marked _).unmarked⟩) = _
    rw [Trigger.unmarked_marked]
    rfl

/-! ### The walk of a marked workflow -/

/-- What a node shows without what follows it, under another mark. -/
def withMark (valid : Bool) (own : Header × Option (Task Empty)) : Header × Option (Task Empty) :=
  ({ own.1 with valid }, own.2)

/-- The nodes of a marked action show what the nodes of the action show under their marks. Listing
an action counts its nodes from zero, while in a workflow the first action has the number one. -/
theorem Action.tree_marked (action : Action) (valid : Nat → Bool) :
    (Node.action (action.marked valid)).tree.renew (fun _ => Node.own) 1 =
      (Node.action action).tree.renew (fun number node => withMark (valid number) node.own) 1 := by
  have own := Node.tree_fold action.tree action.tree_proper 1
  rw [fold_tree] at own
  rw [marked_eq, Node.tree_fold _ (action.markedTree_proper valid), markedTree,
    ← action.tree.renew_succ (fun number step => step.marked (valid number)), Tree.renew_renew,
    ← Tree.renew_renew _ (fun _ => Node.own) (fun number => withMark (valid number)), own,
    Tree.renew_renew]
  rfl

theorem Trigger.tree_marked (start : Trigger) (valid : Nat → Bool) :
    (Node.trigger (start.marked valid)).tree.renew (fun _ => Node.own) 0 =
      (Node.trigger start).tree.renew (fun number node => withMark (valid number) node.own) 0 := by
  rw [Node.tree, Node.tree, Opening.tree_eq Node.unfolding_opened,
    Opening.tree_eq Node.unfolding_opened, Tree.renew, Tree.renew]
  refine congr (congrArg Tree.node rfl) ?_
  obtain ⟨header, kind, next⟩ := start
  cases next with
  | none => rfl
  | some action => exact congrArg (Forest.cons .next · .nil) (action.tree_marked valid)

/-- A marked workflow is listed like the workflow, and each node shows what it showed under the
mark of its number. -/
theorem Trigger.visits_marked (start : Trigger) (valid : Nat → Bool) :
    ((start.marked valid).listing.visits.toList.mapIdx fun _ visit =>
        { visit with item := visit.item.own }) =
      start.listing.visits.toList.mapIdx fun number visit =>
        { visit with item := withMark (valid number) visit.item.own } := by
  have same := congrArg (Tree.listed · 0 none none 0) (start.tree_marked valid)
  simp only [Tree.listed_renew, Nat.zero_add] at same
  exact same

theorem Trigger.size_marked (start : Trigger) (valid : Nat → Bool) :
    (start.marked valid).listing.visits.size = start.listing.visits.size := by
  have same := congrArg List.length (start.visits_marked valid)
  rwa [List.length_mapIdx, List.length_mapIdx, Array.length_toList, Array.length_toList] at same

/-- The node of a marked workflow with some number is the one with that number, under its mark. -/
theorem Trigger.visit_marked {start : Trigger} (valid : Nat → Bool) {number : Nat}
    {visit : Visit Node} (listed : start.listing.visits[number]? = some visit) :
    ∃ visit', (start.marked valid).listing.visits[number]? = some visit' ∧
      visit'.parent = visit.parent ∧ visit'.edge = visit.edge ∧ visit'.depth = visit.depth ∧
      visit'.item.own = withMark (valid number) visit.item.own := by
  have same := congrArg (·[number]?) (start.visits_marked valid)
  simp only [List.getElem?_mapIdx, Array.getElem?_toList, listed, Option.map_some] at same
  obtain ⟨visit', found, shown⟩ := Option.map_eq_some_iff.1 same
  obtain ⟨item, depth, parent, edge⟩ := Visit.mk.inj shown
  exact ⟨visit', found, parent, edge, depth, item⟩

/-! ### Marks and violations -/

theorem contains_invalidNodes {violations : List Violation} {number : Nat} :
    (invalidNodes violations).contains number = true ↔
      ∃ violation ∈ violations, violation.node = some number := by
  simp [invalidNodes, Std.HashSet.contains_ofList]

/-- Setting the marks of a workflow aligns with its walk and touches nothing else. The nodes of the
marked workflow are walked in the same order, with the same parents, edges and depths; a node is
marked as valid just if no violation is attributed to its number, and the template just if there
are no violations. Without a template nothing changes. -/
theorem Workflow.marked_aligned (workflow : Workflow) (violations : List Violation) :
    (workflow.template = none → workflow.marked violations = workflow) ∧
    (workflow.marked violations).unmarked = workflow.unmarked ∧
    ∀ template, workflow.template = some template → ∃ template',
      (workflow.marked violations).template = some template' ∧
      (template'.valid = true ↔ violations = []) ∧
      ∀ options : Options, template.trigger.WithinDepth options.maxDepth.toNat →
        ∃ walk walk', template.trigger.walk options = .ok walk ∧
          template'.trigger.walk options = .ok walk' ∧ walk'.visits.size = walk.visits.size ∧
          ∀ number visit, walk.visits[number]? = some visit → ∃ visit',
            walk'.visits[number]? = some visit' ∧ visit'.parent = visit.parent ∧
            visit'.edge = visit.edge ∧ visit'.depth = visit.depth ∧
            (visit'.item.header.valid = true ↔
              ∀ violation ∈ violations, violation.node ≠ some number) := by
  refine ⟨fun absent => ?_, workflow.unmarked_marked violations, fun template present => ?_⟩
  · obtain ⟨name, description, tags, template⟩ := workflow
    cases absent
    rfl
  · let valid : Nat → Bool := fun number => !(invalidNodes violations).contains number
    refine ⟨_, template_marked present violations, List.isEmpty_iff, fun options within => ?_⟩
    have outline := (template.trigger.outline_marked valid).symm
    refine ⟨_, _, Trigger.walk_eq_ok.2 ⟨within, rfl⟩,
      Trigger.walk_eq_ok.2 ⟨within.of_outline outline, rfl⟩, template.trigger.size_marked valid,
      fun number visit listed => ?_⟩
    obtain ⟨visit', found, parent, edge, depth, own⟩ := Trigger.visit_marked valid listed
    refine ⟨visit', found, parent, edge, depth, ?_⟩
    have mark : visit'.item.header.valid = valid number :=
      congrArg (fun own : Header × Option (Task Empty) => own.1.valid) own
    rw [mark, Bool.not_eq_true', ← Bool.not_eq_true, contains_invalidNodes]
    simp only [not_exists, not_and]

/-- Violations of which one is attributed to no node and one to no node that is there. -/
def strayViolations : List Violation :=
  [.templateRequired, Violation.templateRequired.attributed 1,
    Violation.templateRequired.attributed 7]

theorem Workflow.marked_aligned_guarded :
    ∃ template walk trigger action,
      ((guarded "daily" "Daily" true).marked strayViolations).template = some template ∧
      template.valid = false ∧
      template.trigger.walk .default = .ok walk ∧ walk.visits.size = 2 ∧
      walk.visits[0]? = some trigger ∧ trigger.item.header.valid = true ∧
      walk.visits[1]? = some action ∧ action.item.header.valid = false := by
  have within : (guardedTrigger "Daily" true).WithinDepth 10000 :=
    Trigger.withinDepth_of_weight (show 1 ≤ 10000 by decide)
  have tree : (Node.trigger (guardedTrigger "Daily" true)).tree = .node _ (.cons .next _ .nil) :=
    (Opening.tree_eq Node.unfolding_opened _).trans
      (congrArg (fun tree => Tree.node _ (.cons .next tree .nil))
        (Opening.tree_eq Node.unfolding_opened _))
  obtain ⟨-, -, aligned⟩ := marked_aligned (guarded "daily" "Daily" true) strayViolations
  obtain ⟨template, present, valid, walks⟩ := aligned _ rfl
  obtain ⟨walk, walk', walked, walked', size, each⟩ := walks .default within
  obtain ⟨-, rfl⟩ := Trigger.walk_eq_ok.1 walked
  have listed : (guardedTrigger "Daily" true).listing.visits =
      #[_, _] := congrArg (fun tree => (Tree.listed tree 0 none none 0).toArray) tree
  obtain ⟨trigger, first, -, -, -, markedFirst⟩ := each 0 _ (congrArg (·[0]?) listed)
  obtain ⟨action, second, -, -, -, markedSecond⟩ := each 1 _ (congrArg (·[1]?) listed)
  refine ⟨template, walk', trigger, action, present, ?_, walked', ?_, first, ?_, second, ?_⟩
  · rw [← Bool.not_eq_true, valid]
    exact List.cons_ne_nil _ _
  · exact size.trans (congrArg Array.size listed)
  · exact markedFirst.2 (by decide)
  · rw [← Bool.not_eq_true, markedSecond]
    decide

end FlowGate
