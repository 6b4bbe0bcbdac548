/-
This file is about openings that always succeed, in the same way at every place. From each value
there grows exactly one tree, wherever the value stands: its item over the trees of the values
that hang off it. Actions open like this, so what the loops list for an action, and what they
build from the list, is told by its tree.
-/

import FlowGate.Proofs.Assembly
import FlowGate.Proofs.Growth

namespace FlowGate

/-! ### Forests as lists -/

/-- The forest of trees that are listed with their edges. -/
def Forest.ofList : List (Edge × Tree β) → Forest β
  | [] => .nil
  | (edge, tree) :: rest => .cons edge tree (.ofList rest)

theorem Forest.preorder_ofList (trees : List (Edge × Tree β)) :
    (Forest.ofList trees).preorder =
      trees.flatMap fun entry => entry.2.preorder.map (beneath entry.1) := by
  induction trees with
  | nil => rfl
  | cons entry rest inductionHypothesis =>
    rw [Forest.ofList, Forest.preorder, inductionHypothesis, List.flatMap_cons]

theorem Forest.fold_ofList (finish : Step β → β) (trees : List (Edge × Tree (Step α))) :
    (Forest.ofList trees).fold finish =
      trees.map fun entry => (entry.1, entry.2.fold finish) := by
  induction trees with
  | nil => rfl
  | cons entry rest inductionHypothesis =>
    rw [Forest.ofList, Forest.fold, inductionHypothesis, List.map_cons]

/-! ### The tree of a value -/

/-- The tree that grows from a value which cannot fail to open. -/
def Opening.tree (opening : Opening Empty α β) (value : α) : Tree β :=
  match opening.grow 0 [] value with
  | .ok tree => tree

section Plain

variable {opening : Opening Empty α β} {item : α → β} {children : α → List (Edge × α)}

theorem Opening.growAll_same {depth depth' : Nat} {path path' : List Edge}
    {values : List (Edge × α)} (each : ∀ value ∈ values, ∀ depth depth' path path',
      opening.grow depth path value.2 = opening.grow depth' path' value.2) :
    opening.growAll depth path values = opening.growAll depth' path' values := by
  induction values with
  | nil => rw [growAll_nil, growAll_nil]
  | cons value rest inductionHypothesis =>
    rw [growAll_cons, growAll_cons,
      inductionHypothesis fun value member => each value (List.mem_cons_of_mem _ member),
      each value List.mem_cons_self depth depth' _ (path' ++ [value.1])]

variable (plain : ∀ depth place value,
  opening.opened depth place value = .ok (item value, children value))

include plain

theorem Opening.lighter_of_mem {value : α} {child : Edge × α} (member : child ∈ children value) :
    opening.weight child.2 < opening.weight value :=
  opening.weight_lt_of_mem (plain 0 (fun () => []) value) member

/-- What holds of a value if it holds of all that hangs off it holds of every value. -/
theorem Opening.induction_children {motive : α → Prop}
    (step : ∀ value, (∀ child ∈ children value, motive child.2) → motive value) (value : α) :
    motive value := by
  generalize weighs : opening.weight value = weight
  induction weight using Nat.strongRecOn generalizing value with
  | ind weight inductionHypothesis =>
    refine step value fun child member => inductionHypothesis _ ?_ child.2 rfl
    exact weighs ▸ Opening.lighter_of_mem plain member

/-- The same tree grows from a value wherever it stands. -/
theorem Opening.grow_same (value : α) :
    ∀ depth depth' path path', opening.grow depth path value = opening.grow depth' path' value := by
  induction value using Opening.induction_children plain with
  | step value inductionHypothesis =>
    intro depth depth' path path'
    rw [opening.grow_of_opened (plain depth _ value),
      opening.grow_of_opened (plain depth' _ value)]
    exact congrArg (Except.map _) (Opening.growAll_same inductionHypothesis)

theorem Opening.grow_eq_tree (depth : Nat) (path : List Edge) (value : α) :
    opening.grow depth path value = .ok (opening.tree value) := by
  rw [Opening.grow_same plain value depth 0 path [], Opening.tree]
  cases opening.grow 0 [] value with
  | error failure => exact failure.elim
  | ok tree => rfl

theorem Opening.growAll_eq_trees (depth : Nat) (path : List Edge) (values : List (Edge × α)) :
    opening.growAll depth path values =
      .ok (.ofList (values.map fun value => (value.1, opening.tree value.2))) := by
  induction values with
  | nil => rw [growAll_nil]; rfl
  | cons value rest inductionHypothesis =>
    rw [growAll_cons, inductionHypothesis, Opening.grow_eq_tree plain]
    rfl

/-- The tree of a value is its item over the trees of what hangs off it. -/
theorem Opening.tree_eq (value : α) :
    opening.tree value = .node (item value)
      (.ofList ((children value).map fun child => (child.1, opening.tree child.2))) := by
  have grown := Opening.grow_eq_tree plain 0 [] value
  rw [opening.grow_of_opened (plain 0 _ value), Opening.growAll_eq_trees plain] at grown
  exact (Except.ok.inj grown).symm

end Plain

/-! ### The tree of an action -/

namespace Action

/-- The tree of the steps of an action. -/
def tree (action : Action) : Tree (Step Action) :=
  opening.tree action

theorem opened (depth : Nat) (place : Unit → AccessPath) (action : Action) :
    opening.opened depth place action = .ok (action.step, action.step.children) := rfl

theorem tree_eq (action : Action) :
    action.tree = .node action.step
      (.ofList (action.step.children.map fun child => (child.1, child.2.tree))) :=
  Opening.tree_eq opened action

theorem visits_eq (action : Action) :
    action.visits = (action.tree.listed 1 none (some .next) 0).toArray := by
  have listed := opening.explore_single action 1 (some .next)
  rw [Opening.grow_eq_tree opened] at listed
  rw [visits, listed]
  rfl

/-- What the listing of an action is built into. -/
theorem assemble_visits (action : Action) (finish : Step β → β) :
    action.visits.assemble finish = some (action.tree.fold finish) := by
  rw [visits_eq, Tree.assemble_listed]

theorem fold_tree_eq (action : Action) (finish : Step β → β) :
    action.tree.fold finish = finish (action.step.bare.hang
      (action.step.children.map fun child => (child.1, child.2.tree.fold finish))) := by
  rw [tree_eq, Tree.fold, Forest.fold_ofList, List.map_map]
  rfl

/-- The tree of an action is built into the action. -/
theorem fold_tree (action : Action) : action.tree.fold Action.mk = action := by
  induction action using Opening.induction_children opened with
  | step action inductionHypothesis =>
    have same : (action.step.children.map fun child =>
        (child.1, child.2.tree.fold Action.mk)) = action.step.children := by
      refine (List.map_congr_left fun child member => ?_).trans (List.map_id _)
      exact Prod.ext rfl (inductionHypothesis child member)
    rw [fold_tree_eq, same, Step.hang_children]
    cases action
    rfl

end Action

end FlowGate
