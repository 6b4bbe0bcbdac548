/-
This file relates a tree of steps to the action that it is built into. The tree may come from
reading a document or from listing an action; as long as every step of it leads on along the edges
under which its trees hang, nothing is lost and nothing is added: the action has the same steps in
the same places, whatever the continuations were that the steps of the tree still hold.
-/

import FlowGate.Proofs.Reach
import FlowGate.Workflow.Reading

namespace FlowGate

/-! ### Proper trees -/

mutual

/-- Every step of a tree leads on along the edges under which its trees hang. -/
def Tree.Proper : Tree (Step α) → Prop
  | .node item children => children.edges = item.children.map (·.1) ∧ children.Proper

/-- Every tree of a forest is proper. -/
def Forest.Proper : Forest (Step α) → Prop
  | .nil => True
  | .cons _ tree rest => tree.Proper ∧ rest.Proper

/-- The edges under which the trees of a forest hang. -/
def Forest.edges : Forest (Step α) → List Edge
  | .nil => []
  | .cons edge _ rest => edge :: rest.edges

end

theorem Forest.map_fst_fold (forest : Forest (Step α)) (finish : Step β → β) :
    (forest.fold finish).map (·.1) = forest.edges :=
  match forest with
  | .nil => rfl
  | .cons edge _ rest => congrArg (edge :: ·) (rest.map_fst_fold finish)

/-- What a proper node is built into goes on to what its trees are built into. -/
theorem Tree.children_fold {item : Step α} {children : Forest (Step α)}
    (edges : children.edges = item.children.map (·.1)) :
    (item.bare.hang (children.fold Action.mk)).children = children.fold Action.mk :=
  Step.children_hang ((children.map_fst_fold _).trans edges)

/-- A node without what follows it: its header, and what it does unless it is a trigger. -/
def Node.own (node : Node) : Header × Option (Task Empty) :=
  (node.header, node.step?.map fun step => step.task.bare)

/-- A step without what follows it. -/
def Step.own (step : Step α) : Header × Option (Task Empty) :=
  (step.header, some step.task.bare)

theorem Step.own_hang (step : Step α) (children : List (Edge × β)) :
    (step.bare.hang children).own = step.own := by
  have same : ((step.bare.hang children).bare : Step Empty) = step.bare :=
    (Step.bare_hang _ children).trans step.bare_bare
  exact congrArg (fun bare : Step Empty => (bare.header, some bare.task)) same

mutual

/-- What a proper tree is built into has the steps of the tree, in the same places. -/
theorem Tree.preorder_fold (tree : Tree (Step α)) (proper : tree.Proper) :
    (Node.action (tree.fold Action.mk)).preorder.map (withItem Node.own) =
      tree.preorder.map (withItem Step.own) := by
  cases tree with
  | node item children =>
    have below := children.preorder_fold proper.2
    rw [Node.preorder_eq, Tree.preorder, List.map_cons, List.map_cons, ← below]
    refine congr (congrArg List.cons ?_) (congrArg (List.map _) ?_)
    · exact congrArg (Prod.mk []) (item.own_hang (children.fold Action.mk))
    · rw [Node.children, Node.continuations, Tree.fold, Action.step, Tree.children_fold proper.1,
        List.flatMap_map]

theorem Forest.preorder_fold (forest : Forest (Step α)) (proper : forest.Proper) :
    ((forest.fold Action.mk).flatMap fun child =>
        (Node.action child.2).preorder.map (beneath child.1)).map (withItem Node.own) =
      forest.preorder.map (withItem Step.own) := by
  cases forest with
  | nil => rfl
  | cons edge tree rest =>
    rw [Forest.fold, List.flatMap_cons, List.map_append, rest.preorder_fold proper.2,
      Forest.preorder, List.map_append, map_withItem_beneath, map_withItem_beneath,
      tree.preorder_fold proper.1]

end

/-! ### Openings into steps -/

theorem Opening.growAll_proper {opening : Opening ε α (Step α)} {depth : Nat}
    {path : List Edge} {values : List (Edge × α)} {forest : Forest (Step α)}
    (grown : opening.growAll depth path values = .ok forest)
    (each : ∀ value ∈ values, ∀ depth path tree,
      opening.grow depth path value.2 = .ok tree → tree.Proper) :
    forest.Proper ∧ forest.edges = values.map (·.1) := by
  induction values generalizing forest with
  | nil =>
    rw [growAll_nil] at grown
    cases grown
    exact ⟨trivial, rfl⟩
  | cons value rest inductionHypothesis =>
    obtain ⟨tree, others, first, later, rfl⟩ := Opening.growAll_cons_eq_ok grown
    obtain ⟨proper, edges⟩ := inductionHypothesis later
      fun value member => each value (List.mem_cons_of_mem _ member)
    exact ⟨⟨each value List.mem_cons_self _ _ tree first, proper⟩, congrArg (value.1 :: ·) edges⟩

/-- Where values open into steps with their continuations, proper trees grow. -/
theorem Opening.grow_proper {opening : Opening ε α (Step α)}
    (steps : ∀ {depth place value item children},
      opening.opened depth place value = .ok (item, children) → children = item.children)
    (value : α) :
    ∀ depth path tree, opening.grow depth path value = .ok tree → tree.Proper := by
  generalize weighs : opening.weight value = weight
  induction weight using Nat.strongRecOn generalizing value with
  | ind weight inductionHypothesis =>
    intro depth path tree grown
    subst weighs
    obtain ⟨item, children, forest, opened, below, rfl⟩ := Opening.grow_eq_ok grown
    obtain ⟨proper, edges⟩ := Opening.growAll_proper below
      fun child member => inductionHypothesis _ (opening.weight_lt_of_mem opened member) child.2 rfl
    exact ⟨edges.trans (congrArg _ (steps opened)), proper⟩

theorem Action.tree_proper (action : Action) : action.tree.Proper :=
  Opening.grow_proper (fun opened => by cases opened; rfl) action 0 [] _
    (Opening.grow_eq_tree Action.opened 0 [] action)

/-! ### Reading -/

namespace Reading

theorem opening_steps (options : Options) {depth : Nat} {place : Unit → AccessPath} {value : Json}
    {item : Step Json} {children : List (Edge × Json)}
    (opened : (opening options).opened depth place value = .ok (item, children)) :
    children = item.children := by
  simp only [opening] at opened
  split at opened
  · cases opened
  · split at opened <;> cases opened
    rfl

theorem action_none (options : Options) : action options none = .ok none := by
  rw [action, slots, Option.toList_none, List.map_nil, Opening.explore_nil]
  rfl

/-- The action that a value holds is built from what grows from the value. -/
theorem action_some (options : Options) (value : Json) :
    action options (some value) =
      ((opening options).grow 1 [.next] value).map fun tree => some (tree.fold Action.mk) := by
  rw [action, slots, Option.toList_some, List.map_singleton, Opening.explore_single]
  show Except.map _ (((opening options).grow 1 [.next] value).map _) = _
  cases (opening options).grow 1 [.next] value with
  | error refusal => rfl
  | ok tree =>
    show Except.ok (Visits.assemble _ _) = _
    rw [Tree.assemble_listed]
    rfl

end Reading

end FlowGate
