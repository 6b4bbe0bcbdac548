/-
This file is about trees whose items change and which are built again. Changes that follow one
another are one change, and a change that leaves alone what a step is built from does not show in
what the tree is built into. The action that a proper tree is built into grows into the same tree
again, but for the continuations that the steps of the tree still held; so an action is known when
its steps are known without what follows them.
-/

import FlowGate.Proofs.Rebuilding

namespace FlowGate

/-! ### One change after the other -/

mutual

/-- Two changes, one after the other, are one. -/
theorem Tree.renew_renew (tree : Tree β) (first : Nat → β → γ) (second : Nat → γ → δ)
    (number : Nat) :
    (tree.renew first number).renew second number =
      tree.renew (fun number item => second number (first number item)) number := by
  cases tree with
  | node item children => rw [Tree.renew, Tree.renew, Tree.renew, children.renew_renew]

theorem Forest.renew_renew (forest : Forest β) (first : Nat → β → γ) (second : Nat → γ → δ)
    (number : Nat) :
    (forest.renew first number).renew second number =
      forest.renew (fun number item => second number (first number item)) number := by
  cases forest with
  | nil => rfl
  | cons edge tree rest =>
    rw [Forest.renew, Forest.renew, Forest.renew, tree.renew_renew, tree.size_renew,
      rest.renew_renew]

end

mutual

/-- Counting from the next number on is counting with the next number everywhere. -/
theorem Tree.renew_succ (tree : Tree β) (change : Nat → β → γ) (number : Nat) :
    tree.renew change (number + 1) = tree.renew (fun number => change (number + 1)) number := by
  cases tree with
  | node item children => rw [Tree.renew, Tree.renew, children.renew_succ]

theorem Forest.renew_succ (forest : Forest β) (change : Nat → β → γ) (number : Nat) :
    forest.renew change (number + 1) =
      forest.renew (fun number => change (number + 1)) number := by
  cases forest with
  | nil => rfl
  | cons edge tree rest =>
    rw [Forest.renew, Forest.renew, tree.renew_succ, Nat.add_right_comm, rest.renew_succ]

end

mutual

/-- A change that does not show in what single steps are built into does not show in what the tree
is built into. -/
theorem Tree.fold_renew (tree : Tree (Step α)) {change : Nat → Step α → Step γ}
    {finish finish' : Step β → β}
    (same : ∀ number item children,
      finish' ((change number item).bare.hang children) = finish (item.bare.hang children))
    (number : Nat) : (tree.renew change number).fold finish' = tree.fold finish := by
  cases tree with
  | node item children => rw [Tree.renew, Tree.fold, Tree.fold, children.fold_renew same, same]

theorem Forest.fold_renew (forest : Forest (Step α)) {change : Nat → Step α → Step γ}
    {finish finish' : Step β → β}
    (same : ∀ number item children,
      finish' ((change number item).bare.hang children) = finish (item.bare.hang children))
    (number : Nat) : (forest.renew change number).fold finish' = forest.fold finish := by
  cases forest with
  | nil => rfl
  | cons edge tree rest =>
    rw [Forest.renew, Forest.fold, Forest.fold, tree.fold_renew same, rest.fold_renew same]

end

/-- A tree is built from its steps without what follows them. -/
theorem Tree.fold_bare (tree : Tree (Step α)) (finish : Step β → β) :
    (tree.renew (fun _ => Step.bare (β := Empty)) 0).fold finish = tree.fold finish := by
  refine tree.fold_renew (fun _ item children => ?_) 0
  rw [Step.bare_bare]

/-! ### Trees of what was built -/

mutual

/-- The action that a proper tree is built into grows into the tree again, as far as its steps
without what follows them go. -/
theorem Tree.tree_fold (tree : Tree (Step α)) (proper : tree.Proper) (number : Nat) :
    (tree.fold Action.mk).tree.renew (fun _ => Step.bare (β := Empty)) number =
      tree.renew (fun _ => Step.bare) number := by
  cases tree with
  | node item children =>
    rw [Action.tree_eq, Tree.fold, Action.step, Tree.children_fold proper.1, Tree.renew, Tree.renew,
      Step.bare_hang, Step.bare_bare, children.tree_fold proper.2]

theorem Forest.tree_fold (forest : Forest (Step α)) (proper : forest.Proper) (number : Nat) :
    (Forest.ofList ((forest.fold Action.mk).map fun child => (child.1, child.2.tree))).renew
        (fun _ => Step.bare (β := Empty)) number =
      forest.renew (fun _ => Step.bare) number := by
  cases forest with
  | nil => rfl
  | cons edge tree rest =>
    have first := tree.tree_fold proper.1 number
    have size : (tree.fold Action.mk).tree.size = tree.size := by
      rw [← Tree.size_renew _ (fun _ => Step.bare (β := Empty)) number, first, Tree.size_renew]
    rw [Forest.fold, List.map_cons, Forest.ofList, Forest.renew, first, size,
      rest.tree_fold proper.2, Forest.renew]

end

/-- The action that a proper tree is built into is built again as the tree is. -/
theorem Tree.fold_tree_fold (tree : Tree (Step α)) (proper : tree.Proper)
    (finish : Step β → β) : (tree.fold Action.mk).tree.fold finish = tree.fold finish := by
  rw [← Tree.fold_bare, tree.tree_fold proper, Tree.fold_bare]

theorem Step.own_bare (step : Step α) : (step.bare : Step β).own = step.own :=
  congrArg (fun bare : Step Empty => (bare.header, some bare.task)) (Step.bare_bare (β := β) step)

/-- What steps show is shown by the steps without what follows them. -/
theorem Tree.renew_own (tree : Tree (Step α)) (number : Nat) :
    tree.renew (fun _ => Step.own) number =
      (tree.renew (fun _ => Step.bare (β := Empty)) number).renew (fun _ => Step.own) number := by
  rw [Tree.renew_renew]
  simp only [Step.own_bare]

namespace Node

theorem forest_actions {children : List (Edge × Action)}
    (each : ∀ child ∈ children, ∀ number, (Node.action child.2).tree =
      child.2.tree.renew (fun _ step => .action (.mk step)) number) (number : Nat) :
    Forest.ofList (children.map fun child => (child.1, (Node.action child.2).tree)) =
      (Forest.ofList (children.map fun child => (child.1, child.2.tree))).renew
        (fun _ step => .action (.mk step)) number := by
  induction children generalizing number with
  | nil => rfl
  | cons child rest inductionHypothesis =>
    rw [List.map_cons, List.map_cons, Forest.ofList, Forest.ofList, Forest.renew,
      each child List.mem_cons_self number,
      inductionHypothesis fun child member => each child (List.mem_cons_of_mem _ member)]

/-- The nodes of an action are its steps. -/
theorem tree_action (action : Action) (number : Nat) :
    (Node.action action).tree =
      action.tree.renew (fun _ step => .action (.mk step)) number := by
  induction action using Opening.induction_children Action.opened generalizing number with
  | step action inductionHypothesis =>
    have children : (Node.action action).children.map (fun child => (child.1, child.2.tree)) =
        action.step.children.map fun child => (child.1, (Node.action child.2).tree) := by
      rw [Node.children, List.map_map]
      rfl
    rw [tree, Opening.tree_eq unfolding_opened, Action.tree_eq, Tree.renew]
    refine congr (congrArg Tree.node ?_) ?_
    · cases action
      rfl
    · exact (congrArg Forest.ofList children).trans
        (forest_actions inductionHypothesis (number + 1))

/-- What a node shows without what follows it is shown by the steps that it is built from. -/
theorem tree_fold (tree : Tree (Step α)) (proper : tree.Proper) (number : Nat) :
    (Node.action (tree.fold Action.mk)).tree.renew (fun _ => Node.own) number =
      tree.renew (fun _ => Step.own) number := by
  rw [tree_action _ number, Tree.renew_renew]
  show Tree.renew (fun _ => Step.own) number _ = _
  rw [Tree.renew_own, tree.tree_fold proper, ← Tree.renew_own]

end Node

end FlowGate
