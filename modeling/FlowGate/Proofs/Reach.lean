/-
This file says which nodes belong to a workflow: those that a path of edges leads to from the
trigger. The definition follows continuations one by one and knows of no order. The listing in the
order of visits holds exactly these nodes, each with its path and each path once, so what is asked
of every node of a workflow can be asked of the members of that list.
-/

import FlowGate.Proofs.Unfolding
import FlowGate.Walk

namespace FlowGate

/-! ### Following edges -/

namespace Node

/-- The node that an edge leads to. -/
def along (node : Node) (edge : Edge) : Option Node :=
  match node, edge with
  | .trigger start, .next => start.next.map .action
  | .trigger _, _ => none
  | .action tree, edge => (tree.step.along edge).map .action

/-- The node that a path of edges leads to. -/
def follow (node : Node) : List Edge → Option Node
  | [] => some node
  | edge :: path => (node.along edge).bind fun child => child.follow path

theorem mem_children {node child : Node} {edge : Edge} :
    (edge, child) ∈ node.children ↔ node.along edge = some child := by
  cases node with
  | trigger start =>
    cases edge <;>
      simp [children, continuations, along, Option.map_eq_some_iff, and_comm, eq_comm]
  | action tree =>
    simp only [children, continuations, along, List.mem_map, Prod.mk.injEq, Prod.exists,
      Option.map_eq_some_iff]
    constructor
    · rintro ⟨edge', next, member, rfl, rfl⟩
      exact ⟨next, Step.mem_children.1 member, rfl⟩
    · rintro ⟨next, found, rfl⟩
      exact ⟨edge, next, Step.mem_children.2 found, rfl, rfl⟩

theorem nodup_edges (node : Node) : (node.children.map (·.1)).Nodup := by
  have same : node.children.map (·.1) = node.continuations.map (·.1) := by
    rw [children, List.map_map]
    rfl
  rw [same]
  cases node with
  | trigger start => cases next : start.next <;> simp [continuations, next]
  | action tree => exact tree.step.nodup_edges

/-! ### The order of visits -/

/-- Nodes open into themselves, however deep they lie. -/
def unfolding : Opening Empty Node Node where
  weight := weight
  opened _ _ node := .ok (node, node.children)
  lighter {_ _ node _ _} opened := by cases opened; exact node.weight_children

theorem unfolding_opened (depth : Nat) (place : Unit → AccessPath) (node : Node) :
    unfolding.opened depth place node = .ok (node, node.children) := rfl

/-- The tree of the nodes that follow a node. -/
def tree (node : Node) : Tree Node :=
  unfolding.tree node

/-- A node and everything that follows it, in the order of visits, each with its path. -/
def preorder (node : Node) : List (List Edge × Node) :=
  node.tree.preorder

/-- A node comes first, then each of its continuations with everything that follows it. -/
theorem preorder_eq (node : Node) :
    node.preorder = ([], node) :: node.children.flatMap fun child =>
      child.2.preorder.map (beneath child.1) := by
  rw [preorder, tree, Opening.tree_eq unfolding_opened, Tree.preorder, Forest.preorder_ofList,
    List.flatMap_map]
  rfl

theorem weight_lt_of_along {node child : Node} {edge : Edge}
    (found : node.along edge = some child) : child.weight < node.weight := by
  have member : (edge, child) ∈ node.children := mem_children.2 found
  exact Opening.lighter_of_mem unfolding_opened member

/-- The listing holds the nodes that paths lead to. -/
theorem mem_preorder {node target : Node} {path : List Edge} :
    (path, target) ∈ node.preorder ↔ node.follow path = some target := by
  induction path generalizing node with
  | nil =>
    rw [preorder_eq, follow, List.mem_cons]
    simp [beneath, eq_comm]
  | cons edge path inductionHypothesis =>
    rw [preorder_eq, follow, List.mem_cons, List.mem_flatMap, Option.bind_eq_some_iff]
    constructor
    · rintro (here | ⟨⟨edge', child⟩, member, later⟩)
      · cases here
      · obtain ⟨⟨path', target'⟩, member', same⟩ := List.mem_map.1 later
        cases same
        exact ⟨child, mem_children.1 member, inductionHypothesis.1 member'⟩
    · rintro ⟨child, found, later⟩
      exact Or.inr ⟨(edge, child), mem_children.2 found,
        List.mem_map.2 ⟨(path, target), inductionHypothesis.2 later, rfl⟩⟩

/-- The listing holds each path once. -/
theorem nodup_preorder (node : Node) : (node.preorder.map (·.1)).Nodup := by
  induction node using Opening.induction_children unfolding_opened with
  | step node inductionHypothesis =>
    have paths : node.preorder.map (·.1) = [] :: node.children.flatMap fun child =>
        (child.2.preorder.map (·.1)).map (child.1 :: ·) := by
      rw [preorder_eq, List.map_cons, List.map_flatMap]
      simp only [List.map_map]
      rfl
    rw [paths, List.nodup_cons]
    refine ⟨by simp, List.nodup_flatMap.2 ⟨fun child member => ?_, ?_⟩⟩
    · exact (inductionHypothesis child member).map (List.cons_injective)
    · refine (List.pairwise_map.1 node.nodup_edges).imp fun {first second} differ => ?_
      intro path inFirst inSecond
      obtain ⟨rest, -, rfl⟩ := List.mem_map.1 inFirst
      obtain ⟨rest', -, same⟩ := List.mem_map.1 inSecond
      exact differ (List.cons.inj same).1.symm

/-- A path is shorter than there are nodes. -/
theorem length_lt_weight {node target : Node} {path : List Edge}
    (found : node.follow path = some target) : path.length < node.weight := by
  induction path generalizing node with
  | nil =>
    cases node with
    | trigger start => exact Nat.lt_of_lt_of_le Nat.zero_lt_one (Nat.le_add_right _ _)
    | action tree =>
      rw [weight, Action.weight_eq]
      exact Nat.lt_of_lt_of_le Nat.zero_lt_one (Nat.le_add_right _ _)
  | cons edge path inductionHypothesis =>
    obtain ⟨child, here, later⟩ := Option.bind_eq_some_iff.1 found
    have := inductionHypothesis later
    have := weight_lt_of_along here
    rw [List.length_cons]
    omega

end Node

end FlowGate
