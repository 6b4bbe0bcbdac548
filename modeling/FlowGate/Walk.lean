/-
This file walks a workflow: it lists the trigger and every action that follows it, each once, in
the order in which they are visited, and fails at the first one that lies deeper than the cap
allows. The number of a node in the list is the number by which violations refer to it.
-/

import FlowGate.Options
import FlowGate.Refusal
import FlowGate.Traversal

namespace FlowGate

/-- A node of a workflow, with everything that follows it. -/
inductive Node where
  | trigger (start : Trigger)
  | action (tree : Action)

namespace Node

/-- The header of a node. -/
def header : Node → Header
  | .trigger start => start.header
  | .action tree => tree.step.header

/-- The name of a node. -/
def name (node : Node) : String :=
  node.header.name

/-- The name of the kind of a node on the wire. -/
def kindName : Node → String
  | .trigger start => start.kind.kindName
  | .action tree => tree.step.task.kindName

/-- The step of a node, unless it is a trigger. -/
def step? : Node → Option (Step Action)
  | .trigger _ => none
  | .action tree => some tree.step

/-- The continuations of a node in the order in which they are visited. -/
def continuations : Node → List (Edge × Action)
  | .trigger start => Edge.next.along start.next
  | .action tree => tree.step.children

/-- The nodes that the continuations of a node lead to. -/
def children (node : Node) : List (Edge × Node) :=
  node.continuations.map fun (edge, tree) => (edge, .action tree)

/-- The number of nodes, the node itself and those that follow it. -/
def weight : Node → Nat
  | .trigger start => 1 + Action.weightOfNext start.next
  | .action tree => tree.weight

/-- A node is one more than what its continuations lead to together. -/
theorem weight_eq (node : Node) : node.weight = 1 + weightOfChildren weight node.children := by
  have same : weightOfChildren weight node.children =
      weightOfChildren Action.weight node.continuations := by
    rw [children, weightOfChildren, List.map_map]
    rfl
  rw [same]
  cases node with
  | trigger start => rw [continuations, weightOfChildren_along, weight, Action.weightOfNext_eq]
  | action tree => exact tree.weight_eq

theorem weight_children (node : Node) : weightOfChildren weight node.children < node.weight := by
  rw [weight_eq]
  omega

/-- Nodes open into themselves, as deep as the cap allows. -/
def opening (options : Options) : Opening Refusal Node Node where
  weight := weight
  opened depth place node :=
    if options.maxDepth.toNat < depth then .error ⟨place (), .tooDeep options.maxDepth⟩
    else .ok (node, node.children)
  lighter {_ _ node _ _} opened := by
    split at opened
    · cases opened
    · cases opened; exact node.weight_children

end Node

/-- The nodes of a workflow in the order in which they are visited. -/
structure Walk where
  visits : Visits Node

/-- The path of the node with a number, and the path of the trigger if there is none. -/
def Walk.path (walk : Walk) (number : Nat) : String :=
  stepPath (walk.visits.edgesTo number [])

/-- The names of the nodes in the order in which they are visited. -/
def Walk.names (walk : Walk) : List String :=
  walk.visits.toList.map fun visit => visit.item.name

/-- The nodes with their numbers. -/
def Walk.numbered (walk : Walk) : List (Node × Nat) :=
  (walk.visits.toList.map fun visit => visit.item).zipIdx

/-- Lists a trigger and everything that follows it. -/
def Trigger.walk (options : Options) (trigger : Trigger) : Except Refusal Walk :=
  ((Node.opening options).explore [⟨.trigger trigger, 0, none, none⟩] #[]).map Walk.mk

end FlowGate
