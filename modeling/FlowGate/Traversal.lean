/-
This file lists the nodes of a tree in the order in which they are visited, and builds a tree from
such a list. A node comes before its continuations, and each continuation is listed to its end
before the next one begins. What is still to be visited is kept in a list, so trees may be nested
to any depth; a node refers to the node it hangs off by its number, from which its path follows.
A list is turned into a tree back to front, each node being attached to the one it hangs off.
-/

import FlowGate.Workflow.Basic

namespace FlowGate

/-- A node that is listed, or about to be: its depth below the trigger, the number of the node
that it hangs off, and the edge that leads to it. -/
structure Visit (α : Type) where
  item : α
  depth : Nat
  parent : Option Nat
  edge : Option Edge

/-- The list of the nodes that were visited. -/
abbrev Visits (α : Type) := Array (Visit α)

/-! ### Paths of listed nodes -/

/-- The edges from the trigger to the node with a number, followed by those below it. -/
def Visits.edgesTo (visits : Visits α) (number : Nat) (below : List Edge) : List Edge :=
  match visits[number]? with
  | none => below
  | some visit =>
    match visit.parent with
    | none => visit.edge.toList ++ below
    | some parent =>
      if parent < number then visits.edgesTo parent (visit.edge.toList ++ below)
      else visit.edge.toList ++ below

/-- The edges from the trigger to a node that hangs off a listed one. -/
def Visits.edgesToNew (visits : Visits α) (visit : Visit β) : List Edge :=
  match visit.parent with
  | none => visit.edge.toList
  | some parent => visits.edgesTo parent visit.edge.toList

/-! ### Listing -/

/-- How the values of a type are opened: each gives an item and the values that hang off it, which
together are lighter than it, or fails. Opening depends on the depth and the place of a value. -/
structure Opening (ε α β : Type) where
  weight : α → Nat
  opened : (depth : Nat) → (place : Unit → AccessPath) → α → Except ε (β × List (Edge × α))
  lighter : ∀ {depth place value item children},
    opened depth place value = .ok (item, children) →
      weightOfChildren weight children < weight value

/-- The values that hang off the node with a number, as nodes to visit. -/
def childVisits (number depth : Nat) (children : List (Edge × α)) : List (Visit α) :=
  children.map fun (edge, child) => ⟨child, depth + 1, some number, some edge⟩

/-- The weight of what is still to be visited. -/
def Opening.pendingWeight (opening : Opening ε α β) (pending : List (Visit α)) : Nat :=
  weightOfChildren opening.weight (pending.map fun visit => (visit.edge, visit.item))

theorem Opening.pendingWeight_append (opening : Opening ε α β) (first second : List (Visit α)) :
    opening.pendingWeight (first ++ second) =
      opening.pendingWeight first + opening.pendingWeight second := by
  rw [pendingWeight, List.map_append, weightOfChildren_append, pendingWeight, pendingWeight]

theorem Opening.pendingWeight_childVisits (opening : Opening ε α β) (number depth : Nat)
    (children : List (Edge × α)) :
    opening.pendingWeight (childVisits number depth children) =
      weightOfChildren opening.weight children := by
  rw [pendingWeight, childVisits, List.map_map]
  exact weightOfChildren_keys _ (fun child => some child.1) children

/-- Lists what is still to be visited behind what was visited. -/
def Opening.explore (opening : Opening ε α β) (pending : List (Visit α)) (visits : Visits β) :
    Except ε (Visits β) :=
  match pending with
  | [] => .ok visits
  | next :: rest =>
    match _opened :
        opening.opened next.depth (fun () => stepSegments (visits.edgesToNew next)) next.item with
    | .error failure => .error failure
    | .ok (item, children) =>
      opening.explore (childVisits visits.size next.depth children ++ rest)
        (visits.push { next with item })
termination_by opening.pendingWeight pending
decreasing_by
  rw [pendingWeight_append, pendingWeight_childVisits]
  have := opening.lighter _opened
  simp only [pendingWeight, List.map_cons, weightOfChildren_cons]
  omega

/-! ### Building -/

/-- Builds a tree from the first `count` nodes of a list, of which the others are attached
already; `head` is the node found so far that hangs off nothing. -/
def Visits.assembleFrom (visits : Visits (Step α)) (finish : Step β → β) :
    (count : Nat) → (steps : Array (Step β)) → (head : Option β) → Option β
  | 0, _, head => head
  | number + 1, steps, head =>
    match visits[number]?, steps[number]? with
    | some visit, some step =>
      let child := finish step
      match visit.parent, visit.edge with
      | some parent, some edge =>
        visits.assembleFrom finish number
          (steps.modify parent fun step => step.attach edge child) head
      | _, _ => visits.assembleFrom finish number steps (some child)
    | _, _ => head

/-- Builds a tree from a list of its nodes; `finish` makes a node of a step whose continuations
are built. -/
def Visits.assemble (visits : Visits (Step α)) (finish : Step β → β) : Option β :=
  visits.assembleFrom finish visits.size (visits.map fun visit => visit.item.bare) none

/-! ### Actions -/

/-- Actions open into their steps; they never fail to. -/
def Action.opening : Opening Empty Action (Step Action) where
  weight := Action.weight
  opened _ _ action := .ok (action.step, action.step.children)
  lighter {_ _ action _ _} opened := by
    cases opened
    have := action.weight_eq
    omega

/-- The steps of an action in the order in which they are visited; the first one hangs off the
trigger. -/
def Action.visits (action : Action) : Visits (Step Action) :=
  match Action.opening.explore [⟨action, 1, none, some .next⟩] #[] with
  | .ok visits => visits

end FlowGate
