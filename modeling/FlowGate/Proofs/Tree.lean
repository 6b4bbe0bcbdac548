/-
This file holds the trees behind a listing of nodes. A listing refers to the node that each of its
nodes hangs off by number, which suits a loop; a tree says the same by its structure, which suits
an induction. A tree is listed from a number on, and the number of every node in it follows from
the sizes of the trees that are listed before it.
-/

import FlowGate.Traversal

namespace FlowGate

mutual

/-- An item with what hangs off it. -/
inductive Tree (β : Type) where
  | node (item : β) (children : Forest β)

/-- What hangs off a node, each part with its edge, in the order in which it is visited. -/
inductive Forest (β : Type) where
  | nil
  | cons (edge : Edge) (tree : Tree β) (rest : Forest β)

end

/-! ### Size -/

mutual

/-- The number of nodes of a tree. -/
def Tree.size : Tree β → Nat
  | .node _ children => 1 + children.size

/-- The number of nodes of a forest. -/
def Forest.size : Forest β → Nat
  | .nil => 0
  | .cons _ tree rest => tree.size + rest.size

end

/-! ### Listings -/

mutual

/-- The nodes of a tree in the order in which they are visited, numbered from `number` on. -/
def Tree.listed (tree : Tree β) (depth : Nat) (parent : Option Nat) (edge : Option Edge)
    (number : Nat) : List (Visit β) :=
  match tree with
  | .node item children =>
    ⟨item, depth, parent, edge⟩ :: children.listed (depth + 1) number (number + 1)

/-- The nodes of a forest that hangs off the node `parent`, numbered from `number` on. -/
def Forest.listed (forest : Forest β) (depth parent number : Nat) : List (Visit β) :=
  match forest with
  | .nil => []
  | .cons edge tree rest =>
    tree.listed depth (some parent) (some edge) number ++
      rest.listed depth parent (number + tree.size)

end

mutual

theorem Tree.length_listed (tree : Tree β) (depth : Nat) (parent : Option Nat)
    (edge : Option Edge) (number : Nat) :
    (tree.listed depth parent edge number).length = tree.size := by
  cases tree with
  | node item children =>
    simp only [Tree.listed, Tree.size, List.length_cons, children.length_listed]
    omega

theorem Forest.length_listed (forest : Forest β) (depth parent number : Nat) :
    (forest.listed depth parent number).length = forest.size := by
  cases forest with
  | nil => rfl
  | cons edge tree rest =>
    simp only [Forest.listed, Forest.size, List.length_append, tree.length_listed,
      rest.length_listed]

end

/-! ### Paths -/

/-- An entry of a listing by paths, one edge further from the start. -/
def beneath (edge : Edge) (entry : List Edge × β) : List Edge × β :=
  (edge :: entry.1, entry.2)

mutual

/-- The items of a tree in the order in which they are visited, each with the edges that lead to
it. -/
def Tree.preorder : Tree β → List (List Edge × β)
  | .node item children => ([], item) :: children.preorder

/-- The items of a forest in the order in which they are visited, each with the edges that lead
to it. -/
def Forest.preorder : Forest β → List (List Edge × β)
  | .nil => []
  | .cons edge tree rest => tree.preorder.map (beneath edge) ++ rest.preorder

end

mutual

/-- A listing by number and a listing by paths hold the same items in the same order. -/
theorem Tree.items_listed (tree : Tree β) (depth : Nat) (parent : Option Nat)
    (edge : Option Edge) (number : Nat) :
    (tree.listed depth parent edge number).map Visit.item = tree.preorder.map (·.2) := by
  cases tree with
  | node item children =>
    simp only [Tree.listed, Tree.preorder, List.map_cons, children.items_listed]

theorem Forest.items_listed (forest : Forest β) (depth parent number : Nat) :
    (forest.listed depth parent number).map Visit.item = forest.preorder.map (·.2) := by
  cases forest with
  | nil => rfl
  | cons edge tree rest =>
    rw [Forest.listed, Forest.preorder, List.map_append, List.map_append, tree.items_listed,
      rest.items_listed, List.map_map]
    rfl

end

/-! ### Change of items -/

mutual

/-- A tree with every item changed; the change may depend on the number of the item, counted from
`number` on in the order in which items are visited. -/
def Tree.renew (change : Nat → β → γ) (number : Nat) : Tree β → Tree γ
  | .node item children => .node (change number item) (children.renew change (number + 1))

/-- A forest with every item changed. -/
def Forest.renew (change : Nat → β → γ) (number : Nat) : Forest β → Forest γ
  | .nil => .nil
  | .cons edge tree rest =>
    .cons edge (tree.renew change number) (rest.renew change (number + tree.size))

end

mutual

theorem Tree.size_renew (tree : Tree β) (change : Nat → β → γ) (number : Nat) :
    (tree.renew change number).size = tree.size := by
  cases tree with
  | node item children => rw [Tree.renew, Tree.size, Tree.size, children.size_renew]

theorem Forest.size_renew (forest : Forest β) (change : Nat → β → γ) (number : Nat) :
    (forest.renew change number).size = forest.size := by
  cases forest with
  | nil => rfl
  | cons edge tree rest =>
    rw [Forest.renew, Forest.size, Forest.size, tree.size_renew, rest.size_renew]

end

mutual

/-- Changing the items of a listing by their places changes the items of the tree. -/
theorem Tree.listed_renew (tree : Tree β) (change : Nat → β → γ) (depth : Nat)
    (parent : Option Nat) (edge : Option Edge) (number : Nat) :
    (tree.renew change number).listed depth parent edge number =
      (tree.listed depth parent edge number).mapIdx fun place visit =>
        { visit with item := change (number + place) visit.item } := by
  cases tree with
  | node item children =>
    rw [Tree.renew, Tree.listed, Tree.listed, List.mapIdx_cons, children.listed_renew]
    simp only [Nat.add_zero, Nat.add_assoc, Nat.add_comm 1]

theorem Forest.listed_renew (forest : Forest β) (change : Nat → β → γ)
    (depth parent number : Nat) :
    (forest.renew change number).listed depth parent number =
      (forest.listed depth parent number).mapIdx fun place visit =>
        { visit with item := change (number + place) visit.item } := by
  cases forest with
  | nil => rfl
  | cons edge tree rest =>
    rw [Forest.renew, Forest.listed, Forest.listed, List.mapIdx_append, tree.listed_renew,
      tree.size_renew, rest.listed_renew, tree.length_listed]
    simp only [Nat.add_assoc, Nat.add_comm tree.size]

end

/-- An entry of a listing by paths with another item. -/
def withItem (change : β → γ) (entry : List Edge × β) : List Edge × γ :=
  (entry.1, change entry.2)

theorem map_withItem_beneath (change : β → γ) (edge : Edge) (entries : List (List Edge × β)) :
    (entries.map (beneath edge)).map (withItem change) =
      (entries.map (withItem change)).map (beneath edge) := by
  rw [List.map_map, List.map_map]
  rfl

mutual

/-- What is told of the items and does not depend on their numbers is told of the changed tree. -/
theorem Tree.preorder_renew (tree : Tree β) {change : Nat → β → γ} {view : γ → δ} {view' : β → δ}
    (same : ∀ number item, view (change number item) = view' item) (number : Nat) :
    (tree.renew change number).preorder.map (withItem view) =
      tree.preorder.map (withItem view') := by
  cases tree with
  | node item children =>
    rw [Tree.renew, Tree.preorder, Tree.preorder, List.map_cons, List.map_cons,
      children.preorder_renew same]
    exact congrArg (· :: _) (congrArg (Prod.mk []) (same number item))

theorem Forest.preorder_renew (forest : Forest β) {change : Nat → β → γ} {view : γ → δ}
    {view' : β → δ} (same : ∀ number item, view (change number item) = view' item)
    (number : Nat) :
    (forest.renew change number).preorder.map (withItem view) =
      forest.preorder.map (withItem view') := by
  cases forest with
  | nil => rfl
  | cons edge tree rest =>
    rw [Forest.renew, Forest.preorder, Forest.preorder, List.map_append, List.map_append,
      map_withItem_beneath, map_withItem_beneath, tree.preorder_renew same,
      rest.preorder_renew same]

end

end FlowGate
