/-
This file finds the nodes of a walk by their numbers. The path of a listed node is put together
from the numbers of the nodes above it, one edge at a time; in a listing of a whole tree that is
the path which the structure of the tree says. So the node with some number, with the path that is
found for the number, is the entry at that place in the order of visits.
-/

import FlowGate.Proofs.Verdicts

namespace FlowGate

/-! ### Paths by number -/

section Listed

variable {visits : Visits β}

/-- The paths of `count` listed nodes, from the one with the given number on. -/
def Visits.pathsFrom (visits : Visits β) (number count : Nat) : List (List Edge) :=
  (List.range' number count).map fun number => visits.edgesTo number []

theorem Visits.pathsFrom_add (number first second : Nat) :
    visits.pathsFrom number (first + second) =
      visits.pathsFrom number first ++ visits.pathsFrom (number + first) second := by
  rw [pathsFrom, ← List.range'_append_1, List.map_append]
  rfl

/-- A node that hangs off an earlier one is one edge further than that one. -/
theorem Visits.edgesTo_attached {number depth parent : Nat} {item : β} {edge : Edge}
    (listed : visits[number]? = some ⟨item, depth, some parent, some edge⟩)
    (earlier : parent < number) :
    visits.edgesTo number [] = visits.edgesTo parent [] ++ [edge] := by
  rw [edgesTo, listed]
  dsimp only
  rw [if_pos earlier, edgesTo_below]
  rfl

mutual

/-- The paths of a listed tree begin with the path of its first node. -/
theorem Tree.pathsFrom_listed (tree : Tree β) {depth number : Nat} {parent : Option Nat}
    {edge : Option Edge} (listed : HoldsFrom visits number (tree.listed depth parent edge number)) :
    visits.pathsFrom number tree.size = tree.paths.map (visits.edgesTo number [] ++ ·) := by
  cases tree with
  | node item children =>
    have below := children.pathsFrom_listed listed.2 (Nat.lt_succ_self number)
    rw [Tree.size, Visits.pathsFrom_add, below, Tree.paths_node, List.map_cons, List.append_nil]
    rfl

theorem Forest.pathsFrom_listed (forest : Forest β) {depth parent number : Nat}
    (listed : HoldsFrom visits number (forest.listed depth parent number))
    (earlier : parent < number) :
    visits.pathsFrom number forest.size =
      forest.paths.map (visits.edgesTo parent [] ++ ·) := by
  cases forest with
  | nil => rfl
  | cons edge tree rest =>
    rw [Forest.listed] at listed
    obtain ⟨treeListed, restListed⟩ := holdsFrom_append listed
    rw [tree.length_listed] at restListed
    have first : visits.edgesTo number [] = visits.edgesTo parent [] ++ [edge] := by
      cases tree with
      | node item children => exact Visits.edgesTo_attached treeListed.1 earlier
    rw [Forest.size, Visits.pathsFrom_add, tree.pathsFrom_listed treeListed,
      rest.pathsFrom_listed restListed (Nat.lt_add_right _ earlier), Forest.paths_cons,
      List.map_append, List.map_map, first]
    simp only [Function.comp_def, List.append_assoc, List.singleton_append]

end

end Listed

/-- A tree that hangs off nothing is listed with its own paths. -/
theorem Tree.pathsFrom_root (tree : Tree β) (depth : Nat) :
    Visits.pathsFrom (tree.listed depth none none 0).toArray 0 tree.size = tree.paths := by
  have root : Visits.edgesTo (tree.listed depth none none 0).toArray 0 [] = [] := by
    cases tree with
    | node item children => rw [Visits.edgesTo]; rfl
  rw [tree.pathsFrom_listed (holdsFrom_self _), root]
  exact List.map_id _

/-! ### Nodes by number -/

/-- The nodes of a walk with their paths, by number. -/
def Walk.located (walk : Walk) : List (List Edge × Node) :=
  walk.numbered.map fun (node, number) => (walk.visits.edgesTo number [], node)

theorem Walk.paths_located (walk : Walk) :
    walk.located.map (·.1) = walk.visits.pathsFrom 0 walk.nodes.length := by
  rw [Visits.pathsFrom, ← List.zipIdx_map_snd, located, List.map_map, List.map_map]
  rfl

theorem Walk.nodes_located (walk : Walk) : walk.located.map (·.2) = walk.nodes := by
  rw [located, List.map_map]
  exact List.zipIdx_map_fst 0 walk.nodes

/-- The nodes that a walk lists, with the paths that their numbers lead to, are the order of
visits. -/
theorem Trigger.located_listing (start : Trigger) :
    start.listing.located = (Node.trigger start).preorder := by
  have count : start.listing.nodes.length = (Node.trigger start).tree.size := by
    rw [Walk.nodes, List.length_map]
    exact Tree.length_listed _ _ _ _ _
  have paths : start.listing.located.map (·.1) = (Node.trigger start).preorder.map (·.1) := by
    rw [Walk.paths_located, count]
    exact Tree.pathsFrom_root _ 0
  have nodes : start.listing.located.map (·.2) = (Node.trigger start).preorder.map (·.2) := by
    rw [Walk.nodes_located, nodes_listing]
  rw [List.zip_of_prod paths nodes]
  exact (List.zip_of_prod rfl rfl).symm

/-- The node with some number is the one that the path of the number leads to. -/
theorem Trigger.follow_listing {start : Trigger} {number : Nat} {node : Node}
    (numbered : (node, number) ∈ start.listing.numbered) :
    (Node.trigger start).follow (start.listing.visits.edgesTo number []) = some node := by
  rw [← Node.mem_preorder, ← located_listing]
  exact List.mem_map_of_mem numbered

end FlowGate
