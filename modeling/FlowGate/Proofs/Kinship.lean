/-
This file says how the nodes of a listing hang together. A listed node knows the number of the node
that it hangs off, which is listed before it, and the edge that leads to it. Read the other way,
the nodes that hang off a node are the continuations of that node, in their order. The numbers in
a listed tree begin with the number of its first node and have no gaps, so what hangs off a node
of the tree is listed within the tree, and nothing listed before or behind the tree hangs off it.
-/

import FlowGate.Proofs.Numbering

namespace FlowGate

/-! ### What a node leads to -/

/-- The item of the first node of a tree. -/
def Tree.item : Tree β → β
  | .node item _ => item

theorem Tree.listed_first (tree : Tree β) (depth : Nat) (parent : Option Nat) (edge : Option Edge)
    (number : Nat) :
    (tree.listed depth parent edge number)[0]? = some ⟨tree.item, depth, parent, edge⟩ := by
  cases tree with
  | node item children => rfl

/-- The items of the first nodes of a forest, with their edges. -/
def Forest.items : Forest β → List (Edge × β)
  | .nil => []
  | .cons edge tree rest => (edge, tree.item) :: rest.items

mutual

/-- Every item of a tree leads to the items that hang off it, in their order. -/
def Tree.LeadsBy (leads : β → List (Edge × β)) : Tree β → Prop
  | .node item children => leads item = children.items ∧ children.LeadsBy leads

/-- Every item of a forest leads to the items that hang off it, in their order. -/
def Forest.LeadsBy (leads : β → List (Edge × β)) : Forest β → Prop
  | .nil => True
  | .cons _ tree rest => tree.LeadsBy leads ∧ rest.LeadsBy leads

end

theorem Forest.items_ofList (trees : List (Edge × Tree β)) :
    (Forest.ofList trees).items = trees.map fun entry => (entry.1, entry.2.item) := by
  induction trees with
  | nil => rfl
  | cons entry rest inductionHypothesis =>
    rw [Forest.ofList, Forest.items, inductionHypothesis, List.map_cons]

theorem Forest.leadsBy_ofList {leads : β → List (Edge × β)} {trees : List (Edge × Tree β)}
    (each : ∀ entry ∈ trees, entry.2.LeadsBy leads) : (Forest.ofList trees).LeadsBy leads := by
  induction trees with
  | nil => trivial
  | cons entry rest inductionHypothesis =>
    exact ⟨each entry List.mem_cons_self,
      inductionHypothesis fun other member => each other (List.mem_cons_of_mem _ member)⟩

theorem Node.item_tree (node : Node) : node.tree.item = node := by
  rw [tree, Opening.tree_eq unfolding_opened, Tree.item]

/-- The tree of a node leads on as the nodes in it do. -/
theorem Node.leadsBy_tree (node : Node) : node.tree.LeadsBy Node.children := by
  induction node using Opening.induction_children unfolding_opened with
  | step node inductionHypothesis =>
    rw [tree, Opening.tree_eq unfolding_opened]
    refine ⟨?_, Forest.leadsBy_ofList fun entry member => ?_⟩
    · rw [Forest.items_ofList, List.map_map]
      refine ((List.map_congr_left fun child _ => ?_).trans (List.map_id _)).symm
      exact Prod.ext rfl child.2.item_tree
    · obtain ⟨child, inChildren, rfl⟩ := List.mem_map.1 member
      exact inductionHypothesis child inChildren

/-! ### Numbers of parents -/

mutual

/-- A node of a listed tree hangs off what the tree hangs off, or off a node of the tree. -/
theorem Tree.parent_listed (tree : Tree β) {depth number : Nat} {parent : Option Nat}
    {edge : Option Edge} {visit : Visit β}
    (member : visit ∈ tree.listed depth parent edge number) :
    visit.parent = parent ∨
      ∃ above, visit.parent = some above ∧ number ≤ above ∧ above < number + tree.size := by
  cases tree with
  | node item children =>
    rcases List.mem_cons.1 member with rfl | member
    · exact Or.inl rfl
    · refine Or.inr ?_
      rw [Tree.size]
      rcases children.parent_listed member with same | ⟨above, same, low, high⟩
      · exact ⟨number, same, by omega, by omega⟩
      · exact ⟨above, same, by omega, by omega⟩

theorem Forest.parent_listed (forest : Forest β) {depth parent number : Nat} {visit : Visit β}
    (member : visit ∈ forest.listed depth parent number) :
    visit.parent = some parent ∨
      ∃ above, visit.parent = some above ∧ number ≤ above ∧ above < number + forest.size := by
  cases forest with
  | nil => cases member
  | cons edge tree rest =>
    rw [Forest.size]
    rcases List.mem_append.1 member with first | later
    · rcases tree.parent_listed first with same | ⟨above, same, low, high⟩
      · exact Or.inl same
      · exact Or.inr ⟨above, same, by omega, by omega⟩
    · rcases rest.parent_listed later with same | ⟨above, same, low, high⟩
      · exact Or.inl same
      · exact Or.inr ⟨above, same, by omega, by omega⟩

end

/-! ### What hangs off a node -/

/-- The listed nodes that hang off the node with a number, with their edges. -/
def hangingOff (number : Nat) (visits : List (Visit β)) : List (Option Edge × β) :=
  (visits.filter fun visit => visit.parent == some number).map fun visit => (visit.edge, visit.item)

theorem hangingOff_cons (number : Nat) (visit : Visit β) (rest : List (Visit β)) :
    hangingOff number (visit :: rest) =
      if visit.parent = some number then (visit.edge, visit.item) :: hangingOff number rest
      else hangingOff number rest := by
  rw [hangingOff, List.filter_cons]
  by_cases here : visit.parent = some number
  · rw [if_pos here, if_pos (beq_iff_eq.2 here)]
    rfl
  · rw [if_neg here, if_neg fun same => here (beq_iff_eq.1 same)]
    rfl

theorem hangingOff_append (number : Nat) (first second : List (Visit β)) :
    hangingOff number (first ++ second) = hangingOff number first ++ hangingOff number second := by
  rw [hangingOff, List.filter_append, List.map_append]
  rfl

theorem hangingOff_eq_nil {number : Nat} {visits : List (Visit β)}
    (elsewhere : ∀ visit ∈ visits, visit.parent ≠ some number) : hangingOff number visits = [] := by
  rw [hangingOff, List.filter_eq_nil_iff.2, List.map_nil]
  exact fun visit member => by simpa using elsewhere visit member

/-- A continuation as a listing holds it. -/
def listedAlong (child : Edge × β) : Option Edge × β :=
  (some child.1, child.2)

/-- No node of a tree hangs off a node outside the tree, but the first one, which hangs off what
the tree does. -/
theorem Tree.hangingOff_outside (tree : Tree β) {depth parent start number : Nat} {edge : Edge}
    (outside : number < start ∨ start + tree.size ≤ number) :
    hangingOff number (tree.listed depth (some parent) (some edge) start) =
      if parent = number then [listedAlong (edge, tree.item)] else [] := by
  cases tree with
  | node item children =>
    have inside : hangingOff number (children.listed (depth + 1) start (start + 1)) = [] := by
      refine hangingOff_eq_nil fun visit member same => ?_
      rw [Tree.size] at outside
      rcases children.parent_listed member with equal | ⟨above, equal, low, high⟩ <;>
        rw [same] at equal <;> injection equal with equal <;> omega
    rw [Tree.listed, hangingOff_cons, inside]
    simp only [Option.some.injEq]
    rfl

theorem Forest.hangingOff_outside (forest : Forest β) {depth parent start number : Nat}
    (outside : number < start ∨ start + forest.size ≤ number) :
    hangingOff number (forest.listed depth parent start) =
      if parent = number then forest.items.map listedAlong else [] :=
  match forest with
  | .nil => by split <;> rfl
  | .cons edge tree rest => by
    rw [Forest.size] at outside
    rw [Forest.listed, hangingOff_append, tree.hangingOff_outside (by omega),
      rest.hangingOff_outside (by omega)]
    split <;> rfl

section Inside

variable {leads : β → List (Edge × β)}

mutual

/-- Off a node of a listed tree there hangs what its item leads to, in order. The tree itself hangs
off an earlier node, so its first node is not among them. -/
theorem Tree.hangingOff_listed (tree : Tree β) (led : tree.LeadsBy leads) {depth number : Nat}
    {parent : Option Nat} {edge : Option Edge}
    (earlier : ∀ above, parent = some above → above < number) {place : Nat} {visit : Visit β}
    (listed : (tree.listed depth parent edge number)[place]? = some visit) :
    hangingOff (number + place) (tree.listed depth parent edge number) =
      (leads visit.item).map listedAlong := by
  cases tree with
  | node item children =>
    have apart : parent ≠ some (number + place) := fun same => by
      have := earlier _ same
      omega
    rw [Tree.listed, hangingOff_cons, if_neg apart]
    cases place with
    | zero =>
      cases listed
      rw [led.1]
      exact (children.hangingOff_outside (Or.inl (Nat.lt_succ_self number))).trans (if_pos rfl)
    | succ place =>
      rw [Nat.add_comm place, ← Nat.add_assoc]
      exact children.hangingOff_listed led.2 (Nat.lt_succ_self number) listed

theorem Forest.hangingOff_listed (forest : Forest β) (led : forest.LeadsBy leads)
    {depth parent number : Nat} (earlier : parent < number) {place : Nat} {visit : Visit β}
    (listed : (forest.listed depth parent number)[place]? = some visit) :
    hangingOff (number + place) (forest.listed depth parent number) =
      (leads visit.item).map listedAlong := by
  cases forest with
  | nil => cases listed
  | cons edge tree rest =>
    rw [Forest.listed] at listed ⊢
    have size := tree.length_listed depth (some parent) (some edge) number
    by_cases here : place < tree.size
    · rw [List.getElem?_append_left (by omega)] at listed
      rw [hangingOff_append,
        tree.hangingOff_listed led.1 (fun _ same => Option.some.inj same ▸ earlier) listed,
        rest.hangingOff_outside (by omega), if_neg (by omega), List.append_nil]
    · rw [List.getElem?_append_right (by omega), size] at listed
      have behind : parent < number + tree.size := Nat.lt_add_right _ earlier
      have later := rest.hangingOff_listed led.2 behind listed
      rw [show number + tree.size + (place - tree.size) = number + place by omega] at later
      rw [hangingOff_append, tree.hangingOff_outside (by omega), if_neg (by omega), later,
        List.nil_append]

end

end Inside

/-! ### What a node hangs off -/

/-- A node hangs off a listed one that has an earlier number and lies one step less deep. -/
def Visits.Attached (visits : Visits β) (number : Nat) (visit : Visit β) : Prop :=
  ∃ parent above edge, visit.parent = some parent ∧ parent < number ∧ visit.edge = some edge ∧
    visits[parent]? = some above ∧ visit.depth = above.depth + 1

section Attached

variable {visits : Visits β}

mutual

/-- Every node of a listed tree but the first one hangs off a node. -/
theorem Tree.attached_listed (tree : Tree β) {depth number : Nat} {parent : Option Nat}
    {edge : Option Edge} (holds : HoldsFrom visits number (tree.listed depth parent edge number))
    {place : Nat} {visit : Visit β}
    (listed : (tree.listed depth parent edge number)[place + 1]? = some visit) :
    visits.Attached (number + 1 + place) visit := by
  cases tree with
  | node item children =>
    exact children.attached_listed holds.1 rfl (Nat.lt_succ_self number) holds.2 listed

/-- Every node of a listed forest hangs off a node, if the forest does. -/
theorem Forest.attached_listed (forest : Forest β) {depth parent number : Nat} {above : Visit β}
    (top : visits[parent]? = some above) (deeper : depth = above.depth + 1)
    (earlier : parent < number)
    (holds : HoldsFrom visits number (forest.listed depth parent number))
    {place : Nat} {visit : Visit β}
    (listed : (forest.listed depth parent number)[place]? = some visit) :
    visits.Attached (number + place) visit := by
  cases forest with
  | nil => cases listed
  | cons edge tree rest =>
    rw [Forest.listed] at holds listed
    obtain ⟨treeHolds, restHolds⟩ := holdsFrom_append holds
    have size := tree.length_listed depth (some parent) (some edge) number
    rw [size] at restHolds
    by_cases here : place < tree.size
    · rw [List.getElem?_append_left (by omega)] at listed
      cases place with
      | zero =>
        cases (tree.listed_first depth (some parent) (some edge) number).symm.trans listed
        exact ⟨parent, above, edge, rfl, earlier, rfl, top, deeper⟩
      | succ place =>
        rw [Nat.add_comm place, ← Nat.add_assoc]
        exact tree.attached_listed treeHolds listed
    · rw [List.getElem?_append_right (by omega), size] at listed
      have later := rest.attached_listed top deeper (Nat.lt_add_right _ earlier) restHolds listed
      rwa [show number + tree.size + (place - tree.size) = number + place by omega] at later

end

end Attached

end FlowGate
