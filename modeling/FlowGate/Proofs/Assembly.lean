/-
This file shows that building a tree from a listing is a recursion as well. The building loop goes
back to front: when it has passed a tree, the step that the tree hangs off has the built tree
attached, every earlier step is as it was, and the later ones are never looked at again. So a
listed tree is built into what `Tree.fold` makes of it from the leaves up.
-/

import FlowGate.Proofs.Continuation

namespace FlowGate

mutual

/-- Builds a tree of steps, in which each step gets what its own trees are built into. -/
def Tree.fold (finish : Step β → β) : Tree (Step α) → β
  | .node item children => finish (item.bare.hang (children.fold finish))

/-- Builds the trees of a forest, each with its edge. -/
def Forest.fold (finish : Step β → β) : Forest (Step α) → List (Edge × β)
  | .nil => []
  | .cons edge tree rest => (edge, tree.fold finish) :: rest.fold finish

end

/-! ### Parts of an array -/

/-- An array holds the values of a list from a position on. -/
def HoldsFrom (values : Array α) : (number : Nat) → List α → Prop
  | _, [] => True
  | number, value :: rest => values[number]? = some value ∧ HoldsFrom values (number + 1) rest

theorem holdsFrom_append {values : Array α} {number : Nat} {first second : List α}
    (holds : HoldsFrom values number (first ++ second)) :
    HoldsFrom values number first ∧ HoldsFrom values (number + first.length) second := by
  induction first generalizing number with
  | nil => exact ⟨trivial, holds⟩
  | cons value rest inductionHypothesis =>
    obtain ⟨here, later⟩ := inductionHypothesis holds.2
    rw [Nat.add_assoc, Nat.add_comm 1] at later
    exact ⟨⟨holds.1, here⟩, later⟩

theorem holdsFrom_modify {values : Array α} {number position : Nat} {list : List α}
    (change : α → α) (earlier : position < number) (holds : HoldsFrom values number list) :
    HoldsFrom (values.modify position change) number list := by
  induction list generalizing number with
  | nil => trivial
  | cons value rest inductionHypothesis =>
    refine ⟨?_, inductionHypothesis (Nat.lt_succ_of_lt earlier) holds.2⟩
    rw [Array.getElem?_modify, if_neg (Nat.ne_of_lt earlier)]
    exact holds.1

theorem holdsFrom_toArray (before list : List α) :
    HoldsFrom (before ++ list).toArray before.length list := by
  induction list generalizing before with
  | nil => trivial
  | cons value rest inductionHypothesis =>
    refine ⟨by simp, ?_⟩
    have later := inductionHypothesis (before ++ [value])
    rwa [List.append_assoc, List.length_append] at later

theorem holdsFrom_self (list : List α) : HoldsFrom list.toArray 0 list :=
  holdsFrom_toArray [] list

/-! ### The building loop -/

/-- The loop looks at no step behind those it has still to attach. -/
theorem Visits.assembleFrom_congr (visits : Visits (Step α)) (finish : Step β → β) {count : Nat}
    {steps others : Array (Step β)} (head : Option β)
    (same : ∀ number < count, steps[number]? = others[number]?) :
    visits.assembleFrom finish count steps head =
      visits.assembleFrom finish count others head := by
  induction count generalizing steps others head with
  | zero => rfl
  | succ number inductionHypothesis =>
    have earlier : ∀ position < number, steps[position]? = others[position]? :=
      fun position less => same position (Nat.lt_succ_of_lt less)
    rw [assembleFrom, assembleFrom, same number (Nat.lt_succ_self number)]
    cases visits[number]? with
    | none => rfl
    | some visit =>
      cases others[number]? with
      | none => rfl
      | some step =>
        obtain ⟨item, depth, parent, edge⟩ := visit
        cases parent with
        | none => exact inductionHypothesis _ earlier
        | some parent =>
          cases edge with
          | none => exact inductionHypothesis _ earlier
          | some edge =>
            refine inductionHypothesis _ fun position less => ?_
            rw [Array.getElem?_modify, Array.getElem?_modify, earlier position less]

section Built

variable {visits : Visits (Step α)} {finish : Step β → β}

/-- Past the node with a number, the loop attaches what it made of it. -/
theorem Visits.assembleFrom_attach {steps : Array (Step β)} {head : Option β} {number : Nat}
    {item : Step α} {depth parent : Nat} {edge : Edge} {step : Step β}
    (listed : visits[number]? = some ⟨item, depth, some parent, some edge⟩)
    (built : steps[number]? = some step) :
    visits.assembleFrom finish (number + 1) steps head =
      visits.assembleFrom finish number
        (steps.modify parent fun above => above.attach edge (finish step)) head := by
  rw [assembleFrom, listed, built]

mutual

theorem Tree.assembleFrom_listed (tree : Tree (Step α)) {steps : Array (Step β)}
    (head : Option β) {depth parent number : Nat} {edge : Edge}
    (listed : HoldsFrom visits number (tree.listed depth (some parent) (some edge) number))
    (bare : HoldsFrom steps number ((tree.listed depth (some parent) (some edge) number).map
      fun visit => visit.item.bare)) :
    visits.assembleFrom finish (number + tree.size) steps head =
      visits.assembleFrom finish number
        (steps.modify parent fun above => above.attach edge (tree.fold finish)) head := by
  cases tree with
  | node item children =>
    have below := children.assembleFrom_listed head listed.2 bare.2
      (Nat.lt_succ_self number)
    have built : (steps.modify number fun above => above.hang (children.fold finish))[number]? =
        some (item.bare.hang (children.fold finish)) := by
      rw [Array.getElem?_modify, if_pos rfl, bare.1]
      rfl
    rw [Tree.size, ← Nat.add_assoc, below, Visits.assembleFrom_attach listed.1 built]
    refine visits.assembleFrom_congr finish head fun position less => ?_
    simp only [Array.getElem?_modify, if_neg (Nat.ne_of_gt less), Tree.fold]

theorem Forest.assembleFrom_listed (forest : Forest (Step α)) {steps : Array (Step β)}
    (head : Option β) {depth parent number : Nat}
    (listed : HoldsFrom visits number (forest.listed depth parent number))
    (bare : HoldsFrom steps number ((forest.listed depth parent number).map
      fun visit => visit.item.bare))
    (earlier : parent < number) :
    visits.assembleFrom finish (number + forest.size) steps head =
      visits.assembleFrom finish number
        (steps.modify parent fun above => above.hang (forest.fold finish)) head := by
  cases forest with
  | nil =>
    refine visits.assembleFrom_congr finish head fun position _ => ?_
    rw [Array.getElem?_modify]
    split
    · cases steps[position]? <;> rfl
    · rfl
  | cons edge tree rest =>
    rw [Forest.listed] at listed
    rw [Forest.listed, List.map_append] at bare
    obtain ⟨treeListed, restListed⟩ := holdsFrom_append listed
    obtain ⟨treeBare, restBare⟩ := holdsFrom_append bare
    rw [List.length_map] at restBare
    rw [tree.length_listed] at restListed restBare
    rw [Forest.size, ← Nat.add_assoc,
      rest.assembleFrom_listed head restListed restBare (Nat.lt_add_right _ earlier),
      tree.assembleFrom_listed head treeListed (holdsFrom_modify _ earlier treeBare)]
    refine visits.assembleFrom_congr finish head fun position _ => ?_
    rw [Array.getElem?_modify, Array.getElem?_modify, Array.getElem?_modify]
    split
    · cases steps[position]? <;> rfl
    · rfl

end

/-- Past all nodes of a tree that hangs off nothing, the loop ends with what it made of it. -/
theorem Tree.assembleFrom_root (tree : Tree (Step α)) {steps : Array (Step β)} {depth : Nat}
    {edge : Option Edge} (listed : HoldsFrom visits 0 (tree.listed depth none edge 0))
    (bare : HoldsFrom steps 0 ((tree.listed depth none edge 0).map
      fun visit => visit.item.bare)) :
    visits.assembleFrom finish tree.size steps none = some (tree.fold finish) := by
  cases tree with
  | node item children =>
    have built : (steps.modify 0 fun above => above.hang (children.fold finish))[0]? =
        some (item.bare.hang (children.fold finish)) := by
      rw [Array.getElem?_modify, if_pos rfl, bare.1]
      rfl
    have first := listed.1
    rw [Tree.size, ← Nat.zero_add 1,
      children.assembleFrom_listed none listed.2 bare.2 Nat.zero_lt_one, Visits.assembleFrom, first,
      built]
    rfl

end Built

/-- A listed tree is built into what its steps make from the leaves up. -/
theorem Tree.assemble_listed (tree : Tree (Step α)) (finish : Step β → β) (depth : Nat)
    (edge : Option Edge) :
    Visits.assemble (tree.listed depth none edge 0).toArray finish = some (tree.fold finish) := by
  rw [Visits.assemble, List.size_toArray, List.map_toArray, tree.length_listed]
  exact tree.assembleFrom_root (holdsFrom_self _) (holdsFrom_self _)

end FlowGate
