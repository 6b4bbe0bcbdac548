/-
This file shows that the listing loop is a recursion. `Opening.grow` opens a value and then, one
after the other, the values that hang off it, each with everything below it; the first failure
ends it. The loop keeps a list of what is still to be visited and finds paths through the numbers
of parents, but it lists exactly the tree that grows from its first value, and it fails where that
tree fails. What keeps the two together is that the path of a listed node does not change while
more nodes are listed behind it.
-/

import FlowGate.Proofs.Tree
import Mathlib.Algebra.Order.BigOperators.Group.List
import Mathlib.Algebra.Order.Group.Nat

namespace FlowGate

/-! ### Outcomes -/

theorem bind_eq_ok {first : Except ε α} {next : α → Except ε β} {value : β} :
    first.bind next = .ok value ↔ ∃ found, first = .ok found ∧ next found = .ok value := by
  constructor
  · intro equal
    cases first with
    | error failure => cases equal
    | ok found => exact ⟨found, rfl, equal⟩
  · rintro ⟨found, rfl, equal⟩
    exact equal

theorem map_eq_ok {first : Except ε α} {change : α → β} {value : β} :
    first.map change = .ok value ↔ ∃ found, first = .ok found ∧ change found = value := by
  constructor
  · intro equal
    cases first with
    | error failure => cases equal
    | ok found => exact ⟨found, rfl, Except.ok.inj equal⟩
  · rintro ⟨found, rfl, rfl⟩
    rfl

theorem bind_eq_error {first : Except ε α} {next : α → Except ε β} {failure : ε} :
    first.bind next = .error failure ↔
      first = .error failure ∨ ∃ found, first = .ok found ∧ next found = .error failure := by
  cases first <;> simp [Except.bind]

theorem map_eq_error {first : Except ε α} {change : α → β} {failure : ε} :
    first.map change = .error failure ↔ first = .error failure := by
  cases first <;> simp [Except.map]

/-! ### Recursive opening -/

/-- What hangs off a value is lighter than the value. -/
theorem Opening.weight_lt_of_mem (opening : Opening ε α β) {depth : Nat}
    {place : Unit → AccessPath} {value : α} {item : β} {children : List (Edge × α)}
    (opened : opening.opened depth place value = .ok (item, children)) {child : Edge × α}
    (member : child ∈ children) : opening.weight child.2 < opening.weight value :=
  Nat.lt_of_le_of_lt (List.le_sum_of_mem (List.mem_map.2 ⟨child, member, rfl⟩))
    (opening.lighter opened)

mutual

/-- Opens a value and everything that hangs off it; `path` leads from the trigger to the value. -/
def Opening.grow (opening : Opening ε α β) (depth : Nat) (path : List Edge) (value : α) :
    Except ε (Tree β) :=
  match _opened : opening.opened depth (fun () => stepSegments path) value with
  | .error failure => .error failure
  | .ok (item, children) => (opening.growAll (depth + 1) path children).map (.node item)
termination_by (opening.weight value, 0, 0)
decreasing_by
  have := opening.lighter _opened
  exact Prod.Lex.left _ _ this

/-- Opens the values that hang off the node at `path`, each with everything that hangs off it. -/
def Opening.growAll (opening : Opening ε α β) (depth : Nat) (path : List Edge)
    (children : List (Edge × α)) : Except ε (Forest β) :=
  match children with
  | [] => .ok .nil
  | (edge, child) :: rest =>
    match opening.grow depth (path ++ [edge]) child with
    | .error failure => .error failure
    | .ok tree => (opening.growAll depth path rest).map (.cons edge tree)
termination_by (weightOfChildren opening.weight children, 1, children.length)
decreasing_by
  all_goals simp only [weightOfChildren_cons]
  · exact Prod.Lex.right' _ (Nat.le_add_right _ _) (Prod.Lex.left _ _ Nat.zero_lt_one)
  · exact Prod.Lex.right' _ (Nat.le_add_left _ _) (Prod.Lex.right _ (Nat.lt_succ_self _))

end

/-- What grows from a value that opens. -/
theorem Opening.grow_of_opened (opening : Opening ε α β) {depth : Nat} {path : List Edge}
    {value : α} {item : β} {children : List (Edge × α)}
    (opened : opening.opened depth (fun () => stepSegments path) value = .ok (item, children)) :
    opening.grow depth path value =
      (opening.growAll (depth + 1) path children).map (.node item) := by
  rw [Opening.grow]
  split
  · next failed => rw [opened] at failed; cases failed
  · next found => rw [opened] at found; cases found; rfl

/-- Nothing grows from a value that does not open. -/
theorem Opening.grow_of_failed (opening : Opening ε α β) {depth : Nat} {path : List Edge}
    {value : α} {failure : ε}
    (failed : opening.opened depth (fun () => stepSegments path) value = .error failure) :
    opening.grow depth path value = .error failure := by
  rw [Opening.grow]
  split
  · next other => rw [failed] at other; cases other; rfl
  · next opened => rw [failed] at opened; cases opened

/-- Where a tree grows, the value opens and trees grow from all that hangs off it. -/
theorem Opening.grow_eq_ok {opening : Opening ε α β} {depth : Nat} {path : List Edge} {value : α}
    {tree : Tree β} (grown : opening.grow depth path value = .ok tree) :
    ∃ item children forest,
      opening.opened depth (fun () => stepSegments path) value = .ok (item, children) ∧
      opening.growAll (depth + 1) path children = .ok forest ∧ tree = .node item forest := by
  cases opened : opening.opened depth (fun () => stepSegments path) value with
  | error failure => rw [opening.grow_of_failed opened] at grown; cases grown
  | ok found =>
    rw [opening.grow_of_opened opened] at grown
    obtain ⟨forest, below, same⟩ := map_eq_ok.1 grown
    exact ⟨found.1, found.2, forest, rfl, below, same.symm⟩

@[simp] theorem Opening.growAll_nil (opening : Opening ε α β) (depth : Nat) (path : List Edge) :
    opening.growAll depth path [] = .ok .nil := by
  rw [Opening.growAll]

theorem Opening.growAll_cons (opening : Opening ε α β) (depth : Nat) (path : List Edge)
    (edge : Edge) (child : α) (rest : List (Edge × α)) :
    opening.growAll depth path ((edge, child) :: rest) =
      (opening.grow depth (path ++ [edge]) child).bind fun tree =>
        (opening.growAll depth path rest).map (.cons edge tree) := by
  rw [Opening.growAll]
  cases opening.grow depth (path ++ [edge]) child <;> rfl

/-- Where a forest grows, a tree grows from the first value and a forest from the others. -/
theorem Opening.growAll_cons_eq_ok {opening : Opening ε α β} {depth : Nat} {path : List Edge}
    {value : Edge × α} {rest : List (Edge × α)} {forest : Forest β}
    (grown : opening.growAll depth path (value :: rest) = .ok forest) :
    ∃ tree others, opening.grow depth (path ++ [value.1]) value.2 = .ok tree ∧
      opening.growAll depth path rest = .ok others ∧ forest = .cons value.1 tree others := by
  rw [growAll_cons] at grown
  obtain ⟨tree, first, later⟩ := bind_eq_ok.1 grown
  obtain ⟨others, later, same⟩ := map_eq_ok.1 later
  exact ⟨tree, others, first, later, same.symm⟩

/-- Where a forest grows, a tree grows from each of the values. -/
theorem Opening.grow_of_growAll {opening : Opening ε α β} {depth : Nat} {path : List Edge}
    {values : List (Edge × α)} {forest : Forest β}
    (grown : opening.growAll depth path values = .ok forest) {value : Edge × α}
    (member : value ∈ values) :
    ∃ tree, opening.grow depth (path ++ [value.1]) value.2 = .ok tree := by
  induction values generalizing forest with
  | nil => cases member
  | cons first rest inductionHypothesis =>
    obtain ⟨tree, others, here, later, -⟩ := growAll_cons_eq_ok grown
    rcases List.mem_cons.1 member with rfl | member
    · exact ⟨tree, here⟩
    · exact inductionHypothesis later member

/-- Where no forest grows, nothing grows from one of the values. -/
theorem Opening.growAll_eq_error {opening : Opening ε α β} {depth : Nat} {path : List Edge}
    {values : List (Edge × α)} {failure : ε}
    (failed : opening.growAll depth path values = .error failure) :
    ∃ value ∈ values, opening.grow depth (path ++ [value.1]) value.2 = .error failure := by
  induction values with
  | nil =>
    rw [growAll_nil] at failed
    cases failed
  | cons value rest inductionHypothesis =>
    rw [growAll_cons] at failed
    rcases bind_eq_error.1 failed with here | ⟨tree, -, failed⟩
    · exact ⟨value, List.mem_cons_self, here⟩
    · obtain ⟨found, member, failing⟩ := inductionHypothesis (map_eq_error.1 failed)
      exact ⟨found, List.mem_cons_of_mem _ member, failing⟩

/-- Where nothing grows, the value does not open, or nothing grows from something that hangs off
it. -/
theorem Opening.grow_eq_error {opening : Opening ε α β} {depth : Nat} {path : List Edge}
    {value : α} {failure : ε} (failed : opening.grow depth path value = .error failure) :
    opening.opened depth (fun () => stepSegments path) value = .error failure ∨
      ∃ item children child,
        opening.opened depth (fun () => stepSegments path) value = .ok (item, children) ∧
        child ∈ children ∧
        opening.grow (depth + 1) (path ++ [child.1]) child.2 = .error failure := by
  cases opened : opening.opened depth (fun () => stepSegments path) value with
  | error other =>
    rw [opening.grow_of_failed opened] at failed
    exact Or.inl (congrArg Except.error (Except.error.inj failed))
  | ok found =>
    obtain ⟨item, children⟩ := found
    rw [opening.grow_of_opened opened] at failed
    obtain ⟨child, member, failing⟩ := growAll_eq_error (map_eq_error.1 failed)
    exact Or.inr ⟨item, children, child, rfl, member, failing⟩

/-! ### Paths of listed nodes -/

theorem Visits.edgesTo_below (visits : Visits α) (number : Nat) (below : List Edge) :
    visits.edgesTo number below = visits.edgesTo number [] ++ below := by
  induction number using Nat.strongRecOn generalizing below with
  | ind number inductionHypothesis =>
    rw [edgesTo, edgesTo]
    cases visits[number]? with
    | none => rfl
    | some visit =>
      obtain ⟨item, depth, parent, edge⟩ := visit
      cases parent with
      | none => simp only [List.append_nil]
      | some parent =>
        by_cases earlier : parent < number
        · simp only [if_pos earlier, List.append_nil]
          rw [inductionHypothesis parent earlier, inductionHypothesis parent earlier edge.toList,
            List.append_assoc]
        · simp only [if_neg earlier, List.append_nil]

/-- The path of a listed node stays the same when more nodes are listed. -/
theorem Visits.edgesTo_append (visits more : Visits α) {number : Nat}
    (listed : number < visits.size) (below : List Edge) :
    Visits.edgesTo (visits ++ more) number below = visits.edgesTo number below := by
  induction number using Nat.strongRecOn generalizing below with
  | ind number inductionHypothesis =>
    rw [edgesTo, edgesTo, Array.getElem?_append_left listed]
    cases visits[number]? with
    | none => rfl
    | some visit =>
      obtain ⟨item, depth, parent, edge⟩ := visit
      cases parent with
      | none => rfl
      | some parent =>
        by_cases earlier : parent < number
        · simp only [if_pos earlier]
          exact inductionHypothesis parent earlier (Nat.lt_trans earlier listed) _
        · simp only [if_neg earlier]

/-- The path of a node is the same once it is listed as when it was about to be. -/
theorem Visits.edgesTo_push (visits : Visits β) (next : Visit α) (item : β)
    (attached : ∀ parent, next.parent = some parent → parent < visits.size) :
    Visits.edgesTo (visits.push { next with item }) visits.size [] = visits.edgesToNew next := by
  rw [edgesTo, Array.getElem?_push_size, edgesToNew]
  cases found : next.parent with
  | none => simp only [List.append_nil]
  | some parent =>
    dsimp only
    rw [if_pos (attached parent found), List.append_nil, Array.push_eq_append,
      edgesTo_append visits _ (attached parent found)]

/-! ### The loop lists what grows -/

namespace Opening

variable (opening : Opening ε α β)

theorem explore_nil (visits : Visits β) : opening.explore [] visits = .ok visits := by
  rw [explore]

theorem explore_of_opened {next : Visit α} {rest : List (Visit α)} {visits : Visits β} {item : β}
    {children : List (Edge × α)}
    (opened : opening.opened next.depth (fun () => stepSegments (visits.edgesToNew next))
      next.item = .ok (item, children)) :
    opening.explore (next :: rest) visits =
      opening.explore (childVisits visits.size next.depth children ++ rest)
        (visits.push { next with item }) := by
  rw [explore]
  split
  · next failed => rw [opened] at failed; cases failed
  · next found => rw [opened] at found; cases found; rfl

theorem explore_of_failed {next : Visit α} {rest : List (Visit α)} {visits : Visits β}
    {failure : ε}
    (failed : opening.opened next.depth (fun () => stepSegments (visits.edgesToNew next))
      next.item = .error failure) :
    opening.explore (next :: rest) visits = .error failure := by
  rw [explore]
  split
  · next other => rw [failed] at other; cases other; rfl
  · next opened => rw [failed] at opened; cases opened

/-- The loop, at a value: it lists what grows from the value, and then goes on. -/
def ListsGrowth (value : α) : Prop :=
  ∀ (next : Visit α) (rest : List (Visit α)) (visits : Visits β), next.item = value →
    (∀ parent, next.parent = some parent → parent < visits.size) →
      opening.explore (next :: rest) visits =
        (opening.grow next.depth (visits.edgesToNew next) value).bind fun tree =>
          opening.explore rest
            (visits ++ (tree.listed next.depth next.parent next.edge visits.size).toArray)

/-- The loop, at the values that hang off a listed node. -/
theorem explore_children {children : List (Edge × α)}
    (each : ∀ child ∈ children, opening.ListsGrowth child.2) (rest : List (Visit α))
    {visits : Visits β} {parent : Nat} (listed : parent < visits.size) (depth : Nat) :
    opening.explore (childVisits parent depth children ++ rest) visits =
      (opening.growAll (depth + 1) (visits.edgesTo parent []) children).bind fun forest =>
        opening.explore rest
          (visits ++ (forest.listed (depth + 1) parent visits.size).toArray) := by
  induction children generalizing visits with
  | nil =>
    rw [growAll_nil]
    show opening.explore rest visits = opening.explore rest (visits ++ #[])
    rw [Array.append_empty]
  | cons entry others inductionHypothesis =>
    obtain ⟨edge, child⟩ := entry
    have first := each (edge, child) List.mem_cons_self ⟨child, depth + 1, some parent, some edge⟩
      (childVisits parent depth others ++ rest) visits rfl
      fun _ same => Option.some.inj same ▸ listed
    have path : visits.edgesToNew (⟨child, depth + 1, some parent, some edge⟩ : Visit α) =
        visits.edgesTo parent [] ++ [edge] := visits.edgesTo_below parent [edge]
    show opening.explore (_ :: (childVisits parent depth others ++ rest)) visits = _
    rw [first, path, growAll_cons]
    cases opening.grow (depth + 1) (visits.edgesTo parent [] ++ [edge]) child with
    | error failure => rfl
    | ok tree =>
      show opening.explore (childVisits parent depth others ++ rest) (visits ++ _) = _
      rw [inductionHypothesis (fun child member => each child (List.mem_cons_of_mem _ member))
        (by rw [Array.size_append]; omega), Visits.edgesTo_append visits _ listed]
      show _ = (((opening.growAll (depth + 1) (visits.edgesTo parent []) others).map _).bind _)
      cases opening.growAll (depth + 1) (visits.edgesTo parent []) others with
      | error failure => rfl
      | ok forest =>
        have count := tree.length_listed (depth + 1) (some parent) (some edge) visits.size
        show opening.explore rest (visits ++ _ ++ _) =
          opening.explore rest (visits ++ (Forest.listed (.cons edge tree forest) _ _ _).toArray)
        rw [Forest.listed, ← List.append_toArray, Array.append_assoc, Array.size_append,
          ← count]
        rfl

/-- By induction on the weight of the value: what hangs off it is lighter. -/
theorem listsGrowth (value : α) : opening.ListsGrowth value := by
  generalize weighs : opening.weight value = weight
  induction weight using Nat.strongRecOn generalizing value with
  | ind weight inductionHypothesis =>
    intro next rest visits same attached
    subst same
    cases outcome :
        opening.opened next.depth (fun () => stepSegments (visits.edgesToNew next)) next.item with
    | error failure =>
      rw [opening.explore_of_failed outcome, opening.grow_of_failed outcome]
      rfl
    | ok opened =>
      obtain ⟨item, children⟩ := opened
      have each : ∀ child ∈ children, opening.ListsGrowth child.2 := by
        intro child member
        have lighter := opening.weight_lt_of_mem outcome member
        exact inductionHypothesis _ (weighs ▸ lighter) child.2 rfl
      rw [opening.explore_of_opened outcome, opening.grow_of_opened outcome,
        opening.explore_children each rest (by rw [Array.size_push]; omega),
        Visits.edgesTo_push visits next item attached]
      cases opening.growAll (next.depth + 1) (visits.edgesToNew next) children with
      | error failure => rfl
      | ok forest =>
        show opening.explore rest (visits.push _ ++ _) =
          opening.explore rest (visits ++ (Tree.listed (.node item forest) _ _ _ _).toArray)
        rw [Tree.listed, List.push_append_toArray, Array.size_push]

/-- A loop that starts from one value lists the tree that grows from it. -/
theorem explore_single (value : α) (depth : Nat) (edge : Option Edge) :
    opening.explore [⟨value, depth, none, edge⟩] #[] =
      (opening.grow depth edge.toList value).map fun tree =>
        (tree.listed depth none edge 0).toArray := by
  rw [opening.listsGrowth value ⟨value, depth, none, edge⟩ [] #[] rfl
    fun _ same => by cases same]
  show ((opening.grow depth edge.toList value).bind _) = _
  cases opening.grow depth edge.toList value with
  | error failure => rfl
  | ok tree =>
    show opening.explore [] _ = Except.ok _
    rw [explore_nil, Array.empty_append]
    rfl

end Opening

end FlowGate
