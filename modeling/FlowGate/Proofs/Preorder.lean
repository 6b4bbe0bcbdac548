/-
This file shows that a walk is the recursive traversal of a workflow: a node, then what follows it
on success, on failure, on each way of a split and in a loop, and at last what follows when it is
done. `Trigger.inOrder` says so by recursion on the structure of workflows, with no list of what is
still to be visited, no numbers and no cap. The walk lists the same nodes at the same paths, and a
walk that fails does so at the first of these nodes that lies beyond the cap; that node lies just
beyond it, because the nodes above it come before it.
-/

import FlowGate.Proofs.DepthCap
import FlowGate.Proofs.Kinship

namespace FlowGate

/-! ### The recursive listing -/

namespace Action

mutual

/-- An action at a path and everything that follows it: the action, then what follows what it does,
then what follows when it is done. -/
def inOrder (path : List Edge) : Action → List (List Edge × Node)
  | .mk ⟨header, task, next⟩ =>
    (path, .action (.mk ⟨header, task, next⟩)) ::
      (inOrderOfTask path task ++ inOrderOfNext (path ++ [.next]) next)

/-- Everything that follows what the step at a path does. -/
def inOrderOfTask (path : List Edge) : Task Action → List (List Edge × Node)
  | .code _ | .block _ => []
  | .branch _ onSuccess onFailure =>
    inOrderOfNext (path ++ [.onSuccess]) onSuccess ++ inOrderOfNext (path ++ [.onFailure]) onFailure
  | .split _ branches => inOrderOfBranches path 0 branches
  | .loop _ body => inOrderOfNext (path ++ [.loopBody]) body

/-- Everything on a continuation that leads to a path. -/
def inOrderOfNext (path : List Edge) : Option Action → List (List Edge × Node)
  | none => []
  | some action => action.inOrder path

/-- Everything on ways of the split at a path, which are numbered from `first` on. -/
def inOrderOfBranches (path : List Edge) (first : Nat) :
    List (Branch Action) → List (List Edge × Node)
  | [] => []
  | ⟨_, next⟩ :: rest =>
    inOrderOfNext (path ++ [.branch first]) next ++ inOrderOfBranches path (first + 1) rest

end

end Action

/-- The trigger and everything that follows it, each node with its path. -/
def Trigger.inOrder (start : Trigger) : List (List Edge × Node) :=
  ([], .trigger start) :: Action.inOrderOfNext [.next] start.next

namespace Action

theorem inOrderOfNext_eq (path : List Edge) (edge : Edge) (next : Option Action) :
    inOrderOfNext (path ++ [edge]) next =
      (edge.along next).flatMap fun child => child.2.inOrder (path ++ [child.1]) := by
  cases next with
  | none => rfl
  | some action => exact (List.append_nil _).symm

theorem inOrderOfBranches_eq (path : List Edge) (first : Nat) (branches : List (Branch Action)) :
    inOrderOfBranches path first branches =
      (Branch.children first branches).flatMap fun child =>
        child.2.inOrder (path ++ [child.1]) := by
  induction branches generalizing first with
  | nil => rfl
  | cons branch rest inductionHypothesis =>
    rw [Branch.children_cons, List.flatMap_append, ← inOrderOfNext_eq, ← inductionHypothesis]
    rfl

theorem inOrderOfTask_eq (path : List Edge) (task : Task Action) :
    inOrderOfTask path task =
      task.children.flatMap fun child => child.2.inOrder (path ++ [child.1]) := by
  cases task with
  | code settings => rfl
  | block settings => rfl
  | branch settings onSuccess onFailure =>
    rw [inOrderOfTask, Task.children, List.flatMap_append, inOrderOfNext_eq, inOrderOfNext_eq]
  | split settings branches => exact inOrderOfBranches_eq path 0 branches
  | loop settings body => exact inOrderOfNext_eq path .loopBody body

/-- An action comes before its continuations, which follow one after the other. -/
theorem inOrder_eq (path : List Edge) (action : Action) :
    action.inOrder path = (path, .action action) ::
      action.step.children.flatMap fun child => child.2.inOrder (path ++ [child.1]) := by
  obtain ⟨header, task, next⟩ := action
  rw [inOrder, inOrderOfTask_eq, inOrderOfNext_eq, ← List.flatMap_append]
  rfl

end Action

/-! ### The order of visits -/

/-- An entry of a listing by paths, further from the start by a whole path. -/
def beneathAll (path : List Edge) (entry : List Edge × β) : List Edge × β :=
  (path ++ entry.1, entry.2)

theorem map_beneathAll_beneath (path : List Edge) (edge : Edge) (entries : List (List Edge × β)) :
    (entries.map (beneath edge)).map (beneathAll path) =
      entries.map (beneathAll (path ++ [edge])) := by
  rw [List.map_map]
  refine List.map_congr_left fun entry _ => ?_
  simp [beneath, beneathAll]

/-- The recursive listing of an action is its order of visits. -/
theorem Action.inOrder_eq_preorder (action : Action) : ∀ path : List Edge,
    action.inOrder path = (Node.action action).preorder.map (beneathAll path) := by
  induction action using Opening.induction_children Action.opened with
  | step action inductionHypothesis =>
    intro path
    rw [Action.inOrder_eq, Node.preorder_eq, List.map_cons, List.map_flatMap, Node.children,
      Node.continuations, List.flatMap_map]
    refine congr (congrArg List.cons ?_) ?_
    · rw [beneathAll, List.append_nil]
    · refine List.flatMap_congr fun child member => ?_
      rw [inductionHypothesis child member, map_beneathAll_beneath]

/-- The recursive listing of a workflow is its order of visits. -/
theorem Trigger.inOrder_eq_preorder (start : Trigger) :
    start.inOrder = (Node.trigger start).preorder := by
  rw [inOrder, Node.preorder_eq]
  refine congrArg (([], Node.trigger start) :: ·) ?_
  obtain ⟨header, kind, next⟩ := start
  cases next with
  | none => rfl
  | some action =>
    show action.inOrder [.next] = (Node.preorder (.action action)).map (beneath .next) ++ []
    rw [List.append_nil, action.inOrder_eq_preorder]
    rfl

/-! ### The first node beyond the cap -/

mutual

/-- The first path in a tree that is so long or longer is so long. -/
theorem Tree.firstAt_eq_find? (tree : Tree β) (length : Nat) :
    firstAt length tree.paths = tree.paths.find? fun path => decide (length ≤ path.length) := by
  cases tree with
  | node item children =>
    rw [Tree.paths_node]
    cases length with
    | zero => rfl
    | succ length =>
      rw [firstAt_succ_nil, children.firstAt_eq_find?]
      rfl

theorem Forest.firstAt_eq_find? (forest : Forest β) (length : Nat) :
    firstAt (length + 1) forest.paths =
      forest.paths.find? fun path => decide (length + 1 ≤ path.length) := by
  cases forest with
  | nil => rfl
  | cons edge tree rest =>
    have longer : ((fun path => decide (length + 1 ≤ path.length)) ∘ (edge :: ·)) =
        fun path : List Edge => decide (length ≤ path.length) := by
      funext path
      simp
    rw [Forest.paths_cons, firstAt_append, firstAt_map_cons, tree.firstAt_eq_find?,
      rest.firstAt_eq_find?, List.find?_append, List.find?_map, longer]

end

/-- The first node that lies too deep is refused, and it lies just beyond the cap. -/
theorem Trigger.find?_inOrder (start : Trigger) (depth : Nat) :
    (start.inOrder.find? fun entry => decide (depth < entry.1.length)).map (·.1) =
      firstAt (depth + 1) (Node.trigger start).paths := by
  have paths : (Node.trigger start).paths = start.inOrder.map (·.1) := by
    rw [Node.paths, inOrder_eq_preorder]
  have first : firstAt (depth + 1) (Node.trigger start).paths =
      (Node.trigger start).paths.find? fun path => decide (depth + 1 ≤ path.length) :=
    (Node.trigger start).tree.firstAt_eq_find? (depth + 1)
  rw [first, paths, List.find?_map]
  rfl

/-! ### The walk -/

/-- A walk lists a workflow in order. -/
structure Walk.Lists (walk : Walk) (start : Trigger) : Prop where
  /-- The nodes, with the paths that their numbers lead to, are the recursive listing. -/
  inOrder : walk.located = start.inOrder
  /-- The nodes are those that paths lead to, each of them once. -/
  each : ∀ path node, (path, node) ∈ walk.located ↔ (Node.trigger start).follow path = some node
  once : (walk.located.map (·.1)).Nodup
  /-- The trigger comes first. -/
  first : walk.visits[0]? = some ⟨.trigger start, 0, none, none⟩
  atRoot : walk.path 0 = "template.trigger"
  /-- Every other node hangs off an earlier one, by an edge that leads from that one to it. -/
  later : ∀ number visit, number ≠ 0 → walk.visits[number]? = some visit →
    ∃ parent above edge, visit.parent = some parent ∧ parent < number ∧ visit.edge = some edge ∧
      walk.visits[parent]? = some above ∧ above.item.along edge = some visit.item ∧
      visit.depth = above.depth + 1 ∧ walk.path number = edge.childPath (walk.path parent)
  /-- What hangs off a node is what it goes on to, in the same order. -/
  children : ∀ number visit, walk.visits[number]? = some visit →
    hangingOff number walk.visits.toList = visit.item.children.map listedAlong

theorem Walk.path_attached {walk : Walk} {number parent : Nat} {visit : Visit Node} {edge : Edge}
    (listed : walk.visits[number]? = some visit) (attached : visit.parent = some parent)
    (earlier : parent < number) (along : visit.edge = some edge) :
    walk.path number = edge.childPath (walk.path parent) := by
  obtain ⟨item, depth, parent', edge'⟩ := visit
  cases attached
  cases along
  rw [path, path, Visits.edgesTo_attached listed earlier, stepPath, List.foldl_append]
  rfl

/-- Where a listing says what hangs off each node, it says what each node hangs off. -/
theorem mem_hangingOff {number : Nat} {visits : List (Visit β)} {visit : Visit β}
    (member : visit ∈ visits) (attached : visit.parent = some number) :
    (visit.edge, visit.item) ∈ hangingOff number visits :=
  List.mem_map_of_mem (List.mem_filter.2 ⟨member, beq_iff_eq.2 attached⟩)

theorem Trigger.hangingOff_listing {start : Trigger} {number : Nat} {visit : Visit Node}
    (listed : start.listing.visits[number]? = some visit) :
    hangingOff number start.listing.visits.toList = visit.item.children.map listedAlong := by
  have led := (Node.trigger start).leadsBy_tree
  have root : ∀ above, (none : Option Nat) = some above → above < 0 := fun _ same => by cases same
  have hanging := Tree.hangingOff_listed _ led root (List.getElem?_toArray ▸ listed)
  rwa [Nat.zero_add] at hanging

theorem Trigger.attached_listing {start : Trigger} {number : Nat} {visit : Visit Node}
    (later : number ≠ 0) (listed : start.listing.visits[number]? = some visit) :
    start.listing.visits.Attached number visit := by
  obtain ⟨place, rfl⟩ := Nat.exists_eq_succ_of_ne_zero later
  have attached := Tree.attached_listed (Node.trigger start).tree (holdsFrom_self _)
    (List.getElem?_toArray ▸ listed)
  rwa [Nat.zero_add, Nat.add_comm] at attached

theorem Trigger.listing_first (start : Trigger) :
    start.listing.visits[0]? = some ⟨.trigger start, 0, none, none⟩ := by
  have first := (Node.trigger start).tree.listed_first 0 none none 0
  rw [Node.item_tree] at first
  exact List.getElem?_toArray.trans first

/-- The list of all nodes of a workflow is in order. -/
theorem Trigger.lists_listing (start : Trigger) : start.listing.Lists start where
  inOrder := start.located_listing.trans start.inOrder_eq_preorder.symm
  each path node := by rw [located_listing, Node.mem_preorder]
  once := by
    rw [located_listing]
    exact (Node.trigger start).nodup_preorder
  first := start.listing_first
  atRoot := by
    rw [Walk.path, Visits.edgesTo, start.listing_first]
    rfl
  later number visit later listed := by
    obtain ⟨parent, above, edge, attached, earlier, along, top, deeper⟩ :=
      attached_listing later listed
    have member : visit ∈ start.listing.visits.toList :=
      Array.mem_toList_iff.2 (Array.mem_of_getElem? listed)
    have hanging := mem_hangingOff member attached
    rw [hangingOff_listing top, along] at hanging
    obtain ⟨⟨edge', child⟩, inChildren, same⟩ := List.mem_map.1 hanging
    cases same
    exact ⟨parent, above, _, attached, earlier, along, top, Node.mem_children.1 inChildren, deeper,
      Walk.path_attached listed attached earlier along⟩
  children number visit listed := hangingOff_listing listed

/-- As long as the cap admits the deepest action, the walk succeeds, and it lists the trigger and
everything that follows it in the order of the recursive listing. Otherwise the walk is refused at
the first node of that listing which lies beyond the cap. -/
theorem Trigger.walk_is_preorder (start : Trigger) (options : Options) :
    (start.WithinDepth options.maxDepth.toNat →
      ∃ walk, start.walk options = .ok walk ∧ walk.Lists start) ∧
    (¬ start.WithinDepth options.maxDepth.toNat →
      ∃ path node refusal,
        (start.inOrder.find? fun entry => decide (options.maxDepth.toNat < entry.1.length)) =
            some (path, node) ∧
          start.walk options = .error refusal ∧
          refusal.error =
            ⟨stepPath path, s!"maximum nesting depth of {options.maxDepth} exceeded"⟩) := by
  refine ⟨fun within => ⟨start.listing, Trigger.walk_eq_ok.2 ⟨within, rfl⟩, start.lists_listing⟩,
    fun deeper => ?_⟩
  obtain ⟨path, found⟩ := Option.ne_none_iff_exists'.1 (mt Trigger.withinDepth_iff.2 deeper)
  obtain ⟨⟨path', node⟩, first, rfl⟩ :=
    Option.map_eq_some_iff.1 ((start.find?_inOrder options.maxDepth.toNat).trans found)
  rw [start.walk_eq, found]
  exact ⟨_, node, _, first, rfl, error_tooDeep options.maxDepth _⟩

/-- The forked workflow is walked to its end, and not beyond its first step under a cap of one. -/
theorem Trigger.walk_is_preorder_forked :
    ∃ start, Workflow.forked.template.map Template.trigger = some start ∧
      (∃ walk, start.walk .default = .ok walk ∧ walk.Lists start) ∧
      ∃ path node refusal,
        (start.inOrder.find? fun entry => decide (1 < entry.1.length)) = some (path, node) ∧
          start.walk ⟨1, false⟩ = .error refusal ∧
          refusal.error =
            ⟨stepPath path, s!"maximum nesting depth of {(1 : UInt64)} exceeded"⟩ := by
  refine ⟨_, rfl, (walk_is_preorder _ .default).1 ?_, (walk_is_preorder _ ⟨1, false⟩).2 ?_⟩
  · exact Trigger.withinDepth_of_weight (by decide)
  · exact fun within => absurd (within [.next, .onSuccess] _ rfl) (by decide)

end FlowGate
