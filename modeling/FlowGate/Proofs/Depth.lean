/-
This file is about the cap on depth. Values that open under a cap grow into the same tree as they
would without it, as long as the tree is not too deep; otherwise the opening is refused at the
first node in the order of visits that lies one edge beyond the cap. A node still deeper is never
met, because the node above it that lies just beyond the cap comes before it. The walk of a
workflow is such an opening.
-/

import FlowGate.Proofs.Reach

namespace FlowGate

/-! ### Paths in the order of visits -/

/-- The paths to the nodes of a tree, in the order of visits. -/
def Tree.paths (tree : Tree β) : List (List Edge) :=
  tree.preorder.map (·.1)

/-- The paths to the nodes of a forest, in the order of visits. -/
def Forest.paths (forest : Forest β) : List (List Edge) :=
  forest.preorder.map (·.1)

/-- The paths to a node and to everything that follows it, in the order of visits. -/
def Node.paths (node : Node) : List (List Edge) :=
  node.preorder.map (·.1)

theorem map_fst_beneath (edge : Edge) (entries : List (List Edge × β)) :
    (entries.map (beneath edge)).map (·.1) = (entries.map (·.1)).map (edge :: ·) := by
  rw [List.map_map, List.map_map]
  rfl

theorem Tree.paths_node (item : β) (children : Forest β) :
    (Tree.node item children).paths = [] :: children.paths := rfl

theorem Forest.paths_cons (edge : Edge) (tree : Tree β) (rest : Forest β) :
    (Forest.cons edge tree rest).paths = tree.paths.map (edge :: ·) ++ rest.paths := by
  rw [Forest.paths, Forest.preorder, List.map_append, map_fst_beneath]
  rfl

theorem Node.mem_paths {node : Node} {path : List Edge} :
    path ∈ node.paths ↔ ∃ target, node.follow path = some target := by
  rw [paths, List.mem_map]
  constructor
  · rintro ⟨⟨path, target⟩, member, rfl⟩
    exact ⟨target, mem_preorder.1 member⟩
  · rintro ⟨target, found⟩
    exact ⟨(path, target), mem_preorder.2 found, rfl⟩

/-- The first path of that length. -/
def firstAt (length : Nat) (paths : List (List Edge)) : Option (List Edge) :=
  paths.find? fun path => path.length == length

theorem firstAt_zero (paths : List (List Edge)) : firstAt 0 ([] :: paths) = some [] := rfl

theorem firstAt_succ_nil (length : Nat) (paths : List (List Edge)) :
    firstAt (length + 1) ([] :: paths) = firstAt (length + 1) paths := rfl

theorem firstAt_append (length : Nat) (first second : List (List Edge)) :
    firstAt length (first ++ second) = (firstAt length first).or (firstAt length second) :=
  List.find?_append

theorem firstAt_map_cons (length : Nat) (edge : Edge) (paths : List (List Edge)) :
    firstAt (length + 1) (paths.map (edge :: ·)) = (firstAt length paths).map (edge :: ·) := by
  rw [firstAt, firstAt, List.find?_map]
  refine congrArg (Option.map _) (congrArg (List.find? · paths) (funext fun path => ?_))
  simp

/-! ### Depth of workflows -/

/-- No node of the workflow lies deeper below the trigger than `depth`. -/
def Trigger.WithinDepth (start : Trigger) (depth : Nat) : Prop :=
  ∀ path target, (Node.trigger start).follow path = some target → path.length ≤ depth

theorem Node.follow_append (node : Node) (first second : List Edge) :
    node.follow (first ++ second) = (node.follow first).bind fun child => child.follow second := by
  induction first generalizing node with
  | nil => rfl
  | cons edge rest inductionHypothesis =>
    rw [List.cons_append, follow, follow]
    cases node.along edge with
    | none => rfl
    | some child => exact inductionHypothesis child

/-- A workflow is within a depth unless it has a node just beyond. -/
theorem Trigger.withinDepth_iff {start : Trigger} {depth : Nat} :
    start.WithinDepth depth ↔ firstAt (depth + 1) (Node.trigger start).paths = none := by
  rw [firstAt, List.find?_eq_none]
  constructor
  · intro within path member long
    obtain ⟨target, found⟩ := Node.mem_paths.1 member
    have := within path target found
    have := eq_of_beq long
    omega
  · intro none path target found
    refine Nat.le_of_not_lt fun long => ?_
    rw [← List.take_append_drop (depth + 1) path, Node.follow_append] at found
    obtain ⟨above, here, -⟩ := Option.bind_eq_some_iff.1 found
    refine none _ (Node.mem_paths.2 ⟨above, here⟩) (beq_iff_eq.2 ?_)
    rw [List.length_take]
    omega

/-- A workflow is not deeper than it has actions. -/
theorem Trigger.withinDepth_of_weight {start : Trigger} {depth : Nat}
    (few : Action.weightOfNext start.next ≤ depth) : start.WithinDepth depth := by
  intro path target found
  have shorter := Node.length_lt_weight found
  rw [Node.weight] at shorter
  omega

/-! ### Opening under a cap -/

/-- A value, or the refusal of the node at a path below `path` that lies too deep. -/
def refuseDeep (cap : UInt64) (path : List Edge) (value : β) :
    Option (List Edge) → Except Refusal β
  | none => .ok value
  | some below => .error ⟨stepSegments (path ++ below), .tooDeep cap⟩

theorem map_refuseDeep (cap : UInt64) (path : List Edge) (value : β) (change : β → γ)
    (deep : Option (List Edge)) :
    (refuseDeep cap path value deep).map change = refuseDeep cap path (change value) deep := by
  cases deep <;> rfl

theorem refuseDeep_map_cons (cap : UInt64) (path : List Edge) (edge : Edge) (value : β)
    (deep : Option (List Edge)) :
    refuseDeep cap path value (deep.map (edge :: ·)) =
      refuseDeep cap (path ++ [edge]) value deep := by
  cases deep with
  | none => rfl
  | some below =>
    rw [Option.map_some, refuseDeep, refuseDeep, List.append_assoc]
    rfl

section Capped

variable {base : Opening ε α β} {capped : Opening Refusal α β} {cap : UInt64}

/-- Where a value opens without the cap, it opens under the cap unless it lies deeper. -/
def Opening.CappedBy (capped : Opening Refusal α β) (base : Opening ε α β) (cap : UInt64) : Prop :=
  ∀ {depth place value item children}, base.opened depth place value = .ok (item, children) →
    capped.opened depth place value =
      if cap.toNat < depth then .error ⟨place (), .tooDeep cap⟩ else .ok (item, children)

theorem Opening.growAll_capped (limit : Nat) {depth : Nat} {path : List Edge}
    {values : List (Edge × α)} {forest : Forest β}
    (grown : base.growAll depth path values = .ok forest)
    (each : ∀ value ∈ values, ∀ path tree, base.grow depth path value.2 = .ok tree →
      capped.grow depth path value.2 = refuseDeep cap path tree (firstAt limit tree.paths)) :
    capped.growAll depth path values =
      refuseDeep cap path forest (firstAt (limit + 1) forest.paths) := by
  induction values generalizing forest with
  | nil =>
    rw [growAll_nil] at grown ⊢
    cases grown
    rfl
  | cons value rest inductionHypothesis =>
    obtain ⟨tree, others, first, later, rfl⟩ := Opening.growAll_cons_eq_ok grown
    rw [growAll_cons, each value List.mem_cons_self _ tree first, inductionHypothesis later
      fun value member => each value (List.mem_cons_of_mem _ member), Forest.paths_cons,
      firstAt_append, firstAt_map_cons, ← refuseDeep_map_cons]
    cases firstAt limit tree.paths with
    | none => exact map_refuseDeep cap path others _ _
    | some below => rfl

/-- What grows under a cap where a tree grows without it: the same tree, unless a node of it lies
just beyond the cap. -/
theorem Opening.grow_capped (agree : capped.CappedBy base cap) (value : α) :
    ∀ {depth : Nat} {path : List Edge} {tree : Tree β}, depth ≤ cap.toNat + 1 →
      base.grow depth path value = .ok tree →
      capped.grow depth path value =
        refuseDeep cap path tree (firstAt (cap.toNat + 1 - depth) tree.paths) := by
  generalize weighs : base.weight value = weight
  induction weight using Nat.strongRecOn generalizing value with
  | ind weight inductionHypothesis =>
    intro depth path tree shallow grown
    subst weighs
    obtain ⟨item, children, forest, opened, below, rfl⟩ := Opening.grow_eq_ok grown
    have outcome := agree opened
    by_cases deep : cap.toNat < depth
    · have beyond : cap.toNat + 1 - depth = 0 := by omega
      rw [if_pos deep] at outcome
      rw [capped.grow_of_failed outcome, beyond, Tree.paths_node, firstAt_zero, refuseDeep,
        List.append_nil]
    · rw [if_neg deep] at outcome
      have left : cap.toNat + 1 - depth = cap.toNat - depth + 1 := by omega
      have children := Opening.growAll_capped (cap.toNat - depth) below
        fun child member path tree grown => by
          have found := inductionHypothesis _ (base.weight_lt_of_mem opened member) child.2
            rfl (by omega) grown
          rwa [Nat.add_sub_add_right] at found
      rw [capped.grow_of_opened outcome, children, left, Tree.paths_node, firstAt_succ_nil,
        map_refuseDeep]

end Capped

/-! ### The walk of a workflow -/

theorem Node.opening_capped (options : Options) :
    (Node.opening options).CappedBy Node.unfolding options.maxDepth := by
  intro depth place node item children opened
  cases opened
  rfl

/-- The listing of a workflow that is not cut off. -/
def Trigger.listing (start : Trigger) : Walk :=
  ⟨((Node.trigger start).tree.listed 0 none none 0).toArray⟩

/-- The walk lists everything that follows the trigger, unless a node lies just beyond the cap. -/
theorem Trigger.walk_eq (start : Trigger) (options : Options) :
    start.walk options = refuseDeep options.maxDepth [] start.listing
      (firstAt (options.maxDepth.toNat + 1) (Node.trigger start).paths) := by
  have grown := Opening.grow_eq_tree Node.unfolding_opened 0 [] (.trigger start)
  rw [walk, Opening.explore_single, Option.toList_none,
    Opening.grow_capped (Node.opening_capped options) (.trigger start) (Nat.zero_le _) grown,
    map_refuseDeep, map_refuseDeep]
  rfl

/-- A workflow is walked just if no node lies deeper than the cap, and all of it is listed then. -/
theorem Trigger.walk_eq_ok {start : Trigger} {options : Options} {walk : Walk} :
    start.walk options = .ok walk ↔
      start.WithinDepth options.maxDepth.toNat ∧ walk = start.listing := by
  rw [walk_eq, withinDepth_iff]
  cases firstAt (options.maxDepth.toNat + 1) (Node.trigger start).paths with
  | none => simp [refuseDeep, eq_comm]
  | some path => simp [refuseDeep]

end FlowGate
