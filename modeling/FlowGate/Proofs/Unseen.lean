/-
This file shows that no rule sees the marks of validity, and that marking sees none either. What is
found in a node depends on its name and on what it does, and where it is reported depends on the
nodes that it hangs off; so two listings that differ in their marks alone have the same violations,
in the same order. Marks that are set anew replace those that were there.
-/

import FlowGate.Proofs.Alignment

namespace FlowGate

/-! ### Lists with positions -/

section Positions

variable {related : α → β → Prop} {items : List α} {others : List β}

theorem flatMap_zipIdx_congr (alike : List.Forall₂ related items others)
    {found : α × Nat → List γ} {found' : β × Nat → List γ}
    (each : ∀ item other position, related item other →
      found (item, position) = found' (other, position)) (first : Nat) :
    (items.zipIdx first).flatMap found = (others.zipIdx first).flatMap found' := by
  induction alike generalizing first with
  | nil => rfl
  | cons here later inductionHypothesis =>
    rw [List.zipIdx_cons, List.zipIdx_cons, List.flatMap_cons, List.flatMap_cons,
      each _ _ first here, inductionHypothesis]

theorem filterMap_zipIdx_congr (alike : List.Forall₂ related items others)
    {found : α × Nat → Option γ} {found' : β × Nat → Option γ}
    (each : ∀ item other position, related item other →
      found (item, position) = found' (other, position)) (first : Nat) :
    (items.zipIdx first).filterMap found = (others.zipIdx first).filterMap found' := by
  induction alike generalizing first with
  | nil => rfl
  | cons here later inductionHypothesis =>
    rw [List.zipIdx_cons, List.zipIdx_cons, List.filterMap_cons, List.filterMap_cons,
      each _ _ first here, inductionHypothesis]

end Positions

/-! ### Nodes that differ in their marks -/

/-- Two nodes show the same without what follows them, but perhaps for their marks. -/
def Node.Alike (node other : Node) : Prop :=
  withMark false node.own = withMark false other.own

/-- The findings in one node. -/
def Node.findings (options : Options) (node : Node) : List Finding :=
  match node.step? with
  | none => []
  | some step => step.findings options

theorem Step.findings_bare (options : Options) (step : Step α) :
    (step.bare : Step Empty).findings options = step.findings options := by
  obtain ⟨header, task, next⟩ := step
  cases task with
  | split settings branches =>
    simp only [Step.bare, Task.bare, findings, List.map_map]
    rfl
  | _ => rfl

namespace Node.Alike

variable {node other : Node}

theorem name (alike : node.Alike other) : node.name = other.name :=
  congrArg (fun own => own.1.name) alike

theorem bare (alike : node.Alike other) :
    (node.step?.map fun step => (step.task.bare : Task Empty)) =
      other.step?.map fun step => step.task.bare :=
  congrArg Prod.snd alike

theorem findings (alike : node.Alike other) (options : Options) :
    node.findings options = other.findings options := by
  have told : ∀ node : Node, node.findings options =
      match node.step?.map fun step => (step.task.bare : Task Empty) with
      | none => []
      | some task => (Step.mk node.header task none).findings options := by
    intro node
    rw [Node.findings]
    cases node.step? with
    | none => rfl
    | some step => exact (step.findings_bare options).symm
  rw [told, told, alike.bare]
  rfl

theorem defaultFinding? (alike : node.Alike other) :
    node.defaultFinding? = other.defaultFinding? := by
  have told : ∀ node : Node, node.defaultFinding? =
      (node.step?.map fun step => (step.task.bare : Task Empty)).bind Task.defaultFinding? := by
    intro node
    rw [Node.defaultFinding?]
    cases node.step? with
    | none => rfl
    | some step =>
      cases task : step.task <;> simp [task, Task.bare, Task.defaultFinding?]
  rw [told, told, alike.bare]

end Node.Alike

/-! ### Walks that differ in their marks -/

theorem Walk.stepViolations_eq (walk : Walk) (options : Options) :
    walk.stepViolations options = walk.numbered.flatMap fun (node, number) =>
      walk.locateAll number (node.findings options) := by
  refine congrArg (walk.numbered.flatMap ·) (funext fun (node, number) => ?_)
  dsimp only
  rw [Node.findings]
  cases node.step? <;> rfl

/-- A node of a walk without a mark and without what follows it. -/
def Visit.unmarked (visit : Visit Node) : Visit (Header × Option (Task Empty)) :=
  { visit with item := withMark false visit.item.own }

/-- Two walks list the same, but perhaps for the marks. -/
def Walk.Alike (walk other : Walk) : Prop :=
  walk.visits.toList.map Visit.unmarked = other.visits.toList.map Visit.unmarked

namespace Walk.Alike

variable {walk other : Walk}

/-- By induction on the number, since a node hangs off an earlier one. -/
theorem edgesTo (alike : walk.Alike other) (number : Nat) (below : List Edge) :
    walk.visits.edgesTo number below = other.visits.edgesTo number below := by
  induction number using Nat.strongRecOn generalizing below with
  | ind number inductionHypothesis =>
    have here := congrArg (·[number]?) alike
    simp only [List.getElem?_map, Array.getElem?_toList] at here
    rw [Visits.edgesTo, Visits.edgesTo]
    cases first : walk.visits[number]? with
    | none =>
      rw [first] at here
      rw [Option.map_eq_none_iff.1 here.symm]
    | some visit =>
      rw [first] at here
      obtain ⟨visit', second, same⟩ := Option.map_eq_some_iff.1 here.symm
      obtain ⟨-, -, parent, edge⟩ := Visit.mk.inj same
      rw [second]
      dsimp only
      rw [parent, edge]
      cases visit.parent with
      | none => rfl
      | some parent =>
        by_cases earlier : parent < number
        · simp only [if_pos earlier]
          exact inductionHypothesis parent earlier _
        · simp only [if_neg earlier]

theorem path (alike : walk.Alike other) : walk.path = other.path :=
  funext fun number => congrArg stepPath (alike.edgesTo number [])

theorem locate (alike : walk.Alike other) : walk.locate = other.locate := by
  funext number finding
  rw [Walk.locate, Walk.locate, alike.path]

theorem locateAll (alike : walk.Alike other) : walk.locateAll = other.locateAll := by
  funext number findings
  cases findings with
  | nil => rfl
  | cons finding rest => rw [Walk.locateAll, Walk.locateAll, alike.locate]

theorem nodes (alike : walk.Alike other) : List.Forall₂ Node.Alike walk.nodes other.nodes := by
  have items := congrArg (List.map Visit.item) alike
  rw [List.map_map, List.map_map] at items
  rw [Walk.nodes, Walk.nodes, List.forall₂_map_left_iff, List.forall₂_map_right_iff]
  have related := List.forall₂_eq_eq_eq ▸ items
  rwa [List.forall₂_map_left_iff, List.forall₂_map_right_iff] at related

theorem names (alike : walk.Alike other) : walk.names = other.names := by
  have names := congrArg (List.map fun visit => visit.item.1.name) alike
  rw [List.map_map, List.map_map] at names
  exact names

theorem stepViolations (alike : walk.Alike other) (options : Options) :
    walk.stepViolations options = other.stepViolations options := by
  rw [stepViolations_eq, stepViolations_eq]
  refine flatMap_zipIdx_congr alike.nodes (fun node node' number same => ?_) 0
  show walk.locateAll number (node.findings options) = _
  rw [same.findings options, alike.locateAll]

theorem treeViolations (alike : walk.Alike other) :
    walk.treeViolations = other.treeViolations := by
  rw [Walk.treeViolations, Walk.treeViolations, alike.names]
  refine congr (congrArg _ (filterMap_zipIdx_congr alike.nodes ?_ 0))
    (filterMap_zipIdx_congr alike.nodes ?_ 0)
  · intro node node' number same
    rw [Walk.repeatedName?, Walk.repeatedName?, alike.locate, alike.path, same.name]
  · intro node node' number same
    show node.defaultFinding?.map (walk.locate number) = _
    rw [same.defaultFinding?, alike.locate]

/-- Walks that differ in their marks alone have the same violations, in the same order. -/
theorem violations (alike : walk.Alike other) (options : Options) :
    walk.violations options = other.violations options := by
  rw [Walk.violations, Walk.violations, alike.stepViolations, alike.treeViolations]

end Walk.Alike

/-! ### Violations of a marked workflow -/

/-- The walk of a marked workflow lists the same, but for the marks. -/
theorem Trigger.alike_marked (start : Trigger) (valid : Nat → Bool) :
    (start.marked valid).listing.Alike start.listing := by
  refine List.ext_getElem? fun number => ?_
  have same := congrArg (·[number]?) (start.visits_marked valid)
  simp only [List.getElem?_mapIdx] at same
  have bare := congrArg
    (Option.map fun visit => { visit with item := withMark false visit.item }) same
  rw [Option.map_map, Option.map_map] at bare
  rw [List.getElem?_map, List.getElem?_map]
  exact bare

theorem Tree.paths_renew (tree : Tree β) (change : Nat → β → γ) (number : Nat) :
    (tree.renew change number).paths = tree.paths := by
  have same := @Tree.preorder_renew _ _ _ tree change (fun _ => ()) (fun _ => ()) (fun _ _ => rfl)
    number
  have paths := congrArg (List.map (·.1)) same
  rwa [List.map_map, List.map_map] at paths

theorem Trigger.paths_marked (start : Trigger) (valid : Nat → Bool) :
    (Node.trigger (start.marked valid)).paths = (Node.trigger start).paths := by
  have same := congrArg Tree.paths (start.tree_marked valid)
  rwa [Tree.paths_renew, Tree.paths_renew] at same

/-- The marks of a workflow do not matter for its violations. -/
theorem Workflow.violations_marked (workflow : Workflow) (violations : List Violation)
    (options : Options) :
    (workflow.marked violations).violations options = workflow.violations options := by
  rw [Workflow.violations, Workflow.violations, marked]
  cases workflow.template with
  | none => rfl
  | some template =>
    simp only [Option.map_some, Trigger.walk_eq, Trigger.paths_marked, map_refuseDeep,
      (template.trigger.alike_marked _).violations]

/-! ### Marks that are set anew -/

/-- Marks are set on steps without what follows them. -/
theorem Tree.fold_marked (tree : Tree (Step α)) (valid : Nat → Bool) :
    (tree.renew (fun number step => step.marked (valid (number + 1))) 0).fold Action.mk =
      ((tree.renew (fun _ => Step.bare (β := Empty)) 0).renew
        (fun number step => step.marked (valid (number + 1))) 0).fold Action.mk := by
  rw [← Tree.fold_bare, Tree.renew_renew, Tree.renew_renew]
  rfl

theorem Action.marked_marked (action : Action) (first second : Nat → Bool) :
    (action.marked first).marked second = action.marked second := by
  rw [marked_eq (action.marked first), marked_eq action first, marked_eq action second, markedTree,
    Tree.fold_marked, Tree.tree_fold _ (action.markedTree_proper first), markedTree, markedTree,
    Tree.fold_marked action.tree, Tree.renew_renew, Tree.renew_renew, Tree.renew_renew]
  rfl

theorem Trigger.marked_marked (start : Trigger) (first second : Nat → Bool) :
    (start.marked first).marked second = start.marked second := by
  obtain ⟨header, kind, next⟩ := start
  cases next with
  | none => rfl
  | some action =>
    show Trigger.mk _ kind (some ((action.marked first).marked second)) = _
    rw [Action.marked_marked]
    rfl

/-- Marks that are set anew replace those that were there. -/
theorem Workflow.marked_marked (workflow : Workflow) (first second : List Violation) :
    (workflow.marked first).marked second = workflow.marked second := by
  obtain ⟨name, description, tags, template⟩ := workflow
  cases template with
  | none => rfl
  | some template =>
    simp only [marked, Option.map_some, Trigger.marked_marked]

end FlowGate
