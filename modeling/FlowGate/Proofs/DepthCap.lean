/-
This file shows that reading a document and walking a workflow obey one cap on depth. All of a
document but its actions is read without regard to the cap, so a document that is read under some
cap is read under any other one as its actions are. These are refused exactly where the walk of
the workflow is refused: at the first node in the order of visits that lies just beyond the cap.
-/

import FlowGate.Proofs.Roundtrip
import FlowGate.Rules.Tree

namespace FlowGate

/-! ### The text of a path -/

theorem Edge.isEmpty_childPath (parent : String) (nonempty : parent.isEmpty = false)
    (edge : Edge) : (edge.childPath parent).isEmpty = false := by
  rw [String.isEmpty, beq_eq_false_iff_ne] at nonempty ⊢
  rw [childPath, String.utf8ByteSize_append]
  omega

theorem foldl_segments {parent : String} (nonempty : parent.isEmpty = false) (path : List Edge) :
    (path.flatMap Edge.segments).foldl Segment.extend parent =
      path.foldl Edge.childPath parent := by
  induction path generalizing parent with
  | nil => rfl
  | cons edge rest inductionHypothesis =>
    rw [List.flatMap_cons, List.foldl_append, Edge.foldl_segments nonempty,
      inductionHypothesis (edge.isEmpty_childPath parent nonempty)]
    rfl

/-- The segments of the path of a step are written as its text. -/
theorem render_stepSegments (path : List Edge) :
    (stepSegments path).render = stepPath path := by
  have root : rootPath.foldl Segment.extend "" = "template.trigger" := by decide
  rw [AccessPath.render, stepSegments, List.foldl_append, root]
  exact foldl_segments (by decide) path

/-! ### Actions -/

namespace Reading

theorem opening_capped (options others : Options) :
    (opening options).CappedBy (opening others) options.maxDepth := by
  intro depth place value item children opened
  simp only [opening] at opened ⊢
  split at opened
  · cases opened
  · split at opened <;> cases opened
    rfl

end Reading

theorem Tree.paths_fold {tree : Tree (Step α)} (proper : tree.Proper) :
    (Node.action (tree.fold Action.mk)).paths = tree.paths := by
  have same := congrArg (List.map (·.1)) (tree.preorder_fold proper)
  rw [List.map_map, List.map_map] at same
  exact same

theorem Trigger.paths_eq (start : Trigger) :
    (Node.trigger start).paths = [] :: (start.next.toList.flatMap fun action =>
      (Node.action action).paths.map (.next :: ·)) := by
  rw [Node.paths, Node.preorder_eq, List.map_cons]
  refine congrArg ([] :: ·) ?_
  obtain ⟨header, kind, next⟩ := start
  cases next with
  | none => rfl
  | some action =>
    show List.map (·.1) ((Node.preorder (.action action)).map (beneath .next) ++ []) =
      (Node.action action).paths.map (.next :: ·) ++ []
    rw [List.append_nil, List.append_nil, map_fst_beneath]
    rfl

/-- Actions that are read under some cap are read under any other one as the workflow that they
belong to is walked. -/
theorem Reading.action_of_read {options others : Options} {first : Option Json} {start : Trigger}
    (read : action others first = .ok start.next) :
    action options first = refuseDeep options.maxDepth [] start.next
      (firstAt (options.maxDepth.toNat + 1) (Node.trigger start).paths) := by
  cases first with
  | none =>
    rw [action_none] at read ⊢
    rw [Trigger.paths_eq, ← Except.ok.inj read]
    rfl
  | some value =>
    rw [action_some] at read ⊢
    obtain ⟨tree, grown, next⟩ := map_eq_ok.1 read
    have proper := Opening.grow_proper (opening_steps others) value 1 [.next] tree grown
    rw [Opening.grow_capped (opening_capped options others) value (by omega) grown,
      map_refuseDeep, next, Trigger.paths_eq, ← next, Option.toList_some, List.flatMap_singleton,
      Tree.paths_fold proper, firstAt_succ_nil, firstAt_map_cons, refuseDeep_map_cons]
    rfl

/-! ### Documents -/

theorem Reading.trigger_of_read {options : Options} {value : Json} {start : Trigger}
    (read : trigger options value = .ok start) :
    ∃ first, action options first = .ok start.next ∧ ∀ others,
      trigger others value = (action others first).map fun next => { start with next } := by
  obtain ⟨⟨bare, first⟩, node, read⟩ := bind_eq_ok.1 read
  obtain ⟨next, actions, same⟩ := bind_eq_ok.1 read
  cases same
  refine ⟨first, actions, fun others => ?_⟩
  rw [trigger, node]
  cases elsewhere : action others first <;> simp [bind, Except.bind, elsewhere] <;> rfl

theorem Reading.template_of_read {options : Options} {value : Option Json} {found : Template}
    (read : template options value = .ok (some found)) :
    ∃ first, action options first = .ok found.trigger.next ∧ ∀ others,
      template others value = (action others first).map fun next =>
        some { found with trigger := { found.trigger with next } } := by
  cases value with
  | none => cases read
  | some value =>
    obtain ⟨fields, object, read⟩ := bind_eq_ok.1 read
    cases present : Json.present? "trigger" fields with
    | none => rw [present] at read; cases read
    | some value =>
      rw [present] at read
      obtain ⟨displayName, named, read⟩ := bind_eq_ok.1 read
      obtain ⟨valid, flagged, read⟩ := bind_eq_ok.1 read
      obtain ⟨start, started, same⟩ := bind_eq_ok.1 read
      cases same
      obtain ⟨first, actions, elsewhere⟩ := trigger_of_read started
      refine ⟨first, actions, fun others => ?_⟩
      simp only [template, object, bind, Except.bind, present, named, flagged, elsewhere others]
      cases action others first <;> rfl

/-- All of a document but its actions is read without regard to the cap. -/
theorem Workflow.ofJson_of_read {options : Options} {document : Json} {workflow : Workflow}
    {template : Template} (read : ofJson options document = .ok workflow)
    (present : workflow.template = some template) :
    ∃ first, Reading.action options first = .ok template.trigger.next ∧ ∀ others,
      ofJson others document = (Reading.action others first).map fun next =>
        { workflow with
          template := some { template with trigger := { template.trigger with next } } } := by
  obtain ⟨fields, object, read⟩ := bind_eq_ok.1 read
  obtain ⟨name, named, read⟩ := bind_eq_ok.1 read
  obtain ⟨description, described, read⟩ := bind_eq_ok.1 read
  obtain ⟨tags, tagged, read⟩ := bind_eq_ok.1 read
  obtain ⟨found, templated, same⟩ := bind_eq_ok.1 read
  cases same
  cases present
  obtain ⟨first, actions, elsewhere⟩ := Reading.template_of_read templated
  refine ⟨first, actions, fun others => ?_⟩
  simp only [ofJson, object, bind, Except.bind, named, described, tagged, elsewhere others]
  cases Reading.action others first <;> rfl

/-! ### One cap -/

/-- A document that is read under some cap is read under any other one as its workflow is
walked. -/
theorem Workflow.ofJson_eq (options : Options) {others : Options} {document : Json}
    {workflow : Workflow} {template : Template} (read : ofJson others document = .ok workflow)
    (present : workflow.template = some template) :
    ofJson options document = refuseDeep options.maxDepth [] workflow
      (firstAt (options.maxDepth.toNat + 1) (Node.trigger template.trigger).paths) := by
  obtain ⟨first, actions, elsewhere⟩ := Workflow.ofJson_of_read read present
  rw [elsewhere options, Reading.action_of_read actions, map_refuseDeep, ← present]

/-- A document with a workflow that is deeper than the cap is not read. -/
theorem Workflow.withinDepth_of_read {options : Options} {document : Json} {workflow : Workflow}
    {template : Template} (read : ofJson options document = .ok workflow)
    (present : workflow.template = some template) :
    template.trigger.WithinDepth options.maxDepth.toNat := by
  have capped := Workflow.ofJson_eq options read present
  refine Trigger.withinDepth_iff.2 ?_
  cases deep : firstAt (options.maxDepth.toNat + 1) (Node.trigger template.trigger).paths with
  | none => rfl
  | some path =>
    rw [deep, read] at capped
    cases capped

/-- A workflow that was read under some settings can be judged under them. -/
theorem Workflow.violations_of_read {options : Options} {document : Json} {workflow : Workflow}
    (read : ofJson options document = .ok workflow) :
    ∃ violations, workflow.violations options = .ok violations := by
  rw [violations]
  cases present : workflow.template with
  | none => exact ⟨_, rfl⟩
  | some template =>
    have shallow := Trigger.withinDepth_iff.1 (Workflow.withinDepth_of_read read present)
    have walked := template.trigger.walk_eq options
    rw [shallow] at walked
    exact ⟨_, congrArg (Except.map _) walked⟩

/-- The error that refuses a node below the trigger that lies too deep. -/
theorem error_tooDeep (cap : UInt64) (path : List Edge) :
    Refusal.error ⟨stepSegments ([] ++ path), .tooDeep cap⟩ =
      ⟨stepPath path, s!"maximum nesting depth of {cap} exceeded"⟩ := by
  rw [Refusal.error, List.nil_append, render_stepSegments]
  rfl

/-- A document that is read under some cap is read under any other one just if the workflow is not
deeper, and then the workflow can be walked under it. Otherwise reading and walking are refused
alike, at the first node in the order of visits that lies just beyond the cap. So a workflow that
was read under some settings can be judged under them. -/
theorem Workflow.ofJson_and_walk_share_cap (document : Json) (options others : Options) :
    (∀ workflow template, ofJson others document = .ok workflow →
      workflow.template = some template →
      (template.trigger.WithinDepth options.maxDepth.toNat →
        ofJson options document = .ok workflow ∧
          ∃ walk, template.trigger.walk options = .ok walk) ∧
      (¬ template.trigger.WithinDepth options.maxDepth.toNat →
        ∃ path refusal,
          firstAt (options.maxDepth.toNat + 1) (Node.trigger template.trigger).paths =
              some path ∧
            ofJson options document = .error refusal ∧
            template.trigger.walk options = .error refusal ∧
            refusal.error =
              ⟨stepPath path, s!"maximum nesting depth of {options.maxDepth} exceeded"⟩)) ∧
    ∀ workflow, ofJson options document = .ok workflow →
      ∃ violations, workflow.violations options = .ok violations := by
  refine ⟨fun workflow template read present => ⟨fun within => ?_, fun deeper => ?_⟩,
    fun workflow read => Workflow.violations_of_read read⟩
  · have shallow := Trigger.withinDepth_iff.1 within
    rw [Workflow.ofJson_eq options read present, template.trigger.walk_eq, shallow]
    exact ⟨rfl, template.trigger.listing, rfl⟩
  · have deep : firstAt (options.maxDepth.toNat + 1) (Node.trigger template.trigger).paths ≠ none :=
      fun none => deeper (Trigger.withinDepth_iff.2 none)
    obtain ⟨path, found⟩ := Option.ne_none_iff_exists'.1 deep
    rw [Workflow.ofJson_eq options read present, template.trigger.walk_eq, found]
    exact ⟨path, _, rfl, rfl, rfl, error_tooDeep options.maxDepth path⟩

/-- The two ways of the workflow lie just beyond a cap of one, and the first one is refused. -/
theorem Workflow.forked_refused_at_one :
    ∃ path refusal,
      firstAt 2 (Node.trigger (forked.template.get rfl).trigger).paths = some path ∧
        ofJson ⟨1, false⟩ forked.toJson = .error refusal ∧
        (forked.template.get rfl).trigger.walk ⟨1, false⟩ = .error refusal ∧
        refusal.error = ⟨stepPath path, s!"maximum nesting depth of {(1 : UInt64)} exceeded"⟩ := by
  have read : ofJson .default forked.toJson = .ok forked := by
    rw [ofJson_toJson_eq]
    refine congrArg (Except.map _) (Reading.template_toJson ?_)
    exact Trigger.withinDepth_of_weight (by decide)
  have deeper : ¬ (forked.template.get rfl).trigger.WithinDepth 1 := fun within =>
    absurd (within [.next, .onSuccess] _ rfl) (by decide)
  exact ((ofJson_and_walk_share_cap forked.toJson ⟨1, false⟩ .default).1 forked _ read rfl).2 deeper

end FlowGate
