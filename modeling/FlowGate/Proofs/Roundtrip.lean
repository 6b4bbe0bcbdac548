/-
This file shows that a workflow is read back from its wire form, whatever its steps are and
however they are nested, as long as the cap admits the deepest of them. The tree of an action is
followed on both sides: an action is written as a step whose continuations are written, and it is
read as that step, over the trees that its continuations are read as.
-/

import FlowGate.Proofs.Depth
import FlowGate.Proofs.Rebuilding
import FlowGate.Proofs.Written

namespace FlowGate

/-! ### Actions -/

/-- The step of an action, with its continuations written. -/
def Action.written (action : Action) : Step Json :=
  action.step.bare.hang (action.step.children.map fun child => (child.1, child.2.toJson))

theorem Action.children_written (action : Action) :
    action.written.children = action.step.children.map fun child => (child.1, child.2.toJson) := by
  refine Step.children_hang ?_
  rw [List.map_map]
  rfl

/-- An action is written as its step. -/
theorem Action.toJson_eq (action : Action) : action.toJson = action.written.toJson := by
  have unfolded : ∀ action : Action, action.toJson = action.tree.fold Step.toJson := by
    intro action
    rw [toJson, assemble_visits, Option.getD_some]
  rw [unfolded, fold_tree_eq, written]
  simp only [unfolded]

theorem Action.isNull_toJson (action : Action) : action.toJson.isNull = false := by
  rw [toJson_eq]
  rfl

theorem nonNull_map_toJson (next : Option Action) : NonNull (next.map Action.toJson) := by
  intro value same
  obtain ⟨action, -, rfl⟩ := Option.map_eq_some_iff.1 same
  exact action.isNull_toJson

theorem Action.continuations_written (action : Action) : action.written.Written := by
  intro edge value found
  have member := Step.mem_children.2 found
  rw [children_written] at member
  obtain ⟨child, -, same⟩ := List.mem_map.1 member
  cases same
  exact child.2.isNull_toJson

namespace Reading

variable {options : Options}

theorem growAll_toJson {depth : Nat} {path : List Edge} {children : List (Edge × Action)}
    (each : ∀ child ∈ children, ∃ tree,
      (opening options).grow depth (path ++ [child.1]) child.2.toJson = .ok tree ∧
        tree.fold Action.mk = child.2) :
    ∃ forest, (opening options).growAll depth path
        (children.map fun child => (child.1, child.2.toJson)) = .ok forest ∧
      forest.fold Action.mk = children := by
  induction children with
  | nil => exact ⟨.nil, Opening.growAll_nil _ _ _, rfl⟩
  | cons child rest inductionHypothesis =>
    obtain ⟨tree, first, same⟩ := each child List.mem_cons_self
    obtain ⟨forest, later, others⟩ :=
      inductionHypothesis fun child member => each child (List.mem_cons_of_mem _ member)
    refine ⟨.cons child.1 tree forest, ?_, ?_⟩
    · rw [List.map_cons, Opening.growAll_cons, first]
      show ((opening options).growAll depth path _).map _ = _
      rw [later]
      rfl
    · rw [Forest.fold, same, others]

/-- A tree grows from a written action that does not lie too deep, and it is built into the
action. -/
theorem grow_toJson (action : Action) :
    ∀ {depth : Nat} {path : List Edge},
      (∀ below target, (Node.action action).follow below = some target →
        depth + below.length ≤ options.maxDepth.toNat) →
      ∃ tree, (opening options).grow depth path action.toJson = .ok tree ∧
        tree.fold Action.mk = action := by
  induction action using Opening.induction_children Action.opened with
  | step action inductionHypothesis =>
    intro depth path within
    have shallow : ¬ options.maxDepth.toNat < depth := Nat.not_lt.2 (within [] _ rfl)
    have opened : (opening options).opened depth (fun () => stepSegments path) action.toJson =
        .ok (action.written, action.written.children) := by
      show (if _ then _ else _) = _
      rw [if_neg shallow, Action.toJson_eq, step_toJson action.continuations_written]
    have each : ∀ child ∈ action.step.children, ∃ tree,
        (opening options).grow (depth + 1) (path ++ [child.1]) child.2.toJson = .ok tree ∧
          tree.fold Action.mk = child.2 := by
      intro child member
      refine inductionHypothesis child member fun below target found => ?_
      have along : (Node.action action).along child.1 = some (.action child.2) :=
        congrArg (Option.map Node.action) (Step.mem_children.1 member)
      have deeper := within (child.1 :: below) target (by rw [Node.follow, along]; exact found)
      rw [List.length_cons] at deeper
      omega
    obtain ⟨forest, grown, same⟩ := growAll_toJson each
    refine ⟨.node action.written forest, ?_, ?_⟩
    · rw [Opening.grow_of_opened _ opened, Action.children_written, grown]
      rfl
    · rw [Tree.fold, same, Action.written, Step.bare_hang, Step.bare_bare, Step.hang_children]
      cases action
      rfl

/-- The actions that follow a trigger are read back. -/
theorem action_toJson {start : Trigger} (within : start.WithinDepth options.maxDepth.toNat) :
    action options (start.next.map Action.toJson) = .ok start.next := by
  cases next : start.next with
  | none => exact action_none options
  | some first =>
    have shallow : ∀ below target, (Node.action first).follow below = some target →
        1 + below.length ≤ options.maxDepth.toNat := by
      intro below target found
      have deeper := within (.next :: below) target
        (by rw [Node.follow, Node.along, next]; exact found)
      rw [List.length_cons] at deeper
      omega
    obtain ⟨tree, grown, same⟩ := grow_toJson first shallow
    rw [Option.map_some, action_some, grown]
    exact congrArg (fun first => Except.ok (some first)) same

end Reading

/-! ### Tags -/

namespace Tags

theorem keep_of_lt {name : String} {kept : List String} (before : ∀ other ∈ kept, name < other) :
    keep name kept = name :: kept := by
  cases kept with
  | nil => rfl
  | cons next rest =>
    rw [keep, if_neg (String.ne_of_lt (before next List.mem_cons_self))]

theorem withoutRepeats_of_ascending {names : List String} (ascending : names.Pairwise (· < ·)) :
    withoutRepeats names = names := by
  induction ascending with
  | nil => rfl
  | @cons first rest before _ inductionHypothesis =>
    show keep first (withoutRepeats rest) = _
    rw [inductionHypothesis, keep_of_lt before]

/-- A set of names is the set of its names. -/
theorem ofList_names (tags : Tags) : ofList tags.names = tags := by
  have sorted : tags.names.mergeSort (fun first second => decide (first ≤ second)) = tags.names :=
    List.mergeSort_of_pairwise
      (tags.ascending.imp fun below => decide_eq_true
        (String.not_lt.1 fun above => String.lt_irrefl _ (String.lt_trans below above)))
  obtain ⟨names, ascending⟩ := tags
  simp only [ofList, sorted, withoutRepeats_of_ascending ascending]

end Tags

/-! ### Documents -/

/-- The entries that a trigger is written as. -/
def Trigger.entries (start : Trigger) : List (String × Json) :=
  start.header.node start.kind.kindName start.kind.settings
    (continuation "nextAction" (start.next.map Action.toJson))

theorem Trigger.present?_next (start : Trigger) :
    Json.present? "nextAction" start.entries = start.next.map Action.toJson := by
  have written := nonNull_map_toJson start.next
  simp [entries, present?_node, Header.names, written]

namespace Reading

variable {options : Options}

theorem triggerKind_of_present {kind : TriggerKind} {fields : List (String × Json)}
    (present : Json.present? "settings" fields = some kind.settings) :
    triggerKind kind.kindName fields = .ok kind := by
  cases kind with
  | empty settings =>
    rw [TriggerKind.kindName, triggerKind, present]
    rfl
  | block found =>
    show (settings BlockTriggerSettings.form fields).map _ = _
    rw [settings_of_present BlockTriggerSettings.form rfl rfl present]
    rfl

/-- A trigger is read back, up to the actions that follow it. -/
theorem triggerNode_toJson (start : Trigger) :
    triggerNode start.toJson = .ok ({ start with next := none }, start.next.map Action.toJson) := by
  have written := nonNull_map_toJson start.next
  have settings : start.kind.settings.isNull = false := by cases start.kind <;> rfl
  have present : Json.present? "settings" start.entries = some start.kind.settings :=
    present?_settings_node settings _ _ _
  have own : onlyOwn start.entries start.kind.kindName ["nextAction"] = .ok () :=
    onlyOwn_of_absent _
      (by simp [Trigger.entries, continuationFields, present?_node, Header.names, written])
  obtain ⟨header, type⟩ := header_node start.header start.kind.kindName start.kind.settings
    (continuation "nextAction" (start.next.map Action.toJson))
  rw [Trigger.toJson, triggerNode]
  refine bind_eq_ok.2 ⟨start.entries, rfl, bind_eq_ok.2 ⟨_, type, bind_eq_ok.2 ⟨_, header, ?_⟩⟩⟩
  refine bind_eq_ok.2 ⟨_, triggerKind_of_present present, bind_eq_ok.2 ⟨(), own, ?_⟩⟩
  exact congrArg (fun first => Except.ok (_, first)) start.present?_next

theorem trigger_toJson {start : Trigger} (within : start.WithinDepth options.maxDepth.toNat) :
    trigger options start.toJson = .ok start := by
  have node : (triggerNode start.toJson).mapError (fun refusal => refusal.under rootPath) =
      .ok ({ start with next := none }, start.next.map Action.toJson) := by
    rw [triggerNode_toJson]
    rfl
  exact bind_eq_ok.2 ⟨_, node, bind_eq_ok.2 ⟨_, action_toJson within, rfl⟩⟩

theorem template_toJson {found : Template}
    (within : found.trigger.WithinDepth options.maxDepth.toNat) :
    template options (some found.toJson) = .ok (some found) := by
  rw [template]
  refine bind_eq_ok.2 ⟨_, rfl, ?_⟩
  have present : Json.present? "trigger" [("displayName", .string found.displayName),
      ("trigger", found.trigger.toJson), ("valid", .bool found.valid)] =
        some found.trigger.toJson := rfl
  rw [present]
  refine bind_eq_ok.2 ⟨some found.displayName, rfl, bind_eq_ok.2 ⟨some found.valid, rfl, ?_⟩⟩
  exact bind_eq_ok.2 ⟨found.trigger, trigger_toJson within, rfl⟩

theorem tags_toJson (found : Tags) :
    tags (some (.array (found.names.map .string))) = .ok found := by
  have names : ∀ first, ((found.names.map Json.string).zipIdx first).mapM tag =
      .ok found.names := by
    induction found.names with
    | nil => intro _; rfl
    | cons name rest inductionHypothesis =>
      intro first
      rw [List.map_cons, List.zipIdx_cons, List.mapM_cons, inductionHypothesis]
      rfl
  show (List.mapM tag _).map Tags.ofList = _
  rw [names]
  exact congrArg Except.ok found.ofList_names

end Reading

/-- The entries that a workflow is written as. -/
def Workflow.entries (workflow : Workflow) : List (String × Json) :=
  [("name", .string workflow.name), ("description", .string workflow.description),
    ("tags", .array (workflow.tags.names.map .string))] ++
    continuation "template" (workflow.template.map Template.toJson)

theorem Workflow.present?_template (workflow : Workflow) :
    Json.present? "template" workflow.entries = workflow.template.map Template.toJson := by
  have written : NonNull (workflow.template.map Template.toJson) := by
    intro value same
    obtain ⟨found, -, rfl⟩ := Option.map_eq_some_iff.1 same
    rfl
  simp [entries, written]

/-- All of a workflow but its template is read back, whatever the cap is. -/
theorem Workflow.ofJson_toJson_eq (workflow : Workflow) (options : Options) :
    ofJson options workflow.toJson =
      (Reading.template options (workflow.template.map Template.toJson)).map fun template =>
        { workflow with template } := by
  have object : Reading.entries [] workflow.toJson = .ok workflow.entries := rfl
  have named : Json.present? "name" workflow.entries = some (.string workflow.name) := rfl
  have described : Reading.optionalText workflow.entries [] "description" =
      .ok (some workflow.description) := rfl
  have listed : Json.present? "tags" workflow.entries =
      some (.array (workflow.tags.names.map .string)) := rfl
  simp only [ofJson, object, bind, Except.bind, Reading.requiredText_of_present named, described,
    listed, Reading.tags_toJson, workflow.present?_template]
  cases Reading.template options (workflow.template.map Template.toJson) <;> rfl

/-- A workflow with a template that is not too deep is read back. -/
theorem Workflow.ofJson_toJson_of_present {workflow : Workflow} {template : Template}
    (present : workflow.template = some template) {options : Options}
    (within : template.trigger.WithinDepth options.maxDepth.toNat) :
    ofJson options workflow.toJson = .ok workflow := by
  rw [ofJson_toJson_eq, present, Option.map_some, Reading.template_toJson within, ← present]
  rfl

/-- A workflow is read back from its wire form, as long as the cap admits its deepest action. -/
theorem Workflow.ofJson_toJson_of_withinDepth (workflow : Workflow) (options : Options)
    (within : ∀ template, workflow.template = some template →
      template.trigger.WithinDepth options.maxDepth.toNat) :
    ofJson options workflow.toJson = .ok workflow := by
  rw [ofJson_toJson_eq]
  obtain ⟨name, description, tags, template⟩ := workflow
  cases template with
  | none => rfl
  | some found =>
    rw [Option.map_some, Reading.template_toJson (within found rfl)]
    rfl

/-- A workflow that goes one of two ways, and on the second one of them one of several. -/
def Workflow.forked : Workflow where
  name := "forked"
  description := ""
  tags := ⟨["nightly", "orders"], by decide⟩
  template := some {
    displayName := "Forked"
    valid := false
    trigger := {
      header := ⟨"start", "Start", true⟩
      kind := .empty [("every", .null)]
      next := some (.mk {
        header := ⟨"check", "Check", true⟩
        task := .branch ⟨[[⟨"EXISTS", "order", none, some true⟩]], none⟩
          (some (.mk ⟨⟨"ship", "Ship", false⟩,
            .block ⟨"mail", "1.0", none, [("copies", .number (.ofUInt64 2))], none⟩, none⟩))
          (some (.mk ⟨⟨"sort", "Sort", true⟩,
            .split ⟨[⟨"late", "Late", []⟩], "late", some ⟨none, some ⟨true⟩⟩⟩
              [⟨"late", some (.mk ⟨⟨"each", "Each", true⟩, .loop ⟨"items", none⟩ none, none⟩)⟩],
            none⟩))
        next := none }) } }

theorem Workflow.ofJson_toJson_forked :
    ofJson .default forked.toJson = .ok forked :=
  ofJson_toJson_of_withinDepth forked .default fun template same => by
    cases same
    exact Trigger.withinDepth_of_weight (by decide)

end FlowGate
