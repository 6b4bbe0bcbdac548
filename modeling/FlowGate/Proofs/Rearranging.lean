/-
This file shows that a workflow is read from its wire form in whatever order the entries of objects
stand there. All that is read of a node is what stands under certain names, and its keys differ, so
each name leads to the same value, rearranged in its turn; only the free-form maps have to be left
as they are, because they become part of the workflow. A node that is read from rearranged entries
therefore differs only in the values of its continuations, and these are gone from the tree that is
built.
-/

import FlowGate.Proofs.Carrying
import FlowGate.Proofs.Roundtrip

namespace FlowGate

/-! ### Free-form maps -/

/-- The free-form map in what starts a workflow. -/
def TriggerKind.freeForm : TriggerKind → FreeForm
  | .empty settings => settings
  | .block settings => settings.input

/-- The free-form map in the settings of a step, if steps of its kind have one. -/
def Task.freeForm? : Task α → Option FreeForm
  | .code settings => some settings.input
  | .block settings => some settings.input
  | .branch .. | .split .. | .loop .. => none

/-- The free-form map of a node, if nodes of its kind have one. -/
def Node.freeForm? : Node → Option FreeForm
  | .trigger start => some start.kind.freeForm
  | .action found => found.step.task.freeForm?

/-- Something holds of the free-form maps of a node and of all nodes that follow it. -/
def Node.EachMap (Holds : FreeForm → Prop) (node : Node) : Prop :=
  ∀ path target map, node.follow path = some target → target.freeForm? = some map → Holds map

/-- Something holds of all free-form maps of a workflow. -/
def Workflow.EachMap (Holds : FreeForm → Prop) (workflow : Workflow) : Prop :=
  ∀ template, workflow.template = some template →
    (Node.trigger template.trigger).EachMap Holds

theorem Node.EachMap.along {Holds : FreeForm → Prop} {node child : Node} {edge : Edge}
    (each : node.EachMap Holds) (found : node.along edge = some child) : child.EachMap Holds := by
  intro path target map reached
  refine each (edge :: path) target map ?_
  rw [follow, found]
  exact reached

theorem Node.EachMap.next {Holds : FreeForm → Prop} {start : Trigger} {first : Action}
    (each : (Node.trigger start).EachMap Holds) (found : start.next = some first) :
    (Node.action first).EachMap Holds :=
  @Node.EachMap.along _ _ _ .next each (congrArg (Option.map Node.action) found)

theorem Node.EachMap.child {Holds : FreeForm → Prop} {action : Action} {child : Edge × Action}
    (each : (Node.action action).EachMap Holds) (member : child ∈ action.step.children) :
    (Node.action child.2).EachMap Holds :=
  @Node.EachMap.along _ _ _ child.1 each
    (congrArg (Option.map Node.action) (Step.mem_children.1 member))

theorem Node.EachMap.mono {Holds Holds' : FreeForm → Prop} {node : Node}
    (each : node.EachMap Holds) (implies : ∀ map, Holds map → Holds' map) :
    node.EachMap Holds' :=
  fun path target map reached found => implies map (each path target map reached found)

theorem Node.EachMap.of_children {Holds : FreeForm → Prop} {node : Node}
    (own : ∀ map, node.freeForm? = some map → Holds map)
    (below : ∀ child ∈ node.children, child.2.EachMap Holds) : node.EachMap Holds := by
  intro path target map found holds
  cases path with
  | nil =>
    cases found
    exact own map holds
  | cons edge rest =>
    obtain ⟨child, here, later⟩ := Option.bind_eq_some_iff.1 found
    exact below (edge, child) (Node.mem_children.2 here) rest target map later holds

theorem Task.freeForm?_bare (task : Task α) : (task.bare : Task β).freeForm? = task.freeForm? := by
  cases task <;> rfl

theorem Action.freeForm?_written (action : Action) :
    action.written.task.freeForm? = action.step.task.freeForm? := by
  have same : (action.written.bare : Step Empty) = action.step.bare :=
    (Step.bare_hang _ _).trans action.step.bare_bare
  rw [← Task.freeForm?_bare (β := Empty), ← Task.freeForm?_bare (β := Empty) action.step.task]
  exact congrArg (fun bare : Step Empty => bare.task.freeForm?) same

/-! ### Maps of settings -/

mutual

/-- Whether no value of a shape holds a free-form map. -/
def Shape.plain : Shape → Bool
  | .flag | .count | .text | .tag _ => true
  | .map => false
  | .list item => item.plain
  | .record _ fields => fields.plain

/-- Whether no field holds a free-form map. -/
def Fields.plain : Fields → Bool
  | .nil => true
  | .field _ _ shape rest => shape.plain && rest.plain

end

mutual

theorem Shape.maps_of_plain (shape : Shape) (plain : shape.plain = true)
    (value : shape.Carrier) : shape.maps value = [] := by
  cases shape with
  | map => cases plain
  | list item =>
    exact List.flatMap_eq_nil_iff.2 fun each _ => item.maps_of_plain plain each
  | record name fields => exact fields.maps_of_plain plain value
  | _ => rfl

theorem Fields.maps_of_plain (fields : Fields) (plain : fields.plain = true)
    (held : fields.Carrier) : fields.maps held = [] := by
  cases fields with
  | nil => rfl
  | field name presence shape rest =>
    obtain ⟨held, others⟩ := held
    obtain ⟨here, later⟩ := Bool.and_eq_true_iff.1 plain
    rw [Fields.maps, rest.maps_of_plain later, List.append_nil]
    exact List.flatMap_eq_nil_iff.2 fun each _ => shape.maps_of_plain here each

end

theorem CodeSettings.maps_form (settings : CodeSettings) :
    form.shape.maps (form.toCarrier settings) = [settings.input] := by
  have handling := Fields.maps_of_plain ErrorHandling.field rfl
    (settings.errorHandling.map ErrorHandling.form.toCarrier, ())
  show [] ++ ([settings.input] ++ Fields.maps ErrorHandling.field _) = _
  rw [handling]
  rfl

theorem BlockSettings.maps_form (settings : BlockSettings) :
    form.shape.maps (form.toCarrier settings) = [settings.input] := by
  have handling := Fields.maps_of_plain ErrorHandling.field rfl
    (settings.errorHandling.map ErrorHandling.form.toCarrier, ())
  obtain ⟨name, version, action, input, errorHandling⟩ := settings
  cases action <;>
  · show [] ++ ([input] ++ Fields.maps ErrorHandling.field _) = _
    rw [handling]
    rfl

theorem BlockTriggerSettings.maps_form (settings : BlockTriggerSettings) :
    form.shape.maps (form.toCarrier settings) = [settings.input] := by
  obtain ⟨name, version, trigger, input⟩ := settings
  cases trigger <;> rfl

/-- The settings of a step are written in the shape for steps of its kind, and their only map is
the free-form map of the step. -/
theorem Task.exists_written (task : Task α) :
    ∃ (shape : Shape) (value : shape.Carrier),
      Json.actionShape? task.kindName = some shape ∧ shape.clear = true ∧
        task.settings = shape.toJson value ∧
          ∀ map ∈ shape.maps value, task.freeForm? = some map := by
  have none : ∀ {shape : Shape} {value : shape.Carrier}, shape.plain = true →
      ∀ map ∈ shape.maps value, task.freeForm? = some map := by
    intro shape value plain map member
    rw [shape.maps_of_plain plain] at member
    cases member
  cases task with
  | code settings =>
    refine ⟨CodeSettings.form.shape, CodeSettings.form.toCarrier settings, rfl, rfl, rfl, ?_⟩
    rw [settings.maps_form]
    exact fun map member => congrArg some (List.mem_singleton.1 member).symm
  | block settings =>
    refine ⟨BlockSettings.form.shape, BlockSettings.form.toCarrier settings, rfl, rfl, rfl, ?_⟩
    rw [settings.maps_form]
    exact fun map member => congrArg some (List.mem_singleton.1 member).symm
  | branch settings onSuccess onFailure =>
    exact ⟨BranchSettings.form.shape, BranchSettings.form.toCarrier settings, rfl, rfl, rfl,
      none rfl⟩
  | split settings branches =>
    exact ⟨SplitSettings.form.shape, SplitSettings.form.toCarrier settings, rfl, rfl, rfl,
      none rfl⟩
  | loop settings body =>
    exact ⟨LoopSettings.form.shape, LoopSettings.form.toCarrier settings, rfl, rfl, rfl,
      none rfl⟩

/-! ### Keys of nodes -/

theorem keys_continuation_sublist (name : String) (child : Option Json) :
    (Json.keys (continuation name child)).Sublist [name] := by
  cases child with
  | none => exact List.nil_sublist _
  | some value => exact List.Sublist.refl _

/-- The keys of a node differ when those of its continuations do. -/
theorem Header.nodup_keys_node (header : Header) (kind : String) (settings : Json)
    {others : List (String × Json)}
    (within : (Json.keys others).Sublist
      ["onSuccessAction", "onFailureAction", "branches", "firstLoopAction", "nextAction"]) :
    (Json.keys (header.node kind settings others)).Nodup := by
  have keys : Json.keys (header.node kind settings others) = names ++ Json.keys others :=
    List.map_append
  have all : (names ++ ["onSuccessAction", "onFailureAction", "branches", "firstLoopAction",
    "nextAction"]).Nodup := by decide
  rw [keys]
  exact all.sublist ((List.Sublist.refl names).append within)

theorem Step.nodup_keys (step : Step Json) : (Json.keys step.entries).Nodup := by
  have own : (Json.keys step.task.continuations).Sublist
      ["onSuccessAction", "onFailureAction", "branches", "firstLoopAction"] := by
    cases step.task with
    | code settings => exact List.nil_sublist _
    | block settings => exact List.nil_sublist _
    | branch settings onSuccess onFailure =>
      have both := (keys_continuation_sublist "onSuccessAction" onSuccess).append
        (keys_continuation_sublist "onFailureAction" onFailure)
      rw [Task.continuations, Json.keys, List.map_append]
      exact both.trans (by decide)
    | split settings branches =>
      show ["branches"].Sublist _
      decide
    | loop settings body =>
      exact (keys_continuation_sublist "firstLoopAction" body).trans (by decide)
  refine Header.nodup_keys_node _ _ _ ?_
  rw [Json.keys, List.map_append]
  exact own.append (keys_continuation_sublist "nextAction" step.next)

theorem Trigger.nodup_keys (start : Trigger) : (Json.keys start.entries).Nodup :=
  Header.nodup_keys_node _ _ _ ((keys_continuation_sublist _ _).trans (by decide))

theorem Branch.nodup_keys (way : Branch Json) :
    (Json.keys (("optionId", .string way.optionId) ::
      continuation "nextAction" way.next)).Nodup := by
  have within := (keys_continuation_sublist "nextAction" way.next).cons_cons "optionId"
  exact (by decide : ["optionId", "nextAction"].Nodup).sublist within

theorem Workflow.nodup_keys (workflow : Workflow) : (Json.keys workflow.entries).Nodup := by
  have within := (List.Sublist.refl ["name", "description", "tags"]).append
    (keys_continuation_sublist "template" (workflow.template.map Template.toJson))
  rw [entries, Json.keys, List.map_append]
  exact (by decide : ["name", "description", "tags", "template"].Nodup).sublist within

/-! ### Nodes from rearranged entries -/

section Rearranged

variable {change : Json → Json} (rearranges : Json.Rearranges change)

include rearranges

theorem Json.Rearranges.present? {fields fields' : List (String × Json)}
    (found : ∀ name, field? name fields' = (field? name fields).map change) (name : String) :
    Json.present? name fields' = (Json.present? name fields).map change :=
  Reading.present?_of_field? rearranges.kind (found name)

/-- What holds no other values is found as before. -/
theorem Json.Rearranges.present?_leaf {fields fields' : List (String × Json)}
    (found : ∀ name, field? name fields' = (field? name fields).map change) {name : String}
    {value : Json} (present : Json.present? name fields = some value) (leaf : value.isLeaf = true) :
    Json.present? name fields' = Json.present? name fields := by
  rw [rearranges.present? found, present, Option.map_some, rearranges.leaf leaf]

/-- What is written in a shape is read as before. -/
theorem Shape.ofJson_change (shape : Shape) (clear : shape.clear = true) (value : shape.Carrier)
    (kept : ∀ map ∈ shape.maps value, Json.Spares change map) :
    shape.ofJson (change (shape.toJson value)) = shape.ofJson (shape.toJson value) :=
  (shape.ofJson_rearranged rearranges clear value kept).trans
    (shape.ofJson_rearranged Json.rearranges_id clear value fun _ _ => rfl).symm

namespace Reading

theorem settings_rearranged (form : Form α) {fields fields' : List (String × Json)} {value : Json}
    (present : Json.present? "settings" fields = some value)
    (present' : Json.present? "settings" fields' = some (change value))
    (same : form.shape.ofJson (change value) = form.shape.ofJson value) :
    settings form fields' = settings form fields := by
  have kind := rearranges.kind value
  rw [settings, settings, present, present']
  cases value with
  | object entries =>
    cases changed : change (.object entries) <;> rw [changed] at kind <;> cases kind
    rw [changed] at same
    simp only [Form.ofJson, same]
  | array items => rw [rearranges.array]; rfl
  | _ => rw [rearranges.leaf rfl]

theorem branch_rearranged {way : Branch Json} (written : NonNull way.next) (position : Nat) :
    branch (change way.toJson, position) =
      (branch (way.toJson, position)).map (Branch.map change) := by
  obtain ⟨entries, same, found⟩ := rearranges.object way.nodup_keys
  have before : Json.present? "optionId" (("optionId", .string way.optionId) ::
      continuation "nextAction" way.next) = some (.string way.optionId) := by
    simp [Json.isNull]
  have optionId := (rearranges.present?_leaf found before rfl).trans before
  rw [branch_toJson written, Branch.toJson, same]
  show (requiredText entries _ "optionId").bind (fun optionId =>
    .ok (Branch.mk optionId (Json.present? "nextAction" entries))) = _
  rw [requiredText_of_present optionId, rearranges.present? found, Branch.present?_next written]
  rfl

/-- The header and the type of a node are read from rearranged entries as before. -/
theorem header_rearranged (found : Header) {kind : String} {settings : Json}
    {others entries : List (String × Json)}
    (inside : ∀ name, Json.field? name entries =
      (Json.field? name (found.node kind settings others)).map change) :
    header entries = (header (found.node kind settings others)).map id ∧
      requiredText entries [] "type" =
        requiredText (found.node kind settings others) [] "type" := by
  have leaf : ∀ {name value}, Json.present? name (found.node kind settings others) = some value →
      value.isLeaf = true →
        Json.present? name entries = Json.present? name (found.node kind settings others) :=
    rearranges.present?_leaf inside
  refine ⟨?_, requiredText_congr (leaf rfl rfl) []⟩
  rw [header_congr]
  · cases header (found.node kind settings others) <;> rfl
  · intro name member
    simp only [List.mem_cons, List.not_mem_nil, or_false] at member
    rcases member with rfl | rfl | rfl <;> exact leaf rfl rfl

/-- A written step is read from rearranged entries, with its continuations rearranged. The items of
its array may be rearranged because they are ways that were written, so their keys differ. -/
theorem step_rearranged {node : Step Json} (written : node.Written)
    (kept : ∀ map, node.task.freeForm? = some map → Json.Spares change map) :
    step (change node.toJson) = (step node.toJson).map (Step.map id change) := by
  obtain ⟨entries, same, found⟩ := rearranges.object node.nodup_keys
  have present := rearranges.present? found
  have settings : Json.present? "settings" node.entries = some node.task.settings :=
    present?_settings_node node.task.isNull_settings _ _ _
  have ways : branches entries = (branches node.entries).map (List.map (Branch.map change)) := by
    refine branches_carried (present "branches") rearranges.kind rearranges.array ?_
    intro values listed value member position
    rw [Step.present?_branches written] at listed
    obtain ⟨header, task, next⟩ := node
    cases task <;> cases listed
    obtain ⟨way, here, rfl⟩ := List.mem_map.1 member
    exact branch_rearranged rearranges (Step.written_branches written way here) position
  obtain ⟨header, typed⟩ := header_rearranged rearranges node.header found
  rw [node.toJson_eq, same]
  refine step_carried (.of_present present ways) typed header fun {kind} here α form acts => ?_
  obtain rfl : node.task.kindName = kind := Json.string.inj (Option.some.inj here)
  refine settings_rearranged rearranges form settings ?_ ?_
  · rw [present, settings, Option.map_some]
  · obtain ⟨shape, value, acts', clear, settings, maps⟩ := node.task.exists_written
    obtain rfl := Option.some.inj (acts.symm.trans acts')
    rw [settings]
    exact Shape.ofJson_change rearranges _ clear value fun map member => kept map (maps map member)

/-! ### Actions and documents -/

/-- A tree grows from a written action that is rearranged as it does from the action itself, but for
the continuations that its steps still hold. -/
theorem grow_rearranged {options : Options} (action : Action)
    (kept : (Node.action action).EachMap (Json.Spares change))
    (depth : Nat) (path : List Edge) :
    (opening options).grow depth path (change action.toJson) =
      ((opening options).grow depth path action.toJson).map fun tree =>
        tree.renew (fun _ => Step.map id change) 0 := by
  refine @grow_carried options id change
    (fun value => ∃ action : Action, value = action.toJson ∧
      (Node.action action).EachMap (Json.Spares change))
    ?_ ?_ _ ⟨action, rfl, kept⟩ depth path
  · rintro value ⟨action, rfl, kept⟩
    rw [action.toJson_eq]
    refine step_rearranged rearranges action.continuations_written fun map found => ?_
    rw [action.freeForm?_written] at found
    exact kept [] _ map rfl found
  · rintro value child edge ⟨action, rfl, kept⟩ found
    rw [action.toJson_eq] at found
    have member := (mem_children_of_step (step_toJson action.continuations_written)).2 found
    rw [action.children_written] at member
    obtain ⟨next, below, same⟩ := List.mem_map.1 member
    cases same
    exact ⟨next.2, rfl, kept.child below⟩

theorem action_rearranged {options : Options} {next : Option Action}
    (kept : ∀ first, next = some first →
      (Node.action first).EachMap (Json.Spares change)) :
    action options ((next.map Action.toJson).map change) =
      action options (next.map Action.toJson) := by
  refine action_carried fun value written => ?_
  obtain ⟨first, present, rfl⟩ := Option.map_eq_some_iff.1 written
  exact grow_rearranged rearranges first (kept first present) 1 [.next]

theorem triggerKind_rearranged {kind : TriggerKind} {fields fields' : List (String × Json)}
    (kept : Json.Spares change kind.freeForm)
    (present : Json.present? "settings" fields = some kind.settings)
    (present' : Json.present? "settings" fields' = some (change kind.settings)) :
    triggerKind kind.kindName fields' = triggerKind kind.kindName fields := by
  cases kind with
  | empty settings =>
    refine triggerKind_congr ?_ _
    rw [present, present']
    exact congrArg some kept
  | block found =>
    have maps : ∀ map ∈ BlockTriggerSettings.form.shape.maps
        (BlockTriggerSettings.form.toCarrier found), Json.Spares change map := by
      rw [found.maps_form]
      exact fun map member => (List.mem_singleton.1 member).symm ▸ kept
    have same := Shape.ofJson_change rearranges _ rfl _ maps
    exact congrArg (Except.map TriggerKind.block)
      (settings_rearranged rearranges BlockTriggerSettings.form present present' same)

/-- A written trigger is read from rearranged entries, with the action that follows rearranged. -/
theorem triggerNode_rearranged {start : Trigger}
    (kept : Json.Spares change start.kind.freeForm) :
    triggerNode (change start.toJson) =
      .ok ({ start with next := none }, (start.next.map Action.toJson).map change) := by
  obtain ⟨entries, same, found⟩ := rearranges.object start.nodup_keys
  have present := rearranges.present? found
  have written : start.kind.settings.isNull = false := by cases start.kind <;> rfl
  have settings : Json.present? "settings" start.entries = some start.kind.settings :=
    present?_settings_node written _ _ _
  have ways : branches entries = (branches start.entries).map (List.map (Branch.map change)) := by
    have absent : Json.present? "branches" start.entries = none := by
      have written := nonNull_map_toJson start.next
      simp [Trigger.entries, present?_node, Header.names, written]
    rw [branches, branches, present, absent]
    rfl
  obtain ⟨header, typed⟩ := header_rearranged rearranges start.header found
  have read := triggerNode_toJson start
  have object : start.toJson = .object start.entries := rfl
  rw [object] at read ⊢
  rw [same, triggerNode_carried (.of_present present ways) typed header, read]
  · rfl
  · intro kind here
    obtain rfl : start.kind.kindName = kind := Json.string.inj (Option.some.inj here)
    refine triggerKind_rearranged rearranges kept settings ?_
    rw [present, settings, Option.map_some]

theorem trigger_rearranged {options : Options} {start : Trigger}
    (kept : (Node.trigger start).EachMap (Json.Spares change)) :
    trigger options (change start.toJson) = trigger options start.toJson := by
  rw [trigger, trigger, triggerNode_rearranged rearranges (kept [] _ _ rfl rfl), triggerNode_toJson]
  show (action options _).bind _ = (action options _).bind _
  rw [action_rearranged rearranges fun first next => kept.next next]

theorem template_rearranged {options : Options} {found : Template}
    (kept : (Node.trigger found.trigger).EachMap (Json.Spares change)) :
    template options (some (change found.toJson)) = template options (some found.toJson) := by
  have distinct : (Json.keys [("displayName", .string found.displayName),
      ("trigger", found.trigger.toJson), ("valid", .bool found.valid)]).Nodup :=
    (by decide : ["displayName", "trigger", "valid"].Nodup)
  obtain ⟨entries, same, inside⟩ := rearranges.object distinct
  have displayName : Json.present? "displayName" entries = Json.present? "displayName" _ :=
    rearranges.present?_leaf inside rfl rfl
  have valid : Json.present? "valid" entries = Json.present? "valid" _ :=
    rearranges.present?_leaf inside rfl rfl
  have start := rearranges.present? inside "trigger"
  rw [Template.toJson, same, template_of_present start, template_of_present rfl,
    optionalText_congr displayName, optionalFlag_congr valid, trigger_rearranged rearranges kept]

end Reading

/-- A workflow is read from its wire form in whatever order the entries of the objects stand there,
with the same outcome. -/
theorem Workflow.ofJson_rearranged {workflow : Workflow}
    (kept : workflow.EachMap (Json.Spares change)) (options : Options) :
    ofJson options (change workflow.toJson) = ofJson options workflow.toJson := by
  obtain ⟨entries, same, inside⟩ := rearranges.object workflow.nodup_keys
  have named : Json.present? "name" entries = Json.present? "name" workflow.entries :=
    rearranges.present?_leaf inside rfl rfl
  have described : Json.present? "description" entries =
      Json.present? "description" workflow.entries :=
    rearranges.present?_leaf inside rfl rfl
  have tags : Json.present? "tags" entries = Json.present? "tags" workflow.entries := by
    have leaves : (workflow.tags.names.map Json.string).map change =
        workflow.tags.names.map Json.string := by
      rw [List.map_map]
      exact List.map_congr_left fun name _ => rearranges.leaf rfl
    rw [rearranges.present? inside]
    show some (change (.array (workflow.tags.names.map .string))) = _
    rw [rearranges.array, leaves]
    rfl
  have template : Reading.template options (Json.present? "template" entries) =
      Reading.template options (Json.present? "template" workflow.entries) := by
    rw [rearranges.present? inside, workflow.present?_template]
    cases found : workflow.template with
    | none => rfl
    | some template => exact Reading.template_rearranged rearranges (kept template found)
  have object : workflow.toJson = .object workflow.entries := rfl
  rw [object, same, ofJson_object, ofJson_object, Reading.requiredText_congr named,
    Reading.optionalText_congr described, tags, template]

end Rearranged

end FlowGate
