/-
This file shows that the marks of validity which a document comes with are never trusted. A document
without its marks is read as the workflow that the document is read as, with all marks cleared, or
is refused for the same reason; and the gate sets every mark anew, on what it saves as on what it
rejects, while no rule looks at any. So documents that are the same without their marks get the
same verdict, and importing them has the same outcome and leaves the same store.
-/

import FlowGate.Proofs.Blame
import FlowGate.Proofs.Carrying
import FlowGate.Proofs.Session
import FlowGate.Proofs.Unseen

namespace FlowGate

/-! ### Documents without marks -/

/-- What a value stands for, told by its place in a document. -/
inductive Place where
  | document
  | template
  | node
  | ways
  | way
  | other
  deriving DecidableEq

namespace Place

/-- What stands under a field of a value that stands at a place. -/
def under : Place → String → Place
  | .document, "template" => .template
  | .template, "trigger" => .node
  | .node, "branches" => .ways
  | .node, "nextAction" | .node, "onSuccessAction" | .node, "onFailureAction"
  | .node, "firstLoopAction" => .node
  | .way, "nextAction" => .node
  | _, _ => .other

/-- What the items of an array stand for. -/
def item : Place → Place
  | .ways => .way
  | _ => .other

/-- Whether what stands at a place has a mark of validity. -/
def hasMark : Place → Bool
  | .template | .node => true
  | _ => false

end Place

namespace Json

mutual

/-- A part of a document without the marks of validity. -/
def unmarked (place : Place) : Json → Json
  | .object fields => .object (unmarkedFields place fields)
  | .array items => .array (unmarkedItems place.item items)
  | other => other

/-- The entries of a part of a document without its mark and the marks below. -/
def unmarkedFields (place : Place) : List (String × Json) → List (String × Json)
  | [] => []
  | (name, value) :: rest =>
    if place.hasMark && name == "valid" then unmarkedFields place rest
    else (name, value.unmarked (place.under name)) :: unmarkedFields place rest

/-- The items of an array without the marks below. -/
def unmarkedItems (place : Place) : List Json → List Json
  | [] => []
  | item :: rest => item.unmarked place :: unmarkedItems place rest

end

theorem kind_unmarked (place : Place) (value : Json) :
    (value.unmarked place).kind = value.kind := by
  cases value <;> simp only [unmarked, kind]

theorem unmarkedItems_eq (place : Place) (items : List Json) :
    unmarkedItems place items = items.map (unmarked place) := by
  induction items with
  | nil => rw [unmarkedItems, List.map_nil]
  | cons item rest inductionHypothesis => rw [unmarkedItems, inductionHypothesis, List.map_cons]

/-- A field that is not a mark stays, with what stands under it. -/
theorem field?_unmarked {place : Place} {name : String}
    (other : (place.hasMark && name == "valid") = false) (fields : List (String × Json)) :
    field? name (unmarkedFields place fields) =
      (field? name fields).map (unmarked (place.under name)) := by
  induction fields with
  | nil => rw [unmarkedFields]; rfl
  | cons entry rest inductionHypothesis =>
    obtain ⟨key, value⟩ := entry
    rw [unmarkedFields]
    by_cases same : name = key
    · subst same
      rw [other, if_neg Bool.false_ne_true, field?_cons, field?_cons, if_pos rfl, if_pos rfl]
      rfl
    · rw [field?_cons, if_neg same, ← inductionHypothesis]
      split
      · rfl
      · rw [field?_cons, if_neg same]

theorem field?_valid_unmarked {place : Place} (marked : place.hasMark = true)
    (fields : List (String × Json)) : field? "valid" (unmarkedFields place fields) = none := by
  induction fields with
  | nil => rw [unmarkedFields]; rfl
  | cons entry rest inductionHypothesis =>
    obtain ⟨key, value⟩ := entry
    rw [unmarkedFields, marked, Bool.true_and]
    split
    · exact inductionHypothesis
    · next differs =>
      have apart : "valid" ≠ key := fun same => differs (by simp [← same])
      rw [field?_cons, if_neg apart, inductionHypothesis]

mutual

/-- Nothing is a mark elsewhere. -/
theorem unmarked_other (value : Json) : value.unmarked .other = value := by
  cases value with
  | object fields => rw [unmarked, unmarkedFields_other]
  | array items =>
    show Json.array (unmarkedItems .other items) = _
    rw [unmarkedItems_other]
  | _ => rfl

theorem unmarkedFields_other (fields : List (String × Json)) :
    unmarkedFields .other fields = fields := by
  cases fields with
  | nil => rw [unmarkedFields]
  | cons entry rest =>
    obtain ⟨name, value⟩ := entry
    rw [unmarkedFields, unmarkedFields_other]
    have below : Place.other.under name = .other := rfl
    rw [below, unmarked_other]
    rfl

theorem unmarkedItems_other (items : List Json) : unmarkedItems .other items = items := by
  cases items with
  | nil => rw [unmarkedItems]
  | cons item rest => rw [unmarkedItems, unmarked_other, unmarkedItems_other]

end

mutual

/-- Marks that are gone cannot be taken away again. -/
theorem unmarked_unmarked (place : Place) (value : Json) :
    (value.unmarked place).unmarked place = value.unmarked place := by
  cases value with
  | object fields => rw [unmarked, unmarked, unmarkedFields_unmarkedFields]
  | array items =>
    show Json.array (unmarkedItems place.item (unmarkedItems place.item items)) = _
    rw [unmarkedItems_unmarkedItems]
    rfl
  | _ => rfl

theorem unmarkedFields_unmarkedFields (place : Place) (fields : List (String × Json)) :
    unmarkedFields place (unmarkedFields place fields) = unmarkedFields place fields := by
  cases fields with
  | nil => rw [unmarkedFields, unmarkedFields]
  | cons entry rest =>
    obtain ⟨name, value⟩ := entry
    rw [unmarkedFields]
    split
    · exact unmarkedFields_unmarkedFields place rest
    · next other =>
      rw [unmarkedFields, if_neg other, unmarked_unmarked, unmarkedFields_unmarkedFields]

theorem unmarkedItems_unmarkedItems (place : Place) (items : List Json) :
    unmarkedItems place (unmarkedItems place items) = unmarkedItems place items := by
  cases items with
  | nil => rw [unmarkedItems, unmarkedItems]
  | cons item rest =>
    rw [unmarkedItems, unmarkedItems, unmarked_unmarked, unmarkedItems_unmarkedItems]

end

/-- A field that is no mark is present or absent as before. -/
theorem present?_unmarked (place : Place) (name : String)
    (other : (place.hasMark && name == "valid") = false) (fields : List (String × Json)) :
    present? name (unmarkedFields place fields) =
      (present? name fields).map (unmarked (place.under name)) :=
  Reading.present?_of_field? (kind_unmarked _) (field?_unmarked other fields)

/-- A field under which no marks stand is as before. -/
theorem present?_of_other (place : Place) (name : String)
    (other : (place.hasMark && name == "valid") = false) (plain : place.under name = .other)
    (fields : List (String × Json)) :
    present? name (unmarkedFields place fields) = present? name fields := by
  rw [present?_unmarked place name other, plain]
  cases present? name fields with
  | none => rfl
  | some value => rw [Option.map_some, unmarked_other]

theorem present?_valid_unmarked {place : Place} (marked : place.hasMark = true)
    (fields : List (String × Json)) :
    present? "valid" (unmarkedFields place fields) = none := by
  rw [present?, field?_valid_unmarked marked]
  rfl

/-- The mark of every node that a value reaches, its own included, is absent, `null` or a
boolean. -/
def PlainMarks (value : Json) : Prop :=
  ∀ path fields, value.reach path = some (.object fields) → MayHold .boolean "valid" fields

theorem PlainMarks.along {value child : Json} {edge : Edge} (plain : value.PlainMarks)
    (found : value.along edge = some child) : child.PlainMarks := by
  intro path fields reached
  refine plain (edge :: path) fields ?_
  rw [reach, found, Option.bind_some, reached]

end Json

/-! ### Reading without marks -/

/-- A header whose mark is cleared. -/
def Header.cleared (header : Header) : Header :=
  { header with valid := false }

namespace Reading

open Json (unmarked unmarkedFields)

variable {fields : List (String × Json)}

/-- A mark that is no cause for refusal is read as any other one. -/
theorem header_unmarked (plain : Json.MayHold .boolean "valid" fields) :
    header (unmarkedFields .node fields) = (header fields).map Header.cleared := by
  have name := Json.present?_of_other .node "name" rfl rfl fields
  have displayName := Json.present?_of_other .node "displayName" rfl rfl fields
  have cleared : optionalFlag (unmarkedFields .node fields) [] "valid" = .ok none := by
    rw [optionalFlag, Json.present?_valid_unmarked rfl]
  obtain ⟨found, read⟩ := (@exists_optionalFlag _ [] _).2 plain
  rw [header, header, requiredText_congr name, requiredText_congr displayName, cleared, read]
  cases requiredText fields [] "name" with
  | error refusal => rfl
  | ok name => cases requiredText fields [] "displayName" <;> rfl

theorem branch_unmarked (item : Json) (position : Nat) :
    branch (item.unmarked .way, position) =
      (branch (item, position)).map (Branch.map (unmarked .node)) := by
  refine branch_carried (Json.kind_unmarked .way) (fun entries => ?_) item position
  exact ⟨unmarkedFields .way entries, rfl, Json.present?_of_other .way "optionId" rfl rfl entries,
    Json.present?_unmarked .way "nextAction" rfl entries⟩

theorem carries_unmarked (fields : List (String × Json)) :
    Carries (unmarked .node) fields (unmarkedFields .node fields) where
  single name member := by
    have nodes : ∀ name ∈ ["nextAction", "onSuccessAction", "onFailureAction", "firstLoopAction"],
        (Place.node.hasMark && name == "valid") = false ∧ Place.node.under name = .node := by
      decide
    obtain ⟨other, below⟩ := nodes name member
    rw [Json.present?_unmarked .node name other, below]
  listed := by
    rw [Json.present?_unmarked .node "branches" rfl, Option.isSome_map]
  ways := by
    refine branches_carried (Json.present?_unmarked .node "branches" rfl fields)
      (Json.kind_unmarked .ways) (fun items => ?_) fun _ value _ => branch_unmarked value
    exact congrArg Json.array (Json.unmarkedItems_eq .way items)

/-- A step without its mark is read as the step, with its mark cleared. -/
theorem step_unmarked {value : Json} (plain : value.PlainMarks) :
    step (value.unmarked .node) =
      (step value).map (Step.map Header.cleared (unmarked .node)) := by
  cases value with
  | object fields =>
    have type := Json.present?_of_other .node "type" rfl rfl fields
    have settings := Json.present?_of_other .node "settings" rfl rfl fields
    exact step_carried (carries_unmarked fields) (requiredText_congr type [])
      (header_unmarked (plain [] fields rfl)) fun _ _ form _ => settings_congr form settings
  | _ => rfl

theorem triggerNode_unmarked {value : Json} (plain : value.PlainMarks) :
    triggerNode (value.unmarked .node) = (triggerNode value).map fun found =>
      ({ found.1 with header := found.1.header.cleared }, found.2.map (unmarked .node)) := by
  cases value with
  | object fields =>
    have type := Json.present?_of_other .node "type" rfl rfl fields
    have settings := Json.present?_of_other .node "settings" rfl rfl fields
    exact triggerNode_carried (carries_unmarked fields) (requiredText_congr type [])
      (header_unmarked (plain [] fields rfl)) fun _ => triggerKind_congr settings _
  | _ => rfl

end Reading

/-- The action that is built from a tree with all marks cleared. -/
theorem Tree.fold_cleared {tree : Tree (Step α)} (proper : tree.Proper) (change : α → α) :
    (tree.renew (fun _ => Step.map Header.cleared change) 0).fold Action.mk =
      (tree.fold Action.mk).marked fun _ => false := by
  have cleared := @Tree.fold_marked _ (tree.fold Action.mk).tree fun _ => false
  rw [Tree.tree_fold _ proper, Tree.renew_renew] at cleared
  rw [Action.marked_eq, Action.markedTree, cleared, ← Tree.fold_bare, Tree.renew_renew]
  simp only [Step.bare_map]
  rfl

/-- A workflow with all marks cleared. -/
def Workflow.cleared (workflow : Workflow) : Workflow :=
  { workflow with
    template := workflow.template.map fun template =>
      { template with valid := false, trigger := template.trigger.marked fun _ => false } }

namespace Reading

open Json (unmarked unmarkedFields)

variable {options : Options}

theorem action_unmarked {next : Option Json} (plain : ∀ value, next = some value →
    value.PlainMarks) :
    action options (next.map (unmarked .node)) =
      (action options next).map (Option.map fun action => action.marked fun _ => false) := by
  cases next with
  | none =>
    rw [Option.map_none, action_none]
    rfl
  | some value =>
    rw [Option.map_some, action_some, action_some,
      grow_carried step_unmarked Json.PlainMarks.along (plain value rfl)]
    cases grown : (opening options).grow 1 [.next] value with
    | error refusal => rfl
    | ok tree =>
      have proper := Opening.grow_proper (opening_steps options) value 1 [.next] tree grown
      exact congrArg (fun action => Except.ok (some action)) (Tree.fold_cleared proper _)

theorem trigger_unmarked {value : Json} (plain : value.PlainMarks) :
    trigger options (value.unmarked .node) =
      (trigger options value).map fun start => start.marked fun _ => false := by
  rw [trigger, trigger, triggerNode_unmarked plain]
  cases read : triggerNode value with
  | error refusal => rfl
  | ok found =>
    obtain ⟨start, next⟩ := found
    have below : ∀ child, next = some child → child.PlainMarks := by
      intro child present
      refine @Json.PlainMarks.along _ _ .next plain ?_
      rw [along_of_triggerNode read, if_pos rfl, present]
    show ((action options (next.map (unmarked .node))).bind _) =
      ((action options next).bind _).map _
    rw [action_unmarked below]
    cases action options next <;> rfl

theorem template_unmarked {value : Option Json}
    (plain : ∀ fields, value = some (.object fields) → Json.MayHold .boolean "valid" fields ∧
      ∀ start, Json.present? "trigger" fields = some start → start.PlainMarks) :
    template options (value.map (unmarked .template)) =
      (template options value).map (Option.map fun template =>
        { template with valid := false, trigger := template.trigger.marked fun _ => false }) := by
  cases value with
  | none => rfl
  | some value =>
    cases value with
    | object fields =>
      obtain ⟨mark, starts⟩ := plain fields rfl
      have below : Json.present? "trigger" (unmarkedFields .template fields) =
          (Json.present? "trigger" fields).map (unmarked .node) :=
        Json.present?_unmarked .template "trigger" rfl fields
      show template options (some (.object (unmarkedFields .template fields))) = _
      cases present : Json.present? "trigger" fields with
      | none =>
        rw [present] at below
        rw [template_of_absent below, template_of_absent present]
        rfl
      | some start =>
        rw [present] at below
        rw [template_of_present below, template_of_present present]
        have displayName := Json.present?_of_other .template "displayName" rfl rfl fields
        have cleared : optionalFlag (unmarkedFields .template fields) [.field "template"] "valid" =
            .ok none := by
          rw [optionalFlag, Json.present?_valid_unmarked rfl]
        obtain ⟨flag, read⟩ := (@exists_optionalFlag _ [.field "template"] _).2 mark
        rw [optionalText_congr displayName, cleared, read, trigger_unmarked (starts start present)]
        cases optionalText fields [.field "template"] "displayName" with
        | error refusal => rfl
        | ok name => cases trigger options start <;> rfl
    | _ => rfl

end Reading

/-! ### Documents that come with other marks -/

/-- The marks that a document comes with are absent, `null` or booleans: that of its template, that
of its trigger and those of all actions that the trigger reaches. -/
structure Json.PlainlyMarked (document : Json) : Prop where
  template : ∀ fields, AccessPath.follow [.field "template"] document = some (.object fields) →
    MayHold .boolean "valid" fields
  nodes : ∀ edges fields, document.nodeAt? edges = some (.object fields) →
    MayHold .boolean "valid" fields

theorem Json.IsNode.plain {kind : String} {fields : List (String × Json)} {value : Json}
    (node : IsNode kind fields) (same : value = .object fields) {found : List (String × Json)}
    (object : value = .object found) : MayHold .boolean "valid" found := by
  obtain rfl := Json.object.inj (same.symm.trans object)
  exact node.marked

theorem Json.present?_of_follow {name : String} {fields : List (String × Json)} {value : Json}
    (leads : AccessPath.follow [.field name] (.object fields) = some value)
    (there : value.isNull = false) : present? name fields = some value := by
  obtain ⟨found, here, same⟩ := Option.bind_eq_some_iff.1 leads
  cases same
  exact Option.filter_eq_some_iff.2 ⟨here, by rw [there]; rfl⟩

/-- A document that is read as a workflow with a template is plainly marked. -/
theorem Json.PlainlyMarked.of_read {options : Options} {document : Json} {workflow : Workflow}
    {template : Template} (read : Workflow.ofJson options document = .ok workflow)
    (present : workflow.template = some template) : document.PlainlyMarked := by
  obtain ⟨value, root, started⟩ := Workflow.trigger_of_read read present
  have flow := Reading.exists_trigger.1 ⟨_, started⟩
  refine ⟨fun fields found => ?_, fun edges fields found => ?_⟩
  · obtain ⟨outer, object, read⟩ := bind_eq_ok.1 read
    obtain rfl := Reading.entries_eq_ok.1 object
    obtain ⟨_, -, read⟩ := bind_eq_ok.1 read
    obtain ⟨_, -, read⟩ := bind_eq_ok.1 read
    obtain ⟨_, -, read⟩ := bind_eq_ok.1 read
    obtain ⟨templated, read, -⟩ := bind_eq_ok.1 read
    have templateHere := present?_of_follow found rfl
    have triggerHere : present? "trigger" fields = some value := by
      rw [rootPath, AccessPath.follow_field templateHere] at root
      obtain ⟨inner, kind, rfl, -⟩ := flow.trigger
      exact present?_of_follow root rfl
    obtain ⟨fields', same, asked⟩ := Reading.exists_template.1 ⟨_, read⟩ _ templateHere
    obtain rfl := Json.object.inj same
    exact (asked value triggerHere).2.1
  · rw [nodeAt?, root, Option.bind_some] at found
    cases edges with
    | nil =>
      cases found
      obtain ⟨inner, kind, object, node, -⟩ := flow.trigger
      exact node.plain object rfl
    | cons edge rest =>
      obtain ⟨⟨inner, kind, object, node, -⟩, -⟩ := flow.actions _ _ (List.cons_ne_nil _ _) found
      exact node.plain object rfl

/-- A document without its marks is read as the workflow with all marks cleared. -/
theorem Workflow.ofJson_unmarked {document : Json} (plain : document.PlainlyMarked)
    (options : Options) :
    ofJson options (document.unmarked .document) =
      (ofJson options document).map Workflow.cleared := by
  cases document with
  | object fields =>
    have name := Json.present?_of_other .document "name" rfl rfl fields
    have description := Json.present?_of_other .document "description" rfl rfl fields
    have tags := Json.present?_of_other .document "tags" rfl rfl fields
    have below : Json.present? "template" (Json.unmarkedFields .document fields) =
        (Json.present? "template" fields).map (Json.unmarked .template) :=
      Json.present?_unmarked .document "template" rfl fields
    have template : Reading.template options
        (Json.present? "template" (Json.unmarkedFields .document fields)) =
          (Reading.template options (Json.present? "template" fields)).map
            (Option.map fun template =>
              { template with
                valid := false, trigger := template.trigger.marked fun _ => false }) := by
      rw [below]
      refine Reading.template_unmarked fun inner present => ⟨?_, fun start started => ?_⟩
      · exact plain.template inner (AccessPath.follow_field present [])
      · intro path found reached
        refine plain.nodes path found ?_
        rw [Json.nodeAt?, rootPath, AccessPath.follow_field present,
          AccessPath.follow_field started]
        exact reached
    show ofJson options (.object (Json.unmarkedFields .document fields)) = _
    rw [ofJson_object, ofJson_object, Reading.requiredText_congr name,
      Reading.optionalText_congr description, tags, template]
    cases Reading.requiredText fields [] "name" with
    | error refusal => rfl
    | ok name =>
      cases Reading.optionalText fields [] "description" with
      | error refusal => rfl
      | ok description =>
        cases Reading.tags (Json.present? "tags" fields) with
        | error refusal => rfl
        | ok tags => cases Reading.template options (Json.present? "template" fields) <;> rfl
  | _ => rfl

/-- Marks that are set do not depend on those that were cleared. -/
theorem Workflow.marked_cleared (workflow : Workflow) (violations : List Violation) :
    workflow.cleared.marked violations = workflow.marked violations := by
  obtain ⟨name, description, tags, template⟩ := workflow
  cases template with
  | none => rfl
  | some template =>
    simp only [cleared, marked, Option.map_some, Trigger.marked_marked]

/-- Clearing the marks does not change the violations: setting them anew shows no difference. -/
theorem Workflow.violations_cleared (workflow : Workflow) (options : Options) :
    workflow.cleared.violations options = workflow.violations options := by
  rw [← workflow.cleared.violations_marked [], marked_cleared, violations_marked]

/-- The gate looks at the violations of what it reads, and passes on what is marked with them. -/
theorem pass_congr {options : Options} {document document' : Json} {first second : Workflow}
    (read : Workflow.ofJson options document = .ok first)
    (read' : Workflow.ofJson options document' = .ok second)
    (violations : first.violations options = second.violations options)
    (marked : ∀ violations, first.marked violations = second.marked violations) :
    pass options document = pass options document' := by
  rw [pass, pass, read, read']
  simp only [violations, marked]

/-- The gate sees no marks. -/
theorem pass_unmarked {document : Json} (plain : document.PlainlyMarked) (options : Options) :
    pass options (document.unmarked .document) = pass options document := by
  have cleared := Workflow.ofJson_unmarked plain options
  cases read : Workflow.ofJson options document with
  | error refusal =>
    rw [read] at cleared
    rw [pass, pass, cleared, read]
    rfl
  | ok workflow =>
    rw [read] at cleared
    exact pass_congr cleared read (workflow.violations_cleared options) workflow.marked_cleared

theorem validate_unmarked {document : Json} (plain : document.PlainlyMarked)
    (options : Options) : validate options (document.unmarked .document) =
      validate options document := by
  rw [validate, validate, Workflow.ofJson_unmarked plain]
  cases Workflow.ofJson options document with
  | error refusal => rfl
  | ok workflow =>
    show Verdict.ofViolations (workflow.cleared.check options) = _
    rw [Workflow.check, workflow.violations_cleared]
    rfl

/-- The marks that documents come with are not trusted. Two documents that are the same without
their marks get the same verdict, with the same violations in the same order, and importing them
into any store gives the same answer and leaves the same store: what is saved and what is rejected
has its marks from the gate. -/
theorem Saving.import_eq_of_unmarked (saving : Saving σ ι ε) (store : σ) (options : Options)
    {first second : Json} (plain : first.PlainlyMarked) (plain' : second.PlainlyMarked)
    (same : first.unmarked .document = second.unmarked .document) :
    validate options first = validate options second ∧
      saving.importDocument store options first = saving.importDocument store options second := by
  have passed : pass options first = pass options second := by
    rw [← pass_unmarked plain, same, pass_unmarked plain']
  refine ⟨?_, ?_⟩
  · rw [← validate_unmarked plain, same, validate_unmarked plain']
  · rw [importDocument, importDocument, passed]

/-- A document whose marks are all set. -/
def Json.daily : Json :=
  (Workflow.guarded "daily" "Daily" true).toJson

/-- The document is imported with its marks and without any. -/
theorem Store.import_eq_of_unmarked_daily :
    Json.daily ≠ Json.daily.unmarked .document ∧
      validate .default .daily = validate .default (Json.daily.unmarked .document) ∧
      empty.importDocument .default .daily =
        empty.importDocument .default (Json.daily.unmarked .document) := by
  have read : Workflow.ofJson .default .daily = .ok (Workflow.guarded "daily" "Daily" true) :=
    Workflow.ofJson_guarded "daily" "Daily" true
  have plain := Json.PlainlyMarked.of_read read rfl
  have cleared := Workflow.ofJson_unmarked plain .default
  rw [read] at cleared
  have plain' := Json.PlainlyMarked.of_read cleared rfl
  refine ⟨fun same => ?_, Saving.import_eq_of_unmarked saving empty .default plain plain'
    (Json.unmarked_unmarked .document _).symm⟩
  have equal := (congrArg (Workflow.ofJson .default) same).symm.trans read
  rw [cleared] at equal
  have marks := congrArg (fun workflow : Workflow => workflow.template.map Template.valid)
    (Except.ok.inj equal)
  cases marks

end FlowGate
