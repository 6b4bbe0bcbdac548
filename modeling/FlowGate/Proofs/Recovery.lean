/-
This file shows that the text of a workflow is read back as the workflow, however deep it is. All
numbers in the wire form come from free-form maps, so it is enough that those are integers; then
the text is read as the wire form with its keys in order, and in that order the workflow is read
from it as it is from the wire form itself.
-/

import FlowGate.Proofs.Rearranging
import FlowGate.Proofs.Rereading

namespace FlowGate

namespace Json

theorem wholeItems_iff {items : List Json} :
    wholeItems items = true ↔ ∀ item ∈ items, item.whole = true := by
  induction items with
  | nil => exact ⟨fun _ item member => (by cases member), fun _ => rfl⟩
  | cons item rest inductionHypothesis =>
    rw [wholeItems, Bool.and_eq_true, inductionHypothesis, List.forall_mem_cons]

theorem wholeFields_append (first second : List (String × Json)) :
    wholeFields (first ++ second) = (wholeFields first && wholeFields second) := by
  induction first with
  | nil => rfl
  | cons entry rest inductionHypothesis =>
    obtain ⟨name, value⟩ := entry
    rw [List.cons_append, wholeFields, wholeFields, inductionHypothesis, Bool.and_assoc]

theorem wholeFields_continuation (name : String) {child : Option Json}
    (below : ∀ value, child = some value → value.whole = true) :
    wholeFields (continuation name child) = true := by
  cases child with
  | none => rfl
  | some value => exact Bool.and_eq_true_iff.2 ⟨below value rfl, rfl⟩

end Json

/-! ### Numbers of settings -/

mutual

/-- What is written in a shape has integers only, if its maps have. -/
theorem Shape.whole_toJson (shape : Shape) (value : shape.Carrier)
    (whole : ∀ map ∈ shape.maps value, (Json.object map).whole = true) :
    (shape.toJson value).whole = true := by
  cases shape with
  | map => exact whole value (List.mem_singleton_self value)
  | list item =>
    refine Json.wholeItems_iff.2 fun each member => ?_
    obtain ⟨found, inside, rfl⟩ := List.mem_map.1 member
    exact item.whole_toJson found fun map here =>
      whole map (List.mem_flatMap.2 ⟨found, inside, here⟩)
  | record name fields => exact fields.whole_toEntries value whole
  | _ => rfl

theorem Fields.whole_toEntries (fields : Fields) (held : fields.Carrier)
    (whole : ∀ map ∈ fields.maps held, (Json.object map).whole = true) :
    Json.wholeFields (fields.toEntries held) = true := by
  cases fields with
  | nil => rfl
  | field name presence shape rest =>
    obtain ⟨held, others⟩ := held
    rw [Fields.maps] at whole
    have below := rest.whole_toEntries others fun map inside =>
      whole map (List.mem_append_right _ inside)
    rw [Fields.toEntries]
    split
    · next value given =>
      rw [given] at whole
      refine Bool.and_eq_true_iff.2 ⟨shape.whole_toJson value fun map inside => ?_, below⟩
      refine whole map (List.mem_append_left _ ?_)
      exact List.mem_flatMap.2 ⟨value, List.mem_singleton_self value, inside⟩
    · exact below

end

theorem Task.whole_settings {task : Task α}
    (whole : ∀ map, task.freeForm? = some map → (Json.object map).whole = true) :
    task.settings.whole = true := by
  obtain ⟨shape, value, -, -, settings, maps⟩ := task.exists_written
  rw [settings]
  exact shape.whole_toJson value fun map member => whole map (maps map member)

theorem TriggerKind.whole_settings {kind : TriggerKind}
    (whole : (Json.object kind.freeForm).whole = true) : kind.settings.whole = true := by
  cases kind with
  | empty settings => exact whole
  | block settings =>
    refine Shape.whole_toJson _ (BlockTriggerSettings.form.toCarrier settings) ?_
    rw [settings.maps_form]
    exact fun map member => (List.mem_singleton.1 member).symm ▸ whole

/-! ### Numbers of nodes -/

theorem Header.whole_node (header : Header) (kind : String) {settings : Json}
    {others : List (String × Json)} (whole : settings.whole = true)
    (below : Json.wholeFields others = true) :
    (Json.object (header.node kind settings others)).whole = true := by
  rw [Json.whole, node, Json.wholeFields_append, below, Bool.and_true]
  show (true && (true && (true && (true && (settings.whole && true))))) = true
  rw [whole]
  rfl

theorem Branch.whole_toJson {way : Branch Json}
    (below : ∀ value, way.next = some value → value.whole = true) : way.toJson.whole = true :=
  Json.wholeFields_continuation "nextAction" below

/-- A written step has integers only, if its settings and its continuations have. -/
theorem Step.whole_toJson {step : Step Json} (settings : step.task.settings.whole = true)
    (below : ∀ edge value, step.along edge = some value → value.whole = true) :
    step.toJson.whole = true := by
  obtain ⟨header, task, next⟩ := step
  rw [toJson_eq]
  have last : Json.wholeFields (continuation "nextAction" next) = true :=
    Json.wholeFields_continuation _ (below .next)
  refine header.whole_node _ settings ?_
  rw [Json.wholeFields_append, last, Bool.and_true]
  cases task with
  | code settings => rfl
  | block settings => rfl
  | branch settings onSuccess onFailure =>
    have success : Json.wholeFields (continuation "onSuccessAction" onSuccess) = true :=
      Json.wholeFields_continuation _ (below .onSuccess)
    have failure : Json.wholeFields (continuation "onFailureAction" onFailure) = true :=
      Json.wholeFields_continuation _ (below .onFailure)
    rw [Task.continuations, Json.wholeFields_append, success, failure]
    rfl
  | split settings branches =>
    have ways : Json.wholeItems (branches.map Branch.toJson) = true := by
      refine Json.wholeItems_iff.2 fun item member => ?_
      obtain ⟨way, inside, rfl⟩ := List.mem_map.1 member
      obtain ⟨index, found⟩ := List.mem_iff_getElem?.1 inside
      refine Branch.whole_toJson fun value continues => below (.branch index) value ?_
      simp only [Step.along, found, Option.bind_some, continues]
    exact Bool.and_eq_true_iff.2 ⟨ways, rfl⟩
  | loop settings body => exact Json.wholeFields_continuation _ (below .loopBody)

/-- A written action has integers only, if the maps of its steps have. -/
theorem Action.whole_toJson (action : Action)
    (whole : (Node.action action).EachMap fun map => (Json.object map).whole = true) :
    action.toJson.whole = true := by
  induction action using Opening.induction_children Action.opened with
  | step action inductionHypothesis =>
    rw [action.toJson_eq]
    refine Step.whole_toJson (Task.whole_settings fun map found => ?_) fun edge value found => ?_
    · rw [action.freeForm?_written] at found
      exact whole [] _ map rfl found
    · have member := Step.mem_children.2 found
      rw [action.children_written] at member
      obtain ⟨child, below, same⟩ := List.mem_map.1 member
      cases same
      exact inductionHypothesis child below (whole.child below)

theorem Trigger.whole_toJson {start : Trigger}
    (whole : (Node.trigger start).EachMap fun map => (Json.object map).whole = true) :
    start.toJson.whole = true := by
  refine start.header.whole_node _ (TriggerKind.whole_settings (whole [] _ _ rfl rfl)) ?_
  refine Json.wholeFields_continuation _ fun value found => ?_
  obtain ⟨first, next, rfl⟩ := Option.map_eq_some_iff.1 found
  exact first.whole_toJson (whole.next next)

/-- A written workflow has integers only, if its free-form maps have. -/
theorem Workflow.whole_toJson {workflow : Workflow}
    (whole : workflow.EachMap fun map => (Json.object map).whole = true) :
    workflow.toJson.whole = true := by
  have tags : Json.wholeItems (workflow.tags.names.map .string) = true := by
    refine Json.wholeItems_iff.2 fun item member => ?_
    obtain ⟨name, -, rfl⟩ := List.mem_map.1 member
    rfl
  have template : Json.wholeFields
      (continuation "template" (workflow.template.map Template.toJson)) = true := by
    refine Json.wholeFields_continuation _ fun value found => ?_
    obtain ⟨template, present, rfl⟩ := Option.map_eq_some_iff.1 found
    show (true && (template.trigger.toJson.whole && (true && true))) = true
    rw [Trigger.whole_toJson (whole template present)]
    rfl
  show Json.wholeFields (_ ++ _) = true
  rw [Json.wholeFields_append, template, Bool.and_true]
  show (true && (true && (Json.wholeItems _ && true))) = true
  rw [tags]
  rfl

/-! ### The text of a workflow -/

/-- A free-form map as it is held between reading and writing, without reals: the keys of all
objects in it ascend, each of them standing once, and all numbers are integers. -/
structure FreeForm.Exact (map : FreeForm) : Prop where
  ordered : (Json.object map).ordered = true
  whole : (Json.object map).whole = true

/-- The text of a workflow is read back. It is read as the wire form with its keys in order,
however deep that is nested and whatever the cap is, and as the workflow wherever the cap admits
its deepest action. -/
theorem Workflow.read_write (workflow : Workflow) (exact : workflow.EachMap FreeForm.Exact) :
    Json.readDocument workflow.write = .ok workflow.toJson.sorted ∧
      ∀ options : Options,
        (∀ template, workflow.template = some template →
          template.trigger.WithinDepth options.maxDepth.toNat) →
        read options workflow.write = .ok workflow := by
  have whole : workflow.toJson.whole = true := whole_toJson fun template present =>
    (exact template present).mono fun _ exact => exact.whole
  have kept : workflow.EachMap (Json.Spares Json.sorted) :=
    fun template present => (exact template present).mono fun _ exact =>
      Json.sorted_of_ordered _ exact.ordered
  have document : Json.readDocument workflow.write = .ok workflow.toJson.sorted := by
    rw [Json.readDocument, write, Json.read_of_whole whole]
    rfl
  refine ⟨document, fun options within => ?_⟩
  rw [read, document]
  exact (ofJson_rearranged Json.rearranges_sorted kept options).trans
    (workflow.ofJson_toJson_of_withinDepth options within)

/-- A workflow with strings and keys that are not written as they stand, and with the smallest and
the largest integer. -/
def Workflow.escaped : Workflow where
  name := "\"quoted\" \\ \n\x00\u2028"
  description := "\x1f\x7f"
  tags := ⟨["\t", "é"], by decide⟩
  template := some {
    displayName := "\x08\x0c"
    valid := true
    trigger := {
      header := ⟨"start", "Start", true⟩
      kind := .empty [("\x00", .number (.integer (-9223372036854775808) (by decide) (by decide))),
        ("\"", .array [.object [], .object [("\\", .null), ("]", .bool false)], .array []])]
      next := some (.mk {
        header := ⟨"run", "Run", false⟩
        task := .code ⟨⟨"'\x7b\x7d'", "\x7b\x7d"⟩,
          [("", .object [("\u2028", .number (.ofUInt64 18446744073709551615))])], none⟩
        next := none }) } }

theorem Workflow.read_write_escaped :
    escaped.EachMap FreeForm.Exact ∧ read .default escaped.write = .ok escaped := by
  have exact : escaped.EachMap FreeForm.Exact := by
    intro template present
    cases present
    refine .of_children (fun map found => ?_) fun child member => ?_
    · cases found
      exact ⟨by decide, rfl⟩
    · cases List.mem_singleton.1 member
      refine .of_children (fun map found => ?_) fun child member => (by cases member)
      cases found
      exact ⟨by decide, rfl⟩
  refine ⟨exact, (read_write escaped exact).2 .default fun template present => ?_⟩
  cases present
  exact Trigger.withinDepth_of_weight (by decide)

end FlowGate
