/-
This file shows that single nodes are read back as they are written. The entries that a node is
written as are told by a table of what stands under each name; reading a node looks only at that
table. A step is written with its continuations written already, and these are never `null`, so a
continuation that is there is found and one that is not is absent.
-/

import FlowGate.Proofs.Continuation
import FlowGate.Proofs.Growth
import FlowGate.Proofs.Shapes
import FlowGate.Workflow.Reading
import FlowGate.Workflow.Wire

namespace FlowGate

/-! ### Entries by name -/

@[simp] theorem Json.present?_nil (name : String) : Json.present? name [] = none := rfl

@[simp] theorem Json.present?_cons (name key : String) (value : Json)
    (rest : List (String × Json)) :
    Json.present? name ((key, value) :: rest) =
      if name = key then (if value.isNull then none else some value)
      else Json.present? name rest := by
  rw [present?, field?_cons]
  by_cases same : name = key
  · rw [if_pos same, if_pos same, Option.filter_some]
    cases value.isNull <;> rfl
  · rw [if_neg same, if_neg same, present?]

/-- A continuation that is not taken for an absent one. -/
def NonNull (child : Option Json) : Prop :=
  ∀ value, child = some value → value.isNull = false

@[simp] theorem present?_continuation_append {child : Option Json} (written : NonNull child)
    (name key : String) (rest : List (String × Json)) :
    Json.present? name (continuation key child ++ rest) =
      if name = key then child.or (Json.present? name rest) else Json.present? name rest := by
  cases child with
  | none =>
    rw [Option.none_or, ite_self]
    rfl
  | some value =>
    show Json.present? name ((key, value) :: rest) = _
    rw [Json.present?_cons, written value rfl, Option.some_or]
    rfl

@[simp] theorem present?_continuation {child : Option Json} (written : NonNull child)
    (name key : String) :
    Json.present? name (continuation key child) = if name = key then child else none := by
  have found := present?_continuation_append written name key []
  rwa [List.append_nil, Json.present?_nil, Option.or_none] at found

/-! ### Parts of nodes -/

/-- The entries that a node of any kind is written as: its header, its type, its settings and the
others. -/
def Header.node (header : Header) (kind : String) (settings : Json)
    (others : List (String × Json)) : List (String × Json) :=
  header.entries ++ [("type", .string kind), ("settings", settings)] ++ others

/-- The names that every node has entries for. -/
def Header.names : List String :=
  ["name", "displayName", "valid", "type", "settings"]

theorem present?_node {name : String} (other : name ∉ Header.names) (header : Header)
    (kind : String) (settings : Json) (others : List (String × Json)) :
    Json.present? name (header.node kind settings others) = Json.present? name others := by
  simp only [Header.names, List.mem_cons, not_or] at other
  simp [Header.node, Header.entries, other]

theorem present?_settings_node {settings : Json} (written : settings.isNull = false)
    (header : Header) (kind : String) (others : List (String × Json)) :
    Json.present? "settings" (header.node kind settings others) = some settings := by
  simp [Header.node, Header.entries, written]

/-- A written way of a split leads to what follows on it. -/
theorem Branch.present?_next {way : Branch Json} (written : NonNull way.next) :
    Json.present? "nextAction"
      (("optionId", .string way.optionId) :: continuation "nextAction" way.next) = way.next := by
  simp [written]

namespace Reading

theorem requiredText_of_present {fields : List (String × Json)} {name text : String}
    (present : Json.present? name fields = some (.string text)) (path : AccessPath) :
    requiredText fields path name = .ok text := by
  rw [requiredText, optionalText, present]

theorem header_node (found : Header) (kind : String) (settings : Json)
    (others : List (String × Json)) :
    header (found.node kind settings others) = .ok found ∧
      requiredText (found.node kind settings others) [] "type" = .ok kind :=
  ⟨rfl, rfl⟩

theorem settings_of_present (form : Form α) (clear : form.shape.clear = true) {value : α}
    {entries : List (String × Json)} (record : form.toJson value = .object entries)
    {fields : List (String × Json)}
    (present : Json.present? "settings" fields = some (form.toJson value)) :
    settings form fields = .ok value := by
  have read := form.ofJson_toJson clear value
  rw [record] at present read
  rw [settings, present]
  show (form.ofJson (.object entries)).mapError _ = _
  rw [read]
  rfl

theorem onlyOwn_of_absent {fields : List (String × Json)} {own : List String} (kind : String)
    (absent : ∀ field ∈ continuationFields, field ∈ own ∨ Json.present? field fields = none) :
    onlyOwn fields kind own = .ok () := by
  have none : continuationFields.find? (fun field =>
      !own.contains field && (Json.present? field fields).isSome) = none := by
    refine List.find?_eq_none.2 fun field member foreign => ?_
    rcases absent field member with mine | missing
    · simp [mine] at foreign
    · simp [missing] at foreign
  rw [onlyOwn, none]

theorem branch_toJson {way : Branch Json} (written : NonNull way.next) (index : Nat) :
    branch (way.toJson, index) = .ok way := by
  have optionId : Json.present? "optionId"
      (("optionId", .string way.optionId) :: continuation "nextAction" way.next) =
        some (.string way.optionId) := by
    simp [Json.isNull]
  simp only [branch, Branch.toJson, entries, bind, Except.bind, requiredText_of_present optionId,
    Branch.present?_next written]
  rfl

theorem mapM_branch {ways : List (Branch Json)} (written : ∀ way ∈ ways, NonNull way.next)
    (first : Nat) : ((ways.map Branch.toJson).zipIdx first).mapM branch = .ok ways := by
  induction ways generalizing first with
  | nil => rfl
  | cons way rest inductionHypothesis =>
    rw [List.map_cons, List.zipIdx_cons, List.mapM_cons,
      branch_toJson (written way List.mem_cons_self),
      inductionHypothesis fun way member => written way (List.mem_cons_of_mem _ member)]
    rfl

end Reading

/-! ### Steps -/

/-- No continuation of the step is `null`. -/
def Step.Written (step : Step Json) : Prop :=
  ∀ edge, NonNull (step.along edge)

/-- The entries that a step is written as. -/
def Step.entries (step : Step Json) : List (String × Json) :=
  step.header.node step.task.kindName step.task.settings
    (step.task.continuations ++ continuation "nextAction" step.next)

theorem Step.toJson_eq (step : Step Json) : step.toJson = .object step.entries := by
  rw [toJson, List.append_assoc]
  rfl

theorem Task.isNull_settings (task : Task α) : task.settings.isNull = false := by
  cases task <;> rfl

section Table

variable {step : Step Json}

theorem Step.present?_continuation (written : step.Written) :
    Json.present? "nextAction" step.entries = step.next ∧
      Json.present? "onSuccessAction" step.entries = step.along .onSuccess ∧
      Json.present? "onFailureAction" step.entries = step.along .onFailure ∧
      Json.present? "firstLoopAction" step.entries = step.along .loopBody := by
  obtain ⟨header, task, next⟩ := step
  have last := written .next
  have success := written .onSuccess
  have failure := written .onFailure
  have body := written .loopBody
  cases task <;>
    simp_all [Step.along, entries, present?_node, Header.names, Task.continuations]

/-- Only a split lists ways. -/
theorem Step.present?_branches (written : step.Written) :
    Json.present? "branches" step.entries =
      match step.task with
      | .split _ branches => some (.array (branches.map Branch.toJson))
      | _ => none := by
  obtain ⟨header, task, next⟩ := step
  have last := written .next
  have success := written .onSuccess
  have failure := written .onFailure
  have body := written .loopBody
  cases task <;>
    simp_all [Step.along, entries, present?_node, Header.names, Task.continuations, Json.isNull]

end Table

theorem Step.written_branches {header : Header} {settings : SplitSettings}
    {branches : List (Branch Json)} {next : Option Json}
    (written : (Step.mk header (.split settings branches) next).Written) :
    ∀ way ∈ branches, NonNull way.next := by
  intro way member value same
  obtain ⟨index, found⟩ := List.mem_iff_getElem?.1 member
  refine written (.branch index) value ?_
  simp only [Step.along, found, Option.bind_some, same]

/-- The fields of the continuations that a step of its kind owns. -/
def Task.own : Task α → List String
  | .code _ | .block _ => ["nextAction"]
  | .branch .. => ["nextAction", "onSuccessAction", "onFailureAction"]
  | .split .. => ["nextAction", "branches"]
  | .loop .. => ["nextAction", "firstLoopAction"]

namespace Reading

theorem onlyOwn_entries {step : Step Json} (written : step.Written) :
    onlyOwn step.entries step.task.kindName step.task.own = .ok () := by
  obtain ⟨-, success, failure, body⟩ := Step.present?_continuation written
  have ways := Step.present?_branches written
  refine onlyOwn_of_absent _ ?_
  obtain ⟨header, task, next⟩ := step
  cases task <;>
    simp_all [continuationFields, Task.own, Step.along]

/-- What a step does is read back. -/
theorem task_entries {step : Step Json} (written : step.Written) :
    task step.task.kindName step.entries = .ok step.task := by
  obtain ⟨-, success, failure, body⟩ := Step.present?_continuation written
  have ways := Step.present?_branches written
  have settings : Json.present? "settings" step.entries = some step.task.settings :=
    present?_settings_node step.task.isNull_settings _ _ _
  have own := onlyOwn_entries written
  obtain ⟨header, work, next⟩ := step
  cases work with
  | code found =>
    have read := settings_of_present CodeSettings.form rfl rfl settings
    refine bind_eq_ok.2 ⟨(), own, bind_eq_ok.2 ⟨found, read, ?_⟩⟩
    rfl
  | block found =>
    have read := settings_of_present BlockSettings.form rfl rfl settings
    refine bind_eq_ok.2 ⟨(), own, bind_eq_ok.2 ⟨found, read, ?_⟩⟩
    rfl
  | branch found onSuccess onFailure =>
    have read := settings_of_present BranchSettings.form rfl rfl settings
    refine bind_eq_ok.2 ⟨(), own, bind_eq_ok.2 ⟨found, read, ?_⟩⟩
    show Except.ok (Task.branch found _ _) = _
    rw [success, failure]
    rfl
  | split found branches =>
    have read := settings_of_present SplitSettings.form rfl rfl settings
    have listed := mapM_branch (Step.written_branches written) 0
    refine bind_eq_ok.2 ⟨(), own, bind_eq_ok.2 ⟨found, read, ?_⟩⟩
    refine bind_eq_ok.2 ⟨branches, ?_, rfl⟩
    rw [Reading.branches, ways]
    exact listed
  | loop found body' =>
    have read := settings_of_present LoopSettings.form rfl rfl settings
    refine bind_eq_ok.2 ⟨(), own, bind_eq_ok.2 ⟨found, read, ?_⟩⟩
    show Except.ok (Task.loop found _) = _
    rw [body]
    rfl

/-- A step is read back with its continuations. -/
theorem step_toJson {step : Step Json} (written : step.Written) :
    Reading.step step.toJson = .ok step := by
  have next := (Step.present?_continuation written).1
  obtain ⟨header, kind⟩ := header_node step.header step.task.kindName step.task.settings
    (step.task.continuations ++ continuation "nextAction" step.next)
  rw [Step.toJson_eq, Reading.step]
  refine bind_eq_ok.2 ⟨step.entries, rfl, bind_eq_ok.2 ⟨_, kind, bind_eq_ok.2 ⟨_, header, ?_⟩⟩⟩
  refine bind_eq_ok.2 ⟨_, task_entries written, ?_⟩
  show Except.ok (⟨step.header, step.task, _⟩ : Step Json) = _
  rw [next]

end Reading

end FlowGate
