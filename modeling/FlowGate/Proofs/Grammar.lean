/-
This file says which documents are workflows, and shows that just these are read. What is asked of
a document is asked of its fields, and what is asked of a node is asked of every value that the
trigger reaches; the order in which a reader looks at them, and where it would stop, do not show.
A field that is `null` is as good as absent, and keys that are not named here do not matter.
-/

import FlowGate.Proofs.Following
import FlowGate.Proofs.Written

namespace FlowGate

namespace Json

/-! ### Fields -/

/-- A field is absent or holds a value of a kind. -/
def MayHold (kind : Kind) (name : String) (fields : List (String × Json)) : Prop :=
  ∀ value, present? name fields = some value → value.kind = kind

/-- A field holds a string. -/
def HoldsText (name : String) (fields : List (String × Json)) : Prop :=
  ∃ text, present? name fields = some (.string text)

/-- A field is absent or holds an array with members of some sort. -/
def MayList (sort : Json → Prop) (name : String) (fields : List (String × Json)) : Prop :=
  ∀ value, present? name fields = some value →
    ∃ items, value = .array items ∧ ∀ item ∈ items, sort item

/-- The settings are an object of a shape. -/
def HoldsSettings (shape : Shape) (fields : List (String × Json)) : Prop :=
  ∃ entries held, present? "settings" fields = some (.object entries) ∧
    shape.ofJson (.object entries) = .ok held

/-! ### Nodes -/

/-- The shape of the settings of actions of a type, if there is such a type. -/
def actionShape? : String → Option Shape
  | "CODE" => some CodeSettings.form.shape
  | "BLOCK" => some BlockSettings.form.shape
  | "BRANCH" => some BranchSettings.form.shape
  | "SPLIT" => some SplitSettings.form.shape
  | "LOOP_ON_ITEMS" => some LoopSettings.form.shape
  | _ => none

/-- What is asked of the fields of every node of a type. -/
structure IsNode (kind : String) (fields : List (String × Json)) : Prop where
  typed : present? "type" fields = some (.string kind)
  named : HoldsText "name" fields
  displayed : HoldsText "displayName" fields
  marked : MayHold .boolean "valid" fields
  own : ∀ field ∈ Reading.continuationFields, field ∉ ownedFields kind →
    present? field fields = none

/-- One way of a split: it belongs to an option. -/
def IsWay (item : Json) : Prop :=
  ∃ entries, item = .object entries ∧ HoldsText "optionId" entries

/-- The type is one of actions, and what actions of this type hold is there. -/
def HoldsTask (kind : String) (fields : List (String × Json)) : Prop :=
  ∃ shape, actionShape? kind = some shape ∧ HoldsSettings shape fields ∧
    (kind = "SPLIT" → MayList IsWay "branches" fields)

/-- The type is one of triggers, and what triggers of this type hold is there. -/
def HoldsStart (kind : String) (fields : List (String × Json)) : Prop :=
  kind = "EMPTY" ∧ MayHold .object "settings" fields ∨
    kind = "BLOCK" ∧ HoldsSettings BlockTriggerSettings.form.shape fields

/-- An action, without regard to what it leads to. -/
def IsAction (value : Json) : Prop :=
  ∃ fields kind, value = .object fields ∧ IsNode kind fields ∧ HoldsTask kind fields

/-- A trigger, without regard to what it leads to. -/
def IsTrigger (value : Json) : Prop :=
  ∃ fields kind, value = .object fields ∧ IsNode kind fields ∧ HoldsStart kind fields

/-! ### Documents -/

/-- A trigger such that all it reaches are actions, none of them deeper than a cap. -/
structure StartsFlow (cap : Nat) (start : Json) : Prop where
  trigger : start.IsTrigger
  actions : ∀ path value, path ≠ [] → start.reach path = some value →
    value.IsAction ∧ path.length ≤ cap

/-- A template; more is asked of it only if it has a trigger. -/
def IsTemplate (cap : Nat) (value : Json) : Prop :=
  ∃ fields, value = .object fields ∧ ∀ start, present? "trigger" fields = some start →
    MayHold .string "displayName" fields ∧ MayHold .boolean "valid" fields ∧
      start.StartsFlow cap

/-- A document that describes a workflow. -/
def IsWorkflow (cap : Nat) (document : Json) : Prop :=
  ∃ fields, document = .object fields ∧ HoldsText "name" fields ∧
    MayHold .string "description" fields ∧
    MayList (fun item => item.kind = .string) "tags" fields ∧
    ∀ value, present? "template" fields = some value → value.IsTemplate cap

theorem actionShape?_eq_none {kind : String} (code : kind ≠ "CODE") (block : kind ≠ "BLOCK")
    (branch : kind ≠ "BRANCH") (split : kind ≠ "SPLIT") (loop : kind ≠ "LOOP_ON_ITEMS") :
    actionShape? kind = none := by
  unfold actionShape?
  split <;> first | contradiction | rfl

end Json

/-! ### Readers that succeed -/

/-- One reader after another succeeds if both do, where what the first one reads does not decide
about the second. -/
theorem exists_bind_eq_ok {first : Except ε α} {next : α → Except ε β} {holds : Prop}
    (later : ∀ found, first = .ok found → ((∃ value, next found = .ok value) ↔ holds)) :
    (∃ value, first.bind next = .ok value) ↔ (∃ found, first = .ok found) ∧ holds := by
  cases first with
  | error failure => simp [Except.bind]
  | ok found => simpa [Except.bind] using later found rfl

theorem exists_bind_pure {first : Except ε α} {finish : α → β} :
    (∃ value, first.bind (fun found => .ok (finish found)) = .ok value) ↔
      ∃ found, first = .ok found := by
  cases first <;> simp [Except.bind]

theorem exists_map_eq_ok {first : Except ε α} {change : α → β} :
    (∃ value, first.map change = .ok value) ↔ ∃ found, first = .ok found := by
  cases first <;> simp [Except.map]

theorem exists_mapM_eq_ok {items : List α} {read : α → Except ε β} :
    (∃ results, items.mapM read = .ok results) ↔
      ∀ item ∈ items, ∃ result, read item = .ok result := by
  induction items with
  | nil => exact ⟨fun _ item member => (by cases member), fun _ => ⟨[], rfl⟩⟩
  | cons item rest inductionHypothesis =>
    rw [List.mapM_cons, List.forall_mem_cons, ← inductionHypothesis]
    exact exists_bind_eq_ok fun result _ => exists_bind_pure

namespace Reading

variable {fields : List (String × Json)} {path : AccessPath} {name : String}

/-! ### Fields that are read -/

theorem exists_entries {value : Json} :
    (∃ found, entries path value = .ok found) ↔ ∃ fields, value = .object fields := by
  simp only [entries_eq_ok]

theorem exists_optionalText :
    (∃ found, optionalText fields path name = .ok found) ↔ Json.MayHold .string name fields := by
  rw [optionalText, Json.MayHold]
  cases Json.present? name fields with
  | none => simp
  | some value => cases value <;> simp [Json.kind]

theorem exists_requiredText :
    (∃ text, requiredText fields path name = .ok text) ↔ Json.HoldsText name fields := by
  rw [requiredText, optionalText, Json.HoldsText]
  cases Json.present? name fields with
  | none => simp
  | some value => cases value <;> simp

theorem exists_optionalFlag :
    (∃ found, optionalFlag fields path name = .ok found) ↔ Json.MayHold .boolean name fields := by
  rw [optionalFlag, Json.MayHold]
  cases Json.present? name fields with
  | none => simp
  | some value => cases value <;> simp [Json.kind]

theorem requiredText_eq_ok {text : String} :
    requiredText fields path name = .ok text ↔ Json.present? name fields = some (.string text) := by
  rw [requiredText, optionalText]
  cases Json.present? name fields with
  | none => simp
  | some value => cases value <;> simp

theorem exists_header :
    (∃ found, header fields = .ok found) ↔ Json.HoldsText "name" fields ∧
      Json.HoldsText "displayName" fields ∧ Json.MayHold .boolean "valid" fields := by
  rw [← exists_requiredText, ← exists_requiredText, ← exists_optionalFlag]
  exact exists_bind_eq_ok fun name _ => exists_bind_eq_ok fun displayName _ => exists_bind_pure

theorem exists_settings (form : Form α) :
    (∃ found, settings form fields = .ok found) ↔ Json.HoldsSettings form.shape fields := by
  rw [settings, Json.HoldsSettings]
  cases present : Json.present? "settings" fields with
  | none => simp
  | some value =>
    cases value with
    | object entries =>
      have read : (∃ found, form.ofJson (.object entries) = .ok found) ↔
          ∃ held, form.shape.ofJson (.object entries) = .ok held := exists_map_eq_ok
      simp [mapError_eq_ok, read]
    | _ => simp

theorem exists_onlyOwn {kind : String} {own : List String} :
    (∃ found, onlyOwn fields kind own = .ok found) ↔
      ∀ field ∈ continuationFields, field ∉ own → Json.present? field fields = none := by
  constructor
  · rintro ⟨_, only⟩ field member foreign
    exact absent_of_onlyOwn only field member foreign
  · intro absent
    refine ⟨(), onlyOwn_of_absent kind fun field member => ?_⟩
    by_cases mine : field ∈ own
    · exact Or.inl mine
    · exact Or.inr (absent field member mine)

/-! ### Nodes that are read -/

theorem exists_branch {numbered : Json × Nat} :
    (∃ way, branch numbered = .ok way) ↔ numbered.1.IsWay := by
  obtain ⟨item, position⟩ := numbered
  cases item with
  | object entries =>
    have read : (∃ way, branch (.object entries, position) = .ok way) ↔
        Json.HoldsText "optionId" entries := exists_bind_pure.trans exists_requiredText
    rw [read]
    simp [Json.IsWay]
  | _ => simp [branch, Json.IsWay, entries, bind, Except.bind]

/-- What the members of a numbered list are asked does not depend on their numbers. -/
theorem forall_zipIdx {items : List α} (holds : α → Prop) :
    (∀ numbered ∈ items.zipIdx, holds numbered.1) ↔ ∀ item ∈ items, holds item := by
  conv_rhs => rw [← List.zipIdx_map_fst 0 items]
  exact List.forall_mem_map.symm

theorem exists_branches :
    (∃ ways, branches fields = .ok ways) ↔ Json.MayList Json.IsWay "branches" fields := by
  rw [branches, Json.MayList]
  cases Json.present? "branches" fields with
  | none => simp
  | some value =>
    cases value with
    | array items =>
      have each : (∃ ways, items.zipIdx.mapM branch = .ok ways) ↔ ∀ item ∈ items, item.IsWay :=
        exists_mapM_eq_ok.trans ((forall₂_congr fun _ _ => exists_branch).trans
          (forall_zipIdx Json.IsWay))
      simpa using each
    | _ => simp

variable {kind : String}

/-- A task is read by its continuations and its settings, unless it lists ways. -/
theorem exists_single (form : Form α) (finish : α → Task Json) (single : kind ≠ "SPLIT")
    (known : Json.actionShape? kind = some form.shape) :
    (∃ work, ((onlyOwn fields kind (ownedFields kind)).bind fun _ =>
        (settings form fields).bind fun found => .ok (finish found)) = .ok work) ↔
      (∀ field ∈ continuationFields, field ∉ ownedFields kind →
        Json.present? field fields = none) ∧ Json.HoldsTask kind fields := by
  rw [← exists_onlyOwn]
  refine exists_bind_eq_ok fun _ _ => (exists_bind_pure.trans (exists_settings form)).trans ?_
  simp [Json.HoldsTask, known, single]

theorem exists_task :
    (∃ work, task kind fields = .ok work) ↔
      (∀ field ∈ continuationFields, field ∉ ownedFields kind →
        Json.present? field fields = none) ∧ Json.HoldsTask kind fields := by
  unfold task
  split
  · exact exists_single CodeSettings.form .code (by decide) rfl
  · exact exists_single BlockSettings.form .block (by decide) rfl
  · exact exists_single BranchSettings.form (.branch · _ _) (by decide) rfl
  · rw [← exists_onlyOwn]
    refine exists_bind_eq_ok fun _ _ =>
      (exists_bind_eq_ok fun _ _ => exists_bind_pure.trans exists_branches).trans ?_
    rw [exists_settings]
    simp [Json.HoldsTask, Json.actionShape?]
  · exact exists_single LoopSettings.form (.loop · _) (by decide) rfl
  · next code block branch split loop =>
    simp [Json.HoldsTask, Json.actionShape?_eq_none code block branch split loop]

theorem exists_triggerKind :
    (∃ found, triggerKind kind fields = .ok found) ↔ Json.HoldsStart kind fields := by
  unfold triggerKind
  split
  · cases present : Json.present? "settings" fields with
    | none => simp [Json.HoldsStart, Json.MayHold, present]
    | some value =>
      refine exists_map_eq_ok.trans (exists_entries.trans ?_)
      cases value <;> simp [Json.HoldsStart, Json.MayHold, present, Json.kind]
  · refine exists_map_eq_ok.trans ((exists_settings _).trans ?_)
    simp [Json.HoldsStart]
  · next empty block =>
    refine ⟨fun ⟨_, failed⟩ => (by cases failed), ?_⟩
    rintro (⟨same, -⟩ | ⟨same, -⟩)
    · exact (empty same).elim
    · exact (block same).elim

/-- What every node is asked comes apart into what is read before its work and beside it. -/
theorem isNode_iff :
    Json.IsNode kind fields ↔ Json.present? "type" fields = some (.string kind) ∧
      (Json.HoldsText "name" fields ∧ Json.HoldsText "displayName" fields ∧
        Json.MayHold .boolean "valid" fields) ∧
      ∀ field ∈ continuationFields, field ∉ ownedFields kind →
        Json.present? field fields = none :=
  ⟨fun ⟨typed, named, displayed, marked, own⟩ => ⟨typed, ⟨named, displayed, marked⟩, own⟩,
    fun ⟨typed, ⟨named, displayed, marked⟩, own⟩ => ⟨typed, named, displayed, marked, own⟩⟩

/-- A value is read as a step just if it is an action. -/
theorem exists_step {value : Json} : (∃ node, step value = .ok node) ↔ value.IsAction := by
  constructor
  · rintro ⟨node, read⟩
    obtain ⟨fields, object, read⟩ := bind_eq_ok.1 read
    obtain ⟨kind, typed, read⟩ := bind_eq_ok.1 read
    obtain ⟨header, headed, read⟩ := bind_eq_ok.1 read
    obtain ⟨work, done, -⟩ := bind_eq_ok.1 read
    obtain ⟨own, held⟩ := exists_task.1 ⟨work, done⟩
    exact ⟨fields, kind, entries_eq_ok.1 object,
      isNode_iff.2 ⟨requiredText_eq_ok.1 typed, exists_header.1 ⟨header, headed⟩, own⟩, held⟩
  · rintro ⟨fields, kind, rfl, node, held⟩
    obtain ⟨typed, headed, own⟩ := isNode_iff.1 node
    obtain ⟨header, headed⟩ := exists_header.2 headed
    obtain ⟨work, done⟩ := exists_task.2 ⟨own, held⟩
    exact ⟨_, bind_eq_ok.2 ⟨kind, requiredText_eq_ok.2 typed,
      bind_eq_ok.2 ⟨header, headed, bind_eq_ok.2 ⟨work, done, rfl⟩⟩⟩⟩

/-- A value is read as a trigger just if it is one. -/
theorem exists_triggerNode {value : Json} :
    (∃ found, triggerNode value = .ok found) ↔ value.IsTrigger := by
  constructor
  · rintro ⟨found, read⟩
    obtain ⟨fields, object, read⟩ := bind_eq_ok.1 read
    obtain ⟨kind, typed, read⟩ := bind_eq_ok.1 read
    obtain ⟨header, headed, read⟩ := bind_eq_ok.1 read
    obtain ⟨start, started, read⟩ := bind_eq_ok.1 read
    obtain ⟨_, only, -⟩ := bind_eq_ok.1 read
    have held := exists_triggerKind.1 ⟨start, started⟩
    obtain rfl := kindName_of_triggerKind started
    have own := exists_onlyOwn.1 ⟨_, only⟩
    rw [← start.ownedFields_kindName] at own
    exact ⟨fields, _, entries_eq_ok.1 object,
      isNode_iff.2 ⟨requiredText_eq_ok.1 typed, exists_header.1 ⟨header, headed⟩, own⟩, held⟩
  · rintro ⟨fields, kind, rfl, node, held⟩
    obtain ⟨typed, headed, own⟩ := isNode_iff.1 node
    obtain ⟨header, headed⟩ := exists_header.2 headed
    obtain ⟨start, started⟩ := exists_triggerKind.2 held
    obtain rfl := kindName_of_triggerKind started
    rw [start.ownedFields_kindName] at own
    obtain ⟨_, only⟩ := exists_onlyOwn.2 own
    exact ⟨_, bind_eq_ok.2 ⟨_, requiredText_eq_ok.2 typed, bind_eq_ok.2 ⟨header, headed,
      bind_eq_ok.2 ⟨start, started, bind_eq_ok.2 ⟨_, only, rfl⟩⟩⟩⟩⟩

/-! ### Documents that are read -/

variable {options : Options}

/-- What follows a trigger is read just if all that its next value reaches are actions which are
not too deep. -/
theorem exists_action {next : Option Json} :
    (∃ found, action options next = .ok found) ↔
      ∀ value, next = some value → ∀ path target, value.reach path = some target →
        target.IsAction ∧ path.length + 1 ≤ options.maxDepth.toNat := by
  cases next with
  | none => simp [action_none]
  | some value =>
    rw [action_some, exists_map_eq_ok, exists_grow_iff]
    simp only [exists_step, Nat.add_comm 1, Option.some.injEq, forall_eq']

/-- A trigger is read just if its node is read and so is all that follows it. -/
theorem exists_trigger {value : Json} :
    (∃ found, trigger options value = .ok found) ↔ value.StartsFlow options.maxDepth.toNat := by
  constructor
  · rintro ⟨found, read⟩
    obtain ⟨⟨start, next⟩, started, read⟩ := bind_eq_ok.1 read
    obtain ⟨following, read, -⟩ := bind_eq_ok.1 read
    have started := mapError_eq_ok.1 started
    refine ⟨exists_triggerNode.1 ⟨_, started⟩, fun path target below reached => ?_⟩
    cases path with
    | nil => exact absurd rfl below
    | cons edge path =>
      obtain ⟨child, here, later⟩ := Option.bind_eq_some_iff.1 reached
      rw [along_of_triggerNode started] at here
      obtain ⟨rfl, present⟩ := Option.ite_none_right_eq_some.1 here
      exact exists_action.1 ⟨following, read⟩ child present path target later
  · rintro ⟨trigger, actions⟩
    obtain ⟨⟨start, next⟩, started⟩ := exists_triggerNode.2 trigger
    have each : ∀ child, next = some child → ∀ path target, child.reach path = some target →
        target.IsAction ∧ path.length + 1 ≤ options.maxDepth.toNat := by
      intro child present path target later
      refine actions (.next :: path) target (List.cons_ne_nil _ _) ?_
      rw [Json.reach, along_of_triggerNode started, if_pos rfl, present, Option.bind_some, later]
    obtain ⟨following, read⟩ := exists_action.2 each
    exact ⟨_, bind_eq_ok.2 ⟨_, mapError_eq_ok.2 started, bind_eq_ok.2 ⟨following, read, rfl⟩⟩⟩

theorem template_of_absent (absent : Json.present? "trigger" fields = none) :
    template options (some (.object fields)) = .ok none := by
  simp only [template, entries, bind, Except.bind, absent]
  rfl

theorem template_of_present {start : Json} (present : Json.present? "trigger" fields = some start) :
    template options (some (.object fields)) =
      (optionalText fields [.field "template"] "displayName").bind fun displayName =>
        (optionalFlag fields [.field "template"] "valid").bind fun valid =>
          (trigger options start).bind fun trigger =>
            .ok (some ⟨displayName.getD "", valid.getD false, trigger⟩) := by
  simp only [template, entries, bind, Except.bind, present]
  rfl

theorem exists_template {value : Option Json} :
    (∃ found, template options value = .ok found) ↔
      ∀ present, value = some present → present.IsTemplate options.maxDepth.toNat := by
  cases value with
  | none => simp [template]
  | some value =>
    cases value with
    | object fields =>
      simp only [Option.some.injEq, forall_eq', Json.IsTemplate, Json.object.injEq,
        exists_eq_left']
      cases present : Json.present? "trigger" fields with
      | none => simp [template_of_absent present]
      | some start =>
        simp only [template_of_present present, Option.some.injEq, forall_eq']
        rw [← exists_optionalText, ← exists_optionalFlag, ← exists_trigger]
        exact exists_bind_eq_ok fun _ _ => exists_bind_eq_ok fun _ _ => exists_bind_pure
    | _ => simp [template, entries, Json.IsTemplate, bind, Except.bind]

theorem exists_tags {value : Option Json} :
    (∃ found, tags value = .ok found) ↔ ∀ present, value = some present →
      ∃ items, present = .array items ∧ ∀ item ∈ items, item.kind = .string := by
  have each : ∀ numbered : Json × Nat,
      (∃ name, tag numbered = .ok name) ↔ numbered.1.kind = .string := by
    rintro ⟨item, position⟩
    cases item <;> simp [tag, Json.kind]
  cases value with
  | none => simp [tags]
  | some value =>
    cases value with
    | array items =>
      have read : (∃ found, tags (some (.array items)) = .ok found) ↔
          ∀ item ∈ items, item.kind = .string :=
        exists_map_eq_ok.trans
          (exists_mapM_eq_ok.trans ((forall₂_congr fun _ _ => each _).trans
            (forall_zipIdx fun item : Json => item.kind = Json.Kind.string)))
      rw [read]
      simp
    | _ => simp [tags]

end Reading

/-- A document is taken for a workflow just if it describes one: reading finds fault with no value
but those that the grammar names, and with each of these only for what the grammar asks of it. -/
theorem Workflow.exists_ofJson_iff (options : Options) (document : Json) :
    (∃ workflow, Workflow.ofJson options document = .ok workflow) ↔
      document.IsWorkflow options.maxDepth.toNat := by
  cases document with
  | object fields =>
    simp only [Json.IsWorkflow, Json.object.injEq, exists_eq_left']
    rw [← Reading.exists_requiredText, ← Reading.exists_optionalText, Json.MayList,
      ← Reading.exists_tags, ← Reading.exists_template]
    exact exists_bind_eq_ok fun _ _ => exists_bind_eq_ok fun _ _ => exists_bind_eq_ok fun _ _ =>
      exists_bind_pure
  | _ => simp [Workflow.ofJson, Reading.entries, Json.IsWorkflow, bind, Except.bind]

end FlowGate
