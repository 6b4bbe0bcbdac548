/-
This file is about values that are changed before they are read. A change that each node carries
over to the values of its continuations is one that reading carries over to what is read: the node
that is read is the same but for the continuations, which are changed in their turn, and perhaps
for its header. By induction the tree that grows from a changed value is the tree of the value, with
every node altered, and the same problem ends the reading of both.
-/

import FlowGate.Proofs.Grammar

namespace FlowGate

/-! ### Changed continuations -/

/-- A way of a split with what follows on it changed. -/
def Branch.map (change : α → β) (branch : Branch α) : Branch β :=
  ⟨branch.optionId, branch.next.map change⟩

/-- What a step does, with its continuations changed. -/
def Task.map (change : α → β) : Task α → Task β
  | .code settings => .code settings
  | .block settings => .block settings
  | .branch settings onSuccess onFailure =>
    .branch settings (onSuccess.map change) (onFailure.map change)
  | .split settings branches => .split settings (branches.map (Branch.map change))
  | .loop settings body => .loop settings (body.map change)

/-- A step with its continuations changed, and its header too. -/
def Step.map (head : Header → Header) (change : α → β) (step : Step α) : Step β :=
  ⟨head step.header, step.task.map change, step.next.map change⟩

/-- Continuations with their edges, each of them changed. -/
def carried (change : α → β) (children : List (Edge × α)) : List (Edge × β) :=
  children.map fun child => (child.1, change child.2)

section Continuations

variable {head : Header → Header} {change : α → β}

theorem carried_along (edge : Edge) (next : Option α) :
    carried change (edge.along next) = edge.along (next.map change) := by
  cases next <;> rfl

theorem Branch.children_map (first : Nat) (branches : List (Branch α)) :
    Branch.children first (branches.map (Branch.map change)) =
      carried change (Branch.children first branches) := by
  induction branches generalizing first with
  | nil => rfl
  | cons branch rest inductionHypothesis =>
    rw [List.map_cons, Branch.children_cons, Branch.children_cons, inductionHypothesis, carried,
      carried, List.map_append]
    exact congrArg (· ++ _) (carried_along _ _).symm

/-- A changed step has changed continuations along the same edges. -/
theorem Step.children_map (step : Step α) :
    (step.map head change).children = carried change step.children := by
  obtain ⟨header, task, next⟩ := step
  rw [children, children, carried, List.map_append]
  refine congr (congrArg _ ?_) (carried_along _ _).symm
  cases task with
  | code settings => rfl
  | block settings => rfl
  | branch settings onSuccess onFailure =>
    exact congr (congrArg _ (carried_along _ _).symm) (carried_along _ _).symm |>.trans
      (List.map_append ..).symm
  | split settings branches => exact Branch.children_map 0 branches
  | loop settings body => exact (carried_along _ _).symm

/-- Without what follows it, a changed step is the step with its header changed. -/
theorem Step.bare_map (step : Step α) :
    ((step.map head change).bare : Step γ) = { step.bare with header := head step.header } := by
  obtain ⟨header, task, next⟩ := step
  cases task with
  | split settings branches =>
    simp only [Step.map, Task.map, bare, Task.bare, List.map_map]
    rfl
  | _ => rfl

end Continuations

/-! ### Changed values grow into altered trees -/

section Growth

variable {opening : Opening ε α β} {change : α → α} {alter : β → β} {Holds : α → Prop}

/-- By induction on the values, for every number: a tree is numbered from the end of those before
it. -/
theorem Opening.growAll_carried {values : List (Edge × α)} {depth : Nat} {path : List Edge}
    (each : ∀ value ∈ values, ∀ depth path number,
      opening.grow depth path (change value.2) =
        (opening.grow depth path value.2).map fun tree => tree.renew (fun _ => alter) number)
    (number : Nat) :
    opening.growAll depth path (carried change values) =
      (opening.growAll depth path values).map fun forest =>
        forest.renew (fun _ => alter) number := by
  induction values generalizing number with
  | nil =>
    rw [carried, List.map_nil, growAll_nil]
    rfl
  | cons value rest inductionHypothesis =>
    have later := inductionHypothesis fun value member =>
      each value (List.mem_cons_of_mem _ member)
    rw [carried] at later ⊢
    rw [List.map_cons, growAll_cons, growAll_cons, each value List.mem_cons_self _ _ number]
    cases opening.grow depth (path ++ [value.1]) value.2 with
    | error failure => rfl
    | ok tree =>
      show Except.map _ (opening.growAll depth path _) = Except.map _ (Except.map _ _)
      rw [later (number + tree.size)]
      cases opening.growAll depth path rest <;> rfl

/-- Where opening carries a change over to what hangs off a value, growing does too. The values
that the change is for have something in common, which they pass on to what hangs off them. -/
theorem Opening.grow_carried
    (opens : ∀ {depth place value}, Holds value → opening.opened depth place (change value) =
      (opening.opened depth place value).map fun found => (alter found.1, carried change found.2))
    (inherits : ∀ {depth place value item children}, Holds value →
      opening.opened depth place value = .ok (item, children) →
        ∀ child ∈ children, Holds child.2)
    (value : α) (holds : Holds value) :
    ∀ depth path number, opening.grow depth path (change value) =
      (opening.grow depth path value).map fun tree => tree.renew (fun _ => alter) number := by
  generalize weighs : opening.weight value = weight
  induction weight using Nat.strongRecOn generalizing value with
  | ind weight inductionHypothesis =>
    intro depth path number
    subst weighs
    have altered := @opens depth (fun () => stepSegments path) value holds
    cases opened : opening.opened depth (fun () => stepSegments path) value with
    | error failure =>
      rw [opened] at altered
      rw [grow_of_failed _ altered, grow_of_failed _ opened]
      rfl
    | ok found =>
      obtain ⟨item, children⟩ := found
      rw [opened] at altered
      have below := fun child member => inductionHypothesis _
        (opening.weight_lt_of_mem opened member) child.2 (inherits holds opened child member) rfl
      rw [grow_of_opened _ altered, grow_of_opened _ opened, growAll_carried below (number + 1)]
      cases opening.growAll (depth + 1) path children <;> rfl

end Growth

/-! ### Reading of changed entries -/

namespace Reading

theorem mapM_zipIdx_carried {read : α × Nat → Except ε β} {before : α → α} {after : β → β}
    {items : List α} (each : ∀ item ∈ items, ∀ position,
      read (before item, position) = (read (item, position)).map after) (first : Nat) :
    ((items.map before).zipIdx first).mapM read =
      ((items.zipIdx first).mapM read).map (List.map after) := by
  induction items generalizing first with
  | nil => rfl
  | cons item rest inductionHypothesis =>
    rw [List.map_cons, List.zipIdx_cons, List.zipIdx_cons, List.mapM_cons, List.mapM_cons,
      each item List.mem_cons_self,
      inductionHypothesis fun item member => each item (List.mem_cons_of_mem _ member)]
    cases read (item, first) with
    | error failure => rfl
    | ok found => cases (rest.zipIdx (first + 1)).mapM read <;> rfl

/-- Ways are read with what follows on them changed, where their items and the array of them are
changed accordingly. -/
theorem branches_carried {change item array : Json → Json} {fields fields' : List (String × Json)}
    (present : Json.present? "branches" fields' = (Json.present? "branches" fields).map array)
    (kind : ∀ value, (array value).kind = value.kind)
    (items : ∀ items, array (.array items) = .array (items.map item))
    (each : ∀ {values}, Json.present? "branches" fields = some (.array values) →
      ∀ value ∈ values, ∀ position, branch (item value, position) =
        (branch (value, position)).map (Branch.map change)) :
    branches fields' = (branches fields).map (List.map (Branch.map change)) := by
  rw [branches, branches, present]
  cases found : Json.present? "branches" fields with
  | none => rfl
  | some value =>
    have same := kind value
    cases value with
    | array values =>
      simp only [Option.map_some, items]
      exact mapM_zipIdx_carried (each found) 0
    | _ =>
      rw [Option.map_some]
      cases outer : array _ <;> rw [outer] at same <;> cases same
      rfl

/-- Entries whose continuations are those of other entries, changed. -/
structure Carries (change : Json → Json) (fields fields' : List (String × Json)) : Prop where
  single : ∀ name ∈ ["nextAction", "onSuccessAction", "onFailureAction", "firstLoopAction"],
    Json.present? name fields' = (Json.present? name fields).map change
  listed : (Json.present? "branches" fields').isSome = (Json.present? "branches" fields).isSome
  ways : branches fields' = (branches fields).map (List.map (Branch.map change))

section Entries

variable {change : Json → Json} {fields fields' : List (String × Json)} {kind : String}

/-- What stands under a name stays present or absent, if a change spares `null` and makes none. -/
theorem present?_of_field? {name : String}
    (kind : ∀ value, (change value).kind = value.kind)
    (found : Json.field? name fields' = (Json.field? name fields).map change) :
    Json.present? name fields' = (Json.present? name fields).map change := by
  rw [Json.present?, Json.present?, found]
  cases Json.field? name fields with
  | none => rfl
  | some value =>
    rw [Option.map_some, Option.filter_some, Option.filter_some, Json.isNull_of_kind (kind value)]
    split <;> rfl

theorem Carries.of_present
    (present : ∀ name, Json.present? name fields' = (Json.present? name fields).map change)
    (ways : branches fields' = (branches fields).map (List.map (Branch.map change))) :
    Carries change fields fields' :=
  ⟨fun name _ => present name, by rw [present, Option.isSome_map], ways⟩

/-! What is read of a field depends on what stands under it alone. -/

theorem optionalText_congr {name : String}
    (same : Json.present? name fields' = Json.present? name fields) (path : AccessPath) :
    optionalText fields' path name = optionalText fields path name := by
  rw [optionalText, optionalText, same]

theorem requiredText_congr {name : String}
    (same : Json.present? name fields' = Json.present? name fields) (path : AccessPath) :
    requiredText fields' path name = requiredText fields path name := by
  rw [requiredText, requiredText, optionalText_congr same]

theorem optionalFlag_congr {name : String}
    (same : Json.present? name fields' = Json.present? name fields) (path : AccessPath) :
    optionalFlag fields' path name = optionalFlag fields path name := by
  rw [optionalFlag, optionalFlag, same]

theorem header_congr
    (same : ∀ name ∈ ["name", "displayName", "valid"],
      Json.present? name fields' = Json.present? name fields) : header fields' = header fields := by
  rw [header, header, requiredText_congr (same "name" (by decide)),
    requiredText_congr (same "displayName" (by decide)),
    optionalFlag_congr (same "valid" (by decide))]

theorem settings_congr (form : Form α)
    (same : Json.present? "settings" fields' = Json.present? "settings" fields) :
    settings form fields' = settings form fields := by
  rw [settings, settings, same]

theorem triggerKind_congr
    (same : Json.present? "settings" fields' = Json.present? "settings" fields) (kind : String) :
    triggerKind kind fields' = triggerKind kind fields := by
  simp only [triggerKind, same, settings_congr _ same]

/-- A way is read with what follows on it changed, where its option is as before. -/
theorem branch_carried {item : Json → Json} (kind : ∀ value, (item value).kind = value.kind)
    (entries : ∀ fields, ∃ fields', item (.object fields) = .object fields' ∧
      Json.present? "optionId" fields' = Json.present? "optionId" fields ∧
      Json.present? "nextAction" fields' = (Json.present? "nextAction" fields).map change)
    (value : Json) (position : Nat) :
    branch (item value, position) =
      (branch (value, position)).map (Branch.map change) := by
  have same := kind value
  cases value with
  | object fields =>
    obtain ⟨fields', object, optionId, next⟩ := entries fields
    have read : ∀ fields : List (String × Json), branch (.object fields, position) =
        (requiredText fields [.field "branches", .index position] "optionId").bind fun optionId =>
          .ok (Branch.mk optionId (Json.present? "nextAction" fields)) := fun _ => rfl
    rw [object, read, read, next, requiredText_congr optionId]
    cases requiredText fields [.field "branches", .index position] "optionId" <;> rfl
  | _ =>
    cases changed : item _ <;> rw [changed] at same <;> cases same
    rfl

theorem onlyOwn_carried (carries : Carries change fields fields') (own : List String) :
    onlyOwn fields' kind own = onlyOwn fields kind own := by
  have single : ∀ name ∈ ["nextAction", "onSuccessAction", "onFailureAction",
      "firstLoopAction"],
        (Json.present? name fields').isSome = (Json.present? name fields).isSome := by
    intro name member
    rw [carries.single name member, Option.isSome_map]
  simp only [onlyOwn, continuationFields, List.find?_cons, List.find?_nil, carries.listed,
    single "nextAction" (by decide), single "onSuccessAction" (by decide),
    single "onFailureAction" (by decide), single "firstLoopAction" (by decide)]

/-- A task is read with its continuations changed. -/
theorem task_carried (carries : Carries change fields fields')
    (same : ∀ {α} (form : Form α), Json.actionShape? kind = some form.shape →
      settings form fields' = settings form fields) :
    task kind fields' = (task kind fields).map (Task.map change) := by
  have success := carries.single "onSuccessAction" (by decide)
  have failure := carries.single "onFailureAction" (by decide)
  have body := carries.single "firstLoopAction" (by decide)
  have own : ∀ kind own, onlyOwn fields' kind own = onlyOwn fields kind own :=
    fun _ => onlyOwn_carried carries
  unfold task
  split
  · rw [own, same CodeSettings.form rfl]
    cases onlyOwn fields "CODE" ["nextAction"] <;>
      cases settings CodeSettings.form fields <;> rfl
  · rw [own, same BlockSettings.form rfl]
    cases onlyOwn fields "BLOCK" ["nextAction"] <;>
      cases settings BlockSettings.form fields <;> rfl
  · rw [own, same BranchSettings.form rfl, success, failure]
    cases onlyOwn fields "BRANCH" ["nextAction", "onSuccessAction", "onFailureAction"] <;>
      cases settings BranchSettings.form fields <;> rfl
  · rw [own, same SplitSettings.form rfl, carries.ways]
    cases onlyOwn fields "SPLIT" ["nextAction", "branches"] <;>
      cases settings SplitSettings.form fields <;> cases branches fields <;> rfl
  · rw [own, same LoopSettings.form rfl, body]
    cases onlyOwn fields "LOOP_ON_ITEMS" ["nextAction", "firstLoopAction"] <;>
      cases settings LoopSettings.form fields <;> rfl
  · rfl

theorem step_object (fields : List (String × Json)) :
    step (.object fields) = (requiredText fields [] "type").bind fun kind =>
      (header fields).bind fun header => (task kind fields).bind fun task =>
        .ok (Step.mk header task (Json.present? "nextAction" fields)) := rfl

theorem triggerNode_object (fields : List (String × Json)) :
    triggerNode (.object fields) = (requiredText fields [] "type").bind fun kind =>
      (header fields).bind fun header => (triggerKind kind fields).bind fun start =>
        (onlyOwn fields kind ["nextAction"]).bind fun _ =>
          .ok (Trigger.mk header start none, Json.present? "nextAction" fields) := rfl

/-- A step is read with its continuations changed and its header altered. -/
theorem step_carried {head : Header → Header} (carries : Carries change fields fields')
    (type : requiredText fields' [] "type" = requiredText fields [] "type")
    (header : header fields' = (header fields).map head)
    (same : ∀ {kind}, Json.present? "type" fields = some (.string kind) →
      ∀ {α} (form : Form α), Json.actionShape? kind = some form.shape →
        settings form fields' = settings form fields) :
    step (.object fields') = (step (.object fields)).map (Step.map head change) := by
  have next := carries.single "nextAction" (by decide)
  rw [step_object, step_object]
  rw [type, header, next]
  cases typed : requiredText fields [] "type" with
  | error refusal => rfl
  | ok kind =>
    cases Reading.header fields with
    | error refusal => rfl
    | ok found =>
      have work := task_carried carries (same (requiredText_eq_ok.1 typed))
      show (task kind fields').bind _ = ((task kind fields).bind _).map _
      rw [work]
      cases task kind fields <;> rfl

/-- A trigger is read with its continuation changed and its header altered. -/
theorem triggerNode_carried {head : Header → Header} (carries : Carries change fields fields')
    (type : requiredText fields' [] "type" = requiredText fields [] "type")
    (header : header fields' = (header fields).map head)
    (same : ∀ {kind}, Json.present? "type" fields = some (.string kind) →
      triggerKind kind fields' = triggerKind kind fields) :
    triggerNode (.object fields') = (triggerNode (.object fields)).map fun found =>
      ({ found.1 with header := head found.1.header }, found.2.map change) := by
  have next := carries.single "nextAction" (by decide)
  rw [triggerNode_object, triggerNode_object]
  rw [type, header, next]
  cases typed : requiredText fields [] "type" with
  | error refusal => rfl
  | ok kind =>
    cases Reading.header fields with
    | error refusal => rfl
    | ok found =>
      show (triggerKind kind fields').bind _ = ((triggerKind kind fields).bind _).map _
      rw [same (requiredText_eq_ok.1 typed), onlyOwn_carried carries]
      cases triggerKind kind fields with
      | error refusal => rfl
      | ok start => cases onlyOwn fields kind ["nextAction"] <;> rfl

end Entries

/-! ### Reading of changed values -/

variable {options : Options} {head : Header → Header} {change : Json → Json}
  {Holds : Json → Prop}

/-- Where every node carries a change over, the tree that grows from a changed value is the tree of
the value with every node altered. -/
theorem grow_carried
    (steps : ∀ {value}, Holds value → step (change value) = (step value).map (Step.map head change))
    (inherits : ∀ {value child edge}, Holds value → value.along edge = some child → Holds child)
    {value : Json} (holds : Holds value) (depth : Nat) (path : List Edge) :
    (opening options).grow depth path (change value) =
      ((opening options).grow depth path value).map fun tree =>
        tree.renew (fun _ => Step.map head change) 0 := by
  refine Opening.grow_carried ?_ ?_ value holds depth path 0
  · intro depth place value holds
    simp only [opening, steps holds]
    by_cases deep : options.maxDepth.toNat < depth
    · simp only [if_pos deep]
      rfl
    · simp only [if_neg deep]
      cases step value with
      | error refusal => rfl
      | ok node => exact congrArg (fun children => Except.ok (_, children)) (Step.children_map node)
  · intro depth place value item children holds opened child member
    obtain ⟨read, rfl⟩ := opened_eq_ok opened
    exact inherits holds ((mem_children_of_step read).1 member)

/-- The values of continuations are gone from the action that is built, so a change of nothing else
does not show in it. -/
theorem action_carried {next : Option Json}
    (grown : ∀ value, next = some value → (opening options).grow 1 [.next] (change value) =
      ((opening options).grow 1 [.next] value).map fun tree =>
        tree.renew (fun _ => Step.map id change) 0) :
    action options (next.map change) = action options next := by
  cases next with
  | none => rfl
  | some value =>
    rw [Option.map_some, action_some, action_some, grown value rfl]
    cases (opening options).grow 1 [.next] value with
    | error refusal => rfl
    | ok tree =>
      have same := @Tree.fold_renew _ _ _ tree (fun _ => Step.map id change) Action.mk Action.mk
        (fun _ item children => by rw [Step.bare_map]; rfl) 0
      exact congrArg (fun action => Except.ok (some action)) same

end Reading

/-! ### Reading of documents -/

theorem Workflow.ofJson_object (options : Options) (fields : List (String × Json)) :
    ofJson options (.object fields) = (Reading.requiredText fields [] "name").bind fun name =>
      (Reading.optionalText fields [] "description").bind fun description =>
        (Reading.tags (Json.present? "tags" fields)).bind fun tags =>
          (Reading.template options (Json.present? "template" fields)).bind fun template =>
            .ok (Workflow.mk name (description.getD "") tags template) := rfl

end FlowGate
