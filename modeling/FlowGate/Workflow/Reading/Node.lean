/-
This file reads single nodes of a workflow from JSON values. A field that is `null` is absent, and
keys that are not known do not matter. The continuations of a step are left as values, to be read
in their turn; a continuation that nodes of the kind do not own is refused. Problems are located
relative to the node, and the first one ends the reading.
-/

import FlowGate.Refusal
import FlowGate.Workflow.Basic

namespace FlowGate.Reading

/-! ### Fields -/

/-- The entries of an object that is wanted at a path. -/
def entries (path : AccessPath) (value : Json) : Except Refusal (List (String × Json)) :=
  match value with
  | .object fields => .ok fields
  | other => .error ⟨path, .wrongKind .object other.kind⟩

/-- A string field that may be absent. -/
def optionalText (fields : List (String × Json)) (path : AccessPath) (name : String) :
    Except Refusal (Option String) :=
  match Json.present? name fields with
  | none => .ok none
  | some (.string text) => .ok (some text)
  | some other => .error ⟨path ++ [.field name], .wrongKind .string other.kind⟩

/-- A string field. -/
def requiredText (fields : List (String × Json)) (path : AccessPath) (name : String) :
    Except Refusal String :=
  match optionalText fields path name with
  | .error refusal => .error refusal
  | .ok none => .error ⟨path ++ [.field name], .missing name⟩
  | .ok (some text) => .ok text

/-- A boolean field that may be absent. -/
def optionalFlag (fields : List (String × Json)) (path : AccessPath) (name : String) :
    Except Refusal (Option Bool) :=
  match Json.present? name fields with
  | none => .ok none
  | some (.bool flag) => .ok (some flag)
  | some other => .error ⟨path ++ [.field name], .wrongKind .boolean other.kind⟩

/-- The header of a node. -/
def header (fields : List (String × Json)) : Except Refusal Header := do
  let name ← requiredText fields [] "name"
  let displayName ← requiredText fields [] "displayName"
  let valid ← optionalFlag fields [] "valid"
  return ⟨name, displayName, valid.getD false⟩

/-- The settings of a node. -/
def settings (form : Form α) (fields : List (String × Json)) : Except Refusal α :=
  match Json.present? "settings" fields with
  | none => .error ⟨[.field "settings"], .missing "settings"⟩
  | some value@(.object _) =>
    (form.ofJson value).mapError fun reason => ⟨[.field "settings"], .settings reason⟩
  | some other => .error ⟨[.field "settings"], .wrongKind .object other.kind⟩

/-! ### Continuations -/

/-- Every field that leads from a node to another one. -/
def continuationFields : List String :=
  ["nextAction", "onSuccessAction", "onFailureAction", "branches", "firstLoopAction"]

/-- Fails if a node has a continuation besides those that nodes of its kind own. -/
def onlyOwn (fields : List (String × Json)) (kind : String) (own : List String) :
    Except Refusal Unit :=
  match continuationFields.find? fun field =>
      !own.contains field && (Json.present? field fields).isSome with
  | none => .ok ()
  | some field => .error ⟨[.field field], .foreign field kind⟩

/-- One way of a split. -/
def branch (numbered : Json × Nat) : Except Refusal (Branch Json) := do
  let path : AccessPath := [.field "branches", .index numbered.2]
  let fields ← entries path numbered.1
  let optionId ← requiredText fields path "optionId"
  return ⟨optionId, Json.present? "nextAction" fields⟩

/-- The ways of a split. -/
def branches (fields : List (String × Json)) : Except Refusal (List (Branch Json)) :=
  match Json.present? "branches" fields with
  | none => .ok []
  | some (.array items) => items.zipIdx.mapM branch
  | some other => .error ⟨[.field "branches"], .wrongKind .array other.kind⟩

/-! ### Nodes -/

/-- What a step does. -/
def task (kind : String) (fields : List (String × Json)) : Except Refusal (Task Json) :=
  match kind with
  | "CODE" => do
    onlyOwn fields kind ["nextAction"]
    let settings ← settings CodeSettings.form fields
    return .code settings
  | "BLOCK" => do
    onlyOwn fields kind ["nextAction"]
    let settings ← settings BlockSettings.form fields
    return .block settings
  | "BRANCH" => do
    onlyOwn fields kind ["nextAction", "onSuccessAction", "onFailureAction"]
    let settings ← settings BranchSettings.form fields
    return .branch settings (Json.present? "onSuccessAction" fields)
      (Json.present? "onFailureAction" fields)
  | "SPLIT" => do
    onlyOwn fields kind ["nextAction", "branches"]
    let settings ← settings SplitSettings.form fields
    let branches ← branches fields
    return .split settings branches
  | "LOOP_ON_ITEMS" => do
    onlyOwn fields kind ["nextAction", "firstLoopAction"]
    let settings ← settings LoopSettings.form fields
    return .loop settings (Json.present? "firstLoopAction" fields)
  | tag => .error ⟨[.field "type"], .unknownAction tag⟩

/-- One step, with the values of its continuations. -/
def step (value : Json) : Except Refusal (Step Json) := do
  let fields ← entries [] value
  let kind ← requiredText fields [] "type"
  let header ← header fields
  let task ← task kind fields
  return ⟨header, task, Json.present? "nextAction" fields⟩

/-- What starts a workflow. -/
def triggerKind (kind : String) (fields : List (String × Json)) : Except Refusal TriggerKind :=
  match kind with
  | "EMPTY" =>
    match Json.present? "settings" fields with
    | none => .ok (.empty [])
    | some value => (entries [.field "settings"] value).map .empty
  | "BLOCK" => (settings BlockTriggerSettings.form fields).map .block
  | tag => .error ⟨[.field "type"], .unknownTrigger tag⟩

/-- A trigger without the action that follows it, and the value of that action. -/
def triggerNode (value : Json) : Except Refusal (Trigger × Option Json) := do
  let fields ← entries [] value
  let kind ← requiredText fields [] "type"
  let header ← header fields
  let trigger ← triggerKind kind fields
  onlyOwn fields kind ["nextAction"]
  return (⟨header, trigger, none⟩, Json.present? "nextAction" fields)

end FlowGate.Reading
