/-
This file takes JSON values for workflows. A document is read from the outside in and step by step,
in the order in which steps are visited, and the first problem ends the reading. Steps are listed
with the values of their continuations, and the list is then built into a tree.
-/

import FlowGate.Options
import FlowGate.Traversal
import FlowGate.Workflow.Reading.Weight

namespace FlowGate

namespace Reading

/-! ### Steps -/

/-- Values open into steps, as deep as the cap allows. -/
def opening (options : Options) : Opening Refusal Json (Step Json) where
  weight := Json.weight
  opened depth place value :=
    if options.maxDepth.toNat < depth then .error ⟨place (), .tooDeep options.maxDepth⟩
    else
      match step value with
      | .error refusal => .error (refusal.under (place ()))
      | .ok node => .ok (node, node.children)
  lighter {_ _ _ _ _} opened := by
    split at opened
    · cases opened
    · split at opened
      · cases opened
      · next read => cases opened; exact step_weight read

/-- The steps that begin with a value, listed in the order in which they are visited. -/
def slots (options : Options) (first : Option Json) : Except Refusal (Visits (Step Json)) :=
  (opening options).explore (first.toList.map fun value => ⟨value, 1, none, some .next⟩) #[]

/-- The action that a value holds. -/
def action (options : Options) (first : Option Json) : Except Refusal (Option Action) :=
  (slots options first).map fun visits => visits.assemble Action.mk

/-! ### Documents -/

/-- A trigger and everything that follows it. -/
def trigger (options : Options) (value : Json) : Except Refusal Trigger := do
  let (trigger, next) ← (triggerNode value).mapError fun refusal => refusal.under rootPath
  let next ← action options next
  return { trigger with next }

/-- The template of a document; without a trigger there is none. -/
def template (options : Options) (value : Option Json) : Except Refusal (Option Template) :=
  match value with
  | none => .ok none
  | some value => do
    let path : AccessPath := [.field "template"]
    let fields ← entries path value
    match Json.present? "trigger" fields with
    | none => return none
    | some value =>
      let displayName ← optionalText fields path "displayName"
      let valid ← optionalFlag fields path "valid"
      let trigger ← trigger options value
      return some ⟨displayName.getD "", valid.getD false, trigger⟩

/-- One tag. -/
def tag (numbered : Json × Nat) : Except Refusal String :=
  match numbered.1 with
  | .string name => .ok name
  | other => .error ⟨[.field "tags", .index numbered.2], .wrongKind .string other.kind⟩

/-- The tags of a document. -/
def tags (value : Option Json) : Except Refusal Tags :=
  match value with
  | none => .ok .empty
  | some (.array items) => (items.zipIdx.mapM tag).map Tags.ofList
  | some other => .error ⟨[.field "tags"], .wrongKind .array other.kind⟩

end Reading

/-- Takes a value for a workflow. -/
def Workflow.ofJson (options : Options) (document : Json) : Except Refusal Workflow := do
  let fields ← Reading.entries [] document
  let name ← Reading.requiredText fields [] "name"
  let description ← Reading.optionalText fields [] "description"
  let tags ← Reading.tags (Json.present? "tags" fields)
  let template ← Reading.template options (Json.present? "template" fields)
  return ⟨name, description.getD "", tags, template⟩

/-- Reads the text of a document. -/
def Json.readDocument (text : String) : Except Refusal Json :=
  (Json.read text).mapError fun fault => ⟨[], .unreadable (fault.message text)⟩

/-- Reads the text of a workflow. -/
def Workflow.read (options : Options) (text : String) : Except Refusal Workflow := do
  let document ← Json.readDocument text
  Workflow.ofJson options document

end FlowGate
