/-
This file says why a document is not taken for a workflow. A refusal names its cause and the place
in the document; `Refusal.error` is the error that is reported for it.
-/

import FlowGate.Violation

namespace FlowGate

/-- Why a document, or a part of it, is refused. -/
inductive Refusal.Cause where
  /-- The text holds no JSON value. -/
  | unreadable (problem : String)
  /-- A value of another kind is wanted. -/
  | wrongKind (wanted found : Json.Kind)
  | missing (field : String)
  | unknownTrigger (tag : String)
  | unknownAction (tag : String)
  /-- A step of this kind does not own this continuation. -/
  | foreign (field kind : String)
  /-- The settings have not the form that the kind of the step asks for. -/
  | settings (reason : Mismatch)
  /-- The step lies deeper below the trigger than the cap allows. -/
  | tooDeep (cap : UInt64)

/-- Why a document is refused, and where. -/
structure Refusal where
  path : AccessPath
  cause : Refusal.Cause

namespace Refusal

/-- The words of a cause. -/
def Cause.message : Cause → String
  | .unreadable problem => s!"failed to parse workflow JSON: {problem}"
  | .wrongKind wanted found => s!"expected {wanted.words}, found {found.words}"
  | .missing field => s!"missing field `{field}`"
  | .unknownTrigger tag => s!"unknown trigger type '{tag}'"
  | .unknownAction tag => s!"unknown action type '{tag}'"
  | .foreign field kind => s!"`{field}` is not allowed on a {kind} node"
  | .settings reason => reason.message
  | .tooDeep cap => s!"maximum nesting depth of {cap} exceeded"

/-- The refusal with its path taken relative to another one. -/
def under (refusal : Refusal) (base : AccessPath) : Refusal :=
  { refusal with path := base ++ refusal.path }

/-- The error that is reported for a refusal. -/
def error (refusal : Refusal) : DecodeError :=
  ⟨refusal.path.render, refusal.cause.message⟩

end Refusal

end FlowGate
