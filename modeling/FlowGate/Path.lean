/-
This file names places. An access path leads from a value to a part of it, through field names and
list positions, and has a text such as `settings.options[2].id`. An edge is the continuation that
leads from one step of a workflow to another, and the edges between the trigger and a step make
the path of that step.
-/

import FlowGate.Json.Basic

namespace FlowGate

/-! ### Texts of paths -/

/-- The text of a path with one more field; at the start of a document it is the field alone. -/
def fieldPath (parent field : String) : String :=
  if parent.isEmpty then field else s!"{parent}.{field}"

/-- The text of a path with one more position. -/
def indexPath (parent : String) (index : Nat) : String :=
  s!"{parent}[{index}]"

/-- The text of a path that is given relative to another one. -/
def rerooted (relative base : String) : String :=
  if relative.isEmpty then base else fieldPath base relative

/-! ### Access paths -/

/-- One step of an access path. -/
inductive Segment where
  | field (name : String)
  | index (position : Nat)
  deriving DecidableEq, Repr

/-- A path from a value to a part of it. -/
abbrev AccessPath := List Segment

/-- The text of a path with one more segment. -/
def Segment.extend (parent : String) : Segment → String
  | .field name => fieldPath parent name
  | .index position => indexPath parent position

/-- The text of an access path. -/
def AccessPath.render (path : AccessPath) : String :=
  path.foldl Segment.extend ""

/-- The part of a value that a segment leads to. -/
def Segment.follow : Segment → Json → Option Json
  | .field name, .object fields => Json.field? name fields
  | .index position, .array items => items[position]?
  | _, _ => none

/-- The part of a value that a path leads to. -/
def AccessPath.follow : AccessPath → Json → Option Json
  | [], value => some value
  | segment :: rest, value => (segment.follow value).bind (AccessPath.follow rest)

/-! ### Edges -/

/-- The continuation through which a step is reached from the one before it. -/
inductive Edge where
  | next
  | onSuccess
  | onFailure
  | branch (index : Nat)
  | loopBody
  deriving DecidableEq, Repr

/-- The part that an edge adds to the text of a path. -/
def Edge.suffix : Edge → String
  | .next => ".nextAction"
  | .onSuccess => ".onSuccessAction"
  | .onFailure => ".onFailureAction"
  | .branch index => s!".branches[{index}].nextAction"
  | .loopBody => ".firstLoopAction"

/-- The segments that an edge stands for. -/
def Edge.segments : Edge → AccessPath
  | .next => [.field "nextAction"]
  | .onSuccess => [.field "onSuccessAction"]
  | .onFailure => [.field "onFailureAction"]
  | .branch index => [.field "branches", .index index, .field "nextAction"]
  | .loopBody => [.field "firstLoopAction"]

/-- The text of the path of the step that an edge leads to. -/
def Edge.childPath (parent : String) (edge : Edge) : String :=
  parent ++ edge.suffix

/-- The path of the trigger. -/
def rootPath : AccessPath := [.field "template", .field "trigger"]

/-- The text of the path of the step that is reached from the trigger through these edges. -/
def stepPath (downward : List Edge) : String :=
  downward.foldl Edge.childPath "template.trigger"

/-- The access path of the step that is reached from the trigger through these edges. -/
def stepSegments (downward : List Edge) : AccessPath :=
  rootPath ++ downward.flatMap Edge.segments

/-- The text of the path of the step that is reached through these edges, which are listed from
the step up to the trigger. -/
def nodePath (upward : List Edge) : String :=
  stepPath upward.reverse

/-! ### A step's path as text and as segments -/

theorem Edge.foldl_segments {parent : String} (nonempty : parent.isEmpty = false) (edge : Edge) :
    edge.segments.foldl Segment.extend parent = edge.childPath parent := by
  cases edge <;>
    simp [Edge.segments, Edge.childPath, Edge.suffix, Segment.extend, fieldPath, indexPath,
      nonempty, toString, String.append_assoc]

end FlowGate
