/-
This file holds what the rules of workflows find: a breach of one of them, with what its message
tells, and the place in the node where it shows. It also finds the first position of every name
in a list, on which the rules about repeated names rest.
-/

import FlowGate.Violation
import Std.Data.HashMap

namespace FlowGate

/-! ### Breaches -/

/-- A breach of a rule. -/
inductive Breach where
  | duplicateName (name firstPath : String)
  | invalidDefaultBranch (id : String)
  | splitRequiresBranch
  | duplicateOptionId (id : String) (first : Nat)
  | duplicateBranch (id : String)
  | unknownBranchOption (id : String)
  | missingBranch (id : String)
  | optionRequiresCondition (id : String)
  | branchRequiresCondition
  | emptyConditionGroup
  | unknownOperator (operator : String)
  deriving DecidableEq, Repr

/-- The kind of the violation that a breach is. -/
def Breach.kind : Breach → Violation.Kind
  | .duplicateName .. => .duplicateName
  | .invalidDefaultBranch _ => .invalidDefaultBranch
  | .splitRequiresBranch => .splitRequiresBranch
  | .duplicateOptionId .. => .duplicateOptionId
  | .duplicateBranch _ => .duplicateBranch
  | .unknownBranchOption _ => .unknownBranchOption
  | .missingBranch _ => .missingBranch
  | .optionRequiresCondition _ => .optionRequiresCondition
  | .branchRequiresCondition => .branchRequiresCondition
  | .emptyConditionGroup => .emptyConditionGroup
  | .unknownOperator _ => .unknownOperator

/-- The place of the options of a split. -/
def optionsPlace : AccessPath := [.field "settings", .field "options"]

/-- The words of a breach. -/
def Breach.message : Breach → String
  | .duplicateName name firstPath =>
    s!"step name '{name}' is already used by the node at '{firstPath}'"
  | .invalidDefaultBranch id => s!"default branch '{id}' does not match any option id"
  | .splitRequiresBranch => "split requires at least one branch"
  | .duplicateOptionId id first =>
    s!"option id '{id}' is already used by {AccessPath.render (optionsPlace ++ [.index first])}"
  | .duplicateBranch id => s!"option '{id}' has more than one branch"
  | .unknownBranchOption id =>
    s!"branch references option '{id}' which is not declared in settings.options"
  | .missingBranch id => s!"option '{id}' has no matching branch"
  | .optionRequiresCondition id => s!"option '{id}' requires at least one condition"
  | .branchRequiresCondition => "branch requires at least one condition"
  | .emptyConditionGroup => "condition group has no conditions"
  | .unknownOperator operator => s!"unknown condition operator '{operator}'"

/-- A breach and the place in its node where it shows. -/
structure Finding where
  place : AccessPath
  breach : Breach
  deriving DecidableEq, Repr

/-- A finding as a violation, located relative to its node. -/
def Finding.violation (finding : Finding) : Violation :=
  .plain finding.breach.kind finding.place.render finding.breach.message

/-! ### First positions -/

/-- The first position of each name of a list. -/
def firstPositions (names : List String) : Std.HashMap String Nat :=
  names.zipIdx.foldl (fun known (name, position) => known.insertIfNew name position) ∅

theorem getElem?_foldl_insertIfNew (names : List String) (start : Nat)
    (known : Std.HashMap String Nat) (name : String) :
    ((names.zipIdx start).foldl (fun known (name, position) => known.insertIfNew name position)
      known)[name]? = known[name]?.or ((names.idxOf? name).map (· + start)) := by
  induction names generalizing start known with
  | nil => simp
  | cons first rest inductionHypothesis =>
    simp only [List.zipIdx_cons, List.foldl_cons, inductionHypothesis,
      Std.HashMap.getElem?_insertIfNew, List.idxOf?_cons]
    by_cases same : first = name
    · subst same
      by_cases member : first ∈ known
      · simp [member]
      · simp [member]
    · have differs : (first == name) = false := by simpa using same
      simp only [differs, Bool.false_eq_true, false_and, ↓reduceIte, Option.map_map]
      congr 2
      funext position
      simp only [Function.comp_apply]
      omega

/-- The first position that is kept of a name is where the name first stands in the list. -/
theorem getElem?_firstPositions (names : List String) (name : String) :
    (firstPositions names)[name]? = names.idxOf? name := by
  rw [firstPositions, getElem?_foldl_insertIfNew]
  simp

end FlowGate
