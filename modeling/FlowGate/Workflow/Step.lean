/-
This file holds one step of a workflow and the continuations that it owns. A step is generic in
what its continuations lead to: with values in place of the steps that follow it is a step whose
successors are still to be read, and with actions it is a tree. Continuations are listed in the
order in which they are visited, each with its edge; they can be replaced in their places, and a
step can be stripped of them and have them attached again.
-/

import FlowGate.Path
import FlowGate.Workflow.Settings

namespace FlowGate

/-- What every node of a workflow has, whatever it does. -/
structure Header where
  name : String
  displayName : String
  valid : Bool
  deriving DecidableEq, Repr

/-- One way of a split: the option that it belongs to, and what follows on it. -/
structure Branch (α : Type) where
  optionId : String
  next : Option α

/-- What a step does, with the continuations that only a step of its kind has. -/
inductive Task (α : Type) where
  | code (settings : CodeSettings)
  | block (settings : BlockSettings)
  | branch (settings : BranchSettings) (onSuccess onFailure : Option α)
  | split (settings : SplitSettings) (branches : List (Branch α))
  | loop (settings : LoopSettings) (body : Option α)

/-- A step: what it does, and what follows when it is done. -/
structure Step (α : Type) where
  header : Header
  task : Task α
  next : Option α

/-! ### Continuations -/

/-- A continuation with its edge, if there is one. -/
def Edge.along (edge : Edge) (child : Option α) : List (Edge × α) :=
  child.toList.map fun child => (edge, child)

/-- The continuations of ways of a split that are numbered from `first` on. -/
def Branch.children (first : Nat) (branches : List (Branch α)) : List (Edge × α) :=
  (branches.zipIdx first).flatMap fun (branch, index) => (Edge.branch index).along branch.next

theorem Branch.children_cons (first : Nat) (branch : Branch α) (rest : List (Branch α)) :
    Branch.children first (branch :: rest) =
      (Edge.branch first).along branch.next ++ Branch.children (first + 1) rest := by
  simp only [Branch.children, List.zipIdx_cons, List.flatMap_cons]

/-- The continuations that belong to what a step does. -/
def Task.children : Task α → List (Edge × α)
  | .code _ | .block _ => []
  | .branch _ onSuccess onFailure =>
    Edge.onSuccess.along onSuccess ++ Edge.onFailure.along onFailure
  | .split _ branches => Branch.children 0 branches
  | .loop _ body => Edge.loopBody.along body

/-- All continuations of a step in the order in which they are visited. -/
def Step.children (step : Step α) : List (Edge × α) :=
  step.task.children ++ Edge.next.along step.next

/-- What a step does, without its continuations. -/
def Task.bare : Task α → Task β
  | .code settings => .code settings
  | .block settings => .block settings
  | .branch settings _ _ => .branch settings none none
  | .split settings branches =>
    .split settings (branches.map fun branch => ⟨branch.optionId, none⟩)
  | .loop settings _ => .loop settings none

/-- A step without its continuations; the ways of a split keep the options they belong to. -/
def Step.bare (step : Step α) : Step β :=
  ⟨step.header, step.task.bare, none⟩

/-- Hangs a child off the continuation that the edge names. An edge that steps of this kind do not
own, or that leads to a way which is not there, changes nothing. -/
def Step.attach (step : Step α) (edge : Edge) (child : α) : Step α :=
  match edge, step.task with
  | .next, _ => { step with next := some child }
  | .onSuccess, .branch settings _ onFailure =>
    { step with task := .branch settings (some child) onFailure }
  | .onFailure, .branch settings onSuccess _ =>
    { step with task := .branch settings onSuccess (some child) }
  | .branch index, .split settings branches =>
    let continued := branches.modify index fun branch => { branch with next := some child }
    { step with task := .split settings continued }
  | .loopBody, .loop settings _ => { step with task := .loop settings (some child) }
  | _, _ => step

/-- What a step does when its continuations are taken off, with the continuations. -/
def Task.taken : Task α → List α × Task α
  | .code settings => ([], .code settings)
  | .block settings => ([], .block settings)
  | .branch settings onSuccess onFailure =>
    (onSuccess.toList ++ onFailure.toList, .branch settings none none)
  | .split settings branches =>
    (branches.filterMap Branch.next,
      .split settings (branches.map fun branch => { branch with next := none }))
  | .loop settings body => (body.toList, .loop settings none)

/-- Takes the continuations off a step: what they were, and the step that is left. -/
def Step.taken (step : Step α) : List α × Step α :=
  let (own, task) := step.task.taken
  (own ++ step.next.toList, { step with task, next := none })

/-! ### Continuations in their places -/

/-- A continuation that can be replaced where it is: its edge, what is there, and the step with
something else there. -/
structure Step.Handle (α : Type) where
  edge : Edge
  child : α
  replaced : α → Step α

/-- A handle on a continuation, if there is one. -/
def Edge.handles (edge : Edge) (child : Option α) (replaced : α → Step α) :
    List (Step.Handle α) :=
  child.toList.map fun child => ⟨edge, child, replaced⟩

/-- Handles on all continuations of a step in the order in which they are visited. -/
def Step.handles (step : Step α) : List (Step.Handle α) :=
  let own :=
    match step.task with
    | .code _ | .block _ => []
    | .branch settings onSuccess onFailure =>
      (Edge.onSuccess.handles onSuccess fun child =>
        { step with task := .branch settings (some child) onFailure }) ++
      Edge.onFailure.handles onFailure fun child =>
        { step with task := .branch settings onSuccess (some child) }
    | .split settings branches =>
      branches.zipIdx.flatMap fun (branch, index) =>
        (Edge.branch index).handles branch.next fun child =>
          let continued := branches.set index { branch with next := some child }
          { step with task := .split settings continued }
    | .loop settings body =>
      Edge.loopBody.handles body fun child => { step with task := .loop settings (some child) }
  own ++ Edge.next.handles step.next fun child => { step with next := some child }

/-! ### Weights -/

/-- The sum of the weights of values that are listed with their keys, as continuations are with
their edges. The zero of the sum is spelled out, to be the numeral wherever this is read. -/
def weightOfChildren (weight : α → Nat) (children : List (κ × α)) : Nat :=
  @List.sum Nat _ Zero.ofOfNat0 (children.map fun child => weight child.2)

@[simp] theorem weightOfChildren_nil (weight : α → Nat) :
    weightOfChildren weight ([] : List (κ × α)) = 0 := rfl

@[simp] theorem weightOfChildren_cons (weight : α → Nat) (child : κ × α) (rest : List (κ × α)) :
    weightOfChildren weight (child :: rest) = weight child.2 + weightOfChildren weight rest := by
  rw [weightOfChildren, List.map_cons, List.sum_cons, weightOfChildren]

@[simp] theorem weightOfChildren_append (weight : α → Nat) (first second : List (κ × α)) :
    weightOfChildren weight (first ++ second) =
      weightOfChildren weight first + weightOfChildren weight second := by
  simp only [weightOfChildren, List.map_append, List.sum_append_nat]

theorem weightOfChildren_perm (weight : α → Nat) {first second : List (κ × α)}
    (same : first.Perm second) :
    weightOfChildren weight first = weightOfChildren weight second :=
  (same.map _).sum_nat

@[simp] theorem weightOfChildren_along (weight : α → Nat) (edge : Edge) (next : Option α) :
    weightOfChildren weight (edge.along next) = next.elim 0 weight := by
  cases next <;> simp [weightOfChildren, Edge.along]

/-- The weight does not depend on the keys. -/
theorem weightOfChildren_keys (weight : α → Nat) (key : κ × α → ι) (children : List (κ × α)) :
    weightOfChildren weight (children.map fun child => (key child, child.2)) =
      weightOfChildren weight children := by
  rw [weightOfChildren, List.map_map]
  rfl

/-! ### Properties of a step -/

/-- The name of what a step does on the wire. -/
def Task.kindName : Task α → String
  | .code _ => "CODE"
  | .block _ => "BLOCK"
  | .branch .. => "BRANCH"
  | .split .. => "SPLIT"
  | .loop .. => "LOOP_ON_ITEMS"

/-- What happens when the step fails, if its settings tell. -/
def Task.errorHandling : Task α → Option ErrorHandling
  | .code settings => settings.errorHandling
  | .block settings => settings.errorHandling
  | .branch settings _ _ => settings.errorHandling
  | .split settings _ => settings.errorHandling
  | .loop settings _ => settings.errorHandling

/-- A step with another mark of validity. -/
def Step.marked (step : Step α) (valid : Bool) : Step α :=
  { step with header := { step.header with valid } }

end FlowGate
