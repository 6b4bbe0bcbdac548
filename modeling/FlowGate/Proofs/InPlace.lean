/-
This file says that marks can be set where they are. `Action.marked` lists an action, sets the marks
in the list and builds the action up from it. The loop here keeps the whole action and the places
in it that are still to be visited: it sets the mark of what is at the first of them, writing
through the handles on the way there, and goes on with the handles of what it found. Writing below
a place is attaching to the step that stands at it, so the loop leaves what the list is built into.
-/

import FlowGate.Proofs.Attachment
import FlowGate.Proofs.Marking
import FlowGate.Proofs.Regrowth

namespace FlowGate

/-! ### Writing through handles -/

/-- A step in which what an edge leads to is changed where it is. -/
def Step.changed (step : Step α) (edge : Edge) (change : α → α) : Step α :=
  match step.handles.find? fun handle => handle.edge = edge with
  | some handle => handle.replaced (change handle.child)
  | none => step

theorem Step.along_of_handle {step : Step α} {handle : Step.Handle α}
    (member : handle ∈ step.handles) : step.along handle.edge = some handle.child := by
  rw [← mem_children, ← handles_children]
  exact List.mem_map_of_mem member

theorem Step.map_handles (step : Step α) (place : List Edge) :
    (step.handles.map fun handle => (place ++ [handle.edge], handle.child)) =
      step.children.map fun child => (place ++ [child.1], child.2) := by
  rw [← handles_children, List.map_map]
  rfl

theorem Step.changed_of_along {step : Step α} {edge : Edge} {child : α}
    (found : step.along edge = some child) (change : α → α) :
    step.changed edge change = step.attach edge (change child) := by
  rw [changed]
  split
  · next handle here =>
    have member := List.mem_of_find?_eq_some here
    obtain rfl : handle.edge = edge := by simpa using List.find?_some here
    obtain rfl : handle.child = child :=
      Option.some.inj ((along_of_handle member).symm.trans found)
    exact replaced_eq_attach member _
  · next missing =>
    have member : (edge, child) ∈ step.children := mem_children.2 found
    rw [← handles_children] at member
    obtain ⟨handle, member, same⟩ := List.mem_map.1 member
    have differ : handle.edge ≠ edge := by simpa using List.find?_eq_none.1 missing handle member
    exact absurd (congrArg Prod.fst same) differ

theorem Step.changed_of_not_along {step : Step α} {edge : Edge} (absent : step.along edge = none)
    (change : α → α) : step.changed edge change = step := by
  rw [changed]
  split
  · next handle here =>
    obtain rfl : handle.edge = edge := by simpa using List.find?_some here
    cases absent.symm.trans (along_of_handle (List.mem_of_find?_eq_some here))
  · rfl

/-- Changing what an edge leads to twice is changing it once. -/
theorem Step.changed_changed (step : Step α) (edge : Edge) (first second : α → α) :
    (step.changed edge first).changed edge second = step.changed edge (second ∘ first) := by
  cases found : step.along edge with
  | none => rw [changed_of_not_along found, changed_of_not_along found, changed_of_not_along found]
  | some child =>
    have written : (step.attach edge (first child)).along edge = some (first child) := by
      rw [along_attach, if_pos ⟨rfl, owns_of_along found⟩]
    rw [changed_of_along found, changed_of_along found, changed_of_along written, attach_attach]
    rfl

namespace Action

/-- An action with something else at a place, which is reached through handles. -/
def replaced (whole : Action) (place : List Edge) (child : Action) : Action :=
  match place with
  | [] => child
  | edge :: below => .mk (whole.step.changed edge fun next => next.replaced below child)

/-- Writing one edge below a place is attaching along the edge to the step that is written there. -/
theorem replaced_concat (whole : Action) (place : List Edge) {step : Step Action} {edge : Edge}
    {child : Action} (found : step.along edge = some child) (other : Action) :
    (whole.replaced place (.mk step)).replaced (place ++ [edge]) other =
      whole.replaced place (.mk (step.attach edge other)) := by
  induction place generalizing whole with
  | nil => exact congrArg mk (Step.changed_of_along found fun _ => other)
  | cons first below inductionHypothesis =>
    simp only [List.cons_append, replaced, Action.step, Step.changed_changed]
    exact congrArg (fun change => mk (whole.step.changed first change)) (funext inductionHypothesis)

/-! ### The loop -/

/-- Sets the marks of the actions at places of a whole that are still to be visited, the first of
which has the number `number`, and of everything that follows them. A place is kept with the action
that is there, to which nothing else writes. -/
def markPlaces (valid : Nat → Bool) (whole : Action) (number : Nat)
    (pending : List (List Edge × Action)) : Action :=
  match pending with
  | [] => whole
  | (place, action) :: rest =>
    let reached := action.step.handles.map fun handle => (place ++ [handle.edge], handle.child)
    markPlaces valid (whole.replaced place (.mk (action.step.marked (valid number)))) (number + 1)
      (reached ++ rest)
termination_by weightOfChildren weight pending
decreasing_by
  rw [Step.map_handles, weightOfChildren_append, weightOfChildren_keys]
  simp only [weightOfChildren_cons, action.weight_eq]
  omega

/-- Sets the marks of an action and of everything that follows it, each of them in its place. -/
def markedInPlace (action : Action) (valid : Nat → Bool) : Action :=
  markPlaces valid action 1 [([], action)]

/-! ### What the loop leaves -/

/-- An action that has a number, with its mark and those of everything that follows it set. -/
def markedFrom (valid : Nat → Bool) (number : Nat) (action : Action) : Action :=
  (action.tree.renew (fun number step => step.marked (valid number)) number).fold mk

/-- The trees of continuations. -/
def forest (children : List (Edge × Action)) : Forest (Step Action) :=
  .ofList (children.map fun child => (child.1, child.2.tree))

/-- Continuations with the marks set, where the first of them leads to the node with a number. -/
def markedChildren (valid : Nat → Bool) (number : Nat) (children : List (Edge × Action)) :
    List (Edge × Action) :=
  ((forest children).renew (fun number step => step.marked (valid number)) number).fold mk

variable {valid : Nat → Bool}

theorem markedChildren_cons (number : Nat) (child : Edge × Action) (rest : List (Edge × Action)) :
    markedChildren valid number (child :: rest) =
      (child.1, child.2.markedFrom valid number) ::
        markedChildren valid (number + child.2.tree.size) rest := rfl

theorem map_fst_markedChildren (number : Nat) (children : List (Edge × Action)) :
    (markedChildren valid number children).map (·.1) = children.map (·.1) := by
  induction children generalizing number with
  | nil => rfl
  | cons child rest inductionHypothesis =>
    rw [markedChildren_cons, List.map_cons, List.map_cons, inductionHypothesis]

theorem markedFrom_eq (number : Nat) (action : Action) :
    action.markedFrom valid number = .mk ((action.step.marked (valid number)).hang
      (markedChildren valid (number + 1) action.step.children)) := by
  have edges := @map_fst_markedChildren valid (number + 1) action.step.children
  have bare := (action.step.marked (valid number)).hang_eq_bare edges
  rw [bare, markedFrom, tree_eq]
  rfl

/-- By induction on the continuations of a step: what the loop makes of the first one is attached
to the step, and the others are not affected, since their edges differ. -/
theorem markPlaces_children {children : List (Edge × Action)}
    (each : ∀ child ∈ children, ∀ whole place number rest,
      markPlaces valid whole number ((place, child.2) :: rest) =
        markPlaces valid (whole.replaced place (child.2.markedFrom valid number))
          (number + child.2.tree.size) rest)
    {step : Step Action} (led : ∀ child ∈ children, (step.along child.1).isSome)
    (distinct : (children.map (·.1)).Nodup) (whole : Action) (place : List Edge) (number : Nat)
    (rest : List (List Edge × Action)) :
    markPlaces valid (whole.replaced place (.mk step)) number
        ((children.map fun child => (place ++ [child.1], child.2)) ++ rest) =
      markPlaces valid
        (whole.replaced place (.mk (step.hang (markedChildren valid number children))))
        (number + (forest children).size) rest := by
  induction children generalizing step number with
  | nil => rfl
  | cons child later inductionHypothesis =>
    obtain ⟨apart, distinct⟩ := List.nodup_cons.1 distinct
    obtain ⟨found, along⟩ := Option.isSome_iff_exists.1 (led child List.mem_cons_self)
    have kept : ∀ other ∈ later,
        ((step.attach child.1 (child.2.markedFrom valid number)).along other.1).isSome := by
      intro other member
      have differ : child.1 ≠ other.1 := fun same =>
        apart (List.mem_map.2 ⟨other, member, same.symm⟩)
      rw [Step.along_attach, if_neg fun both => differ both.1]
      exact led other (List.mem_cons_of_mem _ member)
    rw [List.map_cons, List.cons_append, each child List.mem_cons_self, replaced_concat _ _ along,
      inductionHypothesis (fun other member => each other (List.mem_cons_of_mem _ member)) kept
        distinct,
      Step.hang_attach _ (by rwa [map_fst_markedChildren]), markedChildren_cons, Nat.add_assoc]
    rfl

/-- Past an action with everything that follows it, the loop has marked all of them and nothing
else. -/
theorem markPlaces_cons (action whole : Action) (place : List Edge) (number : Nat)
    (rest : List (List Edge × Action)) :
    markPlaces valid whole number ((place, action) :: rest) =
      markPlaces valid (whole.replaced place (action.markedFrom valid number))
        (number + action.tree.size) rest := by
  induction action using Opening.induction_children opened generalizing whole place number rest with
  | step action inductionHypothesis =>
    have led : ∀ child ∈ action.step.children,
        ((action.step.marked (valid number)).along child.1).isSome := fun child member =>
      Option.isSome_of_eq_some (Step.mem_children.1 member)
    rw [markPlaces, Step.map_handles,
      markPlaces_children inductionHypothesis led action.step.nodup_edges, markedFrom_eq, tree_eq,
      Tree.size, Nat.add_assoc]
    rfl

/-- Marking in place is marking a listing and building it up again. -/
theorem markedInPlace_eq (action : Action) (valid : Nat → Bool) :
    action.markedInPlace valid = action.marked valid := by
  have counted := action.tree.renew_succ (fun number step => step.marked (valid number)) 0
  rw [markedInPlace, markPlaces_cons, markPlaces, marked_eq, markedTree, ← counted]
  rfl

end Action

end FlowGate
