/-
This file holds workflows: a trigger and the tree of actions that follow it. An action is a step
whose continuations are actions. The tags of a workflow are a set, kept in ascending order.
-/

import FlowGate.Workflow.Step

namespace FlowGate

/-! ### Actions -/

/-- A step with everything that follows it. -/
inductive Action where
  | mk (step : Step Action)

/-- The step that an action begins with. -/
def Action.step : Action → Step Action
  | .mk step => step

namespace Action

mutual

/-- The number of steps of an action. -/
def weight : Action → Nat
  | .mk ⟨_, task, next⟩ => 1 + weightOfTask task + weightOfNext next

/-- The number of steps below what a step does. -/
def weightOfTask : Task Action → Nat
  | .code _ | .block _ => 0
  | .branch _ onSuccess onFailure => weightOfNext onSuccess + weightOfNext onFailure
  | .split _ branches => weightOfBranches branches
  | .loop _ body => weightOfNext body

/-- The number of steps of a continuation. -/
def weightOfNext : Option Action → Nat
  | none => 0
  | some action => action.weight

/-- The number of steps on ways of a split. -/
def weightOfBranches : List (Branch Action) → Nat
  | [] => 0
  | ⟨_, next⟩ :: rest => weightOfNext next + weightOfBranches rest

end

theorem weightOfNext_eq (next : Option Action) : weightOfNext next = next.elim 0 weight := by
  cases next <;> rfl

theorem weightOfBranches_eq (first : Nat) (branches : List (Branch Action)) :
    weightOfBranches branches = weightOfChildren weight (Branch.children first branches) := by
  induction branches generalizing first with
  | nil => rfl
  | cons branch rest inductionHypothesis =>
    rw [Branch.children_cons, weightOfChildren_append, weightOfChildren_along, weightOfBranches,
      weightOfNext_eq, inductionHypothesis]

/-- An action has one step more than its continuations have together. -/
theorem weight_eq (action : Action) :
    action.weight = 1 + weightOfChildren weight action.step.children := by
  obtain ⟨header, task, next⟩ := action
  cases task <;>
    simp only [weight, weightOfTask, step, Step.children, Task.children, List.nil_append,
      weightOfChildren_append, weightOfChildren_along, weightOfNext_eq, weightOfBranches_eq 0] <;>
    omega

end Action

/-! ### Tags -/

/-- A set of names in ascending order. -/
structure Tags where
  names : List String
  ascending : names.Pairwise (· < ·)

namespace Tags

/-- The name before the names that were kept, unless it is the first of them. -/
def keep (name : String) (kept : List String) : List String :=
  match kept with
  | [] => [name]
  | next :: _ => if name = next then kept else name :: kept

/-- The names without neighbours that are the same. -/
def withoutRepeats (names : List String) : List String :=
  names.foldr keep []

theorem mem_of_mem_keep {name other : String} {kept : List String}
    (member : other ∈ keep name kept) : other = name ∨ other ∈ kept := by
  unfold keep at member
  split at member
  · exact .inl (List.mem_singleton.1 member)
  · split at member
    · exact .inr member
    · exact List.mem_cons.1 member

theorem mem_of_mem_withoutRepeats {name : String} {names : List String}
    (member : name ∈ withoutRepeats names) : name ∈ names := by
  induction names with
  | nil => exact member
  | cons first rest inductionHypothesis =>
    rcases mem_of_mem_keep member with same | later
    · exact List.mem_cons.2 (.inl same)
    · exact List.mem_cons_of_mem _ (inductionHypothesis later)

theorem ascending_withoutRepeats {names : List String} (sorted : names.Pairwise (· ≤ ·)) :
    (withoutRepeats names).Pairwise (· < ·) := by
  induction sorted with
  | nil => exact .nil
  | @cons first rest smallest _ inductionHypothesis =>
    show (keep first (withoutRepeats rest)).Pairwise (· < ·)
    have members : ∀ name ∈ withoutRepeats rest, first ≤ name :=
      fun name member => smallest name (mem_of_mem_withoutRepeats member)
    unfold keep
    split
    · exact List.pairwise_singleton _ _
    · next next later found =>
      split
      · exact inductionHypothesis
      · next differs =>
        rw [found] at inductionHypothesis members ⊢
        have below : first < next := by
          have le := members next List.mem_cons_self
          exact String.not_le.1 fun reversed => differs (String.le_antisymm le reversed)
        refine .cons ?_ inductionHypothesis
        intro name member
        rcases List.mem_cons.1 member with same | later'
        · exact same ▸ below
        · exact String.lt_trans below (List.rel_of_pairwise_cons inductionHypothesis later')

/-- The set of the names of a list. -/
def ofList (names : List String) : Tags where
  names := withoutRepeats (names.mergeSort fun first second => decide (first ≤ second))
  ascending := by
    refine ascending_withoutRepeats ?_
    have sorted := @List.pairwise_mergeSort String (fun first second => decide (first ≤ second))
      (fun _ _ _ first second => by
        simp only [decide_eq_true_eq] at first second ⊢; exact String.le_trans first second)
      (fun first second => by
        simp only [Bool.or_eq_true, decide_eq_true_eq]; exact String.le_total first second) names
    exact sorted.imp fun le => by simpa using le

/-- No tags. -/
def empty : Tags := ⟨[], .nil⟩

end Tags

/-! ### Workflows -/

/-- What starts a workflow. -/
inductive TriggerKind where
  | empty (settings : FreeForm)
  | block (settings : BlockTriggerSettings)

/-- The node that a workflow starts with. -/
structure Trigger where
  header : Header
  kind : TriggerKind
  next : Option Action

/-- The part of a document that describes what is done. -/
structure Template where
  displayName : String
  valid : Bool
  trigger : Trigger

/-- A document; it has a template only if the template has a trigger. -/
structure Workflow where
  name : String
  description : String
  tags : Tags
  template : Option Template

/-- The name of what starts a workflow on the wire. -/
def TriggerKind.kindName : TriggerKind → String
  | .empty _ => "EMPTY"
  | .block _ => "BLOCK"

end FlowGate
