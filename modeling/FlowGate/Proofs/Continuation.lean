/-
This file is about the continuations of a step. A step is what it does without them, together with
their list: stripping a step of its continuations and hanging them back gives the same step, and
any other list along the same edges makes a step that does the same and goes on elsewhere. No two
continuations of a step share an edge, so an edge says which of them is meant.
-/

import FlowGate.Proofs.Tree
import Mathlib.Data.List.Nodup

namespace FlowGate

/-- What a step leads to along an edge. -/
def Step.along (step : Step α) : Edge → Option α
  | .next => step.next
  | .onSuccess =>
    match step.task with
    | .branch _ onSuccess _ => onSuccess
    | _ => none
  | .onFailure =>
    match step.task with
    | .branch _ _ onFailure => onFailure
    | _ => none
  | .branch index =>
    match step.task with
    | .split _ branches => branches[index]?.bind Branch.next
    | _ => none
  | .loopBody =>
    match step.task with
    | .loop _ body => body
    | _ => none

/-! ### The list of continuations -/

@[simp] theorem Edge.mem_along {edge other : Edge} {child : α} {next : Option α} :
    (other, child) ∈ edge.along next ↔ other = edge ∧ next = some child := by
  cases next with
  | none => simp [Edge.along]
  | some found => simp [Edge.along, eq_comm]

@[simp] theorem Edge.map_fst_along (edge : Edge) (next : Option α) :
    (edge.along next).map (·.1) = next.toList.map fun _ => edge := by
  cases next <;> rfl

theorem Branch.mem_children {first : Nat} {branches : List (Branch α)} {edge : Edge} {child : α} :
    (edge, child) ∈ Branch.children first branches ↔
      ∃ index, edge = .branch (first + index) ∧ branches[index]?.bind Branch.next = some child := by
  induction branches generalizing first with
  | nil => simp [Branch.children]
  | cons branch rest inductionHypothesis =>
    rw [Branch.children_cons, List.mem_append, Edge.mem_along, inductionHypothesis]
    constructor
    · rintro (⟨same, found⟩ | ⟨index, same, found⟩)
      · exact ⟨0, same, found⟩
      · exact ⟨index + 1, by rw [same, Nat.add_right_comm, Nat.add_assoc], found⟩
    · rintro ⟨_ | index, same, found⟩
      · exact Or.inl ⟨same, found⟩
      · exact Or.inr ⟨index, by rw [same, Nat.add_right_comm, Nat.add_assoc], found⟩

/-- The listed continuations of a step are those that its edges lead to. -/
theorem Step.mem_children {step : Step α} {edge : Edge} {child : α} :
    (edge, child) ∈ step.children ↔ step.along edge = some child := by
  obtain ⟨header, task, next⟩ := step
  cases task <;> cases edge <;>
    simp [Step.children, Task.children, Step.along, Branch.mem_children]

theorem Branch.nodup_edges (first : Nat) (branches : List (Branch α)) :
    ((Branch.children first branches).map (·.1)).Nodup := by
  induction branches generalizing first with
  | nil => exact List.nodup_nil
  | cons branch rest inductionHypothesis =>
    rw [Branch.children_cons, List.map_append]
    refine List.Nodup.append ?_ (inductionHypothesis (first + 1)) ?_
    · cases branch.next <;> simp
    · intro edge here later
      obtain ⟨⟨_, child⟩, member, rfl⟩ := List.mem_map.1 later
      obtain ⟨index, same, -⟩ := Branch.mem_children.1 member
      obtain ⟨⟨_, _⟩, member', equal⟩ := List.mem_map.1 here
      have := (Edge.mem_along.1 member').1.symm.trans (equal.trans same)
      injection this
      omega

/-- The continuations of a step have different edges. -/
theorem Step.nodup_edges (step : Step α) : (step.children.map (·.1)).Nodup := by
  obtain ⟨header, task, next⟩ := step
  have last : ∀ {before : List (Edge × α)}, (before.map (·.1)).Nodup →
      Edge.next ∉ before.map (·.1) → ((before ++ Edge.next.along next).map (·.1)).Nodup := by
    intro before nodup apart
    rw [List.map_append]
    refine nodup.append ?_ ?_
    · cases next <;> simp
    · intro edge earlier here
      cases next <;> simp at here
      exact apart (here ▸ earlier)
  cases task with
  | code settings => exact last List.nodup_nil List.not_mem_nil
  | block settings => exact last List.nodup_nil List.not_mem_nil
  | branch settings onSuccess onFailure =>
    refine last ?_ ?_ <;> cases onSuccess <;> cases onFailure <;> simp [Task.children]
  | split settings branches =>
    refine last (Branch.nodup_edges 0 branches) fun member => ?_
    obtain ⟨⟨_, child⟩, member, same⟩ := List.mem_map.1 member
    obtain ⟨index, edge, -⟩ := Branch.mem_children.1 member
    cases same.symm.trans edge
  | loop settings body =>
    refine last ?_ ?_ <;> cases body <;> simp [Task.children]

/-! ### Other continuations along the same edges -/

theorem Edge.exists_along {edge : Edge} {next : Option α} {children : List (Edge × β)}
    (edges : children.map (·.1) = (edge.along next).map (·.1)) :
    ∃ other : Option β, children = edge.along other := by
  cases next with
  | none => exact ⟨none, List.map_eq_nil_iff.1 edges⟩
  | some child =>
    obtain ⟨⟨edge', child'⟩, rfl, same⟩ := List.map_eq_singleton_iff.1 edges
    exact ⟨some child', by rw [← show edge' = edge from same]; rfl⟩

theorem Branch.exists_children {first : Nat} {branches : List (Branch α)}
    {children : List (Edge × β)}
    (edges : children.map (·.1) = (Branch.children first branches).map (·.1)) :
    ∃ others : List (Branch β), children = Branch.children first others ∧
      others.map Branch.optionId = branches.map Branch.optionId := by
  induction branches generalizing first children with
  | nil => exact ⟨[], List.map_eq_nil_iff.1 edges, rfl⟩
  | cons branch rest inductionHypothesis =>
    rw [Branch.children_cons, List.map_append] at edges
    obtain ⟨here, later, rfl, hereEdges, laterEdges⟩ := List.map_eq_append_iff.1 edges
    obtain ⟨next, rfl⟩ := Edge.exists_along hereEdges
    obtain ⟨others, rfl, ids⟩ := inductionHypothesis laterEdges
    refine ⟨⟨branch.optionId, next⟩ :: others, ?_, ?_⟩
    · rw [Branch.children_cons]
    · rw [List.map_cons, List.map_cons, ids]

/-- Ways of a split without what follows are told by their options. -/
theorem Branch.map_bare (branches : List (Branch α)) :
    (branches.map fun branch => (⟨branch.optionId, none⟩ : Branch γ)) =
      (branches.map Branch.optionId).map fun id => ⟨id, none⟩ := by
  rw [List.map_map]
  rfl

/-- Continuations along the edges of a step are the continuations of a step that does the same. -/
theorem Step.exists_children {step : Step α} {children : List (Edge × β)}
    (edges : children.map (·.1) = step.children.map (·.1)) :
    ∃ other : Step β, other.children = children ∧ (other.bare : Step γ) = step.bare := by
  obtain ⟨header, task, next⟩ := step
  rw [Step.children, List.map_append] at edges
  obtain ⟨own, last, rfl, ownEdges, lastEdges⟩ := List.map_eq_append_iff.1 edges
  obtain ⟨next', rfl⟩ := Edge.exists_along lastEdges
  suffices ∃ other : Task β, other.children = own ∧ (other.bare : Task γ) = task.bare by
    obtain ⟨other, rfl, bare⟩ := this
    exact ⟨⟨header, other, next'⟩, rfl, by rw [Step.bare, Step.bare, bare]⟩
  cases task with
  | code settings => exact ⟨.code settings, (List.map_eq_nil_iff.1 ownEdges).symm, rfl⟩
  | block settings => exact ⟨.block settings, (List.map_eq_nil_iff.1 ownEdges).symm, rfl⟩
  | branch settings onSuccess onFailure =>
    rw [Task.children, List.map_append] at ownEdges
    obtain ⟨success, failure, rfl, successEdges, failureEdges⟩ := List.map_eq_append_iff.1 ownEdges
    obtain ⟨onSuccess', rfl⟩ := Edge.exists_along successEdges
    obtain ⟨onFailure', rfl⟩ := Edge.exists_along failureEdges
    exact ⟨.branch settings onSuccess' onFailure', rfl, rfl⟩
  | split settings branches =>
    obtain ⟨others, rfl, ids⟩ := Branch.exists_children ownEdges
    refine ⟨.split settings others, rfl, ?_⟩
    rw [Task.bare, Task.bare, Branch.map_bare, Branch.map_bare, ids]
  | loop settings body =>
    obtain ⟨body', rfl⟩ := Edge.exists_along ownEdges
    exact ⟨.loop settings body', rfl, rfl⟩

/-! ### Hanging continuations on a step -/

/-- A step with continuations attached, the last of them first. -/
def Step.hang (step : Step α) (children : List (Edge × α)) : Step α :=
  children.foldr (fun child step => step.attach child.1 child.2) step

theorem Step.hang_append (step : Step α) (first second : List (Edge × α)) :
    step.hang (first ++ second) = (step.hang second).hang first :=
  List.foldr_append

theorem modify_length_append (change : α → α) (before after : List α) (item : α) :
    (before ++ item :: after).modify before.length change = before ++ change item :: after := by
  induction before with
  | nil => rfl
  | cons first rest inductionHypothesis =>
    rw [List.cons_append, List.length_cons, List.modify_succ_cons, inductionHypothesis]
    rfl

theorem Step.hang_branches (header : Header) (settings : SplitSettings) (next : Option α)
    (done branches : List (Branch α)) :
    Step.hang
        ⟨header, .split settings (done ++ branches.map fun branch => ⟨branch.optionId, none⟩), next⟩
        (Branch.children done.length branches) =
      ⟨header, .split settings (done ++ branches), next⟩ := by
  induction branches generalizing done with
  | nil => rfl
  | cons branch rest inductionHypothesis =>
    obtain ⟨optionId, child⟩ := branch
    have later := inductionHypothesis (done ++ [⟨optionId, none⟩])
    rw [List.length_append, List.length_singleton, List.append_assoc, List.append_assoc,
      List.singleton_append, List.singleton_append] at later
    rw [Branch.children_cons, Step.hang_append, List.map_cons, later]
    cases child with
    | none => rfl
    | some child =>
      show Step.attach ⟨header, .split settings (done ++ ⟨optionId, none⟩ :: rest), next⟩
        (.branch done.length) child = _
      simp only [Step.attach, modify_length_append]

/-- A step that is stripped of its continuations and gets them back is the same step. -/
theorem Step.hang_children (step : Step α) : step.bare.hang step.children = step := by
  obtain ⟨header, task, next⟩ := step
  rw [Step.children, Step.hang_append]
  have last : (Step.bare ⟨header, task, next⟩ : Step α).hang (Edge.next.along next) =
      ⟨header, task.bare, next⟩ := by
    cases next <;> rfl
  rw [last]
  cases task with
  | code settings => rfl
  | block settings => rfl
  | branch settings onSuccess onFailure => cases onSuccess <;> cases onFailure <;> rfl
  | split settings branches => exact Step.hang_branches header settings next [] branches
  | loop settings body => cases body <;> rfl

/-- A stripped step has the continuations that are hung on it, if they are along its edges. -/
theorem Step.children_hang {step : Step α} {children : List (Edge × β)}
    (edges : children.map (·.1) = step.children.map (·.1)) :
    (step.bare.hang children).children = children := by
  obtain ⟨other, rfl, bare⟩ : ∃ other : Step β, other.children = children ∧
      (other.bare : Step β) = step.bare := Step.exists_children edges
  rw [← bare, Step.hang_children]

@[simp] theorem Step.bare_attach (step : Step α) (edge : Edge) (child : α) :
    ((step.attach edge child).bare : Step β) = step.bare := by
  obtain ⟨header, task, next⟩ := step
  cases edge <;> cases task <;> try rfl
  next index settings branches =>
    simp only [Step.attach, Step.bare, Task.bare, Branch.map_bare]
    congr 3
    refine List.ext_getElem? fun position => ?_
    rw [List.getElem?_map, List.getElem?_map, List.getElem?_modify]
    cases branches[position]? with
    | none => rfl
    | some branch =>
      simp only [Option.map_some]
      split <;> rfl

/-- What hangs on a step does not change what it does. -/
@[simp] theorem Step.bare_hang (step : Step α) (children : List (Edge × α)) :
    ((step.hang children).bare : Step β) = step.bare := by
  induction children with
  | nil => rfl
  | cons child rest inductionHypothesis =>
    exact (Step.bare_attach _ child.1 child.2).trans inductionHypothesis

@[simp] theorem Step.bare_bare (step : Step α) :
    ((step.bare : Step β).bare : Step γ) = step.bare := by
  obtain ⟨header, task, next⟩ := step
  cases task <;> simp [Step.bare, Task.bare]

end FlowGate
