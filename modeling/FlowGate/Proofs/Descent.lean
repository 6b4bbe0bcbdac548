/-
This file shows that reading actions is a descent. The loop reads one step after the other, keeps
what is still to be read in a list, and puts the steps together when all of them are read;
`Reading.descend` reads a step, then what follows it along each of its continuations, and puts each
of these where it was found. The two agree on every value, also on what is refused and where: the
descent meets the values in the order in which the loop takes them from its list, and a step that
is put together at the end gets the same continuations along the same edges.
-/

import FlowGate.Proofs.Records

namespace FlowGate.Reading

/-! ### Reading by descent -/

mutual

/-- The action at a place of some depth below the trigger. A place beyond the cap is refused before
anything is read; then the step is read, then what follows it. -/
def descend (options : Options) (depth : Nat) (place : AccessPath) (value : Json) :
    Except Refusal Action :=
  if options.maxDepth.toNat < depth then .error ⟨place, .tooDeep options.maxDepth⟩
  else
    match _read : step value with
    | .error refusal => .error (refusal.under place)
    | .ok ⟨header, task, next⟩ => do
      let task ← descendTask options (depth + 1) place task
      let next ← descendNext options (depth + 1) (place ++ Edge.next.segments) next
      return .mk ⟨header, task, next⟩
termination_by (value.weight, 0, 0)
decreasing_by
  all_goals
    have lighter := step_weight _read
    simp only [Step.children, weightOfChildren_append, weightOfChildren_along] at lighter
    exact Prod.Lex.left _ _ (by omega)

/-- What a step does, with the actions on the continuations that belong to it. -/
def descendTask (options : Options) (depth : Nat) (place : AccessPath) (task : Task Json) :
    Except Refusal (Task Action) :=
  match task with
  | .code settings => return .code settings
  | .block settings => return .block settings
  | .branch settings onSuccess onFailure => do
    let onSuccess ← descendNext options depth (place ++ Edge.onSuccess.segments) onSuccess
    let onFailure ← descendNext options depth (place ++ Edge.onFailure.segments) onFailure
    return .branch settings onSuccess onFailure
  | .split settings branches => do
    let branches ← descendBranches options depth place 0 branches
    return .split settings branches
  | .loop settings body => do
    let body ← descendNext options depth (place ++ Edge.loopBody.segments) body
    return .loop settings body
termination_by (weightOfChildren Json.weight task.children, 3, 0)
decreasing_by
  all_goals
    simp only [Task.children, weightOfChildren_append, weightOfChildren_along]
    exact Prod.Lex.right' _ (by omega) (Prod.Lex.left _ _ (by decide))

/-- The ways of a split, numbered from `first` on, with the actions on them. -/
def descendBranches (options : Options) (depth : Nat) (place : AccessPath) (first : Nat)
    (branches : List (Branch Json)) : Except Refusal (List (Branch Action)) :=
  match branches with
  | [] => return []
  | ⟨optionId, next⟩ :: rest => do
    let next ← descendNext options depth (place ++ (Edge.branch first).segments) next
    let rest ← descendBranches options depth place (first + 1) rest
    return ⟨optionId, next⟩ :: rest
termination_by (weightOfChildren Json.weight (Branch.children first branches), 2, branches.length)
decreasing_by
  all_goals simp only [Branch.children_cons, weightOfChildren_append, weightOfChildren_along]
  · exact Prod.Lex.right' _ (by omega) (Prod.Lex.left _ _ (by decide))
  · exact Prod.Lex.right' _ (by omega) (Prod.Lex.right _ (Nat.lt_succ_self _))

/-- The action on a continuation, if there is one. -/
def descendNext (options : Options) (depth : Nat) (place : AccessPath) (next : Option Json) :
    Except Refusal (Option Action) :=
  match next with
  | none => return none
  | some value => (descend options depth place value).map some
termination_by (next.elim 0 Json.weight, 1, 0)
decreasing_by
  exact Prod.Lex.right _ (Prod.Lex.left _ _ Nat.zero_lt_one)

end

/-- What the descent makes of a step that is read. -/
theorem descend_of_read {options : Options} {depth : Nat}
    (shallow : ¬ options.maxDepth.toNat < depth) {place : AccessPath} {value : Json}
    {header : Header} {task : Task Json} {next : Option Json}
    (read : step value = .ok ⟨header, task, next⟩) :
    descend options depth place value =
      do
        let task ← descendTask options (depth + 1) place task
        let next ← descendNext options (depth + 1) (place ++ Edge.next.segments) next
        return .mk ⟨header, task, next⟩ := by
  rw [descend, if_neg shallow]
  split
  · next refused => rw [read] at refused; cases refused
  · next found => rw [read] at found; cases found; rfl

theorem descend_of_refused {options : Options} {depth : Nat}
    (shallow : ¬ options.maxDepth.toNat < depth) {place : AccessPath} {value : Json}
    {refusal : Refusal} (refused : step value = .error refusal) :
    descend options depth place value = .error (refusal.under place) := by
  rw [descend, if_neg shallow]
  split
  · next other => rw [refused] at other; cases other; rfl
  · next read => rw [refused] at read; cases read

/-! ### Continuations one by one -/

section Continuations

variable {options : Options} {depth : Nat} {place : AccessPath}

/-- The action on one continuation, with its edge. -/
def descendAlong (options : Options) (depth : Nat) (place : AccessPath) (child : Edge × Json) :
    Except Refusal (Edge × Action) :=
  (descend options depth (place ++ child.1.segments) child.2).map (Prod.mk child.1)

/-- One continuation of a step is read like a list with at most one member. -/
theorem mapM_along (edge : Edge) (next : Option Json) :
    (edge.along next).mapM (descendAlong options depth place) =
      (descendNext options depth (place ++ edge.segments) next).map edge.along := by
  rw [descendNext.eq_def]
  cases next with
  | none => rfl
  | some value =>
    show List.mapM _ [(edge, value)] = ((descend options depth _ value).map some).map _
    rw [List.mapM_cons, List.mapM_nil, descendAlong]
    cases descend options depth (place ++ edge.segments) value <;> rfl

theorem mapM_children_branches (first : Nat) (branches : List (Branch Json)) :
    (Branch.children first branches).mapM (descendAlong options depth place) =
      (descendBranches options depth place first branches).map (Branch.children first) := by
  induction branches generalizing first with
  | nil => rw [descendBranches]; rfl
  | cons branch rest inductionHypothesis =>
    obtain ⟨optionId, next⟩ := branch
    rw [descendBranches, Branch.children_cons, List.mapM_append, mapM_along, inductionHypothesis]
    cases descendNext options depth (place ++ (Edge.branch first).segments) next with
    | error refusal => rfl
    | ok next =>
      cases descendBranches options depth place (first + 1) rest with
      | error refusal => rfl
      | ok rest => rfl

theorem mapM_children_task (task : Task Json) :
    task.children.mapM (descendAlong options depth place) =
      (descendTask options depth place task).map Task.children := by
  cases task with
  | code settings => rw [descendTask]; rfl
  | block settings => rw [descendTask]; rfl
  | branch settings onSuccess onFailure =>
    rw [descendTask, Task.children, List.mapM_append, mapM_along, mapM_along]
    cases descendNext options depth (place ++ Edge.onSuccess.segments) onSuccess with
    | error refusal => rfl
    | ok onSuccess =>
      cases descendNext options depth (place ++ Edge.onFailure.segments) onFailure <;> rfl
  | split settings branches =>
    rw [descendTask, Task.children, mapM_children_branches]
    cases descendBranches options depth place 0 branches <;> rfl
  | loop settings body =>
    rw [descendTask, Task.children, mapM_along]
    cases descendNext options depth (place ++ Edge.loopBody.segments) body <;> rfl

/-! ### Steps with actions in place of values -/

theorem optionIds_of_descendBranches {first : Nat} {branches : List (Branch Json)}
    {others : List (Branch Action)}
    (read : descendBranches options depth place first branches = .ok others) :
    others.map Branch.optionId = branches.map Branch.optionId := by
  induction branches generalizing first others with
  | nil =>
    rw [descendBranches] at read
    cases read
    rfl
  | cons branch rest inductionHypothesis =>
    obtain ⟨optionId, next⟩ := branch
    rw [descendBranches] at read
    obtain ⟨next, -, read⟩ := bind_eq_ok.1 read
    obtain ⟨rest, later, same⟩ := bind_eq_ok.1 read
    cases same
    exact congrArg (optionId :: ·) (inductionHypothesis later)

/-- What a step does stays the same when actions take the places of values. -/
theorem bare_of_descendTask {task : Task Json} {other : Task Action}
    (read : descendTask options depth place task = .ok other) :
    (other.bare : Task Action) = task.bare := by
  rw [descendTask.eq_def] at read
  cases task with
  | code settings => cases read; rfl
  | block settings => cases read; rfl
  | branch settings onSuccess onFailure =>
    obtain ⟨onSuccess, -, read⟩ := bind_eq_ok.1 read
    obtain ⟨onFailure, -, same⟩ := bind_eq_ok.1 read
    cases same
    rfl
  | split settings branches =>
    obtain ⟨others, ways, same⟩ := bind_eq_ok.1 read
    cases same
    rw [Task.bare, Task.bare, Branch.map_bare, Branch.map_bare, optionIds_of_descendBranches ways]
  | loop settings body =>
    obtain ⟨body, -, same⟩ := bind_eq_ok.1 read
    cases same
    rfl

/-- Actions on the continuations of a step, hung on what the step does, are the step with each of
them in its own place. -/
theorem hang_descended (header : Header) (task : Task Json) (next : Option Json) :
    ((Step.children ⟨header, task, next⟩).mapM (descendAlong options depth place)).map
        (fun children => Action.mk ((Step.bare ⟨header, task, next⟩).hang children)) =
      do
        let task ← descendTask options depth place task
        let next ← descendNext options depth (place ++ Edge.next.segments) next
        return .mk ⟨header, task, next⟩ := by
  rw [Step.children, List.mapM_append, mapM_children_task, mapM_along]
  cases read : descendTask options depth place task with
  | error refusal => rfl
  | ok other =>
    cases descendNext options depth (place ++ Edge.next.segments) next with
    | error refusal => rfl
    | ok last =>
      have bare : (Step.bare ⟨header, task, next⟩ : Step Action) =
          Step.bare ⟨header, other, last⟩ := by
        rw [Step.bare, Step.bare, bare_of_descendTask read]
      show Except.ok (Action.mk ((Step.bare ⟨header, task, next⟩).hang
        (Step.children ⟨header, other, last⟩))) = _
      rw [bare, Step.hang_children]
      rfl

/-- A forest grows where the values are read one after the other. -/
theorem fold_growAll (depth : Nat) (path : List Edge) (children : List (Edge × Json))
    (each : ∀ child ∈ children, descend options depth (stepSegments (path ++ [child.1])) child.2 =
      ((opening options).grow depth (path ++ [child.1]) child.2).map (Tree.fold Action.mk)) :
    ((opening options).growAll depth path children).map (Forest.fold Action.mk) =
      children.mapM (descendAlong options depth (stepSegments path)) := by
  induction children with
  | nil => rw [Opening.growAll_nil]; rfl
  | cons child rest inductionHypothesis =>
    have later := inductionHypothesis fun other member => each other (List.mem_cons_of_mem _ member)
    rw [Opening.growAll_cons, List.mapM_cons, ← later, descendAlong, ← stepSegments_concat,
      each child List.mem_cons_self]
    cases (opening options).grow depth (path ++ [child.1]) child.2 with
    | error refusal => rfl
    | ok tree => cases (opening options).growAll depth path rest <;> rfl

end Continuations

/-! ### The loop reads by descent -/

/-- By induction on the weight of the value: what hangs off the step that it holds is lighter. The
depth is asked for before anything is read, so a value beyond the cap is refused unread. -/
theorem descend_eq_grow (options : Options) (value : Json) : ∀ (depth : Nat) (path : List Edge),
    descend options depth (stepSegments path) value =
      ((opening options).grow depth path value).map (Tree.fold Action.mk) := by
  generalize weighs : (opening options).weight value = weight
  induction weight using Nat.strongRecOn generalizing value with
  | ind weight inductionHypothesis =>
    intro depth path
    subst weighs
    by_cases deep : options.maxDepth.toNat < depth
    · have failed : (opening options).opened depth (fun () => stepSegments path) value =
          .error ⟨stepSegments path, .tooDeep options.maxDepth⟩ := if_pos deep
      rw [(opening options).grow_of_failed failed, descend, if_pos deep]
      rfl
    · cases read : step value with
      | error refusal =>
        have failed : (opening options).opened depth (fun () => stepSegments path) value =
            .error (refusal.under (stepSegments path)) := by
          simp only [opening, if_neg deep, read]
        rw [(opening options).grow_of_failed failed, descend_of_refused deep read]
        rfl
      | ok node =>
        have opened : (opening options).opened depth (fun () => stepSegments path) value =
            .ok (node, node.children) := by
          simp only [opening, if_neg deep, read]
        have below := fold_growAll (depth + 1) path node.children fun child member =>
          inductionHypothesis _ ((opening options).weight_lt_of_mem opened member) child.2 rfl
            (depth + 1) (path ++ [child.1])
        obtain ⟨header, task, next⟩ := node
        rw [(opening options).grow_of_opened opened, descend_of_read deep read, ← hang_descended,
          ← below]
        cases (opening options).growAll (depth + 1) path _ <;> rfl

/-- Whatever the first value is, the loop gives the action that is read by descent from it, or
refuses the same as the descent does at the same place. The descent begins one step below the
trigger. -/
theorem action_eq_descend (options : Options) (first : Option Json) :
    action options first = descendNext options 1 (rootPath ++ Edge.next.segments) first := by
  have place : rootPath ++ Edge.next.segments = stepSegments [.next] := rfl
  rw [descendNext.eq_def, place]
  cases first with
  | none => exact action_none options
  | some value =>
    rw [action_some]
    show _ = (descend options 1 (stepSegments [.next]) value).map some
    rw [descend_eq_grow]
    cases (opening options).grow 1 [.next] value <;> rfl

end FlowGate.Reading
