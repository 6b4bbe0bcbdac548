/-
This file shows that the values which hang off a step are together lighter than the value that the
step was read from. They are the values of different keys of one object, or stand in an array that
is one of these values, so none of them counts twice. This is why reading a workflow ends.
-/

import FlowGate.Workflow.Reading.Node

namespace FlowGate.Reading

/-! ### Values of different keys -/

theorem weight_present?_le (name : String) (fields : List (String × Json)) :
    (Json.present? name fields).elim 0 Json.weight ≤
      (Json.field? name fields).elim 0 Json.weight := by
  unfold Json.present?
  cases Json.field? name fields with
  | none => exact Nat.le_refl _
  | some value =>
    simp only [Option.filter_some]
    split
    · exact Nat.le_refl _
    · exact Nat.zero_le _

/-- The values of different keys are together not heavier than all entries. -/
theorem weight_fields {names : List String} (distinct : names.Nodup)
    (fields : List (String × Json)) :
    weightOfChildren (Option.elim · 0 Json.weight)
      (names.map fun name => (name, Json.field? name fields)) ≤ Json.weightOfFields fields := by
  induction fields generalizing names with
  | nil =>
    induction names with
    | nil => exact Nat.le_refl _
    | cons name rest inductionHypothesis =>
      rw [List.map_cons, weightOfChildren_cons]
      exact Nat.add_le_add (Nat.le_refl 0) (inductionHypothesis (List.nodup_cons.1 distinct).2)
  | cons entry rest inductionHypothesis =>
    obtain ⟨key, value⟩ := entry
    have same : Json.field? key ((key, value) :: rest) = some value := by
      simp [Json.field?]
    have apart {names : List String} (absent : key ∉ names) :
        (names.map fun name => (name, Json.field? name ((key, value) :: rest))) =
          names.map fun name => (name, Json.field? name rest) :=
      List.map_congr_left fun name found => by
        have differs : name ≠ key := fun equal => absent (equal ▸ found)
        simp [Json.field?, List.lookup_cons, beq_eq_false_iff_ne.2 differs]
    rw [Json.weightOfFields]
    by_cases member : key ∈ names
    · have split := (List.perm_cons_erase member).map fun name =>
        (name, Json.field? name ((key, value) :: rest))
      rw [weightOfChildren_perm _ split, List.map_cons, weightOfChildren_cons, same,
        apart distinct.not_mem_erase]
      exact Nat.add_le_add_left (inductionHypothesis (distinct.erase key)) _
    · rw [apart member]
      exact Nat.le_trans (inductionHypothesis distinct) (Nat.le_add_left _ _)

theorem weight_present {names : List String} (distinct : names.Nodup)
    (fields : List (String × Json)) :
    weightOfChildren (Option.elim · 0 Json.weight)
      (names.map fun name => (name, Json.present? name fields)) ≤ Json.weightOfFields fields := by
  refine Nat.le_trans ?_ (weight_fields distinct fields)
  clear distinct
  induction names with
  | nil => exact Nat.le_refl _
  | cons name rest inductionHypothesis =>
    simp only [List.map_cons, weightOfChildren_cons]
    exact Nat.add_le_add (weight_present?_le name fields) inductionHypothesis

/-! ### Continuations -/

theorem branch_weight {numbered : Json × Nat} {way : Branch Json}
    (read : branch numbered = .ok way) : way.next.elim 0 Json.weight ≤ numbered.1.weight := by
  obtain ⟨value, index⟩ := numbered
  unfold branch at read
  cases value with
  | object fields =>
    simp only [entries, bind, Except.bind] at read
    split at read
    · cases read
    · cases read
      have := @weight_present ["nextAction"] (by simp) fields
      simp only [List.map_cons, List.map_nil, weightOfChildren_cons, weightOfChildren_nil] at this
      simp only [Json.weight]
      omega
  | _ => simp [entries, bind, Except.bind] at read

theorem weight_branches {items : List Json} {first : Nat} {ways : List (Branch Json)}
    (read : (items.zipIdx first).mapM branch = .ok ways) (start : Nat) :
    weightOfChildren Json.weight (Branch.children start ways) ≤ Json.weightOfItems items := by
  induction items generalizing first ways start with
  | nil =>
    simp only [List.zipIdx_nil, List.mapM_nil, pure, Except.pure, Except.ok.injEq] at read
    subst read
    exact Nat.le_refl _
  | cons item rest inductionHypothesis =>
    simp only [List.zipIdx_cons, List.mapM_cons, bind, Except.bind, pure, Except.pure] at read
    split at read
    · cases read
    · next way found =>
      split at read
      · cases read
      · next others more =>
        cases read
        have := branch_weight found
        have := inductionHypothesis more (start + 1)
        simp only [Branch.children_cons, weightOfChildren_append, weightOfChildren_along,
          Json.weightOfItems]
        simp only at *
        omega

theorem branches_weight {fields : List (String × Json)} {ways : List (Branch Json)}
    (read : branches fields = .ok ways) :
    weightOfChildren Json.weight (Branch.children 0 ways) ≤
      (Json.present? "branches" fields).elim 0 Json.weight := by
  unfold branches at read
  split at read
  · cases read; exact Nat.zero_le _
  · next items found =>
    have := weight_branches read 0
    rw [found]
    simp only [Option.elim_some, Json.weight]
    omega
  · cases read

theorem task_weight {kind : String} {fields : List (String × Json)} {work : Task Json}
    (read : task kind fields = .ok work) :
    weightOfChildren Json.weight work.children +
      (Json.present? "nextAction" fields).elim 0 Json.weight ≤ Json.weightOfFields fields := by
  have alone := @weight_present ["nextAction"] (by simp) fields
  have branch :=
    @weight_present ["onSuccessAction", "onFailureAction", "nextAction"] (by simp) fields
  have split := @weight_present ["branches", "nextAction"] (by simp) fields
  have loop := @weight_present ["firstLoopAction", "nextAction"] (by simp) fields
  simp only [List.map_cons, List.map_nil, weightOfChildren_cons, weightOfChildren_nil]
    at alone branch split loop
  unfold task at read
  simp only [bind, Except.bind, pure, Except.pure] at read
  split at read
  · repeat' split at read
    all_goals cases read
    simp only [Task.children, weightOfChildren_nil]
    omega
  · repeat' split at read
    all_goals cases read
    simp only [Task.children, weightOfChildren_nil]
    omega
  · repeat' split at read
    all_goals cases read
    simp only [Task.children, weightOfChildren_append, weightOfChildren_along]
    omega
  · split at read
    · cases read
    · split at read
      · cases read
      · split at read
        · cases read
        · next ways found =>
          have := branches_weight found
          cases read
          simp only [Task.children]
          omega
  · repeat' split at read
    all_goals cases read
    simp only [Task.children, weightOfChildren_along]
    omega
  · cases read

theorem step_weight {value : Json} {node : Step Json} (read : step value = .ok node) :
    weightOfChildren Json.weight node.children < value.weight := by
  unfold step at read
  cases value with
  | object fields =>
    simp only [entries, bind, Except.bind, pure, Except.pure] at read
    repeat' split at read
    all_goals cases read
    next work found =>
      have := task_weight found
      simp only [Step.children, weightOfChildren_append, weightOfChildren_along, Json.weight]
      omega
  | _ => simp [entries, bind, Except.bind] at read

end FlowGate.Reading
