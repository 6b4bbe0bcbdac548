/-
This file says what attaching does to a step. A step is known when it is known what it does without
its continuations and what each edge leads to; attaching leaves the first alone and writes the
second at one edge, if steps of the kind own the edge, and otherwise changes nothing. So it does not
matter in which order continuations are attached along different edges, along one edge only the last
one counts, and a step that is stripped of its continuations is the same step again when all of them
are back.
-/

import FlowGate.Proofs.Continuation

namespace FlowGate

/-! ### Edges that a step owns -/

/-- Whether something can follow a step along an edge. Steps of every kind go on to a next one, the
other edges belong to steps of one kind, and a way of a split has to be there. -/
def Task.owns : Task α → Edge → Bool
  | _, .next => true
  | .branch .., .onSuccess | .branch .., .onFailure => true
  | .split _ branches, .branch index => decide (index < branches.length)
  | .loop .., .loopBody => true
  | _, _ => false

/-- Which edges a step owns does not depend on what follows it. -/
theorem Task.owns_bare (task : Task α) (edge : Edge) :
    (task.bare : Task β).owns edge = task.owns edge := by
  cases task <;> cases edge <;> simp [bare, owns]

theorem Task.owns_of_bare {task : Task α} {other : Task β}
    (same : (task.bare : Task Empty) = other.bare) : task.owns = other.owns := by
  funext edge
  rw [← task.owns_bare (β := Empty), same, other.owns_bare]

/-- A step owns the edges along which something follows it. -/
theorem Step.owns_of_along {step : Step α} {edge : Edge} {child : α}
    (found : step.along edge = some child) : step.task.owns edge = true := by
  obtain ⟨header, task, next⟩ := step
  cases task <;> cases edge <;> try first | rfl | cases found
  obtain ⟨way, here, -⟩ := Option.bind_eq_some_iff.1 found
  exact decide_eq_true (List.getElem?_eq_some_iff.1 here).1

/-! ### Steps by their edges -/

theorem Branch.ext_next {first second : List (Branch α)}
    (ids : first.map Branch.optionId = second.map Branch.optionId)
    (next : ∀ index : Nat, first[index]?.bind Branch.next = second[index]?.bind Branch.next) :
    first = second := by
  induction first generalizing second with
  | nil => exact (List.map_eq_nil_iff.1 ids.symm).symm
  | cons branch rest inductionHypothesis =>
    cases second with
    | nil => cases ids
    | cons other others =>
      obtain ⟨id, ids⟩ := List.cons.inj ids
      have here : branch.next = other.next := next 0
      have same : branch = other := by
        cases branch
        cases other
        cases id
        cases here
        rfl
      rw [same, inductionHypothesis ids fun index => next (index + 1)]

/-- Steps that do the same and lead to the same along every edge are the same. Tasks of different
kinds differ without their continuations too. -/
theorem Step.ext_along {first second : Step α} (bare : (first.bare : Step Empty) = second.bare)
    (along : ∀ edge, first.along edge = second.along edge) : first = second := by
  obtain ⟨header, task, next⟩ := first
  obtain ⟨header', task', next'⟩ := second
  obtain ⟨rfl, tasks, -⟩ := Step.mk.inj bare
  obtain rfl : next = next' := along .next
  suffices task = task' by rw [this]
  cases task <;> cases task' <;> try cases tasks
  · rfl
  · rfl
  · obtain rfl := along .onSuccess
    obtain rfl := along .onFailure
    rfl
  · obtain ⟨rfl, ways⟩ := Task.split.inj tasks
    have ids := congrArg (List.map Branch.optionId) ways
    rw [List.map_map, List.map_map] at ids
    rw [Branch.ext_next ids fun index => along (.branch index)]
  · obtain rfl := along .loopBody
    rfl

/-! ### Attaching along one edge -/

/-- Nothing is attached along an edge that the step does not own. -/
theorem Step.attach_of_not_owned {step : Step α} {edge : Edge}
    (foreign : step.task.owns edge = false) (child : α) : step.attach edge child = step := by
  obtain ⟨header, task, next⟩ := step
  cases task <;> cases edge <;> try first | rfl | cases foreign
  next settings branches index =>
    have outside : branches.length ≤ index := Nat.le_of_not_lt (of_decide_eq_false foreign)
    simp only [attach, List.modify_eq_self outside]

/-- What is attached is found along the edge that it is attached along, if the step owns the edge,
and nothing else is found elsewhere. -/
theorem Step.along_attach (step : Step α) (edge other : Edge) (child : α) :
    (step.attach edge child).along other =
      if edge = other ∧ step.task.owns edge = true then some child else step.along other := by
  obtain ⟨header, task, next⟩ := step
  cases task with
  | split settings branches =>
    cases edge with
    | branch index =>
      cases other with
      | branch position =>
        show ((branches.modify index _)[position]?).bind Branch.next = _
        rw [List.getElem?_modify]
        by_cases here : index = position
        · subst here
          by_cases inside : index < branches.length
          · simp [Task.owns, inside]
          · simp [Task.owns, inside, along]
        · simp [here, along]
      | _ => simp [attach, along]
    | _ => cases other <;> simp [attach, along, Task.owns]
  | _ => cases edge <;> cases other <;> simp [attach, along, Task.owns]

/-- What is attached to a step does not change which edges it owns. -/
theorem Step.owns_attach (step : Step α) (edge : Edge) (child : α) :
    (step.attach edge child).task.owns = step.task.owns :=
  Task.owns_of_bare (congrArg Step.task (step.bare_attach edge child))

/-- Attaching along one edge and along another one can be done in either order. -/
theorem Step.attach_comm (step : Step α) {edge other : Edge} (differ : edge ≠ other)
    (first second : α) :
    (step.attach edge first).attach other second =
      (step.attach other second).attach edge first := by
  refine Step.ext_along (by simp only [bare_attach]) fun along => ?_
  simp only [along_attach, owns_attach]
  by_cases here : edge = along
  · subst here
    simp [differ.symm]
  · simp [here]

/-! ### Attaching in any order -/

/-- Along different edges continuations can be hung on a step in any order. -/
theorem Step.hang_perm (step : Step α) {children others : List (Edge × α)}
    (same : children.Perm others) (distinct : (children.map (·.1)).Nodup) :
    step.hang children = step.hang others := by
  induction same with
  | nil => rfl
  | cons child _ inductionHypothesis =>
    have later := (List.nodup_cons.1 distinct).2
    exact congrArg (Step.attach · child.1 child.2) (inductionHypothesis later)
  | swap first second rest =>
    have differ : second.1 ≠ first.1 := fun equal =>
      (List.nodup_cons.1 distinct).1 (List.mem_cons.2 (Or.inl equal))
    exact Step.attach_comm (step.hang rest) differ.symm first.2 second.2
  | trans before _ first second =>
    exact (first distinct).trans (second ((before.map (·.1)).nodup_iff.1 distinct))

/-! ### Attaching again -/

/-- What is attached along an edge takes the place of what was attached there before. -/
theorem Step.attach_attach (step : Step α) (edge : Edge) (first second : α) :
    (step.attach edge first).attach edge second = step.attach edge second := by
  refine Step.ext_along (by simp only [bare_attach]) fun other => ?_
  simp only [along_attach, owns_attach]
  by_cases here : edge = other ∧ step.task.owns edge = true
  · simp only [if_pos here]
  · simp only [if_neg here]

/-- Attaching along an edge can wait until continuations are hung along other ones. -/
theorem Step.hang_attach (step : Step α) {children : List (Edge × α)} {edge : Edge}
    (apart : edge ∉ children.map (·.1)) (child : α) :
    (step.attach edge child).hang children = (step.hang children).attach edge child := by
  induction children with
  | nil => rfl
  | cons first rest inductionHypothesis =>
    have differ : edge ≠ first.1 := fun same => apart (same ▸ List.mem_cons_self)
    have later := inductionHypothesis fun member => apart (List.mem_cons_of_mem _ member)
    show ((step.attach edge child).hang rest).attach first.1 first.2 = _
    rw [later]
    exact (step.hang rest).attach_comm differ child first.2

/-- Continuations along the same edges replace those that were hung on a step. -/
theorem Step.hang_hang (step : Step α) {children others : List (Edge × α)}
    (edges : others.map (·.1) = children.map (·.1)) (distinct : (children.map (·.1)).Nodup) :
    (step.hang children).hang others = step.hang others := by
  induction children generalizing others with
  | nil => rw [List.map_eq_nil_iff.1 edges]; rfl
  | cons child rest inductionHypothesis =>
    obtain ⟨other, later, rfl, same, edges⟩ := List.map_eq_cons_iff.1 edges
    obtain ⟨apart, distinct⟩ := List.nodup_cons.1 distinct
    show (((step.hang rest).attach child.1 child.2).hang later).attach other.1 other.2 =
      (step.hang later).attach other.1 other.2
    rw [Step.hang_attach _ (edges ▸ apart), same, Step.attach_attach,
      inductionHypothesis edges distinct]

/-- Where all continuations of a step are replaced, those that it had do not matter. -/
theorem Step.hang_eq_bare (step : Step α) {children : List (Edge × α)}
    (edges : children.map (·.1) = step.children.map (·.1)) :
    step.hang children = step.bare.hang children := by
  have replaced := step.bare.hang_hang edges step.nodup_edges
  rwa [Step.hang_children] at replaced

/-! ### Continuations in their places -/

theorem Edge.handles_along (edge : Edge) (child : Option α) (replaced : α → Step α) :
    (edge.handles child replaced).map (fun handle => (handle.edge, handle.child)) =
      edge.along child := by
  cases child <;> rfl

theorem Edge.mem_handles {edge : Edge} {child : Option α} {replaced : α → Step α}
    {handle : Step.Handle α} (member : handle ∈ edge.handles child replaced) :
    handle.edge = edge ∧ handle.replaced = replaced := by
  obtain ⟨found, -, rfl⟩ := List.mem_map.1 member
  exact ⟨rfl, rfl⟩

/-- The handles of a step are on its continuations, in the same order. -/
theorem Step.handles_children (step : Step α) :
    step.handles.map (fun handle => (handle.edge, handle.child)) = step.children := by
  obtain ⟨header, task, next⟩ := step
  rw [handles, children, List.map_append, Edge.handles_along]
  refine congrArg (· ++ _) ?_
  cases task with
  | code settings => rfl
  | block settings => rfl
  | branch settings onSuccess onFailure =>
    rw [List.map_append, Edge.handles_along, Edge.handles_along]
    rfl
  | split settings branches =>
    rw [List.map_flatMap]
    exact List.flatMap_congr fun entry _ => Edge.handles_along _ _ _
  | loop settings body => exact Edge.handles_along _ _ _

theorem Step.attach_way (header : Header) (settings : SplitSettings) (next : Option α)
    {branches : List (Branch α)} {index : Nat} {branch : Branch α}
    (here : branches[index]? = some branch) (child : α) :
    Step.attach ⟨header, .split settings branches, next⟩ (.branch index) child =
      ⟨header, .split settings (branches.set index { branch with next := some child }), next⟩ := by
  simp [attach, List.modify_eq_set_getElem?, here]

/-- What a handle puts in the place of a continuation is attached along its edge. -/
theorem Step.replaced_eq_attach {step : Step α} {handle : Step.Handle α}
    (member : handle ∈ step.handles) (child : α) :
    handle.replaced child = step.attach handle.edge child := by
  obtain ⟨header, task, next⟩ := step
  rcases List.mem_append.1 member with own | last
  · cases task with
    | code settings => cases own
    | block settings => cases own
    | branch settings onSuccess onFailure =>
      rcases List.mem_append.1 own with success | failure
      · obtain ⟨edge, replaced⟩ := Edge.mem_handles success
        rw [edge, replaced]
        rfl
      · obtain ⟨edge, replaced⟩ := Edge.mem_handles failure
        rw [edge, replaced]
        rfl
    | split settings branches =>
      obtain ⟨⟨branch, index⟩, listed, found⟩ := List.mem_flatMap.1 own
      obtain ⟨edge, replaced⟩ := Edge.mem_handles found
      have here : branches[index]? = some branch := List.mem_zipIdx_iff_getElem?.1 listed
      rw [edge, replaced, attach_way header settings next here]
    | loop settings body =>
      obtain ⟨edge, replaced⟩ := Edge.mem_handles own
      rw [edge, replaced]
      rfl
  · obtain ⟨edge, replaced⟩ := Edge.mem_handles last
    rw [edge, replaced]
    rfl

/-! ### Taking continuations off -/

theorem Branch.map_snd_children (first : Nat) (branches : List (Branch α)) :
    (Branch.children first branches).map (·.2) = branches.filterMap Branch.next := by
  induction branches generalizing first with
  | nil => rfl
  | cons branch rest inductionHypothesis =>
    obtain ⟨optionId, next⟩ := branch
    rw [Branch.children_cons, List.map_append, inductionHypothesis]
    cases next <;> rfl

theorem Edge.map_snd_along (edge : Edge) (child : Option α) :
    (edge.along child).map (·.2) = child.toList := by
  cases child <;> rfl

/-- What is taken off a step is what it leads to, and the step is left without it. -/
theorem Step.taken_eq (step : Step α) :
    step.taken = (step.children.map (·.2), step.bare) := by
  obtain ⟨header, task, next⟩ := step
  rw [children, List.map_append, Edge.map_snd_along]
  cases task with
  | code settings => rfl
  | block settings => rfl
  | branch settings onSuccess onFailure =>
    rw [Task.children, List.map_append, Edge.map_snd_along, Edge.map_snd_along]
    rfl
  | split settings branches =>
    rw [Task.children, Branch.map_snd_children]
    rfl
  | loop settings body =>
    rw [Task.children, Edge.map_snd_along]
    rfl

/-! ### Attaching undoes taking off -/

/-- A step that is stripped of its continuations is the same step again when all of them are
attached, whatever the order. -/
theorem Step.hang_of_perm {step : Step α} {children : List (Edge × α)}
    (same : children.Perm step.children) : step.bare.hang children = step := by
  rw [← step.bare.hang_perm same.symm step.nodup_edges, step.hang_children]

/-- The continuations of a step have different edges, and the handles are on the same ones in the
same order, each of them writing what `attach` writes. Taken off, they leave the step bare, and
attaching all of them in any order gives the step back. Attaching along an edge that the step owns
changes what is found along this edge and nothing else; along any other edge it changes nothing. -/
theorem Step.attach_exact (step : Step α) :
    (step.children.map (·.1)).Nodup ∧
    (step.handles.map fun handle => (handle.edge, handle.child)) = step.children ∧
    (∀ handle ∈ step.handles, ∀ child,
      handle.replaced child = step.attach handle.edge child) ∧
    step.taken = (step.children.map (·.2), step.bare) ∧
    (∀ children : List (Edge × α), children.Perm step.children →
      step.bare.hang children = step) ∧
    (∀ edge child, step.task.owns edge = true →
      (step.attach edge child).along edge = some child ∧
      (∀ other, other ≠ edge → (step.attach edge child).along other = step.along other) ∧
      ((step.attach edge child).bare : Step α) = step.bare) ∧
    ∀ edge child, step.task.owns edge = false → step.attach edge child = step := by
  refine ⟨step.nodup_edges, step.handles_children, fun _ => Step.replaced_eq_attach, step.taken_eq,
    fun _ => Step.hang_of_perm, fun edge child owned => ⟨?_, fun other differ => ?_, ?_⟩,
    fun edge child foreign => Step.attach_of_not_owned foreign child⟩
  · rw [along_attach, if_pos ⟨rfl, owned⟩]
  · rw [along_attach, if_neg fun same => differ same.1.symm]
  · exact step.bare_attach edge child

end FlowGate
