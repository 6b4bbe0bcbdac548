/-
This file compares the rules that reject groups without conditions with those that accept them. The
stricter rules find what the others find, in the same order, and among it one thing for each empty
group. This is put together as the rules are: it holds of one group, and of findings that are listed
one after the other if it holds of the parts, and so it holds of steps and of whole workflows.
-/

import FlowGate.Proofs.Matching
import FlowGate.Proofs.Preorder
import FlowGate.Proofs.Unseen

namespace FlowGate

/-! ### Groups without conditions -/

/-- The places of the groups that have no conditions. -/
def ConditionGroups.emptyPlaces (place : AccessPath) (groups : ConditionGroups) :
    List AccessPath :=
  groups.zipIdx.filterMap fun (group, position) =>
    if group = [] then some (place ++ [.index position]) else none

/-- The places of the groups of a split that have no conditions. The groups of the default option
decide nothing and are left out. -/
def SplitSettings.emptyPlaces (settings : SplitSettings) : List AccessPath :=
  settings.options.zipIdx.flatMap fun (option, position) =>
    if option.id = settings.defaultBranch then []
    else option.conditions.emptyPlaces (optionPlace position ++ [.field "conditions"])

/-- The places in a step of the groups that have no conditions. -/
def Step.emptyPlaces (step : Step α) : List AccessPath :=
  match step.task with
  | .branch settings _ _ => settings.conditions.emptyPlaces conditionsPlace
  | .split settings _ => settings.emptyPlaces
  | .code _ | .block _ | .loop .. => []

/-- The places in a node of the groups that have no conditions. -/
def Node.emptyPlaces (node : Node) : List AccessPath :=
  match node.step? with
  | none => []
  | some step => step.emptyPlaces

/-! ### Stricter findings -/

/-- Findings of strict rules are those of lenient ones and, between them, one for each of some
places, that there is a group without conditions. -/
structure Refined (strict lenient : List Finding) (places : List AccessPath) : Prop where
  others : (strict.filter fun finding => finding.breach.kind != .emptyConditionGroup) = lenient
  empty : ofKind .emptyConditionGroup strict =
    places.map fun place => ⟨place, .emptyConditionGroup⟩

namespace Refined

variable {strict lenient : List Finding} {places : List AccessPath}

/-- What is about other matters is not refined. -/
theorem of_apart (apart : ∀ finding ∈ lenient, finding.breach.kind ≠ .emptyConditionGroup) :
    Refined lenient lenient [] where
  others := List.filter_eq_self.2 fun finding member => bne_iff_ne.2 (apart finding member)
  empty := ofKind_eq_nil apart

theorem of_ite {condition : Prop} [Decidable condition] {finding : Finding}
    (apart : finding.breach.kind ≠ .emptyConditionGroup) :
    Refined (if condition then [finding] else []) (if condition then [finding] else []) [] := by
  refine of_apart fun found member => ?_
  split at member
  · rwa [List.mem_singleton.1 member]
  · cases member

/-- Lenient rules find no empty groups. -/
theorem lenient_self (refined : Refined strict lenient places) : Refined lenient lenient [] := by
  refine of_apart fun finding member => ?_
  rw [← refined.others] at member
  exact bne_iff_ne.1 (List.mem_filter.1 member).2

theorem append {strict' lenient' : List Finding} {places' : List AccessPath}
    (first : Refined strict lenient places) (second : Refined strict' lenient' places') :
    Refined (strict ++ strict') (lenient ++ lenient') (places ++ places') where
  others := by rw [List.filter_append, first.others, second.others]
  empty := by rw [ofKind_append, first.empty, second.empty, List.map_append]

theorem flatMap {items : List α} {strict lenient : α → List Finding} {places : α → List AccessPath}
    (each : ∀ item ∈ items, Refined (strict item) (lenient item) (places item)) :
    Refined (items.flatMap strict) (items.flatMap lenient) (items.flatMap places) := by
  induction items with
  | nil => exact ⟨rfl, rfl⟩
  | cons item rest inductionHypothesis =>
    rw [List.flatMap_cons, List.flatMap_cons, List.flatMap_cons]
    exact (each item List.mem_cons_self).append
      (inductionHypothesis fun item member => each item (List.mem_cons_of_mem _ member))

end Refined

/-! ### Rules for conditions -/

theorem groupFindings_refined (place : AccessPath) (group : List Condition) (position : Nat) :
    Refined (groupFindings place true (group, position))
      (groupFindings place false (group, position))
      (if group = [] then some (place ++ [.index position]) else none).toList := by
  cases group with
  | nil => exact ⟨rfl, rfl⟩
  | cons first rest =>
    refine Refined.of_apart fun finding member => ?_
    obtain ⟨⟨condition, number⟩, -, found⟩ := List.mem_filterMap.1 member
    obtain ⟨rfl, -⟩ := Condition.finding?_eq_some found
    exact Violation.Kind.noConfusion

theorem ConditionGroups.findings_refined (place : AccessPath) (groups : ConditionGroups) :
    Refined (groups.findings place true) (groups.findings place false)
      (groups.emptyPlaces place) := by
  rw [emptyPlaces, List.filterMap_eq_flatMap_toList]
  exact Refined.flatMap fun (group, position) _ => groupFindings_refined place group position

/-- Strict rules look at all options of a split but the default one. -/
theorem SplitOption.findings_refined (defaultBranch : String) (cap : UInt64)
    (option : SplitOption) (position : Nat) :
    Refined (findings defaultBranch ⟨cap, true⟩ (option, position))
      (findings defaultBranch ⟨cap, false⟩ (option, position))
      (if option.id = defaultBranch then []
        else option.conditions.emptyPlaces (optionPlace position ++ [.field "conditions"])) := by
  have groups := option.conditions.findings_refined (optionPlace position ++ [.field "conditions"])
  by_cases default : option.id = defaultBranch
  · rw [findings, findings, if_pos default, beq_iff_eq.2 default]
    exact (Refined.of_ite Violation.Kind.noConfusion).append groups.lenient_self
  · rw [findings, findings, if_neg default, beq_eq_false_iff_ne.2 default]
    exact (Refined.of_ite Violation.Kind.noConfusion).append groups

/-! ### Rules for steps -/

theorem SplitSettings.findings_refined (settings : SplitSettings) (wayIds : List String)
    (cap : UInt64) :
    Refined (settings.findings wayIds ⟨cap, true⟩) (settings.findings wayIds ⟨cap, false⟩)
      settings.emptyPlaces := by
  refine Refined.append (Refined.of_apart fun finding member same => ?_)
    (Refined.flatMap fun (option, position) _ =>
      SplitOption.findings_refined settings.defaultBranch cap option position)
  have matching := mem_matchingKinds_of_matching member
  rw [same] at matching
  exact absurd matching (by decide)

theorem BranchSettings.findings_refined (settings : BranchSettings) (cap : UInt64) :
    Refined (settings.findings ⟨cap, true⟩) (settings.findings ⟨cap, false⟩)
      (settings.conditions.emptyPlaces conditionsPlace) := by
  rw [findings, findings]
  exact (Refined.of_ite Violation.Kind.noConfusion).append
    (settings.conditions.findings_refined conditionsPlace)

theorem Step.findings_refined (step : Step α) (cap : UInt64) :
    Refined (step.findings ⟨cap, true⟩) (step.findings ⟨cap, false⟩) step.emptyPlaces := by
  rw [findings, findings, emptyPlaces]
  cases step.task with
  | branch settings onSuccess onFailure => exact settings.findings_refined cap
  | split settings branches => exact settings.findings_refined _ cap
  | _ => exact ⟨rfl, rfl⟩

theorem Node.findings_refined (node : Node) (cap : UInt64) :
    Refined (node.findings ⟨cap, true⟩) (node.findings ⟨cap, false⟩) node.emptyPlaces := by
  rw [findings, findings, emptyPlaces]
  cases node.step? with
  | none => exact ⟨rfl, rfl⟩
  | some step => exact step.findings_refined cap

/-! ### Rules for workflows -/

namespace Walk

variable (walk : Walk) (cap : UInt64)

/-- The violations of steps are the findings in the nodes of a walk, node by node. -/
theorem stepViolations_findings (options : Options) :
    walk.stepViolations options = walk.numbered.flatMap fun (node, number) =>
      (node.findings options).map (walk.locate number) := by
  rw [stepViolations_eq]
  refine List.flatMap_congr ?_
  rintro ⟨node, number⟩ -
  dsimp only
  cases node.findings options <;> rfl

/-- Violations of some kinds come from findings of those kinds. -/
theorem filter_stepViolations (options : Options) (keep : Violation.Kind → Bool) :
    ((walk.stepViolations options).filter fun violation => keep violation.kind) =
      walk.numbered.flatMap fun (node, number) =>
        ((node.findings options).filter fun finding => keep finding.breach.kind).map
          (walk.locate number) := by
  rw [stepViolations_findings, List.filter_flatMap]
  refine List.flatMap_congr ?_
  rintro ⟨node, number⟩ -
  exact List.filter_map

/-- The rules for whole workflows look at no conditions. -/
theorem apart_of_treeViolations {violation : Violation} (member : violation ∈ walk.treeViolations) :
    violation.kind ≠ .emptyConditionGroup := by
  rcases List.mem_append.1 member with repeated | default
  · obtain ⟨⟨node, number⟩, -, found⟩ := List.mem_filterMap.1 repeated
    rw [kind_of_repeatedName? found]
    exact Violation.Kind.noConfusion
  · obtain ⟨⟨node, number⟩, -, found⟩ := List.mem_filterMap.1 default
    rw [kind_of_defaultFinding? found]
    exact Violation.Kind.noConfusion

theorem violations_others :
    ((walk.violations ⟨cap, true⟩).filter fun violation =>
      violation.kind != .emptyConditionGroup) = walk.violations ⟨cap, false⟩ := by
  rw [violations, violations, List.filter_append, List.filter_eq_self.2 fun violation member =>
    bne_iff_ne.2 (walk.apart_of_treeViolations member)]
  refine congrArg (· ++ walk.treeViolations) ?_
  rw [walk.filter_stepViolations ⟨cap, true⟩ (· != .emptyConditionGroup),
    stepViolations_findings]
  refine List.flatMap_congr ?_
  rintro ⟨node, number⟩ -
  exact congrArg (List.map _) (node.findings_refined cap).others

theorem violations_empty :
    ((walk.violations ⟨cap, true⟩).filter fun violation =>
      violation.kind == .emptyConditionGroup) =
        walk.numbered.flatMap fun (node, number) => node.emptyPlaces.map fun place =>
          walk.locate number ⟨place, .emptyConditionGroup⟩ := by
  have none : (walk.treeViolations.filter fun violation =>
      violation.kind == .emptyConditionGroup) = [] :=
    List.filter_eq_nil_iff.2 fun violation member same =>
      walk.apart_of_treeViolations member (beq_iff_eq.1 same)
  rw [violations, List.filter_append, none, List.append_nil,
    walk.filter_stepViolations ⟨cap, true⟩ (· == .emptyConditionGroup)]
  refine List.flatMap_congr ?_
  rintro ⟨node, number⟩ -
  exact (congrArg (List.map _) (node.findings_refined cap).empty).trans List.map_map

variable {walk} in
/-- An empty group is reported at its place in its node. -/
theorem locate_emptyPlace {node : Node} {place : AccessPath} (member : place ∈ node.emptyPlaces)
    (number : Nat) :
    walk.locate number ⟨place, .emptyConditionGroup⟩ = {
      path := walk.path number ++ "." ++ place.render
      kind := .emptyConditionGroup
      message := "condition group has no conditions"
      node := some number } := by
  have points : Finding.Points ⟨place, .emptyConditionGroup⟩ node := by
    have listed := List.mem_map_of_mem (f := fun place =>
      (⟨place, .emptyConditionGroup⟩ : Finding)) member
    rw [← (node.findings_refined 0).empty] at listed
    have found := (List.mem_filter.1 listed).1
    rw [Node.findings] at found
    cases stepped : node.step? with
    | none => rw [stepped] at found; cases found
    | some step =>
      rw [stepped] at found
      exact Step.points stepped found
  rw [← (walk.path_locate points number).2.1]
  rfl

end Walk

theorem zipIdx_zipIdx (items : List α) (first : Nat) :
    (items.zipIdx first).zipIdx first =
      (items.zipIdx first).map fun entry => (entry, entry.2) := by
  induction items generalizing first with
  | nil => rfl
  | cons item rest inductionHypothesis =>
    rw [List.zipIdx_cons, List.zipIdx_cons, inductionHypothesis, List.map_cons]

/-- The nodes of the recursive listing have the numbers of the nodes of the walk. -/
theorem Trigger.zipIdx_inOrder (start : Trigger) :
    start.inOrder.zipIdx = start.listing.numbered.map fun (node, number) =>
      ((start.listing.visits.edgesTo number [], node), number) := by
  rw [inOrder_eq_preorder, ← located_listing, Walk.located, List.zipIdx_map, Walk.numbered,
    zipIdx_zipIdx, List.map_map]
  rfl

/-- Rejecting groups without conditions refines the rules. The violations under rules that accept
such groups are those under rules that reject them, apart from the violations that are about
empty groups, and stand in the same order. Those that are left out come in the order of visits,
one for each empty group of a branch or of an option of a split which is not its default one, and
each at the path of the group. -/
theorem Workflow.rejecting_exact (workflow : Workflow) (cap : UInt64) :
    workflow.violations ⟨cap, false⟩ =
      (workflow.violations ⟨cap, true⟩).map
        (List.filter fun violation => violation.kind != .emptyConditionGroup) ∧
    ∀ template, workflow.template = some template →
      ∀ found, workflow.violations ⟨cap, true⟩ = .ok found →
        (found.filter fun violation => violation.kind == .emptyConditionGroup) =
          template.trigger.inOrder.zipIdx.flatMap fun ((path, node), number) =>
            node.emptyPlaces.map fun place => {
              path := stepPath path ++ "." ++ place.render
              kind := .emptyConditionGroup
              message := "condition group has no conditions"
              node := some number } := by
  constructor
  · rw [violations, violations]
    cases workflow.template with
    | none => rfl
    | some template =>
      have walked : template.trigger.walk ⟨cap, false⟩ = template.trigger.walk ⟨cap, true⟩ := rfl
      dsimp only
      rw [walked]
      cases template.trigger.walk ⟨cap, true⟩ with
      | error refusal => rfl
      | ok walk => exact congrArg Except.ok (walk.violations_others cap).symm
  · intro template present found judged
    obtain ⟨-, rfl⟩ := (Workflow.violations_eq_ok present).1 judged
    rw [Walk.violations_empty, Trigger.zipIdx_inOrder, List.flatMap_map]
    refine List.flatMap_congr ?_
    rintro ⟨node, number⟩ -
    exact List.map_congr_left fun place member => Walk.locate_emptyPlace member number

/-- A workflow with three empty groups, one of them in the default option of a split. -/
def Workflow.vacuous : Workflow where
  name := "vacuous"
  description := ""
  tags := .empty
  template := some {
    displayName := "Vacuous"
    valid := true
    trigger := {
      header := ⟨"start", "Start", true⟩
      kind := .empty []
      next := some (.mk {
        header := ⟨"check", "Check", true⟩
        task := .branch ⟨[[], [⟨"LIKES", "order", none, none⟩]], none⟩ none none
        next := some (.mk ⟨⟨"sort", "Sort", true⟩,
          .split ⟨[⟨"late", "Late", [[]]⟩, ⟨"soon", "Soon", [[]]⟩], "soon", none⟩
            [⟨"late", none⟩, ⟨"soon", none⟩], none⟩) }) } }

theorem Workflow.rejecting_exact_vacuous :
    ∃ found, vacuous.violations ⟨5, true⟩ = .ok found ∧
      (found.filter fun violation => violation.kind == .emptyConditionGroup).map
          (fun violation => (violation.path, violation.node)) =
        [("template.trigger.nextAction.settings.conditions[0]", some 1),
          ("template.trigger.nextAction.nextAction.settings.options[0].conditions[0]",
            some 2)] := by
  have within : (vacuous.template.get rfl).trigger.WithinDepth (5 : UInt64).toNat :=
    Trigger.withinDepth_of_weight (show 2 ≤ 5 by decide)
  have judged := (@violations_eq_ok vacuous _ rfl ⟨5, true⟩ _).2
    ⟨Trigger.walk_eq_ok.2 ⟨within, rfl⟩, rfl⟩
  refine ⟨_, judged, ?_⟩
  rw [(rejecting_exact vacuous 5).2 _ rfl _ judged]
  rfl

end FlowGate
