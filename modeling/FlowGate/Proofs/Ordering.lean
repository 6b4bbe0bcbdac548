/-
This file says in which order violations are listed, and that none is listed twice. A list of
violations has three parts: what is found in single steps, names that are used again, and default
branches; each part goes over the nodes by their numbers. Within a node no two things of one kind
are found at one place, since every rule goes over the positions of a list and names the position
in the place. As a path tells its node and the place in the node, no two violations of one kind
have one path.
-/

import FlowGate.Proofs.EmptyGroups
import FlowGate.Proofs.Locating

namespace FlowGate

/-! ### Findings in one node -/

/-- Findings of one kind are at different places. -/
def Apart (findings : List Finding) : Prop :=
  findings.Pairwise fun finding later =>
    finding.breach.kind = later.breach.kind → finding.place ≠ later.place

theorem apart_of_ite {condition : Prop} [Decidable condition] (finding : Finding) :
    Apart (if condition then [finding] else []) := by
  split
  · exact List.pairwise_singleton _ _
  · exact List.Pairwise.nil

/-- Findings of different kinds are apart. -/
theorem apart_append {first second : List Finding} (here : Apart first) (there : Apart second)
    (kinds : ∀ finding ∈ first, ∀ later ∈ second, finding.breach.kind ≠ later.breach.kind) :
    Apart (first ++ second) :=
  List.pairwise_append.2
    ⟨here, there, fun finding member later member' same =>
      absurd same (kinds finding member later member')⟩

/-- Findings at positions of a list are apart if those at each position are. -/
theorem apart_flatMap {items : List α} {find : α × Nat → List Finding} (base : AccessPath)
    (each : ∀ entry ∈ items.zipIdx, Apart (find entry))
    (placed : ∀ entry, ∀ finding ∈ find entry,
      ∃ rest, finding.place = base ++ .index entry.2 :: rest) :
    Apart (items.zipIdx.flatMap find) := by
  refine List.pairwise_flatMap.2 ⟨each, (pairwise_zipIdx items).imp ?_⟩
  intro entry other before finding member later member' _ same
  obtain ⟨rest, here⟩ := placed entry finding member
  obtain ⟨rest', there⟩ := placed other later member'
  rw [here, there, List.append_cancel_left_eq] at same
  obtain ⟨position, -⟩ := List.cons.inj same
  exact Nat.ne_of_lt before (Segment.index.inj position)

theorem apart_filterMap {items : List α} {find : α × Nat → Option Finding} (base : AccessPath)
    (placed : ∀ entry finding, find entry = some finding →
      ∃ rest, finding.place = base ++ .index entry.2 :: rest) :
    Apart (items.zipIdx.filterMap find) := by
  rw [List.filterMap_eq_flatMap_toList]
  exact apart_flatMap base (fun _ _ => Option.pairwise_toList)
    fun entry finding member => placed entry finding (Option.mem_toList.1 member)

/-! ### Conditions -/

theorem apart_groupFindings (place : AccessPath) (rejectEmpty : Bool)
    (numbered : List Condition × Nat) : Apart (groupFindings place rejectEmpty numbered) := by
  refine apart_append (apart_of_ite _)
    (apart_filterMap (place ++ [.index numbered.2]) fun entry finding found => ?_) ?_
  · obtain ⟨rfl, -⟩ := Condition.finding?_eq_some found
    exact ⟨_, rfl⟩
  · intro finding member later member' same
    obtain ⟨entry, -, found⟩ := List.mem_filterMap.1 member'
    obtain ⟨rfl, -⟩ := Condition.finding?_eq_some found
    split at member
    · rw [List.mem_singleton.1 member] at same
      cases same
    · cases member

theorem place_of_groupFindings {place : AccessPath} {rejectEmpty : Bool}
    {numbered : List Condition × Nat} {finding : Finding}
    (member : finding ∈ groupFindings place rejectEmpty numbered) :
    ∃ rest, finding.place = place ++ .index numbered.2 :: rest := by
  rcases List.mem_append.1 member with empty | unknown
  · split at empty
    · rw [List.mem_singleton.1 empty]
      exact ⟨[], rfl⟩
    · cases empty
  · obtain ⟨entry, -, found⟩ := List.mem_filterMap.1 unknown
    obtain ⟨rfl, -⟩ := Condition.finding?_eq_some found
    exact ⟨_, List.append_assoc ..⟩

theorem ConditionGroups.apart_findings (place : AccessPath) (rejectEmpty : Bool)
    (groups : ConditionGroups) : Apart (groups.findings place rejectEmpty) :=
  apart_flatMap place (fun entry _ => apart_groupFindings place rejectEmpty entry)
    fun _ _ member => place_of_groupFindings member

/-- That conditions are missing is another matter than what is found in them. -/
theorem ConditionGroups.apart_required {missing : Prop} [Decidable missing] {finding : Finding}
    (empty : finding.breach.kind ≠ .emptyConditionGroup)
    (unknown : finding.breach.kind ≠ .unknownOperator) (place : AccessPath) (rejectEmpty : Bool)
    (groups : ConditionGroups) :
    Apart ((if missing then [finding] else []) ++ groups.findings place rejectEmpty) := by
  refine apart_append (apart_of_ite _) (groups.apart_findings place rejectEmpty) ?_
  intro found member later member' same
  split at member
  · rw [List.mem_singleton.1 member] at same
    rcases kind_of_findings member' with kind | kind
    · exact empty (same.trans kind)
    · exact unknown (same.trans kind)
  · cases member

/-! ### Steps -/

theorem BranchSettings.apart_findings (settings : BranchSettings) (options : Options) :
    Apart (settings.findings options) :=
  ConditionGroups.apart_required Violation.Kind.noConfusion Violation.Kind.noConfusion _ _ _

theorem SplitOption.apart_findings (defaultBranch : String) (options : Options)
    (numbered : SplitOption × Nat) : Apart (findings defaultBranch options numbered) :=
  ConditionGroups.apart_required Violation.Kind.noConfusion Violation.Kind.noConfusion _ _ _

theorem SplitIndex.apart_emptiness (optionIds wayIds : List String) :
    Apart (emptiness optionIds wayIds) := by
  rw [emptiness]
  split
  · exact List.pairwise_singleton _ _
  · exact apart_of_ite _

/-- Each rule about how options and ways match finds one thing at most at a position, and the rules
have kinds of their own. -/
theorem apart_matchingFindings (optionIds wayIds : List String) :
    Apart (matchingFindings optionIds wayIds) := by
  have repeated : Apart
      (optionIds.zipIdx.filterMap (SplitIndex.of optionIds wayIds).repeatedOption?) := by
    refine apart_filterMap optionsPlace fun entry finding found => ?_
    obtain ⟨first, -, -, rfl⟩ := SplitIndex.repeatedOption?_eq_some.1 found
    exact ⟨_, List.append_assoc ..⟩
  have wrong : Apart (wayIds.zipIdx.filterMap (SplitIndex.of optionIds wayIds).wrongWay?) := by
    refine apart_filterMap [.field "branches"] fun entry finding found => ?_
    exact ⟨_, SplitIndex.place_of_wrongWay? found⟩
  have without : Apart
      (optionIds.zipIdx.filterMap (SplitIndex.of optionIds wayIds).optionWithoutWay?) := by
    refine apart_filterMap optionsPlace fun entry finding found => ?_
    obtain ⟨-, -, rfl⟩ := SplitIndex.optionWithoutWay?_eq_some.1 found
    exact ⟨_, List.append_assoc ..⟩
  refine apart_append (apart_append (apart_append (SplitIndex.apart_emptiness _ _) repeated ?_)
    wrong ?_) without ?_
  · intro finding member later member' same
    rw [SplitIndex.kind_of_emptiness member, SplitIndex.kind_of_repeatedOption member'] at same
    cases same
  · intro finding member later member' same
    rcases List.mem_append.1 member with member | member
    · rw [SplitIndex.kind_of_emptiness member] at same
      rcases SplitIndex.kind_of_wrongWay member' with kind | kind <;> cases same.trans kind
    · rw [SplitIndex.kind_of_repeatedOption member] at same
      rcases SplitIndex.kind_of_wrongWay member' with kind | kind <;> cases same.trans kind
  · intro finding member later member' same
    rw [SplitIndex.kind_of_optionWithoutWay member'] at same
    rcases List.mem_append.1 member with member | member
    · rcases List.mem_append.1 member with member | member
      · cases (SplitIndex.kind_of_emptiness member).symm.trans same
      · cases (SplitIndex.kind_of_repeatedOption member).symm.trans same
    · rcases SplitIndex.kind_of_wrongWay member with kind | kind <;> cases kind.symm.trans same

theorem SplitSettings.apart_findings (settings : SplitSettings) (wayIds : List String)
    (options : Options) : Apart (settings.findings wayIds options) := by
  refine apart_append (apart_matchingFindings _ _) (apart_flatMap optionsPlace
    (fun entry _ => SplitOption.apart_findings _ _ entry) fun entry finding member => ?_) ?_
  · obtain ⟨-, rest, located⟩ := SplitOption.apart_of_findings member
    exact ⟨rest, located.trans (List.append_assoc ..)⟩
  · intro finding member later member' same
    obtain ⟨entry, -, found⟩ := List.mem_flatMap.1 member'
    have matching := mem_matchingKinds_of_matching member
    exact (SplitOption.apart_of_findings found).1 (same ▸ matching)

theorem Step.apart_findings (step : Step α) (options : Options) :
    Apart (step.findings options) := by
  rw [findings]
  cases step.task with
  | branch settings onSuccess onFailure => exact settings.apart_findings options
  | split settings branches => exact settings.apart_findings _ options
  | _ => exact List.Pairwise.nil

/-- In one node no two things of one kind are found at one place. -/
theorem Node.apart_findings (node : Node) (options : Options) : Apart (node.findings options) := by
  rw [findings]
  cases node.step? with
  | none => exact List.Pairwise.nil
  | some step => exact step.apart_findings options

/-! ### Findings in steps are not about whole workflows -/

/-- The kinds of violation that are about a workflow as a whole. -/
def treeKinds : List Violation.Kind := [.duplicateName, .invalidDefaultBranch]

theorem ConditionGroups.not_treeKind {missing : Prop} [Decidable missing] {finding : Finding}
    (required : finding.breach.kind ∉ treeKinds) {place : AccessPath} {rejectEmpty : Bool}
    {groups : ConditionGroups} {found : Finding}
    (member : found ∈ (if missing then [finding] else []) ++ groups.findings place rejectEmpty) :
    found.breach.kind ∉ treeKinds := by
  rcases List.mem_append.1 member with empty | inGroups
  · split at empty
    · rwa [List.mem_singleton.1 empty]
    · cases empty
  · rcases kind_of_findings inGroups with kind | kind <;> rw [kind] <;> decide

theorem SplitSettings.not_treeKind {settings : SplitSettings} {wayIds : List String}
    {options : Options} {finding : Finding}
    (member : finding ∈ settings.findings wayIds options) : finding.breach.kind ∉ treeKinds := by
  rcases List.mem_append.1 member with matching | inOptions
  · have matching := mem_matchingKinds_of_matching matching
    revert matching
    cases finding.breach.kind <;> decide
  · obtain ⟨entry, -, found⟩ := List.mem_flatMap.1 inOptions
    refine ConditionGroups.not_treeKind ?_ found
    show Violation.Kind.optionRequiresCondition ∉ treeKinds
    decide

theorem Step.not_treeKind {step : Step α} {options : Options} {finding : Finding}
    (member : finding ∈ step.findings options) : finding.breach.kind ∉ treeKinds := by
  rw [findings] at member
  cases task : step.task with
  | branch settings onSuccess onFailure =>
    rw [task] at member
    refine ConditionGroups.not_treeKind ?_ member
    show Violation.Kind.branchRequiresCondition ∉ treeKinds
    decide
  | split settings branches =>
    rw [task] at member
    exact SplitSettings.not_treeKind member
  | _ => rw [task] at member; cases member

theorem Node.not_treeKind {node : Node} {options : Options} {finding : Finding}
    (member : finding ∈ node.findings options) : finding.breach.kind ∉ treeKinds := by
  rw [findings] at member
  cases stepped : node.step? with
  | none => rw [stepped] at member; cases member
  | some step =>
    rw [stepped] at member
    exact Step.not_treeKind member

/-! ### Violations by number -/

/-- Violations are attributed to nodes whose numbers are related one after the other. -/
def InOrder (related : Nat → Nat → Prop) (violations : List Violation) : Prop :=
  ∃ numbers : List Nat, numbers.Pairwise related ∧
    violations.map Violation.node = numbers.map some

/-- Violations of one kind are at different paths. -/
def ApartByPath (violations : List Violation) : Prop :=
  violations.Pairwise fun violation later =>
    violation.kind = later.kind → violation.path ≠ later.path

theorem nodup_of_apartByPath {violations : List Violation} (apart : ApartByPath violations) :
    (violations.map fun violation => (violation.kind, violation.path)).Nodup := by
  refine List.pairwise_map.2 (apart.imp fun differ same => ?_)
  obtain ⟨kind, path⟩ := Prod.mk.inj same
  exact differ kind path

section ByNumber

variable {items : List (α × Nat)} (ascending : items.Pairwise fun entry later => entry.2 < later.2)
  {related : Nat → Nat → Prop} (of_lt : ∀ {number later}, number < later → related number later)

include ascending of_lt

/-- What is reported entry by entry is in order, if what is reported of each entry is. -/
theorem inOrder_flatMap {report : α × Nat → List Violation}
    (attributed : ∀ entry, ∀ violation ∈ report entry, violation.node = some entry.2)
    (within : ∀ entry, (report entry).Pairwise fun _ _ => related entry.2 entry.2) :
    InOrder related (items.flatMap report) := by
  refine ⟨items.flatMap fun entry => (report entry).map fun _ => entry.2, ?_, ?_⟩
  · refine List.pairwise_flatMap.2 ⟨fun entry _ => List.pairwise_map.2 (within entry), ?_⟩
    refine ascending.imp fun before number member number' member' => ?_
    obtain ⟨_, -, rfl⟩ := List.mem_map.1 member
    obtain ⟨_, -, rfl⟩ := List.mem_map.1 member'
    exact of_lt before
  · rw [List.map_flatMap, List.map_flatMap]
    refine List.flatMap_congr fun entry _ => ?_
    rw [List.map_map]
    exact List.map_congr_left (attributed entry)

/-- Where one thing at most is reported of an entry, what is reported is in order. -/
theorem inOrder_filterMap {report : α × Nat → Option Violation}
    (attributed : ∀ entry violation, report entry = some violation →
      violation.node = some entry.2) : InOrder related (items.filterMap report) := by
  rw [List.filterMap_eq_flatMap_toList]
  exact inOrder_flatMap ascending of_lt
    (fun entry violation member => attributed entry violation (Option.mem_toList.1 member))
    fun _ => Option.pairwise_toList

end ByNumber

/-! ### What is reported of a node -/

/-- A violation is something found in a node, located in the document. -/
def Walk.Reported (walk : Walk) (numbered : Node × Nat) (violation : Violation) : Prop :=
  ∃ finding : Finding, finding.Within numbered.1 ∧ violation = walk.locate numbered.2 finding

namespace Walk

variable {walk : Walk} {numbered : Node × Nat} {violation : Violation}

theorem Reported.node (reported : walk.Reported numbered violation) :
    violation.node = some numbered.2 := by
  obtain ⟨finding, -, rfl⟩ := reported
  rfl

theorem reported_of_findings {options : Options}
    (member : violation ∈ (numbered.1.findings options).map (walk.locate numbered.2)) :
    walk.Reported numbered violation := by
  obtain ⟨finding, found, rfl⟩ := List.mem_map.1 member
  exact ⟨finding, Node.within_of_findings found, rfl⟩

theorem reported_of_name
    (found : walk.repeatedName? (firstPositions walk.names) numbered = some violation) :
    walk.Reported numbered violation := by
  obtain ⟨node, number⟩ := numbered
  obtain ⟨first, -, -, rfl⟩ := repeatedName?_eq_some.1 found
  exact ⟨_, node.within_name _, rfl⟩

theorem reported_of_default
    (found : numbered.1.defaultFinding?.map (walk.locate numbered.2) = some violation) :
    walk.Reported numbered violation := by
  obtain ⟨finding, here, rfl⟩ := Option.map_eq_some_iff.1 found
  exact ⟨finding, Node.within_of_default here, rfl⟩

theorem ascending_numbered (walk : Walk) :
    walk.numbered.Pairwise fun entry later => entry.2 < later.2 :=
  pairwise_zipIdx _

end Walk

/-! ### Paths of a listing -/

section Listing

variable {start : Trigger}

/-- What is reported at one path is reported of one node. -/
theorem Trigger.number_eq_of_path {entry other : Node × Nat} {violation violation' : Violation}
    (numbered : entry ∈ start.listing.numbered) (numbered' : other ∈ start.listing.numbered)
    (reported : start.listing.Reported entry violation)
    (reported' : start.listing.Reported other violation')
    (same : violation.path = violation'.path) : entry.2 = other.2 := by
  obtain ⟨finding, within, rfl⟩ := reported
  obtain ⟨finding', within', rfl⟩ := reported'
  exact (eq_of_path numbered numbered' within within' same).1

theorem apartByPath_flatMap {report : Node × Nat → List Violation}
    (reported : ∀ entry, ∀ violation ∈ report entry, start.listing.Reported entry violation)
    (within : ∀ entry ∈ start.listing.numbered, ApartByPath (report entry)) :
    ApartByPath (start.listing.numbered.flatMap report) := by
  refine List.pairwise_flatMap.2 ⟨within, start.listing.ascending_numbered.imp_of_mem ?_⟩
  intro entry later numbered numbered' before violation member violation' member' _ same
  exact Nat.ne_of_lt before (Trigger.number_eq_of_path numbered numbered'
    (reported entry violation member) (reported later violation' member') same)

theorem apartByPath_filterMap {report : Node × Nat → Option Violation}
    (reported : ∀ entry violation, report entry = some violation →
      start.listing.Reported entry violation) :
    ApartByPath (start.listing.numbered.filterMap report) := by
  rw [List.filterMap_eq_flatMap_toList]
  exact apartByPath_flatMap
    (fun entry violation member => reported entry violation (Option.mem_toList.1 member))
    fun _ _ => Option.pairwise_toList

theorem apartByPath_findings {entry : Node × Nat} (numbered : entry ∈ start.listing.numbered)
    (options : Options) :
    ApartByPath ((entry.1.findings options).map (start.listing.locate entry.2)) := by
  refine List.pairwise_map.2 ((entry.1.apart_findings options).imp_of_mem ?_)
  intro finding later member member' differ kind same
  exact differ kind (Trigger.eq_of_path numbered numbered (Node.within_of_findings member)
    (Node.within_of_findings member') same).2

end Listing

/-! ### Whole lists -/

namespace Walk

variable (walk : Walk) (options : Options)

/-- The violations in single nodes. -/
def inNodes : List Violation :=
  walk.numbered.flatMap fun entry => (entry.1.findings options).map (walk.locate entry.2)

/-- The violations about names that are used again. -/
def aboutNames : List Violation :=
  walk.numbered.filterMap (walk.repeatedName? (firstPositions walk.names))

/-- The violations about default branches. -/
def aboutDefaults : List Violation :=
  walk.numbered.filterMap fun entry => entry.1.defaultFinding?.map (walk.locate entry.2)

theorem violations_parts :
    walk.violations options = walk.inNodes options ++ walk.aboutNames ++ walk.aboutDefaults := by
  rw [violations, stepViolations_findings, List.append_assoc]
  rfl

variable {walk options}

theorem kind_of_inNodes {violation : Violation} (member : violation ∈ walk.inNodes options) :
    violation.kind ∉ treeKinds := by
  obtain ⟨entry, -, located⟩ := List.mem_flatMap.1 member
  obtain ⟨finding, found, rfl⟩ := List.mem_map.1 located
  exact Node.not_treeKind found

theorem kind_of_aboutNames {violation : Violation} (member : violation ∈ walk.aboutNames) :
    violation.kind = .duplicateName := by
  obtain ⟨entry, -, found⟩ := List.mem_filterMap.1 member
  exact kind_of_repeatedName? found

theorem kind_of_aboutDefaults {violation : Violation} (member : violation ∈ walk.aboutDefaults) :
    violation.kind = .invalidDefaultBranch := by
  obtain ⟨entry, -, found⟩ := List.mem_filterMap.1 member
  exact kind_of_defaultFinding? found

theorem exists_reported {violation : Violation} (member : violation ∈ walk.violations options) :
    ∃ entry ∈ walk.numbered, walk.Reported entry violation := by
  rw [violations_parts, List.mem_append, List.mem_append] at member
  rcases member with (inNode | aboutName) | aboutDefault
  · obtain ⟨entry, numbered, found⟩ := List.mem_flatMap.1 inNode
    exact ⟨entry, numbered, reported_of_findings found⟩
  · obtain ⟨entry, numbered, found⟩ := List.mem_filterMap.1 aboutName
    exact ⟨entry, numbered, reported_of_name found⟩
  · obtain ⟨entry, numbered, found⟩ := List.mem_filterMap.1 aboutDefault
    exact ⟨entry, numbered, reported_of_default found⟩

end Walk

theorem Trigger.apartByPath_listing (start : Trigger) (options : Options) :
    ApartByPath (start.listing.violations options) := by
  have nodes : ApartByPath (start.listing.inNodes options) :=
    apartByPath_flatMap (fun _ _ => Walk.reported_of_findings)
      fun _ numbered => apartByPath_findings numbered options
  have names : ApartByPath start.listing.aboutNames :=
    apartByPath_filterMap fun _ _ => Walk.reported_of_name
  have defaults : ApartByPath start.listing.aboutDefaults :=
    apartByPath_filterMap fun _ _ => Walk.reported_of_default
  rw [Walk.violations_parts]
  refine List.pairwise_append.2 ⟨List.pairwise_append.2 ⟨nodes, names, ?_⟩, defaults, ?_⟩
  · intro violation member later member' same
    have kind := same.trans (Walk.kind_of_aboutNames member')
    exact absurd (kind ▸ List.mem_cons_self) (Walk.kind_of_inNodes member)
  · intro violation member later member' same
    have kind := same.trans (Walk.kind_of_aboutDefaults member')
    rcases List.mem_append.1 member with member | member
    · exact absurd (kind ▸ List.mem_cons_of_mem _ List.mem_cons_self) (Walk.kind_of_inNodes member)
    · cases kind.symm.trans (Walk.kind_of_aboutNames member)

/-- A list of violations is in order and free of repeats. -/
structure Orderly (violations : List Violation) : Prop where
  /-- What is about single nodes comes first, then names that are used again, then default
  branches, and each part goes over the nodes by their numbers. -/
  parts : ∃ nodes names defaults, violations = nodes ++ names ++ defaults ∧
    ((∀ violation ∈ nodes, violation.kind ≠ .duplicateName ∧
      violation.kind ≠ .invalidDefaultBranch) ∧ InOrder (· ≤ ·) nodes) ∧
    ((∀ violation ∈ names, violation.kind = .duplicateName) ∧ InOrder (· < ·) names) ∧
    (∀ violation ∈ defaults, violation.kind = .invalidDefaultBranch) ∧ InOrder (· < ·) defaults
  /-- No two violations have the same kind and the same path. -/
  distinct : (violations.map fun violation => (violation.kind, violation.path)).Nodup
  /-- Violations with the same path are attributed to the same node. -/
  attributed : ∀ violation ∈ violations, ∀ other ∈ violations,
    violation.path = other.path → violation.node = other.node

theorem Trigger.orderly_listing (start : Trigger) (options : Options) :
    Orderly (start.listing.violations options) where
  parts := by
    have ascending := start.listing.ascending_numbered
    refine ⟨_, _, _, start.listing.violations_parts options, ⟨fun violation member => ?_, ?_⟩,
      ⟨fun _ => Walk.kind_of_aboutNames, ?_⟩, fun _ => Walk.kind_of_aboutDefaults, ?_⟩
    · have apart := Walk.kind_of_inNodes member
      simp only [treeKinds, List.mem_cons, List.not_mem_nil, or_false, not_or] at apart
      exact apart
    · exact inOrder_flatMap ascending Nat.le_of_lt
        (fun _ _ member => (Walk.reported_of_findings member).node)
        fun _ => List.pairwise_of_forall fun _ _ => Nat.le_refl _
    · exact inOrder_filterMap ascending id fun _ _ found => (Walk.reported_of_name found).node
    · exact inOrder_filterMap ascending id fun _ _ found => (Walk.reported_of_default found).node
  distinct := nodup_of_apartByPath (start.apartByPath_listing options)
  attributed violation member other member' same := by
    obtain ⟨entry, numbered, reported⟩ := Walk.exists_reported member
    obtain ⟨entry', numbered', reported'⟩ := Walk.exists_reported member'
    rw [reported.node, reported'.node,
      number_eq_of_path numbered numbered' reported reported' same]

/-- The violations of a workflow with a template are listed in order and free of repeats, whenever
the cap admits the workflow. -/
theorem Workflow.violations_ordered (workflow : Workflow) (options : Options)
    (template : Template) (present : workflow.template = some template)
    (violations : List Violation) (found : workflow.violations options = .ok violations) :
    Orderly violations := by
  obtain ⟨-, rfl⟩ := (Workflow.violations_eq_ok present).1 found
  exact template.trigger.orderly_listing options

/-- The list of a workflow that has violations. -/
theorem Workflow.violations_ordered_repeated :
    ∃ violations, repeated.violations .default = .ok violations ∧ violations ≠ [] ∧
      Orderly violations := by
  obtain ⟨violations, found, nonempty⟩ := violations_repeated
  exact ⟨violations, found, nonempty,
    violations_ordered repeated .default _ rfl violations found⟩

end FlowGate
