/-
This file says what the rules ask of a single step, and shows that a step has no findings exactly
when it meets all of it. The rules look at few of the fields of a step: the facts of a step are
these fields, and what is asked is asked of the facts. Where several names are the same the rules
keep the first one, so a rule may pass over a later one; that one is found by another rule.
-/

import FlowGate.Rules.Tree
import Mathlib.Data.List.Nodup

namespace FlowGate

/-! ### Facts -/

/-- The operators of conditions, group by group. -/
abbrev OperatorGroups := List (List String)

/-- What the rules look at in an option of a split. -/
structure OptionFacts where
  id : String
  groups : OperatorGroups

/-- What the rules look at in a step. -/
inductive Facts where
  /-- The rules ask nothing of the step. -/
  | free
  | branch (groups : OperatorGroups)
  | split (options : List OptionFacts) (defaultBranch : String) (ways : List String)

/-- The operators that groups of conditions compare with. -/
def ConditionGroups.operators (groups : ConditionGroups) : OperatorGroups :=
  groups.map fun group => group.map Condition.operator

def SplitOption.facts (option : SplitOption) : OptionFacts :=
  ⟨option.id, option.conditions.operators⟩

/-- The facts of what a step does. -/
def Task.facts : Task α → Facts
  | .code _ | .block _ | .loop .. => .free
  | .branch settings _ _ => .branch settings.conditions.operators
  | .split settings branches =>
    .split (settings.options.map SplitOption.facts) settings.defaultBranch
      (branches.map Branch.optionId)

/-! ### What is asked -/

/-- Every operator is one that conditions may compare with. -/
def OperatorGroups.Known (groups : OperatorGroups) : Prop :=
  ∀ group ∈ groups, ∀ tag ∈ group, ∃ operator : Operator, operator.tag = tag

/-- What is asked of a step that goes one of two ways. -/
structure BranchSound (rejectEmpty : Bool) (groups : OperatorGroups) : Prop where
  conditions : groups ≠ []
  operators : groups.Known
  filled : rejectEmpty = true → [] ∉ groups

/-- What is asked of a step that goes one of many ways. -/
structure SplitSound (rejectEmpty : Bool) (options : List OptionFacts) (defaultBranch : String)
    (ways : List String) : Prop where
  hasOptions : options ≠ []
  hasWays : ways ≠ []
  distinctOptions : (options.map OptionFacts.id).Nodup
  distinctWays : ways.Nodup
  sameIds : ∀ id, id ∈ options.map OptionFacts.id ↔ id ∈ ways
  hasDefault : defaultBranch ∈ options.map OptionFacts.id
  conditions : ∀ option ∈ options, option.id ≠ defaultBranch → option.groups ≠ []
  operators : ∀ option ∈ options, option.groups.Known
  filled : rejectEmpty = true →
    ∀ option ∈ options, option.id ≠ defaultBranch → [] ∉ option.groups

/-- What is asked of a step. -/
def Facts.Sound (rejectEmpty : Bool) : Facts → Prop
  | .free => True
  | .branch groups => BranchSound rejectEmpty groups
  | .split options defaultBranch ways => SplitSound rejectEmpty options defaultBranch ways

/-! ### Findings by position -/

theorem flatMap_zipIdx_eq_nil {items : List α} {found : α × Nat → List β} :
    items.zipIdx.flatMap found = [] ↔
      ∀ position item, items[position]? = some item → found (item, position) = [] := by
  rw [List.flatMap_eq_nil_iff]
  constructor
  · intro none position item here
    exact none (item, position) (List.mem_zipIdx_iff_getElem?.2 here)
  · rintro none ⟨item, position⟩ member
    exact none position item (List.mem_zipIdx_iff_getElem?.1 member)

theorem filterMap_zipIdx_eq_nil {items : List α} {found : α × Nat → Option β} :
    items.zipIdx.filterMap found = [] ↔
      ∀ position item, items[position]? = some item → found (item, position) = none := by
  rw [List.filterMap_eq_nil_iff]
  constructor
  · intro none position item here
    exact none (item, position) (List.mem_zipIdx_iff_getElem?.2 here)
  · rintro none ⟨item, position⟩ member
    exact none position item (List.mem_zipIdx_iff_getElem?.1 member)

/-- What does not depend on the position can be asked of the members. -/
theorem forall_position {items : List α} {holds : α → Prop} :
    (∀ (position : Nat) item, items[position]? = some item → holds item) ↔
      ∀ item ∈ items, holds item := by
  constructor
  · intro all item member
    obtain ⟨position, here⟩ := List.mem_iff_getElem?.1 member
    exact all position item here
  · intro all position item here
    exact all item (List.mem_iff_getElem?.2 ⟨position, here⟩)

/-! ### Conditions -/

theorem Condition.finding?_eq_none {place : AccessPath} {condition : Condition} {position : Nat} :
    finding? place (condition, position) = none ↔
      ∃ operator : Operator, operator.tag = condition.operator := by
  rw [finding?]
  constructor
  · intro none
    cases known : condition.operator? with
    | none => simp [known] at none
    | some operator =>
      rw [operator?, Operator.ofTag?] at known
      exact ⟨operator, eq_of_beq (List.find?_some known :)⟩
  · rintro ⟨operator, same⟩
    have known : condition.operator? = some operator := by
      rw [operator?, ← same, Operator.ofTag?_tag]
    simp [known]

theorem groupFindings_eq_nil {place : AccessPath} {rejectEmpty : Bool} {group : List Condition}
    {position : Nat} :
    groupFindings place rejectEmpty (group, position) = [] ↔
      (∀ condition ∈ group, ∃ operator : Operator, operator.tag = condition.operator) ∧
        (rejectEmpty = true → group ≠ []) := by
  rw [groupFindings, List.append_eq_nil_iff, filterMap_zipIdx_eq_nil]
  simp only [Condition.finding?_eq_none, forall_position]
  rw [and_comm]
  refine and_congr_right fun _ => ?_
  cases group <;> cases rejectEmpty <;> simp

/-- Groups of conditions have no findings if the rules have nothing against their operators. -/
theorem ConditionGroups.findings_eq_nil {place : AccessPath} {rejectEmpty : Bool}
    {groups : ConditionGroups} :
    groups.findings place rejectEmpty = [] ↔
      groups.operators.Known ∧ (rejectEmpty = true → [] ∉ groups.operators) := by
  rw [findings, flatMap_zipIdx_eq_nil]
  simp only [groupFindings_eq_nil, forall_position]
  constructor
  · intro none
    refine ⟨fun tags member tag inTags => ?_, fun reject member => ?_⟩
    · obtain ⟨group, inGroups, rfl⟩ := List.mem_map.1 member
      obtain ⟨condition, inGroup, rfl⟩ := List.mem_map.1 inTags
      exact (none group inGroups).1 condition inGroup
    · obtain ⟨group, inGroups, empty⟩ := List.mem_map.1 member
      exact (none group inGroups).2 reject (List.map_eq_nil_iff.1 empty)
  · rintro ⟨known, filled⟩ group member
    have tags : group.map Condition.operator ∈ groups.operators := List.mem_map_of_mem member
    refine ⟨fun condition inGroup => known _ tags _ (List.mem_map_of_mem inGroup), ?_⟩
    rintro reject rfl
    exact filled reject tags

/-! ### Branches -/

theorem BranchSettings.findings_eq_nil {settings : BranchSettings} {options : Options} :
    settings.findings options = [] ↔
      BranchSound options.rejectEmptyConditionGroups settings.conditions.operators := by
  rw [findings, List.append_eq_nil_iff, ConditionGroups.findings_eq_nil]
  have given : (if settings.conditions.isEmpty then
      [(⟨conditionsPlace, .branchRequiresCondition⟩ : Finding)] else []) = [] ↔
        settings.conditions.operators ≠ [] := by
    cases settings.conditions <;> simp [ConditionGroups.operators]
  rw [given]
  exact ⟨fun ⟨first, second, third⟩ => ⟨first, second, third⟩,
    fun sound => ⟨sound.conditions, sound.operators, sound.filled⟩⟩

/-! ### First positions -/

/-- Names differ just if each of them first stands where it stands. -/
theorem nodup_iff_idxOf? {names : List String} :
    names.Nodup ↔ ∀ position name, names[position]? = some name →
      names.idxOf? name = some position := by
  constructor
  · intro distinct position name here
    obtain ⟨inside, rfl⟩ := List.getElem?_eq_some_iff.1 here
    refine List.idxOf?_eq_some_iff.2 ⟨inside, rfl, fun earlier before same => ?_⟩
    exact Nat.ne_of_lt before ((List.Nodup.getElem_inj_iff distinct).1 same)
  · intro first
    refine List.nodup_iff_getElem?_ne_getElem?.2 fun earlier later before inside same => ?_
    have here := List.getElem?_eq_getElem inside
    have positions := (first earlier _ (same.trans here)).symm.trans (first later _ here)
    exact Nat.ne_of_lt before (Option.some.inj positions)

/-- The first position of a name is one where the name stands. -/
theorem getElem?_of_idxOf? {names : List String} {name : String} {position : Nat}
    (first : names.idxOf? name = some position) : names[position]? = some name := by
  obtain ⟨inside, same, -⟩ := List.idxOf?_eq_some_iff.1 first
  exact List.getElem?_eq_some_iff.2 ⟨inside, same⟩

theorem mem_iff_idxOf? {names : List String} {name : String} :
    name ∈ names ↔ ∃ position, names.idxOf? name = some position := by
  rw [← List.isSome_idxOf?, Option.isSome_iff_exists]

/-- The first position of a name is no later than any other one. -/
theorem idxOf?_le {names : List String} {name : String} {position : Nat}
    (here : names[position]? = some name) :
    ∃ first, names.idxOf? name = some first ∧ first ≤ position := by
  obtain ⟨first, found⟩ := mem_iff_idxOf?.1 (List.mem_iff_getElem?.2 ⟨position, here⟩)
  obtain ⟨inside, same⟩ := List.getElem?_eq_some_iff.1 here
  obtain ⟨_, _, earliest⟩ := List.idxOf?_eq_some_iff.1 found
  exact ⟨first, found, Nat.le_of_not_lt fun before => earliest position before same⟩

/-- An entry is the first with its name unless an earlier one is the same. -/
theorem idxOf?_ne_iff {names : List String} {name : String} {position : Nat}
    (here : names[position]? = some name) :
    names.idxOf? name ≠ some position ↔ ∃ earlier < position, names[earlier]? = some name := by
  obtain ⟨first, found, le⟩ := idxOf?_le here
  constructor
  · intro later
    have differs : first ≠ position := fun same => later (same ▸ found)
    exact ⟨first, by omega, getElem?_of_idxOf? found⟩
  · rintro ⟨earlier, before, same⟩ first
    obtain ⟨inside, -, earliest⟩ := List.idxOf?_eq_some_iff.1 first
    obtain ⟨_, equal⟩ := List.getElem?_eq_some_iff.1 same
    exact earliest earlier before equal

/-- The first position of a name stands in the list, and no earlier one holds the name. -/
theorem idxOf?_eq_some_iff_first {names : List String} {name : String} {first : Nat} :
    names.idxOf? name = some first ↔
      names[first]? = some name ∧ ∀ earlier < first, names[earlier]? ≠ some name := by
  constructor
  · intro found
    have here := getElem?_of_idxOf? found
    exact ⟨here, fun earlier before same => (idxOf?_ne_iff here).2 ⟨earlier, before, same⟩ found⟩
  · rintro ⟨here, earliest⟩
    refine Decidable.not_not.1 fun later => ?_
    obtain ⟨earlier, before, same⟩ := (idxOf?_ne_iff here).1 later
    exact earliest earlier before same

/-- Names differ just if none of them stands somewhere before it stands where it does. -/
theorem nodup_iff_not_earlier {names : List String} :
    names.Nodup ↔ ∀ position name, names[position]? = some name →
      ∀ first, names.idxOf? name = some first → position ≤ first := by
  rw [nodup_iff_idxOf?]
  refine forall₃_congr fun position name here => ?_
  obtain ⟨first, found, le⟩ := idxOf?_le here
  rw [found]
  constructor
  · intro same other found'
    exact Nat.le_of_eq (Option.some.inj (same.symm.trans found'))
  · intro notBefore
    exact congrArg some (Nat.le_antisymm le (notBefore first rfl))

/-! ### Splits -/

namespace SplitIndex

variable {optionIds wayIds : List String}

theorem emptiness_eq_nil : emptiness optionIds wayIds = [] ↔ optionIds ≠ [] ∧ wayIds ≠ [] := by
  cases optionIds <;> cases wayIds <;> simp [emptiness]

theorem repeatedOption_eq_nil {ways : Std.HashMap String Nat} :
    optionIds.zipIdx.filterMap (repeatedOption? ⟨firstPositions optionIds, ways⟩) = [] ↔
      optionIds.Nodup := by
  rw [filterMap_zipIdx_eq_nil, nodup_iff_not_earlier]
  refine forall₃_congr fun position id here => ?_
  rw [repeatedOption?, getElem?_firstPositions]
  cases optionIds.idxOf? id with
  | none => simp
  | some first => simp

theorem contains_firstPositions (names : List String) (name : String) :
    (firstPositions names).contains name = true ↔ name ∈ names := by
  rw [Std.HashMap.contains_eq_isSome_getElem?, getElem?_firstPositions, List.isSome_idxOf?]

theorem wrongWay_eq_nil :
    wayIds.zipIdx.filterMap (wrongWay? ⟨firstPositions optionIds, firstPositions wayIds⟩) = [] ↔
      wayIds.Nodup ∧ ∀ id ∈ wayIds, id ∈ optionIds := by
  rw [filterMap_zipIdx_eq_nil, nodup_iff_idxOf?, ← @forall_position _ wayIds]
  have each : ∀ position id, wrongWay? ⟨firstPositions optionIds, firstPositions wayIds⟩
      (id, position) = none ↔ wayIds.idxOf? id = some position ∧ id ∈ optionIds := by
    intro position id
    rw [wrongWay?, getElem?_firstPositions, ← contains_firstPositions optionIds]
    by_cases first : wayIds.idxOf? id = some position <;>
      by_cases known : (firstPositions optionIds).contains id <;> simp [first, known]
  simp only [each]
  exact ⟨fun all => ⟨fun position id here => (all position id here).1,
    fun position id here => (all position id here).2⟩,
    fun all position id here => ⟨all.1 position id here, all.2 position id here⟩⟩

theorem optionWithoutWay_eq_nil :
    optionIds.zipIdx.filterMap
        (optionWithoutWay? ⟨firstPositions optionIds, firstPositions wayIds⟩) = [] ↔
      ∀ id ∈ optionIds, id ∈ wayIds := by
  rw [filterMap_zipIdx_eq_nil]
  have each : ∀ position id, optionWithoutWay? ⟨firstPositions optionIds, firstPositions wayIds⟩
      (id, position) = none ↔ (optionIds.idxOf? id = some position → id ∈ wayIds) := by
    intro position id
    rw [optionWithoutWay?, getElem?_firstPositions, ← contains_firstPositions wayIds]
    by_cases first : optionIds.idxOf? id = some position <;>
      by_cases known : (firstPositions wayIds).contains id <;> simp [first, known]
  simp only [each]
  constructor
  · intro all id member
    obtain ⟨first, found⟩ := mem_iff_idxOf?.1 member
    exact all first id (getElem?_of_idxOf? found) found
  · intro all position id here _
    exact all id (List.mem_iff_getElem?.2 ⟨position, here⟩)

end SplitIndex

/-- The options of a split and its ways match one to one. -/
theorem matchingFindings_eq_nil {optionIds wayIds : List String} :
    matchingFindings optionIds wayIds = [] ↔
      (optionIds ≠ [] ∧ wayIds ≠ []) ∧ optionIds.Nodup ∧ wayIds.Nodup ∧
        ∀ id, id ∈ optionIds ↔ id ∈ wayIds := by
  rw [matchingFindings, List.append_eq_nil_iff, List.append_eq_nil_iff, List.append_eq_nil_iff,
    SplitIndex.emptiness_eq_nil, SplitIndex.repeatedOption_eq_nil, SplitIndex.wrongWay_eq_nil,
    SplitIndex.optionWithoutWay_eq_nil]
  constructor
  · rintro ⟨⟨⟨present, options⟩, ways, back⟩, forth⟩
    exact ⟨present, options, ways, fun id => ⟨forth id, back id⟩⟩
  · rintro ⟨present, options, ways, same⟩
    exact ⟨⟨⟨present, options⟩, ways, fun id => (same id).2⟩, fun id => (same id).1⟩

theorem SplitOption.findings_eq_nil {defaultBranch : String} {options : Options}
    {option : SplitOption} {position : Nat} :
    findings defaultBranch options (option, position) = [] ↔
      (option.id ≠ defaultBranch → option.facts.groups ≠ []) ∧ option.facts.groups.Known ∧
        (options.rejectEmptyConditionGroups = true → option.id ≠ defaultBranch →
          [] ∉ option.facts.groups) := by
  have given : (if option.conditions.isEmpty && !(option.id == defaultBranch) then
      [(⟨optionPlace position ++ [.field "conditions"], .optionRequiresCondition option.id⟩ :
        Finding)] else []) = [] ↔ (option.id ≠ defaultBranch → option.facts.groups ≠ []) := by
    by_cases same : option.id = defaultBranch <;> cases groups : option.conditions <;>
      simp [same, groups, facts, ConditionGroups.operators]
  have filled : (options.rejectEmptyConditionGroups && !(option.id == defaultBranch)) = true ↔
      options.rejectEmptyConditionGroups = true ∧ option.id ≠ defaultBranch := by
    simp
  rw [findings, List.append_eq_nil_iff, ConditionGroups.findings_eq_nil, given, filled, and_imp]
  rfl

/-- A split has no findings of its own and none about its default branch if the rules have nothing
against it. -/
theorem SplitSettings.findings_eq_nil {settings : SplitSettings} {wayIds : List String}
    {options : Options} :
    settings.findings wayIds options = [] ∧ settings.defaultFinding? = none ↔
      SplitSound options.rejectEmptyConditionGroups (settings.options.map SplitOption.facts)
        settings.defaultBranch wayIds := by
  have ids : settings.options.map (·.id) =
      (settings.options.map SplitOption.facts).map OptionFacts.id := by
    rw [List.map_map]
    rfl
  have default : settings.defaultFinding? = none ↔
      settings.defaultBranch ∈ settings.options.map (·.id) := by
    simp [defaultFinding?, List.mem_map]
  rw [findings, List.append_eq_nil_iff, matchingFindings_eq_nil, flatMap_zipIdx_eq_nil, default]
  simp only [SplitOption.findings_eq_nil, forall_position]
  constructor
  · rintro ⟨⟨⟨⟨given, ways⟩, distinct, distinctWays, same⟩, each⟩, known⟩
    rw [ids] at distinct same known
    refine ⟨fun empty => given ?_, ways, distinct, distinctWays, same, known,
      List.forall_mem_map.2 fun option member => (each option member).1,
      List.forall_mem_map.2 fun option member => (each option member).2.1,
      fun reject => List.forall_mem_map.2 fun option member => (each option member).2.2 reject⟩
    rw [ids, empty, List.map_nil]
  · intro sound
    have each : ∀ option ∈ settings.options,
        (option.id ≠ settings.defaultBranch → option.facts.groups ≠ []) ∧
          option.facts.groups.Known ∧ (options.rejectEmptyConditionGroups = true →
            option.id ≠ settings.defaultBranch → [] ∉ option.facts.groups) := by
      intro option member
      have facts : option.facts ∈ settings.options.map SplitOption.facts :=
        List.mem_map_of_mem member
      exact ⟨sound.conditions _ facts, sound.operators _ facts,
        fun reject => sound.filled reject _ facts⟩
    rw [ids]
    refine ⟨⟨⟨⟨fun empty => sound.hasOptions ?_, sound.hasWays⟩, sound.distinctOptions,
      sound.distinctWays, sound.sameIds⟩, each⟩, sound.hasDefault⟩
    exact List.map_eq_nil_iff.1 empty

/-! ### Steps -/

/-- The finding about the default branch of what a step does. -/
def Task.defaultFinding? : Task α → Option Finding
  | .split settings _ => settings.defaultFinding?
  | _ => none

/-- The rules have nothing to find in a step if it meets what is asked of it. -/
theorem Step.findings_eq_nil {step : Step α} {options : Options} :
    step.findings options = [] ∧ step.task.defaultFinding? = none ↔
      step.task.facts.Sound options.rejectEmptyConditionGroups := by
  obtain ⟨header, task, next⟩ := step
  cases task with
  | code settings => exact ⟨fun _ => trivial, fun _ => ⟨rfl, rfl⟩⟩
  | block settings => exact ⟨fun _ => trivial, fun _ => ⟨rfl, rfl⟩⟩
  | branch settings onSuccess onFailure =>
    exact (and_iff_left rfl).trans BranchSettings.findings_eq_nil
  | split settings branches => exact SplitSettings.findings_eq_nil
  | loop settings body => exact ⟨fun _ => trivial, fun _ => ⟨rfl, rfl⟩⟩

end FlowGate
