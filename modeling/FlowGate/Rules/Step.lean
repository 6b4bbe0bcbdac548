/-
This file holds the rules for one step. A branch needs a condition. The options of a split and
its ways have to match one to one, and every option but the default one needs a condition.
Wherever conditions stand, their operators have to be known, and groups without conditions may be
refused. Findings are listed rule by rule, in the order of the fields that they are about.
-/

import FlowGate.Options
import FlowGate.Rules.Finding
import FlowGate.Workflow.Basic

namespace FlowGate

/-! ### Conditions -/

/-- A condition whose operator is not known. -/
def Condition.finding? (place : AccessPath) (numbered : Condition × Nat) : Option Finding :=
  match numbered.1.operator? with
  | some _ => none
  | none =>
    some ⟨place ++ [.index numbered.2, .field "operator"], .unknownOperator numbered.1.operator⟩

/-- The findings in one group of conditions. -/
def groupFindings (place : AccessPath) (rejectEmpty : Bool) (numbered : List Condition × Nat) :
    List Finding :=
  let group := place ++ [.index numbered.2]
  (if numbered.1.isEmpty && rejectEmpty then [⟨group, .emptyConditionGroup⟩] else []) ++
    numbered.1.zipIdx.filterMap (Condition.finding? group)

/-- The findings in groups of conditions. -/
def ConditionGroups.findings (place : AccessPath) (rejectEmpty : Bool) (groups : ConditionGroups) :
    List Finding :=
  groups.zipIdx.flatMap (groupFindings place rejectEmpty)

/-! ### Branches -/

/-- The place of the conditions of a branch. -/
def conditionsPlace : AccessPath := [.field "settings", .field "conditions"]

/-- The findings in a step that goes one of two ways. -/
def BranchSettings.findings (settings : BranchSettings) (options : Options) : List Finding :=
  (if settings.conditions.isEmpty then [⟨conditionsPlace, .branchRequiresCondition⟩] else []) ++
    settings.conditions.findings conditionsPlace options.rejectEmptyConditionGroups

/-! ### Splits -/

/-- The place of an option of a split. -/
def optionPlace (position : Nat) : AccessPath :=
  optionsPlace ++ [.index position]

/-- The place of the option that a way of a split names. -/
def wayPlace (position : Nat) : AccessPath :=
  [.field "branches", .index position, .field "optionId"]

/-- The first positions of the options of a split and of the options that its ways name. -/
structure SplitIndex where
  options : Std.HashMap String Nat
  ways : Std.HashMap String Nat

namespace SplitIndex

/-- A split without options or without ways. -/
def emptiness (optionIds wayIds : List String) : List Finding :=
  if optionIds.isEmpty then [⟨optionsPlace, .splitRequiresBranch⟩]
  else if wayIds.isEmpty then [⟨[.field "branches"], .splitRequiresBranch⟩]
  else []

/-- An option whose name an earlier one has. -/
def repeatedOption? (index : SplitIndex) (numbered : String × Nat) : Option Finding :=
  match index.options[numbered.1]? with
  | some first =>
    if first < numbered.2 then
      some ⟨optionPlace numbered.2 ++ [.field "id"], .duplicateOptionId numbered.1 first⟩
    else none
  | none => none

/-- A way that names the same option as an earlier one, or an option that is not there. -/
def wrongWay? (index : SplitIndex) (numbered : String × Nat) : Option Finding :=
  if index.ways[numbered.1]? = some numbered.2 then
    if index.options.contains numbered.1 then none
    else some ⟨wayPlace numbered.2, .unknownBranchOption numbered.1⟩
  else some ⟨wayPlace numbered.2, .duplicateBranch numbered.1⟩

/-- An option that no way names; of options with one name only the first counts. -/
def optionWithoutWay? (index : SplitIndex) (numbered : String × Nat) : Option Finding :=
  if index.options[numbered.1]? = some numbered.2 && !index.ways.contains numbered.1 then
    some ⟨optionPlace numbered.2 ++ [.field "id"], .missingBranch numbered.1⟩
  else none

end SplitIndex

/-- The findings about how the options of a split and its ways match. -/
def matchingFindings (optionIds wayIds : List String) : List Finding :=
  let index : SplitIndex := ⟨firstPositions optionIds, firstPositions wayIds⟩
  SplitIndex.emptiness optionIds wayIds ++
    optionIds.zipIdx.filterMap index.repeatedOption? ++
    wayIds.zipIdx.filterMap index.wrongWay? ++
    optionIds.zipIdx.filterMap index.optionWithoutWay?

/-- The findings in the conditions of an option. Those of the default option decide nothing, so
they may be missing. -/
def SplitOption.findings (defaultBranch : String) (options : Options)
    (numbered : SplitOption × Nat) : List Finding :=
  let place := optionPlace numbered.2 ++ [.field "conditions"]
  let isDefault := numbered.1.id == defaultBranch
  (if numbered.1.conditions.isEmpty && !isDefault then
    [⟨place, .optionRequiresCondition numbered.1.id⟩]
  else []) ++
    numbered.1.conditions.findings place (options.rejectEmptyConditionGroups && !isDefault)

/-- The findings in a step that goes one of many ways. -/
def SplitSettings.findings (settings : SplitSettings) (wayIds : List String) (options : Options) :
    List Finding :=
  matchingFindings (settings.options.map (·.id)) wayIds ++
    settings.options.zipIdx.flatMap (SplitOption.findings settings.defaultBranch options)

/-! ### Steps -/

/-- The findings in one step, whatever follows it. -/
def Step.findings (options : Options) (step : Step α) : List Finding :=
  match step.task with
  | .branch settings _ _ => settings.findings options
  | .split settings branches => settings.findings (branches.map (·.optionId)) options
  | .code _ | .block _ | .loop .. => []

end FlowGate
