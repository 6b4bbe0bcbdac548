/-
This file holds the settings of the steps of a workflow, each with its form on the wire. Values in
a free-form map are kept as they are.
-/

import FlowGate.Shape.OfText
import FlowGate.Workflow.Operator

namespace FlowGate

/-! ### Handling of errors -/

/-- A switch. -/
structure Toggle where
  value : Bool
  deriving DecidableEq, Repr

/-- What happens when a step fails. -/
structure ErrorHandling where
  retryOnFailure : Option Toggle
  continueOnFailure : Option Toggle
  deriving DecidableEq, Repr

/-- The form of a switch. -/
def Toggle.form : Form Toggle where
  shape := .record "Toggle" (.field "value" .required .flag .nil)
  toCarrier toggle := (toggle.value, ())
  ofCarrier := fun (value, ()) => ⟨value⟩
  lossless _ := rfl

/-- The form of what happens when a step fails. -/
def ErrorHandling.form : Form ErrorHandling where
  shape :=
    .record "ErrorHandlingOptions" (.field "retryOnFailure" .nullable Toggle.form.shape
      (.field "continueOnFailure" .nullable Toggle.form.shape .nil))
  toCarrier handling :=
    (handling.retryOnFailure.map Toggle.form.toCarrier,
      handling.continueOnFailure.map Toggle.form.toCarrier, ())
  ofCarrier := fun (retryOnFailure, continueOnFailure, ()) =>
    ⟨retryOnFailure.map Toggle.form.ofCarrier, continueOnFailure.map Toggle.form.ofCarrier⟩
  lossless handling := by
    rcases handling with ⟨_ | _, _ | _⟩ <;> rfl

theorem ErrorHandling.lossless_option (handling : Option ErrorHandling) :
    (handling.map form.toCarrier).map form.ofCarrier = handling := by
  cases handling with
  | none => rfl
  | some handling => exact congrArg some (form.lossless handling)

/-! ### Conditions -/

/-- One comparison. The operator is kept as it is written, so that one which is not known can be
reported together with everything else. -/
structure Condition where
  operator : String
  firstValue : String
  secondValue : Option String
  caseSensitive : Option Bool
  deriving DecidableEq, Repr

/-- The operator of a condition, if it is known. -/
def Condition.operator? (condition : Condition) : Option Operator :=
  Operator.ofTag? condition.operator

/-- Groups of conditions: one group has to hold, and it holds when all its conditions do. -/
abbrev ConditionGroups := List (List Condition)

/-- The form of a condition. -/
def Condition.form : Form Condition where
  shape :=
    .record "Condition" (.field "operator" .required .text (.field "firstValue" .required .text
      (.field "secondValue" .nullable .text (.field "caseSensitive" .nullable .flag .nil))))
  toCarrier condition :=
    (condition.operator, condition.firstValue, condition.secondValue, condition.caseSensitive, ())
  ofCarrier := fun (operator, firstValue, secondValue, caseSensitive, ()) =>
    ⟨operator, firstValue, secondValue, caseSensitive⟩
  lossless _ := rfl

/-- The form of a list. -/
def Form.list (form : Form α) : Form (List α) where
  shape := .list form.shape
  toCarrier values := values.map form.toCarrier
  ofCarrier values := values.map form.ofCarrier
  lossless values := by
    induction values with
    | nil => rfl
    | cons value rest inductionHypothesis =>
      simp only [List.map_cons, form.lossless, inductionHypothesis]

/-- The form of groups of conditions. -/
def ConditionGroups.form : Form ConditionGroups := Condition.form.list.list

/-! ### Settings by kind of step -/

/-- The entries of a free-form object. -/
abbrev FreeForm := List (String × Json)

/-- The program of a step, with the description of the packages that it uses. -/
structure SourceCode where
  code : String
  packageJson : String
  deriving DecidableEq, Repr

/-- The settings of a step that runs a program. -/
structure CodeSettings where
  sourceCode : SourceCode
  input : FreeForm
  errorHandling : Option ErrorHandling

/-- The settings of a step that runs a block. -/
structure BlockSettings where
  blockName : String
  blockVersion : String
  actionName : Option String
  input : FreeForm
  errorHandling : Option ErrorHandling

/-- The settings of a trigger that a block provides. -/
structure BlockTriggerSettings where
  blockName : String
  blockVersion : String
  triggerName : Option String
  input : FreeForm

/-- The settings of a step that goes one of two ways. -/
structure BranchSettings where
  conditions : ConditionGroups
  errorHandling : Option ErrorHandling

/-- One of the ways of a split. -/
structure SplitOption where
  id : String
  name : String
  conditions : ConditionGroups

/-- The settings of a step that goes one of many ways, the default one when no other applies. -/
structure SplitSettings where
  options : List SplitOption
  defaultBranch : String
  errorHandling : Option ErrorHandling

/-- The settings of a step that repeats others for each of its items. -/
structure LoopSettings where
  items : String
  errorHandling : Option ErrorHandling

/-- The form of a program. -/
def SourceCode.form : Form SourceCode where
  shape :=
    .record "SourceCode" (.field "code" .required .text (.field "packageJson" .required .text .nil))
  toCarrier source := (source.code, source.packageJson, ())
  ofCarrier := fun (code, packageJson, ()) => ⟨code, packageJson⟩
  lossless _ := rfl

/-- The field for what happens when a step fails, the last one of all settings that have it. -/
abbrev ErrorHandling.field : Fields :=
  .field "errorHandlingOptions" .nullable form.shape .nil

/-- The form of the settings of a step that runs a program. -/
def CodeSettings.form : Form CodeSettings where
  shape :=
    .record "CodeSettings" (.field "sourceCode" .required SourceCode.form.shape
      (.field "input" .omissible .map ErrorHandling.field))
  toCarrier settings :=
    (SourceCode.form.toCarrier settings.sourceCode, some settings.input,
      settings.errorHandling.map ErrorHandling.form.toCarrier, ())
  ofCarrier := fun (sourceCode, input, errorHandling, ()) =>
    ⟨SourceCode.form.ofCarrier sourceCode, input.getD [],
      errorHandling.map ErrorHandling.form.ofCarrier⟩
  lossless settings := by
    simp only [SourceCode.form.lossless, ErrorHandling.lossless_option, Option.getD_some]

/-- The form of the settings of a step that runs a block. -/
def BlockSettings.form : Form BlockSettings where
  shape :=
    .record "BlockActionSettings" (.field "blockName" .required .text
      (.field "blockVersion" .required .text (.field "actionName" .nullable .text
        (.field "input" .omissible .map ErrorHandling.field))))
  toCarrier settings :=
    (settings.blockName, settings.blockVersion, settings.actionName, some settings.input,
      settings.errorHandling.map ErrorHandling.form.toCarrier, ())
  ofCarrier := fun (blockName, blockVersion, actionName, input, errorHandling, ()) =>
    ⟨blockName, blockVersion, actionName, input.getD [],
      errorHandling.map ErrorHandling.form.ofCarrier⟩
  lossless settings := by
    simp only [ErrorHandling.lossless_option, Option.getD_some]

/-- The form of the settings of a trigger that a block provides. -/
def BlockTriggerSettings.form : Form BlockTriggerSettings where
  shape :=
    .record "BlockTriggerSettings" (.field "blockName" .required .text
      (.field "blockVersion" .required .text (.field "triggerName" .nullable .text
        (.field "input" .omissible .map .nil))))
  toCarrier settings :=
    (settings.blockName, settings.blockVersion, settings.triggerName, some settings.input, ())
  ofCarrier := fun (blockName, blockVersion, triggerName, input, ()) =>
    ⟨blockName, blockVersion, triggerName, input.getD []⟩
  lossless _ := rfl

/-- The form of the settings of a step that goes one of two ways. -/
def BranchSettings.form : Form BranchSettings where
  shape :=
    .record "BranchSettings" (.field "conditions" .required ConditionGroups.form.shape
      ErrorHandling.field)
  toCarrier settings :=
    (ConditionGroups.form.toCarrier settings.conditions,
      settings.errorHandling.map ErrorHandling.form.toCarrier, ())
  ofCarrier := fun (conditions, errorHandling, ()) =>
    ⟨ConditionGroups.form.ofCarrier conditions, errorHandling.map ErrorHandling.form.ofCarrier⟩
  lossless settings := by
    simp only [ConditionGroups.form.lossless, ErrorHandling.lossless_option]

/-- The form of one of the ways of a split. -/
def SplitOption.form : Form SplitOption where
  shape :=
    .record "SplitOption" (.field "id" .required .text (.field "name" .required .text
      (.field "conditions" .required ConditionGroups.form.shape .nil)))
  toCarrier option :=
    (option.id, option.name, ConditionGroups.form.toCarrier option.conditions, ())
  ofCarrier := fun (id, name, conditions, ()) =>
    ⟨id, name, ConditionGroups.form.ofCarrier conditions⟩
  lossless option := by simp only [ConditionGroups.form.lossless]

/-- The form of the settings of a step that goes one of many ways. -/
def SplitSettings.form : Form SplitSettings where
  shape :=
    .record "SplitSettings" (.field "options" .required SplitOption.form.list.shape
      (.field "defaultBranch" .required .text ErrorHandling.field))
  toCarrier settings :=
    (SplitOption.form.list.toCarrier settings.options, settings.defaultBranch,
      settings.errorHandling.map ErrorHandling.form.toCarrier, ())
  ofCarrier := fun (options, defaultBranch, errorHandling, ()) =>
    ⟨SplitOption.form.list.ofCarrier options, defaultBranch,
      errorHandling.map ErrorHandling.form.ofCarrier⟩
  lossless settings := by
    simp only [SplitOption.form.list.lossless, ErrorHandling.lossless_option]

/-- The form of the settings of a step that repeats others. -/
def LoopSettings.form : Form LoopSettings where
  shape :=
    .record "LoopOnItemsSettings" (.field "items" .required .text ErrorHandling.field)
  toCarrier settings :=
    (settings.items, settings.errorHandling.map ErrorHandling.form.toCarrier, ())
  ofCarrier := fun (items, errorHandling, ()) =>
    ⟨items, errorHandling.map ErrorHandling.form.ofCarrier⟩
  lossless settings := by simp only [ErrorHandling.lossless_option]

end FlowGate
