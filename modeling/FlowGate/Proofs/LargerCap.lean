/-
This file compares what becomes of a document under two caps on depth. Reading goes through the
same values in the same order under both, whatever is wrong with them, until it comes to one that
lies just beyond the smaller cap; there it is refused under that cap. So the outcomes are the same
or the first one is that refusal, and this passes on from values to all that is read of a document
and to the verdict, because nothing else that is read or judged asks for the cap.
-/

import FlowGate.Proofs.Endings
import FlowGate.Proofs.Reimport

namespace FlowGate

/-! ### Outcomes under two caps -/

/-- An outcome under a cap is another outcome, unless it is the refusal of a node whose path has
one edge more than the cap allows. -/
def OnlyDeeper (cap : UInt64) (outcome other : Except Refusal β) : Prop :=
  outcome = other ∨ ∃ path : List Edge, path.length = cap.toNat + 1 ∧
    outcome = .error ⟨stepSegments path, .tooDeep cap⟩

namespace OnlyDeeper

variable {cap : UInt64}

theorem refl (outcome : Except Refusal β) : OnlyDeeper cap outcome outcome :=
  Or.inl rfl

theorem bind {outcome other : Except Refusal α} {next next' : α → Except Refusal β}
    (first : OnlyDeeper cap outcome other)
    (later : ∀ value, OnlyDeeper cap (next value) (next' value)) :
    OnlyDeeper cap (outcome.bind next) (other.bind next') := by
  rcases first with rfl | ⟨path, long, rfl⟩
  · cases outcome with
    | error refusal => exact refl _
    | ok value => exact later value
  · exact Or.inr ⟨path, long, rfl⟩

theorem map {outcome other : Except Refusal α} (first : OnlyDeeper cap outcome other)
    (change : α → β) : OnlyDeeper cap (outcome.map change) (other.map change) := by
  rcases first with rfl | ⟨path, long, rfl⟩
  · exact refl _
  · exact Or.inr ⟨path, long, rfl⟩

end OnlyDeeper

/-! ### Growth under two caps -/

section Growth

variable {smaller larger : Opening Refusal α β} {cap : UInt64}

/-- Values open under a cap as they open otherwise, as long as they are not too deep. -/
def Opening.CapsBelow (smaller larger : Opening Refusal α β) (cap : UInt64) : Prop :=
  ∀ depth place value, smaller.opened depth place value =
    if cap.toNat < depth then .error ⟨place (), .tooDeep cap⟩
    else larger.opened depth place value

theorem Opening.growAll_onlyDeeper {depth : Nat} {path : List Edge} {values : List (Edge × α)}
    (each : ∀ value ∈ values, OnlyDeeper cap (smaller.grow depth (path ++ [value.1]) value.2)
      (larger.grow depth (path ++ [value.1]) value.2)) :
    OnlyDeeper cap (smaller.growAll depth path values) (larger.growAll depth path values) := by
  induction values with
  | nil =>
    rw [growAll_nil, growAll_nil]
    exact OnlyDeeper.refl _
  | cons value rest inductionHypothesis =>
    rw [growAll_cons, growAll_cons]
    have later := inductionHypothesis fun value member => each value (List.mem_cons_of_mem _ member)
    exact (each value List.mem_cons_self).bind fun tree => later.map _

/-- By induction on the weight of the value. The depth of a value is the length of its path, and no
value is opened that lies deeper than one edge beyond the cap. -/
theorem Opening.grow_onlyDeeper (agree : smaller.CapsBelow larger cap) (value : α) :
    ∀ path : List Edge, path.length ≤ cap.toNat + 1 →
      OnlyDeeper cap (smaller.grow path.length path value)
        (larger.grow path.length path value) := by
  generalize weighs : smaller.weight value = weight
  induction weight using Nat.strongRecOn generalizing value with
  | ind weight inductionHypothesis =>
    intro path shallow
    subst weighs
    have outcome := agree path.length (fun () => stepSegments path) value
    by_cases deep : cap.toNat < path.length
    · rw [if_pos deep] at outcome
      exact Or.inr ⟨path, by omega, smaller.grow_of_failed outcome⟩
    · rw [if_neg deep] at outcome
      cases opened : larger.opened path.length (fun () => stepSegments path) value with
      | error refusal =>
        rw [smaller.grow_of_failed (outcome.trans opened), larger.grow_of_failed opened]
        exact OnlyDeeper.refl _
      | ok found =>
        obtain ⟨item, children⟩ := found
        rw [smaller.grow_of_opened (outcome.trans opened), larger.grow_of_opened opened]
        refine OnlyDeeper.map (Opening.growAll_onlyDeeper fun child member => ?_) _
        have lighter := smaller.weight_lt_of_mem (outcome.trans opened) member
        have below := inductionHypothesis _ lighter child.2 rfl (path ++ [child.1])
        rw [List.length_append, List.length_singleton] at below
        exact below (by omega)

end Growth

/-! ### Reading under two caps -/

/-- Options with another cap. -/
def Options.capped (options : Options) (cap : UInt64) : Options :=
  { options with maxDepth := cap }

namespace Reading

variable {options : Options} {cap : UInt64}

theorem opening_capsBelow (larger : options.maxDepth ≤ cap) :
    (opening options).CapsBelow (opening (options.capped cap)) options.maxDepth := by
  intro depth place value
  by_cases deep : options.maxDepth.toNat < depth
  · simp only [opening, if_pos deep]
  · have shallow : ¬ (options.capped cap).maxDepth.toNat < depth :=
      fun beyond => deep (Nat.lt_of_le_of_lt (UInt64.le_iff_toNat_le.1 larger) beyond)
    simp only [opening, if_neg deep, if_neg shallow]

theorem action_onlyDeeper (larger : options.maxDepth ≤ cap) (first : Option Json) :
    OnlyDeeper options.maxDepth (action options first) (action (options.capped cap) first) := by
  cases first with
  | none =>
    rw [action_none, action_none]
    exact OnlyDeeper.refl _
  | some value =>
    rw [action_some, action_some]
    exact (Opening.grow_onlyDeeper (opening_capsBelow larger) value [.next] (by simp)).map _

theorem trigger_onlyDeeper (larger : options.maxDepth ≤ cap) (value : Json) :
    OnlyDeeper options.maxDepth (trigger options value) (trigger (options.capped cap) value) := by
  refine OnlyDeeper.bind (OnlyDeeper.refl _) fun found => ?_
  exact (action_onlyDeeper larger found.2).bind fun next => OnlyDeeper.refl _

theorem template_onlyDeeper (larger : options.maxDepth ≤ cap) (value : Option Json) :
    OnlyDeeper options.maxDepth (template options value)
      (template (options.capped cap) value) := by
  cases value with
  | none => exact OnlyDeeper.refl _
  | some value =>
    refine OnlyDeeper.bind (OnlyDeeper.refl _) fun fields => ?_
    cases Json.present? "trigger" fields with
    | none => exact OnlyDeeper.refl _
    | some start =>
      refine OnlyDeeper.bind (OnlyDeeper.refl _) fun displayName => ?_
      refine OnlyDeeper.bind (OnlyDeeper.refl _) fun valid => ?_
      exact (trigger_onlyDeeper larger start).bind fun found => OnlyDeeper.refl _

end Reading

theorem Workflow.ofJson_onlyDeeper {options : Options} {cap : UInt64}
    (larger : options.maxDepth ≤ cap) (document : Json) :
    OnlyDeeper options.maxDepth (ofJson options document)
      (ofJson (options.capped cap) document) := by
  refine OnlyDeeper.bind (OnlyDeeper.refl _) fun fields => ?_
  refine OnlyDeeper.bind (OnlyDeeper.refl _) fun name => ?_
  refine OnlyDeeper.bind (OnlyDeeper.refl _) fun description => ?_
  refine OnlyDeeper.bind (OnlyDeeper.refl _) fun tags => ?_
  exact (Reading.template_onlyDeeper larger _).bind fun template => OnlyDeeper.refl _

/-! ### Judging under two caps -/

/-- No rule asks for the cap. -/
theorem Step.findings_capped (step : Step α) (options : Options) (cap : UInt64) :
    step.findings (options.capped cap) = step.findings options := by
  obtain ⟨header, task, next⟩ := step
  cases task <;> rfl

theorem Walk.violations_capped (walk : Walk) (options : Options) (cap : UInt64) :
    walk.violations (options.capped cap) = walk.violations options := by
  have same : ∀ node : Node, node.findings (options.capped cap) = node.findings options := by
    intro node
    rw [Node.findings, Node.findings]
    cases node.step? with
    | none => rfl
    | some step => exact step.findings_capped options cap
  rw [violations, violations, stepViolations_eq, stepViolations_eq]
  simp only [same]

/-- A workflow that is read under a cap has the same violations under a larger one. -/
theorem Workflow.check_capped {options : Options} {cap : UInt64} (larger : options.maxDepth ≤ cap)
    {document : Json} {workflow : Workflow} (read : ofJson options document = .ok workflow) :
    workflow.check options = workflow.check (options.capped cap) := by
  cases present : workflow.template with
  | none => rw [check, check, violations, violations, present]
  | some template =>
    have within := Workflow.withinDepth_of_read read present
    have judged := fun others walked => Workflow.check_of_judged
      ((@Workflow.violations_eq_ok workflow template present others _).2 ⟨walked, rfl⟩)
    rw [judged options (Trigger.walk_eq_ok.2 ⟨within, rfl⟩),
      judged (options.capped cap) (Trigger.walk_eq_ok.2
        ⟨within.mono (UInt64.le_iff_toNat_le.1 larger), rfl⟩), Walk.violations_capped]

/-- The verdict that a document is refused because of a node that lies one edge beyond the cap. -/
def Verdict.TooDeep (cap : UInt64) (verdict : Verdict Violation) : Prop :=
  ∃ path : List Edge, path.length = cap.toNat + 1 ∧ verdict = {
    success := false
    errors := some [{
      path := stepPath path
      kind := .decode
      message := s!"maximum nesting depth of {cap} exceeded"
      node := none }] }

theorem validate_capped {options : Options} {cap : UInt64} (larger : options.maxDepth ≤ cap)
    (document : Json) :
    validate options document = validate (options.capped cap) document ∨
      (validate options document).TooDeep options.maxDepth := by
  rcases Workflow.ofJson_onlyDeeper larger document with same | ⟨path, long, refused⟩
  · refine Or.inl ?_
    rw [validate, validate, ← same]
    cases read : Workflow.ofJson options document with
    | error refusal => rfl
    | ok workflow => exact congrArg Verdict.ofViolations (Workflow.check_capped larger read)
  · refine Or.inr ⟨path, long, ?_⟩
    rw [validate, refused]
    exact congrArg (fun error => Verdict.ofViolations [DecodeError.violation error])
      (error_tooDeep options.maxDepth path)

/-- Raising the cap on depth changes no verdict but one: that the document is refused because of a
node that lies one edge beyond the smaller cap. So what succeeds under a cap does so under every
larger one. -/
theorem validate_of_larger_cap (options : Options) (cap : UInt64)
    (larger : options.maxDepth ≤ cap) (document : Json) :
    (validate options document = validate (options.capped cap) document ∨
      (validate options document).TooDeep options.maxDepth) ∧
    ((validate options document).success = true →
      (validate (options.capped cap) document).success = true) := by
  have verdicts := validate_capped larger document
  refine ⟨verdicts, fun success => ?_⟩
  rcases verdicts with same | ⟨path, -, refused⟩
  · rw [← same, success]
  · rw [refused] at success
    cases success

theorem validate_of_larger_cap_guarded :
    Options.default.maxDepth ≤ 20000 ∧
      (validate .default (Workflow.guarded "daily" "Daily" true).toJson).success = true ∧
      (validate (Options.default.capped 20000)
        (Workflow.guarded "daily" "Daily" true).toJson).success = true := by
  have larger : Options.default.maxDepth ≤ 20000 := by decide
  have success := (validate_success_of_read (Workflow.ofJson_guarded "daily" "Daily" true) rfl).2
    (Workflow.sound_guarded "Daily" true)
  exact ⟨larger, success, (validate_of_larger_cap .default 20000 larger _).2 success⟩

end FlowGate
