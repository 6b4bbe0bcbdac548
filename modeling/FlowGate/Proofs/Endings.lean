/-
This file says how a validation can end. Either the document is not taken for a workflow, and the
verdict holds the one violation that says why; or the workflow has no template, and the verdict
holds the one violation that says so; or the workflow is judged, and every violation is about one
of its nodes. There is no fourth way: a workflow that was read is not too deep, so it can be walked.
-/

import FlowGate.Proofs.Pointing

namespace FlowGate

/-! ### The number of nodes -/

theorem Forest.size_ofList (trees : List (Edge × Tree β)) :
    (Forest.ofList trees).size = weightOfChildren Tree.size trees := by
  induction trees with
  | nil => rfl
  | cons entry rest inductionHypothesis =>
    rw [Forest.ofList, Forest.size, inductionHypothesis, weightOfChildren_cons]

theorem Node.size_tree (node : Node) : node.tree.size = node.weight := by
  induction node using Opening.induction_children unfolding_opened with
  | step node inductionHypothesis =>
    rw [tree, Opening.tree_eq unfolding_opened, Tree.size, Forest.size_ofList, weight_eq,
      weightOfChildren, List.map_map]
    exact congrArg (1 + List.sum ·) (List.map_congr_left inductionHypothesis)

/-- The numbers of listed nodes are less than the number of nodes. -/
theorem Trigger.number_lt_weight {start : Trigger} {node : Node} {number : Nat}
    (numbered : (node, number) ∈ start.listing.numbered) :
    number < (Node.trigger start).weight := by
  have inside := (List.getElem?_eq_some_iff.1 (List.mem_zipIdx_iff_getElem?.1 numbered)).1
  have count := (Node.trigger start).tree.length_listed 0 none none 0
  rw [List.length_map] at inside
  rw [← Node.size_tree, ← count]
  exact inside

/-! ### Violations that stand alone -/

theorem Violation.Kind.isFatal_iff {kind : Violation.Kind} :
    kind.isFatal = true ↔ kind = .decode ∨ kind = .templateRequired := by
  cases kind <;> simp [isFatal]

/-- A breach of a rule never ends a validation. -/
theorem Breach.isFatal_kind (breach : Breach) : breach.kind.isFatal = false := by
  cases breach <;> rfl

/-- A violation in a judged workflow does not stand alone, and it is about a node. -/
theorem Trigger.violation_listing {start : Trigger} {options : Options} {violation : Violation}
    (member : violation ∈ start.listing.violations options) :
    violation.kind.isFatal = false ∧
      ∃ number < (Node.trigger start).weight, violation.node = some number := by
  obtain ⟨node, number, finding, numbered, rfl, -⟩ := Walk.exists_finding member
  exact ⟨finding.breach.isFatal_kind, number, number_lt_weight numbered, rfl⟩

/-! ### Verdicts -/

/-- What holds of the verdict on a document that is taken for a workflow or refused. -/
structure Verdict.Regular (verdict : Verdict Violation) (outcome : Except Refusal Workflow) :
    Prop where
  /-- A verdict is a success just if it lists no violations. -/
  success : verdict.success = true ↔ verdict.errors = none
  /-- Either one violation stands alone and is about no node, or none of the violations stands
  alone and each is about a node of the workflow. -/
  listed : ∀ violations, verdict.errors = some violations →
    (∃ violation, violations = [violation] ∧ violation.kind.isFatal = true ∧
      violation.node = none) ∨
    (violations ≠ [] ∧ ∃ workflow template, outcome = .ok workflow ∧
      workflow.template = some template ∧ ∀ violation ∈ violations,
        violation.kind.isFatal = false ∧
          ∃ number < (Node.trigger template.trigger).weight, violation.node = some number)
  templateRequired : (∃ violation ∈ verdict.violations, violation.kind = .templateRequired) ↔
    ∃ workflow, outcome = .ok workflow ∧ workflow.template = none
  decode : (∃ violation ∈ verdict.violations, violation.kind = .decode) ↔
    ∃ refusal, outcome = .error refusal

namespace Verdict

theorem violations_ofViolations (violations : List α) :
    (ofViolations violations).violations = violations := by
  cases violations <;> rfl

theorem errors_ofViolations {violations listed : List α} :
    (ofViolations violations).errors = some listed ↔ violations = listed ∧ listed ≠ [] := by
  cases violations with
  | nil => simp [ofViolations, eq_comm]
  | cons first rest =>
    simp only [ofViolations, List.isEmpty_cons, Bool.false_eq_true, ↓reduceIte, Option.some.injEq]
    exact ⟨fun same => ⟨same, same ▸ List.cons_ne_nil _ _⟩, fun both => both.1⟩

theorem success_iff_errors (violations : List α) :
    (ofViolations violations).success = true ↔ (ofViolations violations).errors = none := by
  cases violations <;> simp [ofViolations]

/-- The verdict that a document is refused. -/
theorem regular_of_refused (refusal : Refusal) :
    (ofViolations [refusal.error.violation]).Regular (.error refusal) where
  success := success_iff_errors _
  listed violations same := by
    obtain ⟨rfl, -⟩ := errors_ofViolations.1 same
    exact Or.inl ⟨_, rfl, rfl, rfl⟩
  templateRequired := by
    rw [violations_ofViolations]
    refine ⟨fun ⟨violation, member, kind⟩ => ?_, fun ⟨workflow, read, _⟩ => by cases read⟩
    cases List.mem_singleton.1 member
    cases kind
  decode := by
    rw [violations_ofViolations]
    exact ⟨fun _ => ⟨refusal, rfl⟩, fun _ => ⟨_, List.mem_singleton_self _, rfl⟩⟩

/-- The verdict that a workflow has no template. -/
theorem regular_of_absent {workflow : Workflow} (absent : workflow.template = none) :
    (ofViolations [Violation.templateRequired]).Regular (.ok workflow) where
  success := success_iff_errors _
  listed violations same := by
    obtain ⟨rfl, -⟩ := errors_ofViolations.1 same
    exact Or.inl ⟨_, rfl, rfl, rfl⟩
  templateRequired := by
    rw [violations_ofViolations]
    exact ⟨fun _ => ⟨workflow, rfl, absent⟩, fun _ => ⟨_, List.mem_singleton_self _, rfl⟩⟩
  decode := by
    rw [violations_ofViolations]
    refine ⟨fun ⟨violation, member, kind⟩ => ?_, fun ⟨refusal, refused⟩ => by cases refused⟩
    cases List.mem_singleton.1 member
    cases kind

/-- The verdict on a workflow that is judged. -/
theorem regular_of_present {workflow : Workflow} {template : Template}
    (present : workflow.template = some template) (options : Options) :
    (ofViolations (template.trigger.listing.violations options)).Regular (.ok workflow) := by
  have among : ∀ {kind : Violation.Kind}, kind.isFatal = true →
      ¬ ∃ violation ∈ template.trigger.listing.violations options, violation.kind = kind := by
    rintro kind fatal ⟨violation, member, rfl⟩
    rw [(Trigger.violation_listing member).1] at fatal
    cases fatal
  constructor
  · exact success_iff_errors _
  · intro violations same
    obtain ⟨rfl, nonempty⟩ := errors_ofViolations.1 same
    exact Or.inr ⟨nonempty, workflow, template, rfl, present,
      fun violation member => Trigger.violation_listing member⟩
  · rw [violations_ofViolations]
    refine iff_of_false (among rfl) ?_
    rintro ⟨other, ⟨⟩, absent⟩
    rw [present] at absent
    cases absent
  · rw [violations_ofViolations]
    exact iff_of_false (among rfl) (by rintro ⟨refusal, ⟨⟩⟩)

end Verdict

/-! ### Documents and texts -/

theorem Workflow.check_of_judged {workflow : Workflow} {options : Options}
    {violations : List Violation} (judged : workflow.violations options = .ok violations) :
    workflow.check options = violations := by
  rw [check, judged]

theorem validate_regular (options : Options) (document : Json) :
    (validate options document).Regular (Workflow.ofJson options document) := by
  rw [validate]
  cases read : Workflow.ofJson options document with
  | error refusal => exact Verdict.regular_of_refused refusal
  | ok workflow =>
    obtain ⟨violations, judged⟩ := Workflow.violations_of_read read
    show (Verdict.ofViolations (workflow.check options)).Regular _
    rw [Workflow.check_of_judged judged]
    cases present : workflow.template with
    | none =>
      rw [Workflow.violations, present] at judged
      cases judged
      exact Verdict.regular_of_absent present
    | some template =>
      obtain ⟨-, rfl⟩ := (Workflow.violations_eq_ok present).1 judged
      exact Verdict.regular_of_present present options

theorem validateText_regular (options : Options) (text : String) :
    (validateText options text).Regular (Workflow.read options text) := by
  rw [validateText, Workflow.read]
  cases Json.readDocument text with
  | error refusal => exact Verdict.regular_of_refused refusal
  | ok document => exact validate_regular options document

/-- However a validation ends, of a document or of the text of one, the verdict is regular: it is a
success just if it lists nothing, and otherwise lists either one violation that stands alone or
violations that are about nodes of the workflow. The violations that stand alone are that the
document is refused and that it has no template; each of them is listed just if that is so. -/
theorem verdicts_regular (options : Options) :
    (∀ kind : Violation.Kind, kind.isFatal = true ↔ kind = .decode ∨ kind = .templateRequired) ∧
    (∀ document, (validate options document).Regular (Workflow.ofJson options document)) ∧
    ∀ text, (validateText options text).Regular (Workflow.read options text) :=
  ⟨fun _ => Violation.Kind.isFatal_iff, validate_regular options, validateText_regular options⟩

end FlowGate
