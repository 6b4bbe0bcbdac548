/-
This file shows what a client and a validation lose to each other on the wire. Settings are sent as
text and arrive as they were sent. A verdict is sent as a value and arrives with all its reports in
their order; only the numbers of the nodes stay behind, for they are not sent. No list of errors is
sent with a success, and none is missed when the verdict is read.
-/

import FlowGate.Client
import FlowGate.Proofs.Endings
import FlowGate.Proofs.Scanning

namespace FlowGate

/-! ### Settings -/

theorem Options.read_written (options : Options) :
    form.read (form.toJson options).write = .ok options :=
  form.read_written_of_plain (by decide) (by decide) options

/-! ### Verdicts -/

/-- The violation as it arrives, without the number of its step. -/
def Violation.unattributed (violation : Violation) : Violation :=
  { violation with node := none }

namespace Verdict

theorem map_map (change : α → β) (further : β → γ) (verdict : Verdict α) :
    (verdict.map change).map further = verdict.map fun value => further (change value) := by
  obtain ⟨success, _ | errors⟩ := verdict
  · rfl
  · simp [map]

theorem map_ofViolations (change : α → β) (violations : List α) :
    (ofViolations violations).map change = ofViolations (violations.map change) := by
  cases violations <;> rfl

/-- A verdict that follows from violations follows from those that it lists. -/
theorem ofViolations_violations (violations : List α) :
    ofViolations (ofViolations violations).violations = ofViolations violations := by
  rw [violations_ofViolations]

theorem clear_form : form.shape.clear = true := by
  decide

theorem ofJson_toJson (verdict : Verdict Violation) :
    ofJson verdict.toJson = .ok (verdict.map Violation.unattributed) := by
  rw [ofJson, toJson, form.ofJson_toJson clear_form]
  exact congrArg Except.ok (map_map _ _ verdict)

theorem read_written (verdict : Verdict Violation) :
    read verdict.toJson.write = .ok (verdict.map Violation.unattributed) := by
  rw [read, toJson, form.read_written_of_plain clear_form (by decide)]
  exact congrArg Except.ok (map_map _ _ verdict)

end Verdict

/-! ### The boundary -/

/-- Nothing is lost between a client and a validation but the numbers of the nodes. Settings that
are sent as text have the effect of the settings themselves, and a verdict arrives, as a value or as
text, as the verdict on the same violations without their numbers, from which a client can build the
verdict again. -/
theorem Client.boundary_lossless :
    (∀ (text : String) (options : Options),
      verdictUnder text (Options.form.toJson options).write = validateText options text) ∧
    ∀ violations : List Violation,
      let arrived := Verdict.ofViolations (violations.map Violation.unattributed)
      Verdict.ofJson (Verdict.ofViolations violations).toJson = .ok arrived ∧
      Verdict.read (Verdict.ofViolations violations).toJson.write = .ok arrived ∧
      arrived.violations = violations.map Violation.unattributed ∧
      Verdict.ofViolations arrived.violations = arrived ∧
      arrived.success = (Verdict.ofViolations violations).success := by
  refine ⟨fun text options => ?_, fun violations => ⟨?_, ?_, ?_, ?_, ?_⟩⟩
  · rw [verdictUnder, Options.read_written]
  · rw [Verdict.ofJson_toJson, Verdict.map_ofViolations]
  · rw [Verdict.read_written, Verdict.map_ofViolations]
  · exact Verdict.violations_ofViolations _
  · exact Verdict.ofViolations_violations _
  · rw [← Verdict.map_ofViolations]
    rfl

end FlowGate
