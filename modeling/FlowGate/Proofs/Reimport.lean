/-
This file shows that the gate changes nothing of what has passed it. A workflow that was saved
passes again when its wire form is imported, under the same options or weaker ones, and the same
workflow is saved; one that was rejected is rejected again with the same violations. Reading finds
the marks that the gate has set, no rule sees them, and the gate sets them anew.
-/

import FlowGate.Proofs.Pointing
import FlowGate.Proofs.Session
import FlowGate.Proofs.Unseen

namespace FlowGate

/-! ### Weaker options -/

theorem Facts.Sound.mono {facts : Facts} {strict lax : Bool} (sound : facts.Sound strict)
    (weaker : lax = true → strict = true) : facts.Sound lax := by
  cases facts with
  | free => trivial
  | branch groups => exact { sound with filled := fun reject => sound.filled (weaker reject) }
  | split options defaultBranch ways =>
    exact { sound with filled := fun reject => sound.filled (weaker reject) }

theorem Trigger.Sound.mono {start : Trigger} {strict lax : Bool} (sound : start.Sound strict)
    (weaker : lax = true → strict = true) : start.Sound lax where
  names := sound.names
  steps found := (sound.steps found).mono weaker

theorem Trigger.WithinDepth.mono {start : Trigger} {depth depth' : Nat}
    (within : start.WithinDepth depth) (deeper : depth ≤ depth') : start.WithinDepth depth' :=
  fun path target found => Nat.le_trans (within path target found) deeper

/-- The second options allow all that the first ones do. -/
structure Options.Weaker (options others : Options) : Prop where
  deeper : options.maxDepth ≤ others.maxDepth
  rejects : others.rejectEmptyConditionGroups = true → options.rejectEmptyConditionGroups = true

section Weaker

variable {options others : Options}

theorem Workflow.violations_of_weaker (weaker : options.Weaker others) {workflow : Workflow}
    (none : workflow.violations options = .ok []) : workflow.violations others = .ok [] := by
  obtain ⟨template, present, within, sound⟩ := Workflow.violations_eq_nil.1 none
  exact Workflow.violations_eq_nil.2 ⟨template, present,
    within.mono (UInt64.le_iff_toNat_le.1 weaker.deeper), sound.mono weaker.rejects⟩

/-- A workflow that was read is read from its wire form, whatever its marks are. -/
theorem Workflow.ofJson_marked {document : Json} {workflow : Workflow}
    (read : ofJson options document = .ok workflow) (deeper : options.maxDepth ≤ others.maxDepth)
    (violations : List Violation) :
    ofJson others (workflow.marked violations).toJson = .ok (workflow.marked violations) := by
  cases present : workflow.template with
  | none =>
    rw [ofJson_toJson_eq, marked, present]
    rfl
  | some template =>
    have within := (Workflow.withinDepth_of_read read present).mono
      (UInt64.le_iff_toNat_le.1 deeper)
    have outline :=
      template.trigger.outline_marked fun number => !(invalidNodes violations).contains number
    exact ofJson_toJson_of_present (template_marked present violations)
      (within.of_outline outline.symm)

/-! ### The gate -/

/-- What has passed passes again, and is the same. -/
theorem pass_toJson (weaker : options.Weaker others) {document : Json} {workflow : Workflow}
    (passed : pass options document = .ok workflow) :
    pass others workflow.toJson = .ok workflow := by
  obtain ⟨read, found, none, rfl⟩ := pass_eq_ok.1 passed
  refine pass_eq_ok.2 ⟨read.marked [], Workflow.ofJson_marked found weaker.deeper [], ?_,
    read.marked_marked [] []⟩
  rw [Workflow.violations_marked]
  exact Workflow.violations_of_weaker weaker none

/-- A document is rejected with a workflow just if its workflow has violations. -/
theorem pass_eq_rejected {document : Json} {violations : List Violation} {workflow : Workflow} :
    pass options document = .error ⟨violations, some workflow⟩ ↔
      ∃ read, Workflow.ofJson options document = .ok read ∧
        read.violations options = .ok violations ∧ violations ≠ [] ∧
        read.marked violations = workflow := by
  rw [pass]
  cases Workflow.ofJson options document with
  | error refusal => simp [Rejection.ofRefusal]
  | ok read =>
    cases violations : read.violations options with
    | error refusal => simp [violations, Rejection.ofRefusal]
    | ok found =>
      simp only [violations, Except.ok.injEq, exists_eq_left']
      cases found with
      | nil => simp +contextual [eq_comm]
      | cons first rest =>
        constructor
        · rintro ⟨⟩
          exact ⟨rfl, List.cons_ne_nil _ _, rfl⟩
        · rintro ⟨rfl, -, rfl⟩
          rfl

/-- What was rejected with a workflow is rejected again, with the same workflow. -/
theorem pass_toJson_rejected {document : Json} {violations : List Violation} {workflow : Workflow}
    (rejected : pass options document = .error ⟨violations, some workflow⟩) :
    pass options workflow.toJson = .error ⟨violations, some workflow⟩ := by
  obtain ⟨read, found, violated, some, rfl⟩ := pass_eq_rejected.1 rejected
  refine pass_eq_rejected.2 ⟨read.marked violations,
    Workflow.ofJson_marked found (UInt64.le_refl _) violations, ?_, some,
    read.marked_marked violations violations⟩
  rw [Workflow.violations_marked, violated]

end Weaker

/-! ### Importing again -/

section Stores

variable {saving : Saving σ ι ε} {saved : σ → List Workflow} {options : Options}
  {document : Json} {store next : σ}

/-- An import that gives an id has saved the workflow that passed. -/
theorem Saving.importDocument_eq_ok {id : ι} :
    saving.importDocument store options document = (.ok id, next) ↔
      ∃ workflow, pass options document = .ok workflow ∧
        saving.save store workflow = (.ok id, next) := by
  rw [importDocument]
  cases pass options document with
  | error rejection => simp
  | ok workflow =>
    rcases outcome : saving.save store workflow with ⟨failure | id', last⟩ <;> simp [outcome]

theorem Saving.importDocument_eq_rejected {rejection : Rejection} :
    saving.importDocument store options document = (.error (.rejected rejection), next) ↔
      pass options document = .error rejection ∧ store = next := by
  rw [importDocument]
  cases pass options document with
  | error found => simp
  | ok workflow =>
    rcases outcome : saving.save store workflow with ⟨failure | id', last⟩ <;> simp [outcome]

/-- The gate is idempotent on its own output. When an import has saved a workflow, importing its
wire form under options that allow as much saves the same workflow into any store that takes it.
When an import was rejected with a workflow, importing its wire form under the same options is
rejected with the same violations and the same workflow. -/
theorem Saving.reimport (appends : saving.Appends saved) (options : Options) (document : Json)
    (store : σ) :
    (∀ id next, saving.importDocument store options document = (.ok id, next) →
      ∃ workflow, saved next = saved store ++ [workflow] ∧
        ∀ others : Options, options.maxDepth ≤ others.maxDepth →
          (others.rejectEmptyConditionGroups = true →
            options.rejectEmptyConditionGroups = true) →
          ∀ other id' last, saving.save other workflow = (.ok id', last) →
            saving.importDocument other others workflow.toJson = (.ok id', last) ∧
              saved last = saved other ++ [workflow]) ∧
    ∀ violations workflow next,
      saving.importDocument store options document =
        (.error (.rejected ⟨violations, some workflow⟩), next) →
      ∀ other, saving.importDocument other options workflow.toJson =
        (.error (.rejected ⟨violations, some workflow⟩), other) := by
  constructor
  · intro id next imported
    obtain ⟨workflow, passed, stored⟩ := Saving.importDocument_eq_ok.1 imported
    refine ⟨workflow, appends.ok stored, fun others deeper rejects other id' last accepted => ?_⟩
    have again := pass_toJson (Options.Weaker.mk deeper rejects) passed
    exact ⟨Saving.importDocument_eq_ok.2 ⟨workflow, again, accepted⟩, appends.ok accepted⟩
  · intro violations workflow next imported other
    obtain ⟨rejected, -⟩ := Saving.importDocument_eq_rejected.1 imported
    exact Saving.importDocument_eq_rejected.2 ⟨pass_toJson_rejected rejected, rfl⟩

end Stores

/-- A workflow is saved twice, and one is rejected twice. -/
theorem Store.reimport_from_empty :
    (∃ workflow first second,
      saving.importDocument empty .default (Workflow.guarded "daily" "Daily" false).toJson =
        (.ok 0, first) ∧
      saving.importDocument first ⟨20000, false⟩ workflow.toJson = (.ok 1, second) ∧
      second.saved.toList = [workflow, workflow]) ∧
    ∃ violations workflow,
      saving.importDocument empty .default Workflow.repeated.toJson =
        (.error (.rejected ⟨violations, some workflow⟩), empty) ∧
      saving.importDocument empty .default workflow.toJson =
        (.error (.rejected ⟨violations, some workflow⟩), empty) := by
  constructor
  · obtain ⟨workflow, passed⟩ := success_iff_pass.1
      ((validate_success_of_read (Workflow.ofJson_guarded "daily" "Daily" false) rfl).2
        (Workflow.sound_guarded "Daily" false))
    have imported : saving.importDocument empty .default
        (Workflow.guarded "daily" "Daily" false).toJson = (.ok 0, ⟨#[workflow], false, none⟩) :=
      Saving.importDocument_eq_ok.2 ⟨workflow, passed, rfl⟩
    obtain ⟨stored, list, again⟩ :=
      (Saving.reimport Store.saving_appends .default _ empty).1 _ _ imported
    cases list
    obtain ⟨imported', list⟩ := again ⟨20000, false⟩ (by decide) (fun reject => by cases reject)
      ⟨#[workflow], false, none⟩ 1 ⟨#[workflow, workflow], false, none⟩ rfl
    exact ⟨workflow, _, _, imported, imported', list⟩
  · obtain ⟨violations, found, nonempty⟩ := Workflow.violations_repeated
    have read : Workflow.ofJson .default Workflow.repeated.toJson = .ok Workflow.repeated :=
      Workflow.ofJson_toJson_of_present rfl Workflow.withinDepth_repeated
    have imported : saving.importDocument empty .default Workflow.repeated.toJson =
        (.error (.rejected ⟨violations, some (Workflow.repeated.marked violations)⟩), empty) :=
      Saving.importDocument_eq_rejected.2
        ⟨pass_eq_rejected.2 ⟨_, read, found, nonempty, rfl⟩, rfl⟩
    exact ⟨violations, _, imported,
      (Saving.reimport Store.saving_appends .default _ empty).2 _ _ _ imported empty⟩

end FlowGate
