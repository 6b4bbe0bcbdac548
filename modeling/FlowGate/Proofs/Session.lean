/-
This file is about sessions: documents are imported one after the other into a store that saves a
workflow at the end of its list or fails to, whenever it likes. An import that is refused leaves
the list as it is. The workflow that is saved is the one that was read with other marks, and since
the rules do not look at marks, what was found of the one holds of the other.
-/

import FlowGate.Gate
import FlowGate.Proofs.Marking
import Mathlib.Data.List.Forall2

namespace FlowGate

/-! ### The gate -/

/-- A document passes just if its workflow has no violations; it is then marked. -/
theorem pass_eq_ok {options : Options} {document : Json} {workflow : Workflow} :
    pass options document = .ok workflow ↔
      ∃ read, Workflow.ofJson options document = .ok read ∧ read.violations options = .ok [] ∧
        read.marked [] = workflow := by
  rw [pass]
  cases Workflow.ofJson options document with
  | error refusal => simp
  | ok read =>
    cases violations : read.violations options with
    | error refusal => simp [violations]
    | ok found => cases found <;> simp [violations]

/-- A document passes just if the verdict on it is a success. -/
theorem success_iff_pass {options : Options} {document : Json} :
    (validate options document).success = true ↔
      ∃ workflow, pass options document = .ok workflow := by
  rw [validate_success]
  simp only [pass_eq_ok]
  constructor
  · rintro ⟨read, found, none⟩
    exact ⟨_, read, found, none, rfl⟩
  · rintro ⟨_, read, found, none, -⟩
    exact ⟨read, found, none⟩

/-- A document that does not pass is rejected with what its verdict says. -/
theorem pass_eq_error {options : Options} {document : Json} {rejection : Rejection}
    (rejected : pass options document = .error rejection) :
    validate options document = ⟨false, some rejection.violations⟩ := by
  revert rejected
  rw [pass, validate]
  cases Workflow.ofJson options document with
  | error refusal =>
    rintro ⟨⟩
    rfl
  | ok read =>
    simp only [Workflow.check]
    cases read.violations options with
    | error refusal =>
      rintro ⟨⟩
      rfl
    | ok found =>
      cases found with
      | nil => rintro ⟨⟩
      | cons first rest =>
        rintro ⟨⟩
        rfl

/-- One workflow passes if the verdict is a success, and none otherwise. -/
theorem length_pass {options : Options} {document : Json} :
    (pass options document).toOption.toList.length =
      if (validate options document).success then 1 else 0 := by
  cases passed : pass options document with
  | error rejection =>
    rw [pass_eq_error passed]
    rfl
  | ok workflow =>
    rw [success_iff_pass.2 ⟨workflow, passed⟩]
    rfl

/-! ### Stores -/

/-- What is asked of a store, where `saved` lists what it has saved: a workflow that is saved comes
to the end of the list, and a store that fails leaves the list as it is. -/
structure Saving.Appends (saving : Saving σ ι ε) (saved : σ → List Workflow) : Prop where
  ok : ∀ {store workflow id next}, saving.save store workflow = (.ok id, next) →
    saved next = saved store ++ [workflow]
  error : ∀ {store workflow failure next}, saving.save store workflow = (.error failure, next) →
    saved next = saved store

/-- The same store, which also lists the workflows that it was asked to save. -/
def Saving.recorded (saving : Saving σ ι ε) : Saving (σ × List Workflow) ι ε where
  save state workflow :=
    let (outcome, next) := saving.save state.1 workflow
    (outcome, next, state.2 ++ [workflow])

/-- A request to import a document. -/
structure Call where
  options : Options
  document : Json

/-- Answers a request, and gives the store afterwards. -/
def Saving.handle (saving : Saving σ ι ε) (store : σ) (call : Call) :
    Except (ImportError ε) ι × σ :=
  saving.importDocument store call.options call.document

/-- Answers requests one after the other, and gives the store after the last of them. -/
def Saving.session (saving : Saving σ ι ε) (store : σ) :
    List Call → List (Call × Except (ImportError ε) ι) × σ
  | [] => ([], store)
  | call :: rest =>
    let (answer, next) := saving.handle store call
    let (later, last) := saving.session next rest
    ((call, answer) :: later, last)

/-- What holds of one request. -/
structure Saving.Guarded (saving : Saving σ ι ε) (saved : σ → List Workflow) (store : σ)
    (call : Call) : Prop where
  /-- The list stays as it is or is longer by one workflow at its end. -/
  grows : saved (saving.handle store call).2 = saved store ∨
    ∃ workflow, saved (saving.handle store call).2 = saved store ++ [workflow]
  /-- The list is longer if and only if the answer is an id. -/
  answers : (∃ id, (saving.handle store call).1 = .ok id) ↔
    ∃ workflow, saved (saving.handle store call).2 = saved store ++ [workflow]
  /-- The store is asked to save if and only if the verdict is a success, and only once. -/
  asks : ∀ asked, ∃ given, saving.recorded.handle (store, asked) call =
      ((saving.handle store call).1, (saving.handle store call).2, asked ++ given) ∧
    given.length = if (validate call.options call.document).success then 1 else 0
  /-- A document is rejected with the violations of the verdict. -/
  rejects : ∀ rejection, (saving.handle store call).1 = .error (.rejected rejection) →
    (validate call.options call.document).errors = some rejection.violations

section Stores

variable {saving : Saving σ ι ε} {saved : σ → List Workflow}

/-- All that can come of a request: the document does not pass, or the store fails, or the workflow
is saved. -/
theorem Saving.handle_cases (saving : Saving σ ι ε) (store : σ) (call : Call) :
    (∃ rejection, pass call.options call.document = .error rejection ∧
      saving.handle store call = (.error (.rejected rejection), store)) ∨
    ∃ workflow, pass call.options call.document = .ok workflow ∧
      ((∃ failure next, saving.save store workflow = (.error failure, next) ∧
        saving.handle store call = (.error (.notSaved failure), next)) ∨
      ∃ id next, saving.save store workflow = (.ok id, next) ∧
        saving.handle store call = (.ok id, next)) := by
  rw [handle, importDocument]
  cases passed : pass call.options call.document with
  | error rejection => exact Or.inl ⟨rejection, rfl, rfl⟩
  | ok workflow =>
    refine Or.inr ⟨workflow, rfl, ?_⟩
    rcases outcome : saving.save store workflow with ⟨failure | id, next⟩
    · exact Or.inl ⟨failure, next, rfl, by simp only [outcome]⟩
    · exact Or.inr ⟨id, next, rfl, by simp only [outcome]⟩

/-- A recorded store answers as the store does, and lists the workflow that passes. -/
theorem Saving.handle_recorded (saving : Saving σ ι ε) (store : σ) (asked : List Workflow)
    (call : Call) :
    saving.recorded.handle (store, asked) call =
      ((saving.handle store call).1, (saving.handle store call).2,
        asked ++ (pass call.options call.document).toOption.toList) := by
  rw [handle, importDocument, handle, importDocument]
  cases pass call.options call.document with
  | error rejection => simp [Except.toOption]
  | ok workflow =>
    rcases outcome : saving.save store workflow with ⟨failure | id, next⟩ <;>
      simp [recorded, outcome, Except.toOption]

/-- Whatever there is against a document or a store, a request is guarded. -/
theorem Saving.guarded (appends : saving.Appends saved) (store : σ) (call : Call) :
    saving.Guarded saved store call := by
  have recorded : ∀ asked, ∃ given, saving.recorded.handle (store, asked) call =
      ((saving.handle store call).1, (saving.handle store call).2, asked ++ given) ∧
        given.length = if (validate call.options call.document).success then 1 else 0 :=
    fun asked => ⟨_, saving.handle_recorded store asked call, length_pass⟩
  rcases saving.handle_cases store call with ⟨rejection, rejected, handled⟩ |
    ⟨workflow, passed, ⟨failure, next, failed, handled⟩ | ⟨id, next, stored, handled⟩⟩
  · refine ⟨?_, ?_, recorded, ?_⟩
    · rw [handled]
      exact Or.inl rfl
    · rw [handled]
      exact iff_of_false (by rintro ⟨_, ⟨⟩⟩) (by simp)
    · rw [handled, pass_eq_error rejected]
      rintro _ ⟨⟩
      rfl
  · have same := appends.error failed
    refine ⟨?_, ?_, recorded, ?_⟩
    · rw [handled]
      exact Or.inl same
    · rw [handled, same]
      exact iff_of_false (by rintro ⟨_, ⟨⟩⟩) (by simp)
    · rw [handled]
      rintro _ ⟨⟩
  · have longer := appends.ok stored
    refine ⟨?_, ?_, recorded, ?_⟩
    · rw [handled]
      exact Or.inr ⟨workflow, longer⟩
    · rw [handled]
      exact ⟨fun _ => ⟨workflow, longer⟩, fun _ => ⟨id, rfl⟩⟩
    · rw [handled]
      rintro _ ⟨⟩

/-- An import that gives an id adds a workflow that is accepted under the options of the request,
and any other one adds nothing. -/
theorem Saving.added_by_handle (appends : saving.Appends saved) (store : σ) (call : Call) :
    ∃ added, saved (saving.handle store call).2 = saved store ++ added ∧
      List.Forall₂ (fun entry workflow => workflow.Accepted entry.1.options)
        ([(call, (saving.handle store call).1)].filter fun entry => entry.2.isOk) added := by
  rcases saving.handle_cases store call with ⟨rejection, rejected, handled⟩ |
    ⟨workflow, passed, ⟨failure, next, failed, handled⟩ | ⟨id, next, stored, handled⟩⟩
  · rw [handled]
    exact ⟨[], (List.append_nil _).symm, .nil⟩
  · rw [handled]
    exact ⟨[], by rw [List.append_nil, appends.error failed], .nil⟩
  · rw [handled]
    obtain ⟨read, -, none, rfl⟩ := pass_eq_ok.1 passed
    exact ⟨[_], appends.ok stored, .cons (Workflow.accepted_marked none) .nil⟩

/-- A session adds one workflow for each answer that is an id, in the order of the requests. -/
theorem Saving.added_by_session (appends : saving.Appends saved) (store : σ) (calls : List Call) :
    ∃ added, saved (saving.session store calls).2 = saved store ++ added ∧
      List.Forall₂ (fun entry workflow => workflow.Accepted entry.1.options)
        ((saving.session store calls).1.filter fun entry => entry.2.isOk) added := by
  induction calls generalizing store with
  | nil => exact ⟨[], (List.append_nil _).symm, .nil⟩
  | cons call rest inductionHypothesis =>
    obtain ⟨first, here, acceptedFirst⟩ := Saving.added_by_handle appends store call
    obtain ⟨others, later, acceptedOthers⟩ := inductionHypothesis (saving.handle store call).2
    refine ⟨first ++ others, ?_, ?_⟩
    · rw [← List.append_assoc, ← here]
      exact later
    · have together : (saving.session store (call :: rest)).1.filter (fun entry => entry.2.isOk) =
          [(call, (saving.handle store call).1)].filter (fun entry => entry.2.isOk) ++
            (saving.session (saving.handle store call).2 rest).1.filter fun entry => entry.2.isOk :=
        List.filter_append [(call, (saving.handle store call).1)] _
      rw [together]
      exact List.rel_append acceptedFirst acceptedOthers

/-- Whatever was requested before, the list of a store holds, besides what it held at first, one
workflow for each answer that was an id, in the order of the requests, and each of them is accepted
under the options of its request. The next request is guarded: the list stays as it is or is longer
by one workflow, which it is just if the answer is an id; the store is asked to save, once, just if
the verdict on the document is a success; and a document is rejected with the violations of its
verdict. -/
theorem Saving.session_guarded (appends : saving.Appends saved) (store : σ) (calls : List Call) :
    (∃ added, saved (saving.session store calls).2 = saved store ++ added ∧
      List.Forall₂ (fun entry workflow => workflow.Accepted entry.1.options)
        ((saving.session store calls).1.filter fun entry => entry.2.isOk) added) ∧
    ∀ call, saving.Guarded saved (saving.session store calls).2 call :=
  ⟨Saving.added_by_session appends store calls,
    fun call => Saving.guarded appends (saving.session store calls).2 call⟩

end Stores

/-- The store here saves at the end of its list. -/
theorem Store.saving_appends : Store.saving.Appends fun store => store.saved.toList := by
  constructor
  · intro store workflow id next stored
    simp only [saving, save] at stored
    split at stored <;> cases stored
    exact Array.toList_push
  · intro store workflow failure next failed
    simp only [saving, save] at failed
    split at failed <;> cases failed
    rfl

theorem Store.session_guarded_from_empty :
    ∃ workflow, (saving.session empty
        [⟨.default, (Workflow.guarded "daily" "Daily" true).toJson⟩]).2.saved.toList = [workflow] ∧
      workflow.Accepted .default := by
  obtain ⟨workflow, passed⟩ := success_iff_pass.1
    ((validate_success_of_read (Workflow.ofJson_guarded "daily" "Daily" true) rfl).2
      (Workflow.sound_guarded "Daily" true))
  have handled : saving.handle empty ⟨.default, (Workflow.guarded "daily" "Daily" true).toJson⟩ =
      (.ok 0, ⟨#[workflow], false, none⟩) := by
    rw [Saving.handle, Saving.importDocument, passed]
    rfl
  obtain ⟨⟨added, list, accepted⟩, -⟩ := Saving.session_guarded Store.saving_appends empty
    [⟨.default, (Workflow.guarded "daily" "Daily" true).toJson⟩]
  rw [Saving.session, handled] at accepted
  cases accepted with
  | cons first rest =>
    cases rest
    exact ⟨_, list, first⟩

end FlowGate
