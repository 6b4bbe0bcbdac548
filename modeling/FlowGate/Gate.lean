/-
This file guards a store of workflows. A document is saved only if it has no violations, with the
marks of validity set anew; otherwise it is rejected with all its violations, and the store stays
as it is. How a store saves is its own affair, and it may fail to; the store here fails when it may
only be read, or when it is full.
-/

import FlowGate.Validity
import FlowGate.Verdict

namespace FlowGate

/-! ### The gate -/

/-- Why a document is kept out: its violations, and the workflow with its marks if it is one. -/
structure Rejection where
  violations : List Violation
  workflow : Option Workflow

/-- The words of a rejection. -/
def Rejection.message (rejection : Rejection) : String :=
  s!"workflow rejected with {rejection.violations.length} violation(s)"

/-- The rejection of a document that cannot be taken for a workflow. -/
def Rejection.ofRefusal (refusal : Refusal) : Rejection :=
  ⟨[refusal.error.violation], none⟩

/-- The workflow that a document holds, its marks set, if it may pass. -/
def pass (options : Options) (document : Json) : Except Rejection Workflow :=
  match Workflow.ofJson options document with
  | .error refusal => .error (.ofRefusal refusal)
  | .ok workflow =>
    match workflow.violations options with
    | .error refusal => .error (.ofRefusal refusal)
    | .ok violations =>
      let marked := workflow.marked violations
      if violations.isEmpty then .ok marked else .error ⟨violations, some marked⟩

/-! ### Importing -/

/-- Why an import did not save: the document was kept out, or the store failed. -/
inductive ImportError (ε : Type) where
  | rejected (rejection : Rejection)
  | notSaved (failure : ε)

/-- The words of a failed import, given those of a failed store. -/
def ImportError.message (words : ε → String) : ImportError ε → String
  | .rejected rejection => rejection.message
  | .notSaved failure => s!"failed to store workflow: {words failure}"

/-- How workflows are saved in stores of a type: the id that was given or why there is none, and
the store afterwards. -/
structure Saving (σ ι ε : Type) where
  save : σ → Workflow → Except ε ι × σ

/-- Imports a document: the id under which it was saved or why it was not, and the store
afterwards. -/
def Saving.importDocument (saving : Saving σ ι ε) (store : σ) (options : Options)
    (document : Json) : Except (ImportError ε) ι × σ :=
  match pass options document with
  | .error rejection => (.error (.rejected rejection), store)
  | .ok workflow =>
    match saving.save store workflow with
    | (.error failure, store) => (.error (.notSaved failure), store)
    | (.ok id, store) => (.ok id, store)

/-! ### The store -/

/-- Saved workflows, numbered from zero, and what limits saving more of them. -/
structure Store where
  saved : Array Workflow
  readOnly : Bool
  capacity : Option Nat

/-- Why a store does not save. -/
inductive Store.Failure where
  | readOnly
  | full (capacity : Nat)
  deriving DecidableEq, Repr

/-- Why an import into a store did not save. -/
abbrev ImportFailure := ImportError Store.Failure

namespace Store

/-- A store without workflows and without limits. -/
def empty : Store :=
  ⟨#[], false, none⟩

/-- The words of a failure. -/
def Failure.message : Failure → String
  | .readOnly => "store is read-only"
  | .full capacity => s!"store is full at {capacity}"

/-- Why the store would not save now, if it would not. -/
def failure? (store : Store) : Option Failure :=
  if store.readOnly then some .readOnly
  else
    match store.capacity with
    | none => none
    | some capacity => if capacity ≤ store.saved.size then some (.full capacity) else none

/-- Saves a workflow at the end of the list and gives its number. -/
def save (store : Store) (workflow : Workflow) : Except Failure Nat × Store :=
  match store.failure? with
  | some failure => (.error failure, store)
  | none => (.ok store.saved.size, { store with saved := store.saved.push workflow })

/-- How workflows are saved in a store. -/
def saving : Saving Store Nat Failure :=
  ⟨save⟩

/-- Imports a document into the store. -/
def importDocument (store : Store) (options : Options) (document : Json) :
    Except ImportFailure Nat × Store :=
  saving.importDocument store options document

end Store

/-- The words of a failed import into a store. -/
def ImportFailure.message (failure : ImportFailure) : String :=
  ImportError.message Store.Failure.message failure

end FlowGate
