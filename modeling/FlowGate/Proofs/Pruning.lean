/-
This file shows which entries of a document matter to the reader. An object is asked for a few
names, told by its place, and an entry with another name or with `null` is idle: the reader cannot
tell it from none. A document without its idle entries, in whatever objects and whichever of them,
is read as the same workflow or refused for the same reason. Reading is compared once, with the
document from which all idle entries are gone; documents that lack a part of them come to the same
when the rest goes as well.
-/

import FlowGate.Proofs.Unmarking

namespace FlowGate

/-! ### Idle entries -/

/-- The names that an object is asked for, if the reader looks at objects of its place at all. -/
def Place.asked : Place → Option (List String)
  | .document => some ["name", "description", "tags", "template"]
  | .template => some ["displayName", "trigger", "valid"]
  | .node =>
    some (["name", "displayName", "valid", "type", "settings"] ++ Reading.continuationFields)
  | .way => some ["optionId", "nextAction"]
  | .ways | .other => none

/-- Whether an entry of an object is idle: nobody asks for its name, or its value is `null`. -/
def Place.idle (place : Place) (fields : List (String × Json)) (name : String) : Bool :=
  place.asked.any fun names =>
    !names.contains name || (Json.present? name fields).isNone

theorem Place.idle_of_asked {place : Place} {name : String}
    (asked : name ∈ place.asked.getD []) (fields : List (String × Json)) :
    place.idle fields name = (Json.present? name fields).isNone := by
  rw [idle]
  cases names : place.asked with
  | none => rw [names] at asked; cases asked
  | some asks =>
    rw [names, Option.getD_some] at asked
    rw [Option.any_some, List.contains_iff_mem.2 asked]
    rfl

/-- A choice among all entries in a value, each told by the path that leads to it. -/
abbrev Choice := AccessPath → Bool

namespace Choice

/-- What is chosen in a part of the value. -/
def under (choice : Choice) (segment : Segment) : Choice :=
  fun path => choice (segment :: path)

/-- The choice of all entries. -/
def every : Choice :=
  fun _ => true

@[simp]
theorem every_under (segment : Segment) : every.under segment = every := rfl

end Choice

namespace Json

mutual

/-- A part of a document without those of its idle entries that are chosen. -/
def pruned (choice : Choice) (place : Place) : Json → Json
  | .object fields => .object (prunedFields (place.idle fields) choice place fields)
  | .array items => .array (prunedItems choice place.item 0 items)
  | other => other

/-- Entries without the chosen ones of those that are idle, and without the chosen ones below. -/
def prunedFields (idle : String → Bool) (choice : Choice) (place : Place) :
    List (String × Json) → List (String × Json)
  | [] => []
  | (name, value) :: rest =>
    if idle name && choice [.field name] then prunedFields idle choice place rest
    else (name, value.pruned (choice.under (.field name)) (place.under name)) ::
      prunedFields idle choice place rest

/-- The items of an array, from a position on, without the chosen entries below. -/
def prunedItems (choice : Choice) (place : Place) (position : Nat) : List Json → List Json
  | [] => []
  | item :: rest =>
    item.pruned (choice.under (.index position)) place ::
      prunedItems choice place (position + 1) rest

end

section Pruned

variable (choice : Choice) (place : Place)

theorem kind_pruned (value : Json) : (value.pruned choice place).kind = value.kind := by
  cases value <;> simp only [pruned, kind]

/-- What stands under a name is gone if it is idle and chosen, and stays otherwise. -/
theorem field?_pruned (idle : String → Bool) (name : String) (fields : List (String × Json)) :
    field? name (prunedFields idle choice place fields) =
      if idle name && choice [.field name] then none
      else (field? name fields).map
        (pruned (choice.under (.field name)) (place.under name)) := by
  induction fields with
  | nil =>
    rw [prunedFields]
    split <;> rfl
  | cons entry rest inductionHypothesis =>
    obtain ⟨key, value⟩ := entry
    rw [prunedFields, field?_cons]
    by_cases same : name = key
    · subst same
      rw [if_pos rfl]
      split
      · next gone => rw [inductionHypothesis, if_pos gone]
      · rw [field?_cons, if_pos rfl]
        rfl
    · rw [if_neg same, ← inductionHypothesis]
      split
      · rfl
      · rw [field?_cons, if_neg same]

/-- What an object is asked for is present or absent as before. -/
theorem present?_pruned {name : String} (asked : name ∈ place.asked.getD [])
    (fields : List (String × Json)) :
    present? name (prunedFields (place.idle fields) choice place fields) =
      (present? name fields).map (pruned (choice.under (.field name)) (place.under name)) := by
  have found := field?_pruned choice place (place.idle fields) name fields
  by_cases gone : (place.idle fields name && choice [.field name]) = true
  · have absent := (Bool.and_eq_true_iff.1 gone).1
    rw [Place.idle_of_asked asked, Option.isNone_iff_eq_none] at absent
    rw [if_pos gone] at found
    rw [present?, found, absent]
    rfl
  · rw [if_neg gone] at found
    exact Reading.present?_of_field? (kind_pruned _ _) found

end Pruned

mutual

/-- Elsewhere nothing is idle. -/
theorem pruned_other (choice : Choice) (value : Json) : value.pruned choice .other = value := by
  cases value with
  | object fields => exact congrArg Json.object (prunedFields_other choice fields fields)
  | array items => exact congrArg Json.array (prunedItems_other choice 0 items)
  | _ => rfl

theorem prunedFields_other (choice : Choice) (whole fields : List (String × Json)) :
    prunedFields (Place.other.idle whole) choice .other fields = fields := by
  cases fields with
  | nil => rw [prunedFields]
  | cons entry rest =>
    obtain ⟨name, value⟩ := entry
    have below : Place.other.under name = .other := rfl
    rw [prunedFields, prunedFields_other, below, pruned_other]
    rfl

theorem prunedItems_other (choice : Choice) (position : Nat) (items : List Json) :
    prunedItems choice .other position items = items := by
  cases items with
  | nil => rw [prunedItems]
  | cons item rest => rw [prunedItems, pruned_other, prunedItems_other]

end

/-- What an object is asked for that holds nothing below is as before. -/
theorem present?_pruned_plain (choice : Choice) {place : Place} {name : String}
    (asked : name ∈ place.asked.getD []) (plain : place.under name = .other)
    (fields : List (String × Json)) :
    present? name (prunedFields (place.idle fields) choice place fields) =
      present? name fields := by
  rw [present?_pruned choice place asked, plain]
  cases present? name fields with
  | none => rfl
  | some value => rw [Option.map_some, pruned_other]

/-- Entries that remain are idle if they were before. -/
theorem idle_pruned (choice : Choice) (place : Place) (fields : List (String × Json)) :
    place.idle (prunedFields (place.idle fields) choice place fields) = place.idle fields := by
  funext name
  by_cases asked : name ∈ place.asked.getD []
  · rw [Place.idle_of_asked asked, Place.idle_of_asked asked, present?_pruned choice place asked,
      Option.isNone_map]
  · rw [Place.idle, Place.idle]
    cases names : place.asked with
    | none => rfl
    | some asks =>
      rw [names, Option.getD_some, ← List.contains_iff_mem, Bool.not_eq_true] at asked
      rw [Option.any_some, Option.any_some, asked]
      rfl

mutual

/-- After some idle entries, all others can still go. -/
theorem pruned_pruned (choice : Choice) (place : Place) (value : Json) :
    (value.pruned choice place).pruned .every place = value.pruned .every place := by
  cases value with
  | object fields =>
    rw [pruned, pruned, idle_pruned]
    exact congrArg Json.object (prunedFields_prunedFields _ choice place fields)
  | array items => exact congrArg Json.array (prunedItems_prunedItems choice place.item 0 0 items)
  | _ => rfl

theorem prunedFields_prunedFields (idle : String → Bool) (choice : Choice) (place : Place)
    (fields : List (String × Json)) :
    prunedFields idle .every place (prunedFields idle choice place fields) =
      prunedFields idle .every place fields := by
  cases fields with
  | nil => rw [prunedFields]
  | cons entry rest =>
    obtain ⟨name, value⟩ := entry
    have later := prunedFields_prunedFields idle choice place rest
    rw [prunedFields]
    split
    · next gone =>
      rw [later, prunedFields, (Bool.and_eq_true_iff.1 gone).1]
      rfl
    · rw [prunedFields, later, Choice.every_under, pruned_pruned, prunedFields, Choice.every_under]

theorem prunedItems_prunedItems (choice : Choice) (place : Place) (position start : Nat)
    (items : List Json) :
    prunedItems .every place start (prunedItems choice place position items) =
      prunedItems .every place start items := by
  cases items with
  | nil => rw [prunedItems]
  | cons item rest =>
    rw [prunedItems, prunedItems, Choice.every_under, pruned_pruned, prunedItems_prunedItems,
      prunedItems, Choice.every_under]

end

theorem prunedItems_every (place : Place) (position : Nat) (items : List Json) :
    prunedItems .every place position items = items.map (pruned .every place) := by
  induction items generalizing position with
  | nil => rw [prunedItems, List.map_nil]
  | cons item rest inductionHypothesis =>
    rw [prunedItems, inductionHypothesis, List.map_cons, Choice.every_under]

end Json

/-! ### Reading without idle entries -/

namespace Reading

open Json (pruned prunedFields)

theorem branch_pruned (item : Json) (position : Nat) :
    branch (item.pruned .every .way, position) =
      (branch (item, position)).map (Branch.map (pruned .every .node)) := by
  refine branch_carried (Json.kind_pruned .every .way) (fun entries => ?_) item position
  exact ⟨prunedFields (Place.way.idle entries) .every .way entries, rfl,
    Json.present?_pruned_plain .every (by decide) rfl entries,
    Json.present?_pruned .every .way (by decide) entries⟩

/-- The entries of a node without those that are idle. -/
def busy (fields : List (String × Json)) : List (String × Json) :=
  prunedFields (Place.node.idle fields) .every .node fields

theorem present?_busy {name : String}
    (plain : name ∈ ["name", "displayName", "valid", "type", "settings"])
    (fields : List (String × Json)) :
    Json.present? name (busy fields) = Json.present? name fields := by
  have asked : ∀ name ∈ ["name", "displayName", "valid", "type", "settings"],
      name ∈ Place.node.asked.getD [] ∧ Place.node.under name = .other := by decide
  exact Json.present?_pruned_plain .every (asked name plain).1 (asked name plain).2 fields

theorem carries_busy (fields : List (String × Json)) :
    Carries (pruned .every .node) fields (busy fields) where
  single name member := by
    have nodes : ∀ name ∈ ["nextAction", "onSuccessAction", "onFailureAction", "firstLoopAction"],
        name ∈ Place.node.asked.getD [] ∧ Place.node.under name = .node := by decide
    obtain ⟨asked, below⟩ := nodes name member
    rw [busy, Json.present?_pruned .every .node asked, below]
    rfl
  listed := by
    rw [busy, Json.present?_pruned .every .node (by decide), Option.isSome_map]
  ways := by
    refine branches_carried (Json.present?_pruned .every .node (by decide) fields)
      (Json.kind_pruned .every .ways) (fun items => ?_) fun _ value _ => branch_pruned value
    exact congrArg Json.array (Json.prunedItems_every .way 0 items)

theorem header_busy (fields : List (String × Json)) :
    header (busy fields) = (header fields).map id := by
  have same : header (busy fields) = header fields :=
    header_congr fun name member => present?_busy (List.mem_of_mem_take (i := 3) member) fields
  rw [same]
  cases header fields <;> rfl

/-- A step is read from the entries that are not idle. -/
theorem step_pruned (value : Json) :
    step (value.pruned .every .node) =
      (step value).map (Step.map id (pruned .every .node)) := by
  cases value with
  | object fields =>
    have type := requiredText_congr (@present?_busy "type" (by decide) fields) []
    have settings := @present?_busy "settings" (by decide) fields
    exact step_carried (carries_busy fields) type (header_busy fields)
      fun _ _ form _ => settings_congr form settings
  | _ => rfl

theorem triggerNode_pruned (value : Json) :
    triggerNode (value.pruned .every .node) =
      (triggerNode value).map fun found => (found.1, found.2.map (pruned .every .node)) := by
  cases value with
  | object fields =>
    have type := requiredText_congr (@present?_busy "type" (by decide) fields) []
    have settings := @present?_busy "settings" (by decide) fields
    exact triggerNode_carried (carries_busy fields) type (header_busy fields)
      fun _ => triggerKind_congr settings _
  | _ => rfl

variable {options : Options}

theorem action_pruned (next : Option Json) :
    action options (next.map (pruned .every .node)) = action options next := by
  refine action_carried fun value _ => ?_
  exact @grow_carried options id (pruned .every .node) (fun _ => True) (fun _ => step_pruned _)
    (fun _ _ => trivial) value trivial 1 [.next]

theorem trigger_pruned (value : Json) :
    trigger options (value.pruned .every .node) = trigger options value := by
  rw [trigger, trigger, triggerNode_pruned]
  cases triggerNode value with
  | error refusal => rfl
  | ok found =>
    show (action options (found.2.map (pruned .every .node))).bind _ =
      (action options found.2).bind _
    rw [action_pruned]

theorem template_pruned (value : Option Json) :
    template options (value.map (pruned .every .template)) = template options value := by
  cases value with
  | none => rfl
  | some value =>
    cases value with
    | object fields =>
      have plain := fun {name} => @Json.present?_pruned_plain .every .template name
      have displayName := @plain "displayName" (by decide) rfl fields
      have valid := @plain "valid" (by decide) rfl fields
      have below : Json.present? "trigger" (prunedFields _ .every .template fields) =
          (Json.present? "trigger" fields).map (pruned .every .node) :=
        Json.present?_pruned .every .template (by decide) fields
      show template options (some (.object (prunedFields _ .every .template fields))) = _
      cases present : Json.present? "trigger" fields with
      | none =>
        rw [present] at below
        rw [template_of_absent below, template_of_absent present]
      | some start =>
        rw [present] at below
        rw [template_of_present below, template_of_present present,
          optionalText_congr displayName, optionalFlag_congr valid, trigger_pruned]
    | _ => rfl

end Reading

/-- A document is read as if all its idle entries were gone. -/
theorem Workflow.ofJson_pruned_every (options : Options) (document : Json) :
    ofJson options (document.pruned .every .document) = ofJson options document := by
  cases document with
  | object fields =>
    have plain := fun {name} => @Json.present?_pruned_plain .every .document name
    have name := @plain "name" (by decide) rfl fields
    have description := @plain "description" (by decide) rfl fields
    have tags := @plain "tags" (by decide) rfl fields
    have template : Json.present? "template" (Json.prunedFields _ .every .document fields) =
        (Json.present? "template" fields).map (Json.pruned .every .template) :=
      Json.present?_pruned .every .document (by decide) fields
    show ofJson options (.object (Json.prunedFields _ .every .document fields)) = _
    rw [ofJson_object, ofJson_object, Reading.requiredText_congr name,
      Reading.optionalText_congr description, tags, template, Reading.template_pruned]
  | _ => rfl

/-- Idle entries make no difference to the reader. Whichever of them are deleted from a document, in
the document itself, in its template, in its trigger, in the steps that continuations lead to and
in the ways of splits, the document is read as the same workflow, or refused for the same reason at
the same path. -/
theorem Workflow.ofJson_pruned (options : Options) (choice : Choice) (document : Json) :
    ofJson options (document.pruned choice .document) = ofJson options document := by
  rw [← ofJson_pruned_every, Json.pruned_pruned, ofJson_pruned_every]

/-- What a step is configured with is kept whole, and what hangs off it is not. -/
example :
    (Json.object [("type", .string "CODE"), ("note", .string "later"),
      ("settings", .object [("timeout", .null)]),
      ("nextAction", .object [("valid", .null), ("nextAction", .null)])]).pruned .every .node =
    .object [("type", .string "CODE"), ("settings", .object [("timeout", .null)]),
      ("nextAction", .object [])] := by
  rfl

end FlowGate
