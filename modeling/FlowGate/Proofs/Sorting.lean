/-
This file brings the objects in a value into the order in which they come from a text: keys ascend,
and each key stands once. Where the keys of an object differ already nothing is lost, every key
leads to the same value as before, brought into order in its turn; and a value that is in order
stays as it is.
-/

import FlowGate.Proofs.Shapes

namespace FlowGate.Json

/-! ### Order -/

mutual

/-- A value with the keys of all its objects in order. -/
def sorted : Json → Json
  | .array items => .array (sortedItems items)
  | .object fields => ofEntries (sortedFields fields)
  | other => other

def sortedItems : List Json → List Json
  | [] => []
  | item :: rest => item.sorted :: sortedItems rest

def sortedFields : List (String × Json) → List (String × Json)
  | [] => []
  | (name, value) :: rest => (name, value.sorted) :: sortedFields rest

end

mutual

/-- Whether the keys of all objects in a value ascend, each of them standing once. -/
def ordered : Json → Bool
  | .array items => orderedItems items
  | .object fields => decide ((keys fields).Pairwise (· < ·)) && orderedFields fields
  | _ => true

def orderedItems : List Json → Bool
  | [] => true
  | item :: rest => item.ordered && orderedItems rest

def orderedFields : List (String × Json) → Bool
  | [] => true
  | (_, value) :: rest => value.ordered && orderedFields rest

end

theorem sortedItems_eq (items : List Json) : sortedItems items = items.map sorted := by
  induction items with
  | nil => rw [sortedItems, List.map_nil]
  | cons item rest inductionHypothesis => rw [sortedItems, inductionHypothesis, List.map_cons]

theorem sortedFields_eq (fields : List (String × Json)) :
    sortedFields fields = fields.map fun entry => (entry.1, entry.2.sorted) := by
  induction fields with
  | nil => rw [sortedFields, List.map_nil]
  | cons entry rest inductionHypothesis => rw [sortedFields, inductionHypothesis, List.map_cons]

theorem sorted_array (items : List Json) : (array items).sorted = .array (items.map sorted) := by
  rw [sorted, sortedItems_eq]

theorem keys_sortedFields (fields : List (String × Json)) :
    keys (sortedFields fields) = keys fields := by
  rw [sortedFields_eq, keys, List.map_map]
  rfl

theorem kind_sorted (value : Json) : value.sorted.kind = value.kind := by
  cases value <;> rfl

/-! ### Entries in order -/

/-- Entries by key. -/
def byKey (fields : List (String × Json)) : List (String × Json) :=
  fields.mergeSort fun first second => decide (first.1 ≤ second.1)

theorem byKey_perm (fields : List (String × Json)) : (byKey fields).Perm fields :=
  List.mergeSort_perm _ _

theorem nodup_keys_of_perm {fields fields' : List (String × Json)} (same : fields'.Perm fields)
    (distinct : (keys fields).Nodup) : (keys fields').Nodup :=
  (same.map Prod.fst).nodup_iff.2 distinct

theorem lastOfEachKey_of_ascending {fields : List (String × Json)}
    (ascending : (keys fields).Pairwise (· < ·)) : lastOfEachKey fields = fields := by
  induction fields with
  | nil => rfl
  | cons entry rest inductionHypothesis =>
    obtain ⟨before, ascending⟩ := List.pairwise_cons.1 ascending
    have later := inductionHypothesis ascending
    rw [lastOfEachKey] at later ⊢
    rw [List.foldr_cons, later]
    cases rest with
    | nil => rfl
    | cons next more =>
      exact if_neg (String.ne_of_lt (before next.1 List.mem_cons_self))

theorem byKey_ascending {fields : List (String × Json)} (distinct : (keys fields).Nodup) :
    (keys (byKey fields)).Pairwise (· < ·) := by
  have inOrder := @List.pairwise_mergeSort (String × Json)
    (fun first second => decide (first.1 ≤ second.1))
    (fun _ _ _ first second => by
      simp only [decide_eq_true_eq] at first second ⊢; exact String.le_trans first second)
    (fun first second => by
      simp only [Bool.or_eq_true, decide_eq_true_eq]; exact String.le_total first.1 second.1)
    fields
  have apart := nodup_keys_of_perm (byKey_perm fields) distinct
  refine List.pairwise_map.2 (((List.pairwise_map.1 apart).and inOrder).imp ?_)
  rintro first second ⟨differs, le⟩
  refine String.not_le.1 fun reversed => differs ?_
  exact String.le_antisymm (of_decide_eq_true le) reversed

/-- The object of entries whose keys differ is the object of these entries by key. -/
theorem ofEntries_of_distinct {fields : List (String × Json)} (distinct : (keys fields).Nodup) :
    ofEntries fields = .object (byKey fields) :=
  congrArg Json.object (lastOfEachKey_of_ascending (byKey_ascending distinct))

/-! ### Values by key -/

theorem field?_eq_some_iff {fields : List (String × Json)} (distinct : (keys fields).Nodup)
    {name : String} {value : Json} : field? name fields = some value ↔ (name, value) ∈ fields := by
  induction fields with
  | nil => exact ⟨fun found => (by cases found), fun member => (by cases member)⟩
  | cons entry rest inductionHypothesis =>
    obtain ⟨key, here⟩ := entry
    obtain ⟨apart, distinct⟩ := List.nodup_cons.1 distinct
    rw [field?_cons, List.mem_cons, Prod.mk.injEq]
    by_cases same : name = key
    · subst same
      rw [if_pos rfl, Option.some.injEq]
      refine ⟨fun equal => Or.inl ⟨rfl, equal.symm⟩, ?_⟩
      rintro (⟨-, equal⟩ | later)
      · exact equal.symm
      · exact absurd (List.mem_map_of_mem later) apart
    · rw [if_neg same, inductionHypothesis distinct]
      exact ⟨Or.inr, fun either => either.resolve_left fun equal => same equal.1⟩

/-- Where keys differ, the order of entries does not matter. -/
theorem field?_of_perm {fields fields' : List (String × Json)} (same : fields'.Perm fields)
    (distinct : (keys fields).Nodup) (name : String) :
    field? name fields' = field? name fields := by
  have distinct' := nodup_keys_of_perm same distinct
  refine Option.ext fun value => ?_
  rw [field?_eq_some_iff distinct', field?_eq_some_iff distinct, same.mem_iff]

theorem field?_sortedFields (name : String) (fields : List (String × Json)) :
    field? name (sortedFields fields) = (field? name fields).map sorted := by
  induction fields with
  | nil => rfl
  | cons entry rest inductionHypothesis =>
    obtain ⟨key, value⟩ := entry
    rw [sortedFields, field?_cons, field?_cons, inductionHypothesis]
    split <;> rfl

/-- An object whose keys differ keeps what stands under each of them, brought into order. -/
theorem exists_sorted {fields : List (String × Json)} (distinct : (keys fields).Nodup) :
    ∃ fields', (object fields).sorted = .object fields' ∧
      ∀ name, field? name fields' = (field? name fields).map sorted := by
  have distinct' : (keys (sortedFields fields)).Nodup := by rwa [keys_sortedFields]
  refine ⟨byKey (sortedFields fields), ?_, fun name => ?_⟩
  · rw [sorted, ofEntries_of_distinct distinct']
  · rw [field?_of_perm (byKey_perm _) distinct', field?_sortedFields]

/-- Bringing values into order is no more than rearranging them. -/
theorem rearranges_sorted : Rearranges sorted where
  kind := kind_sorted
  leaf {value} _ := by cases value <;> first | rfl | contradiction
  array := sorted_array
  object := exists_sorted

/-! ### Values in order -/

mutual

/-- A value that is in order stays as it is. -/
theorem sorted_of_ordered (value : Json) (inOrder : value.ordered = true) :
    value.sorted = value := by
  cases value with
  | array items =>
    rw [ordered] at inOrder
    rw [sorted, sortedItems_of_ordered items inOrder]
  | object fields =>
    rw [ordered, Bool.and_eq_true] at inOrder
    obtain ⟨ascending, below⟩ := inOrder
    have ascending : (keys fields).Pairwise (· < ·) := of_decide_eq_true ascending
    have by_key : byKey fields = fields :=
      List.mergeSort_of_pairwise ((List.pairwise_map.1 ascending).imp fun before =>
        decide_eq_true (String.not_lt.1 fun after =>
          String.lt_irrefl _ (String.lt_trans before after)))
    rw [sorted, sortedFields_of_ordered fields below,
      ofEntries_of_distinct (ascending.imp String.ne_of_lt), by_key]
  | _ => rfl

theorem sortedItems_of_ordered (items : List Json) (inOrder : orderedItems items = true) :
    sortedItems items = items := by
  cases items with
  | nil => rfl
  | cons item rest =>
    rw [orderedItems, Bool.and_eq_true] at inOrder
    rw [sortedItems, sorted_of_ordered item inOrder.1, sortedItems_of_ordered rest inOrder.2]

theorem sortedFields_of_ordered (fields : List (String × Json))
    (inOrder : orderedFields fields = true) : sortedFields fields = fields := by
  cases fields with
  | nil => rfl
  | cons entry rest =>
    obtain ⟨name, value⟩ := entry
    rw [orderedFields, Bool.and_eq_true] at inOrder
    rw [sortedFields, sorted_of_ordered value inOrder.1, sortedFields_of_ordered rest inOrder.2]

end

end FlowGate.Json
