/-
This file shows that what is written in some shape is read back. The names of the fields of a
record have to differ for that, and so have the words of a tag: a reader finds a field by its name
and a word by the first place where it stands. Nothing is ever written as `null`, so a field that
holds a value is not taken for one that is absent. In what order the entries of objects stand does
not matter to a reader, so they may be rearranged before it, except in a map, which is read as it
is.
-/

import FlowGate.Shape.OfJson

namespace FlowGate

/-! ### Entries by name -/

@[simp] theorem Json.field?_cons (name key : String) (value : Json)
    (rest : List (String × Json)) :
    Json.field? name ((key, value) :: rest) =
      if name = key then some value else Json.field? name rest := by
  rw [field?, List.lookup_cons]
  by_cases same : name = key
  · rw [if_pos same, beq_iff_eq.2 same]
  · rw [if_neg same, beq_eq_false_iff_ne.2 same]
    rfl

/-! ### Shapes without ambiguity -/

mutual

/-- Whether the words of every tag and the names of the fields of every record differ. -/
def Shape.clear : Shape → Bool
  | .flag | .count | .text | .map => true
  | .tag words => decide words.Nodup
  | .list item => item.clear
  | .record _ fields => fields.clear

/-- Whether the names of the fields differ and their shapes are without ambiguity. -/
def Fields.clear : Fields → Bool
  | .nil => true
  | .field name _ shape rest => !rest.names.contains name && shape.clear && rest.clear

end

/-- No value is written as `null`. -/
theorem Shape.isNull_toJson (shape : Shape) (value : shape.Carrier) :
    (shape.toJson value).isNull = false := by
  cases shape <;> rfl

/-! ### Values without fields -/

theorem Number.toCount_ofUInt64 (value : UInt64) :
    (Number.ofUInt64 value).toCount = .ok value := by
  rw [ofUInt64, toCount, if_pos (Int.natCast_nonneg _), Int.toNat_natCast]
  exact congrArg Except.ok UInt64.ofNat_toNat

theorem Shape.wordIndex_getElem {words : List String} (distinct : words.Nodup)
    (index : Fin words.length) : wordIndex words words[index] = .ok index := by
  have found : words.finIdxOf? words[index] = some index := by
    refine List.finIdxOf?_eq_some_iff.2 ⟨rfl, fun earlier before same => ?_⟩
    exact Nat.ne_of_lt before ((List.getElem_inj distinct).1 same)
  rw [wordIndex, found]

theorem mapM_map_ok {write : α → β} {read : β → Except ε α} {values : List α}
    (inverse : ∀ value ∈ values, read (write value) = .ok value) :
    (values.map write).mapM read = .ok values := by
  induction values with
  | nil => rfl
  | cons value rest inductionHypothesis =>
    rw [List.map_cons, List.mapM_cons, inverse value List.mem_cons_self,
      inductionHypothesis fun value member => inverse value (List.mem_cons_of_mem _ member)]
    rfl

/-! ### Fields -/

/-- Fields write entries under their own names only. -/
theorem Fields.field?_toEntries_of_not_mem (fields : Fields) (held : fields.Carrier)
    {name : String} (absent : name ∉ fields.names) :
    Json.field? name (fields.toEntries held) = none := by
  cases fields with
  | nil => rfl
  | field first presence shape rest =>
    obtain ⟨held, others⟩ := held
    have differs : name ≠ first := List.ne_of_not_mem_cons absent
    have below := rest.field?_toEntries_of_not_mem others (List.not_mem_of_not_mem_cons absent)
    rw [toEntries]
    split
    · rw [Json.field?_cons, if_neg differs, below]
    · exact below

theorem Fields.field?_toEntries_self (presence : Presence) (shape : Shape) (rest : Fields)
    {name : String} (absent : name ∉ rest.names) (held : presence.Held shape.Carrier)
    (others : rest.Carrier) :
    Json.field? name ((Fields.field name presence shape rest).toEntries (held, others)) =
      (presence.given? held).map shape.toJson := by
  rw [toEntries]
  split
  · next given => rw [Json.field?_cons, if_pos rfl, given, Option.map_some]
  · next given => rw [rest.field?_toEntries_of_not_mem others absent, given, Option.map_none]

theorem Fields.field?_toEntries_rest (presence : Presence) (shape : Shape) (rest : Fields)
    {name other : String} (differs : other ≠ name) (held : presence.Held shape.Carrier)
    (others : rest.Carrier) :
    Json.field? other ((Fields.field name presence shape rest).toEntries (held, others)) =
      Json.field? other (rest.toEntries others) := by
  rw [toEntries]
  split
  · rw [Json.field?_cons, if_neg differs]
  · rfl

/-- Entries are written in the order of the fields, those that hold no value left out. -/
theorem Fields.keys_toEntries_sublist (fields : Fields) (held : fields.Carrier) :
    (Json.keys (fields.toEntries held)).Sublist fields.names := by
  cases fields with
  | nil => exact .slnil
  | field name presence shape rest =>
    obtain ⟨held, others⟩ := held
    have below := rest.keys_toEntries_sublist others
    rw [toEntries]
    split
    · exact below.cons_cons name
    · exact below.cons name

theorem Fields.clear_field {name : String} {presence : Presence} {shape : Shape} {rest : Fields}
    (clear : (Fields.field name presence shape rest).clear = true) :
    name ∉ rest.names ∧ shape.clear = true ∧ rest.clear = true := by
  simp only [Fields.clear, Bool.and_eq_true, Bool.not_eq_true', List.contains_eq_mem,
    decide_eq_false_iff_not] at clear
  exact ⟨clear.1.1, clear.1.2, clear.2⟩

theorem Fields.nodup_names (fields : Fields) (clear : fields.clear = true) :
    fields.names.Nodup := by
  cases fields with
  | nil => exact List.nodup_nil
  | field name presence shape rest =>
    obtain ⟨absent, -, later⟩ := clear_field clear
    exact List.nodup_cons.2 ⟨absent, rest.nodup_names later⟩

theorem Presence.ofEntry_given? (presence : Presence) (name : String) {write : α → Json}
    {read : Json → Except Mismatch α} (solid : ∀ value, (write value).isNull = false)
    (held : presence.Held α)
    (inverse : ∀ value, presence.given? held = some value → read (write value) = .ok value) :
    presence.ofEntry name read ((presence.given? held).map write) = .ok held := by
  cases presence with
  | required =>
    show (read (write held)).mapError _ = _
    rw [inverse held rfl]
    rfl
  | omissible =>
    cases held with
    | none => rfl
    | some value =>
      show ((read (write value)).map some).mapError _ = _
      rw [inverse value rfl]
      rfl
  | nullable =>
    cases held with
    | none => rfl
    | some value =>
      show (if (write value).isNull then _ else (read _).map some).mapError _ = _
      rw [solid, inverse value rfl]
      rfl
  | listed =>
    cases held with
    | none => rfl
    | some value =>
      show (if (write value).isNull then _ else (read _).map some).mapError _ = _
      rw [solid, inverse value rfl]
      rfl

/-! ### Maps -/

mutual

/-- The free-form maps in a value of a shape. -/
def Shape.maps : (shape : Shape) → shape.Carrier → List (List (String × Json))
  | .flag, _ | .count, _ | .text, _ | .tag _, _ => []
  | .map, fields => [fields]
  | .list item, values => values.flatMap item.maps
  | .record _ fields, held => fields.maps held

/-- The free-form maps in what fields hold. -/
def Fields.maps : (fields : Fields) → fields.Carrier → List (List (String × Json))
  | .nil, () => []
  | .field _ presence shape rest, (held, others) =>
    (presence.given? held).toList.flatMap shape.maps ++ rest.maps others

end

/-! ### Rearranged values -/

/-- Whether a value has no values in it. -/
def Json.isLeaf : Json → Bool
  | .array _ | .object _ => false
  | _ => true

/-- A change of values that changes nothing but the order of entries in objects whose keys
differ: each key still leads to what stood under it, rearranged in its turn. -/
structure Json.Rearranges (change : Json → Json) : Prop where
  kind : ∀ value, (change value).kind = value.kind
  leaf : ∀ {value : Json}, value.isLeaf = true → change value = value
  array : ∀ items, change (.array items) = .array (items.map change)
  object : ∀ {fields : List (String × Json)}, (keys fields).Nodup →
    ∃ fields', change (.object fields) = .object fields' ∧
      ∀ name, field? name fields' = (field? name fields).map change

/-- A change leaves the object of a map as it is. -/
abbrev Json.Spares (change : Json → Json) (map : List (String × Json)) : Prop :=
  change (.object map) = .object map

theorem Json.rearranges_id : Rearranges id where
  kind _ := rfl
  leaf _ := rfl
  array items := by rw [List.map_id]; rfl
  object {fields} _ := ⟨fields, rfl, fun name => by rw [Option.map_id]; rfl⟩

section Rearranged

variable {change : Json → Json}

theorem Json.isNull_of_kind {first second : Json} (same : first.kind = second.kind) :
    first.isNull = second.isNull := by
  cases first <;> cases second <;> first | rfl | cases same

theorem Json.Rearranges.isNull (rearranges : Rearranges change) (value : Json) :
    (change value).isNull = value.isNull :=
  isNull_of_kind (rearranges.kind value)

/-! ### Shapes -/

mutual

/-- What is written in a shape without ambiguity is read back, in whatever order its entries were
brought, as long as its maps are left as they are. -/
theorem Shape.ofJson_rearranged (rearranges : Json.Rearranges change) (shape : Shape)
    (clear : shape.clear = true) (value : shape.Carrier)
    (kept : ∀ map ∈ shape.maps value, Json.Spares change map) :
    shape.ofJson (change (shape.toJson value)) = .ok value := by
  cases shape with
  | flag => rw [Shape.toJson, rearranges.leaf rfl]; rfl
  | count =>
    rw [Shape.toJson, rearranges.leaf rfl]
    exact Number.toCount_ofUInt64 value
  | text => rw [Shape.toJson, rearranges.leaf rfl]; rfl
  | tag words =>
    rw [Shape.toJson, rearranges.leaf rfl]
    exact Shape.wordIndex_getElem (of_decide_eq_true clear) value
  | map => rw [Shape.toJson, kept value (List.mem_singleton_self value)]; rfl
  | list item =>
    rw [Shape.toJson, rearranges.array, List.map_map]
    refine @mapM_map_ok _ _ _ (change ∘ item.toJson) _ _ fun each member => ?_
    exact item.ofJson_rearranged rearranges clear each fun map inside =>
      kept map (List.mem_flatMap.2 ⟨each, member, inside⟩)
  | record name fields =>
    have distinct := (fields.nodup_names clear).sublist (fields.keys_toEntries_sublist value)
    obtain ⟨entries, same, found⟩ := rearranges.object distinct
    have read := fields.ofEntries_rearranged rearranges clear value kept fun name _ => found name
    rw [Shape.toJson, same]
    show (fields.ofEntries entries).mapError _ = _
    rw [read]
    rfl

/-- Entries that agree with those that fields write, rearranged, are read as these. -/
theorem Fields.ofEntries_rearranged (rearranges : Json.Rearranges change) (fields : Fields)
    (clear : fields.clear = true) (held : fields.Carrier)
    (kept : ∀ map ∈ fields.maps held, Json.Spares change map)
    {entries : List (String × Json)}
    (agree : ∀ name ∈ fields.names,
      Json.field? name entries = (Json.field? name (fields.toEntries held)).map change) :
    fields.ofEntries entries = .ok held := by
  cases fields with
  | nil => rfl
  | field name presence shape rest =>
    obtain ⟨held, others⟩ := held
    obtain ⟨absent, clear, later⟩ := Fields.clear_field clear
    rw [Fields.maps] at kept
    have here := agree name List.mem_cons_self
    rw [Fields.field?_toEntries_self presence shape rest absent, Option.map_map] at here
    have solid : ∀ value, ((change ∘ shape.toJson) value).isNull = false := fun value =>
      (rearranges.isNull _).trans (shape.isNull_toJson value)
    have given : presence.ofEntry name shape.ofJson (Json.field? name entries) = .ok held := by
      rw [here]
      refine presence.ofEntry_given? name solid held fun value given => ?_
      refine shape.ofJson_rearranged rearranges clear value fun map inside => kept map ?_
      rw [given]
      exact List.mem_append_left _ (List.mem_flatMap.2 ⟨value, List.mem_singleton_self _, inside⟩)
    have below : rest.ofEntries entries = .ok others := by
      refine rest.ofEntries_rearranged rearranges later others
        (fun map inside => kept map (List.mem_append_right _ inside)) fun other member => ?_
      have differs : other ≠ name := fun same => absent (same ▸ member)
      rw [agree other (List.mem_cons_of_mem _ member),
        Fields.field?_toEntries_rest presence shape rest differs]
    rw [Fields.ofEntries, given, below]
    rfl

end

end Rearranged

/-- What is written in a form whose shape is without ambiguity is read back. -/
theorem Form.ofJson_toJson (form : Form α) (clear : form.shape.clear = true) (value : α) :
    form.ofJson (form.toJson value) = .ok value := by
  have read := Shape.ofJson_rearranged Json.rearranges_id form.shape clear (form.toCarrier value)
    fun _ _ => rfl
  rw [ofJson, toJson]
  show (form.shape.ofJson (id (form.shape.toJson (form.toCarrier value)))).map _ = _
  rw [read]
  exact congrArg Except.ok (form.lossless value)

end FlowGate
