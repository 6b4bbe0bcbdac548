/-
This file shows that a refusal locates what it is about. Its path, read from its text, leads through
the document; everything in front of the last segment is there, and so is what the whole path leads
to unless it is what was missing. What is found there bears out the cause: it is of the wrong kind,
has an unknown type, belongs to a node that does not own it, is not in the form that is asked of
settings, or lies one edge deeper than the cap. Readers of nodes locate within a node, so each of
their refusals is taken from the node to the document.
-/

import FlowGate.Proofs.Grammar
import FlowGate.Proofs.Pointing

namespace FlowGate

/-! ### Nodes of documents -/

/-- The node of a document that edges lead to from its trigger. -/
def Json.nodeAt? (document : Json) (edges : List Edge) : Option Json :=
  (rootPath.follow document).bind fun start => start.reach edges

/-- The shape of the settings of nodes of a type; the trigger is the node that no edge leads to. -/
def nodeShape? : List Edge → String → Option Shape
  | [], "BLOCK" => some BlockTriggerSettings.form.shape
  | [], _ => none
  | _ :: _, kind => Json.actionShape? kind

theorem Json.follow_of_nodeAt? {document node : Json} {edges : List Edge}
    (found : document.nodeAt? edges = some node) :
    (stepSegments edges).follow document = some node := by
  obtain ⟨start, root, reached⟩ := Option.bind_eq_some_iff.1 found
  rw [stepSegments, AccessPath.follow_append, root, Option.bind_some,
    Json.follow_of_reach reached]

/-! ### What refusals say of a document -/

/-- What is there in a document that is refused for a cause at a path. -/
def Refusal.Cause.Blames (cap : UInt64) (document : Json) (path : AccessPath) : Cause → Prop
  | .unreadable _ => False
  | .wrongKind wanted found =>
    ∃ value, path.follow document = some value ∧ value.kind = found ∧ found ≠ wanted
  | .missing field =>
    ∃ (parent : AccessPath) (fields : List (String × Json)), path = parent ++ [.field field] ∧
      parent.follow document = some (.object fields) ∧ Json.present? field fields = none
  | .unknownTrigger tag =>
    path = rootPath ++ [.field "type"] ∧ path.follow document = some (.string tag) ∧
      tag ≠ "EMPTY" ∧ tag ≠ "BLOCK"
  | .unknownAction tag =>
    ∃ edges node, edges ≠ [] ∧ path = stepSegments edges ++ [.field "type"] ∧
      document.nodeAt? edges = some node ∧ path.follow document = some (.string tag) ∧
      Json.actionShape? tag = none
  | .foreign field kind =>
    ∃ edges fields value, path = stepSegments edges ++ [.field field] ∧
      document.nodeAt? edges = some (.object fields) ∧
      Json.present? "type" fields = some (.string kind) ∧
      field ∈ Reading.continuationFields ∧ field ∉ ownedFields kind ∧
      path.follow document = some value ∧ value.isNull = false
  | .settings reason =>
    ∃ edges fields kind entries shape, path = stepSegments edges ++ [.field "settings"] ∧
      document.nodeAt? edges = some (.object fields) ∧
      Json.present? "type" fields = some (.string kind) ∧
      path.follow document = some (.object entries) ∧
      nodeShape? edges kind = some shape ∧ shape.ofJson (.object entries) = .error reason
  | .tooDeep limit =>
    limit = cap ∧ ∃ edges value, path = stepSegments edges ∧
      edges.length = cap.toNat + 1 ∧ document.nodeAt? edges = some value ∧
      path.follow document = some value

/-- A refusal has a path that can be told from its text, and its cause is borne out there. -/
structure Refusal.Located (cap : UInt64) (document : Json) (refusal : Refusal) : Prop where
  plain : refusal.path.plain = true
  blames : refusal.cause.Blames cap document refusal.path

/-! ### Faults of fields -/

/-- What a refusal can say of a field of an object: that it is missing, or of the wrong kind. -/
inductive FieldFault (fields : List (String × Json)) (path : AccessPath) : Refusal → Prop where
  | missing {name : String} (named : (Segment.field name).plain = true)
    (absent : Json.present? name fields = none) :
    FieldFault fields path ⟨path ++ [.field name], .missing name⟩
  | wrongKind {name : String} {value : Json} {wanted : Json.Kind}
    (named : (Segment.field name).plain = true)
    (present : Json.present? name fields = some value) (differs : value.kind ≠ wanted) :
    FieldFault fields path ⟨path ++ [.field name], .wrongKind wanted value.kind⟩

section Located

variable {cap : UInt64} {document value : Json} {fields : List (String × Json)}
  {base path place : AccessPath} {name : String} {refusal : Refusal}

theorem AccessPath.follow_concat (object : path.follow document = some (.object fields))
    (present : Json.present? name fields = some value) :
    follow (path ++ [.field name]) document = some value := by
  rw [follow_append, object, Option.bind_some, follow_field present]
  rfl

theorem AccessPath.plain_concat (plain : path.plain = true)
    (named : (Segment.field name).plain = true) :
    AccessPath.plain (path ++ [.field name]) = true := by
  rw [plain_append, plain, Bool.true_and]
  exact List.all_eq_true.2 fun segment member => List.mem_singleton.1 member ▸ named

theorem located_wrongKind {wanted : Json.Kind} (plain : place.plain = true)
    (found : place.follow document = some value) (differs : value.kind ≠ wanted) :
    Refusal.Located cap document ⟨place, .wrongKind wanted value.kind⟩ :=
  ⟨plain, value, found, rfl, differs⟩

/-- A fault of a field is located where the field would be, seen from the document. -/
theorem FieldFault.located (fault : FieldFault fields path refusal)
    (plain : (base ++ path).plain = true)
    (object : (base ++ path).follow document = some (.object fields)) :
    (refusal.under base).Located cap document := by
  cases fault with
  | missing named absent =>
    rw [Refusal.under, ← List.append_assoc]
    exact ⟨AccessPath.plain_concat plain named, base ++ path, fields, rfl, object, absent⟩
  | wrongKind named present differs =>
    rw [Refusal.under, ← List.append_assoc]
    exact located_wrongKind (AccessPath.plain_concat plain named)
      (AccessPath.follow_concat object present) differs

end Located

namespace Reading

variable {fields : List (String × Json)} {path : AccessPath} {name : String} {refusal : Refusal}

theorem fault_of_optionalText (named : (Segment.field name).plain = true)
    (failed : optionalText fields path name = .error refusal) :
    FieldFault fields path refusal := by
  rw [optionalText] at failed
  cases present : Json.present? name fields with
  | none =>
    rw [present] at failed
    cases failed
  | some value =>
    rw [present] at failed
    cases value <;> cases failed <;> exact .wrongKind named present fun same => by cases same

theorem fault_of_requiredText (named : (Segment.field name).plain = true)
    (failed : requiredText fields path name = .error refusal) :
    FieldFault fields path refusal := by
  rw [requiredText] at failed
  cases found : optionalText fields path name with
  | error other =>
    rw [found] at failed
    cases failed
    exact fault_of_optionalText named found
  | ok text =>
    rw [found] at failed
    cases text with
    | some text => cases failed
    | none =>
      cases failed
      refine .missing named ?_
      rw [optionalText] at found
      cases present : Json.present? name fields with
      | none => rfl
      | some value => rw [present] at found; cases value <;> cases found

theorem fault_of_optionalFlag (named : (Segment.field name).plain = true)
    (failed : optionalFlag fields path name = .error refusal) :
    FieldFault fields path refusal := by
  rw [optionalFlag] at failed
  cases present : Json.present? name fields with
  | none =>
    rw [present] at failed
    cases failed
  | some value =>
    rw [present] at failed
    cases value <;> cases failed <;> exact .wrongKind named present fun same => by cases same

theorem fault_of_header (failed : header fields = .error refusal) :
    FieldFault fields [] refusal := by
  rcases bind_eq_error.1 failed with failed | ⟨_, -, failed⟩
  · exact fault_of_requiredText (by decide) failed
  rcases bind_eq_error.1 failed with failed | ⟨_, -, failed⟩
  · exact fault_of_requiredText (by decide) failed
  rcases bind_eq_error.1 failed with failed | ⟨_, -, failed⟩
  · exact fault_of_optionalFlag (by decide) failed
  · cases failed

theorem eq_of_entries {value : Json} (failed : entries path value = .error refusal) :
    refusal = ⟨path, .wrongKind .object value.kind⟩ ∧ value.kind ≠ .object := by
  cases value <;> cases failed <;> exact ⟨rfl, fun same => by cases same⟩

theorem mapError_eq_error {first : Except ε α} {change : ε → δ} {failure : δ} :
    first.mapError change = .error failure ↔
      ∃ cause, first = .error cause ∧ change cause = failure := by
  cases first <;> simp [Except.mapError]

theorem mapM_eq_error {items : List α} {read : α → Except ε β} {failure : ε}
    (failed : items.mapM read = .error failure) :
    ∃ item ∈ items, read item = .error failure := by
  induction items with
  | nil => cases failed
  | cons item rest inductionHypothesis =>
    rw [List.mapM_cons] at failed
    rcases bind_eq_error.1 failed with here | ⟨_, -, failed⟩
    · exact ⟨item, List.mem_cons_self, here⟩
    rcases bind_eq_error.1 failed with later | ⟨_, -, failed⟩
    · obtain ⟨other, member, failing⟩ := inductionHypothesis later
      exact ⟨other, List.mem_cons_of_mem _ member, failing⟩
    · cases failed

/-! ### Nodes that are refused -/

variable {cap : UInt64} {document : Json} {edges : List Edge} {kind : String}

theorem located_onlyOwn (node : document.nodeAt? edges = some (.object fields))
    (typed : Json.present? "type" fields = some (.string kind))
    (failed : onlyOwn fields kind (ownedFields kind) = .error refusal) :
    (refusal.under (stepSegments edges)).Located cap document := by
  rw [onlyOwn] at failed
  split at failed
  · cases failed
  · next field found =>
    cases failed
    have member := List.mem_of_find?_eq_some found
    have here := List.find?_some found
    simp only [Bool.and_eq_true, Bool.not_eq_true', List.contains_eq_mem,
      decide_eq_false_iff_not] at here
    obtain ⟨foreign, present⟩ := here
    obtain ⟨value, present⟩ := Option.isSome_iff_exists.1 present
    have named : ∀ field ∈ continuationFields, (Segment.field field).plain = true := by decide
    refine ⟨AccessPath.plain_concat (plain_stepSegments edges) (named field member), ?_⟩
    refine ⟨edges, fields, value, rfl, node, typed, member, foreign,
      AccessPath.follow_concat (Json.follow_of_nodeAt? node) present, ?_⟩
    simpa using (Option.filter_eq_some_iff.1 present).2

/-- A fault of a field of a node is located in the document. -/
theorem located_field (node : document.nodeAt? edges = some (.object fields))
    (fault : FieldFault fields [] refusal) :
    (refusal.under (stepSegments edges)).Located cap document := by
  have plain := plain_stepSegments edges
  have leads := Json.follow_of_nodeAt? node
  rw [← List.append_nil (stepSegments edges)] at plain leads
  exact fault.located plain leads

theorem located_settings (form : Form α) (node : document.nodeAt? edges = some (.object fields))
    (typed : Json.present? "type" fields = some (.string kind))
    (known : nodeShape? edges kind = some form.shape)
    (failed : settings form fields = .error refusal) :
    (refusal.under (stepSegments edges)).Located cap document := by
  rw [settings] at failed
  cases present : Json.present? "settings" fields with
  | none =>
    rw [present] at failed
    cases failed
    exact located_field node (.missing (by decide) present)
  | some value =>
    rw [present] at failed
    cases value with
    | object entries =>
      have mismatch : ∃ reason, form.shape.ofJson (.object entries) = .error reason ∧
          refusal = ⟨[.field "settings"], .settings reason⟩ := by
        cases read : form.shape.ofJson (.object entries) with
        | error reason =>
          simp only [Form.ofJson, read] at failed
          cases failed
          exact ⟨reason, rfl, rfl⟩
        | ok held =>
          simp only [Form.ofJson, read] at failed
          cases failed
      obtain ⟨reason, refused, rfl⟩ := mismatch
      refine ⟨AccessPath.plain_concat (plain_stepSegments edges) (by decide), ?_⟩
      exact ⟨edges, fields, kind, entries, form.shape, rfl, node, typed,
        AccessPath.follow_concat (Json.follow_of_nodeAt? node) present, known, refused⟩
    | _ =>
      cases failed
      exact located_field node (.wrongKind (by decide) present fun same => by cases same)

theorem located_branches (node : document.nodeAt? edges = some (.object fields))
    (failed : branches fields = .error refusal) :
    (refusal.under (stepSegments edges)).Located cap document := by
  rw [branches] at failed
  cases present : Json.present? "branches" fields with
  | none =>
    rw [present] at failed
    cases failed
  | some value =>
    rw [present] at failed
    cases value with
    | array items =>
      obtain ⟨⟨item, position⟩, member, failed⟩ := mapM_eq_error failed
      have here := List.mem_zipIdx_iff_getElem?.1 member
      let way := stepSegments edges ++ [.field "branches", .index position]
      have plain : way.plain = true := by
        rw [AccessPath.plain_append, plain_stepSegments]
        rfl
      have leads : way.follow document = some item := by
        rw [AccessPath.follow_append, Json.follow_of_nodeAt? node, Option.bind_some,
          AccessPath.follow_field present, AccessPath.follow_index here]
        rfl
      rcases bind_eq_error.1 failed with failed | ⟨entries, object, failed⟩
      · obtain ⟨rfl, differs⟩ := eq_of_entries failed
        exact located_wrongKind plain leads differs
      obtain rfl := entries_eq_ok.1 object
      rcases bind_eq_error.1 failed with failed | ⟨_, -, failed⟩
      · exact (fault_of_requiredText (by decide) failed).located plain leads
      · cases failed
    | _ =>
      cases failed
      exact located_field node (.wrongKind (by decide) present fun same => by cases same)

/-- A task that is read by its continuations and its settings is refused for one of them. -/
theorem located_single (form : Form α) (finish : α → Task Json)
    (node : document.nodeAt? edges = some (.object fields))
    (typed : Json.present? "type" fields = some (.string kind))
    (known : nodeShape? edges kind = some form.shape)
    (failed : ((onlyOwn fields kind (ownedFields kind)).bind fun _ =>
      (settings form fields).bind fun found => .ok (finish found)) = .error refusal) :
    (refusal.under (stepSegments edges)).Located cap document := by
  rcases bind_eq_error.1 failed with failed | ⟨_, -, failed⟩
  · exact located_onlyOwn node typed failed
  rcases bind_eq_error.1 failed with failed | ⟨_, -, failed⟩
  · exact located_settings form node typed known failed
  · cases failed

theorem located_task (below : edges ≠ []) (node : document.nodeAt? edges = some (.object fields))
    (typed : Json.present? "type" fields = some (.string kind))
    (failed : task kind fields = .error refusal) :
    (refusal.under (stepSegments edges)).Located cap document := by
  obtain ⟨edge, rest, rfl⟩ := List.exists_cons_of_ne_nil below
  unfold task at failed
  split at failed
  · exact located_single CodeSettings.form .code node typed rfl failed
  · exact located_single BlockSettings.form .block node typed rfl failed
  · exact located_single BranchSettings.form (.branch · _ _) node typed rfl failed
  · rcases bind_eq_error.1 failed with failed | ⟨_, -, failed⟩
    · exact located_onlyOwn node typed failed
    rcases bind_eq_error.1 failed with failed | ⟨_, -, failed⟩
    · exact located_settings SplitSettings.form node typed rfl failed
    rcases bind_eq_error.1 failed with failed | ⟨_, -, failed⟩
    · exact located_branches node failed
    · cases failed
  · exact located_single LoopSettings.form (.loop · _) node typed rfl failed
  · next code block branch split loop =>
    cases failed
    refine ⟨AccessPath.plain_concat (plain_stepSegments _) (by decide), ?_⟩
    exact ⟨edge :: rest, _, below, rfl, node,
      AccessPath.follow_concat (Json.follow_of_nodeAt? node) typed,
      Json.actionShape?_eq_none code block branch split loop⟩

theorem located_step {value : Json} (below : edges ≠ [])
    (node : document.nodeAt? edges = some value) (failed : step value = .error refusal) :
    (refusal.under (stepSegments edges)).Located cap document := by
  rcases bind_eq_error.1 failed with failed | ⟨fields, object, failed⟩
  · obtain ⟨rfl, differs⟩ := eq_of_entries failed
    refine located_wrongKind ?_ ?_ differs
    · rw [List.append_nil]
      exact plain_stepSegments edges
    · rw [List.append_nil]
      exact Json.follow_of_nodeAt? node
  obtain rfl := entries_eq_ok.1 object
  rcases bind_eq_error.1 failed with failed | ⟨kind, typed, failed⟩
  · exact located_field node (fault_of_requiredText (by decide) failed)
  rcases bind_eq_error.1 failed with failed | ⟨_, -, failed⟩
  · exact located_field node (fault_of_header failed)
  rcases bind_eq_error.1 failed with failed | ⟨_, -, failed⟩
  · exact located_task below node (requiredText_eq_ok.1 typed) failed
  · cases failed

theorem located_triggerKind (node : document.nodeAt? [] = some (.object fields))
    (typed : Json.present? "type" fields = some (.string kind))
    (failed : triggerKind kind fields = .error refusal) :
    (refusal.under (stepSegments [])).Located cap document := by
  unfold triggerKind at failed
  split at failed
  · cases present : Json.present? "settings" fields with
    | none =>
      rw [present] at failed
      cases failed
    | some value =>
      rw [present] at failed
      obtain ⟨rfl, differs⟩ := eq_of_entries (map_eq_error.1 failed)
      exact located_field node (.wrongKind (by decide) present differs)
  · exact located_settings _ node typed rfl (map_eq_error.1 failed)
  · next empty block =>
    cases failed
    refine ⟨AccessPath.plain_concat (plain_stepSegments []) (by decide), ?_⟩
    exact ⟨rfl, AccessPath.follow_concat (Json.follow_of_nodeAt? node) typed, empty, block⟩

theorem located_triggerNode {value : Json} (node : document.nodeAt? [] = some value)
    (failed : triggerNode value = .error refusal) :
    (refusal.under (stepSegments [])).Located cap document := by
  rcases bind_eq_error.1 failed with failed | ⟨fields, object, failed⟩
  · obtain ⟨rfl, differs⟩ := eq_of_entries failed
    exact located_wrongKind (plain_stepSegments []) (Json.follow_of_nodeAt? node) differs
  obtain rfl := entries_eq_ok.1 object
  rcases bind_eq_error.1 failed with failed | ⟨kind, typed, failed⟩
  · exact located_field node (fault_of_requiredText (by decide) failed)
  have typed := requiredText_eq_ok.1 typed
  rcases bind_eq_error.1 failed with failed | ⟨_, -, failed⟩
  · exact located_field node (fault_of_header failed)
  rcases bind_eq_error.1 failed with failed | ⟨start, started, failed⟩
  · exact located_triggerKind node typed failed
  rcases bind_eq_error.1 failed with failed | ⟨_, -, failed⟩
  · obtain rfl := kindName_of_triggerKind started
    rw [← start.ownedFields_kindName] at failed
    exact located_onlyOwn node typed failed
  · cases failed

/-! ### Documents that are refused -/

variable {options : Options}

/-- What follows the trigger is refused for one of the actions that it reaches. What that action
hangs off was opened, so an action that lies too deep lies just beyond the cap. -/
theorem located_grow {value child : Json} (root : rootPath.follow document = some value)
    (first : value.along .next = some child)
    (failed : (opening options).grow 1 [.next] child = .error refusal) :
    refusal.Located options.maxDepth document := by
  obtain ⟨below, target, reached, shallow, failed⟩ := exists_reach_of_failed child failed
  have node : document.nodeAt? (.next :: below) = some target := by
    rw [Json.nodeAt?, root, Option.bind_some, Json.reach, first, Option.bind_some, reached]
  simp only [opening] at failed
  split at failed
  · next deep =>
    cases failed
    have edges : (Edge.next :: below).length = options.maxDepth.toNat + 1 := by
      have shallow := shallow (Nat.le_add_left _ _)
      rw [List.length_cons]
      omega
    exact ⟨plain_stepSegments _, rfl, _, target, rfl, edges, node, Json.follow_of_nodeAt? node⟩
  · split at failed
    · next read =>
      cases failed
      exact located_step (List.cons_ne_nil _ _) node read
    · cases failed

theorem located_trigger {value : Json} (root : rootPath.follow document = some value)
    (failed : trigger options value = .error refusal) :
    refusal.Located options.maxDepth document := by
  have node : document.nodeAt? [] = some value := by
    rw [Json.nodeAt?, root]
    rfl
  rcases bind_eq_error.1 failed with failed | ⟨⟨start, next⟩, started, failed⟩
  · obtain ⟨relative, failing, rfl⟩ := mapError_eq_error.1 failed
    exact located_triggerNode node failing
  rcases bind_eq_error.1 failed with failed | ⟨_, -, failed⟩
  · cases next with
    | none => rw [action_none] at failed; cases failed
    | some child =>
      have first : value.along .next = some child := by
        rw [along_of_triggerNode (mapError_eq_ok.1 started), if_pos rfl]
      rw [action_some] at failed
      exact located_grow root first (map_eq_error.1 failed)
  · cases failed

theorem located_template {fields : List (String × Json)} {value : Json}
    (present : Json.present? "template" fields = some value)
    (failed : template options (some value) = .error refusal) :
    refusal.Located options.maxDepth (.object fields) := by
  have leads : AccessPath.follow [.field "template"] (.object fields) = some value :=
    AccessPath.follow_field present []
  cases value with
  | object inner =>
    have fault : FieldFault inner [.field "template"] refusal →
        refusal.Located options.maxDepth (.object fields) := fun fault =>
      @FieldFault.located _ _ _ [] _ _ fault (by decide) leads
    cases started : Json.present? "trigger" inner with
    | none =>
      rw [template_of_absent started] at failed
      cases failed
    | some start =>
      rw [template_of_present started] at failed
      rcases bind_eq_error.1 failed with failed | ⟨_, -, failed⟩
      · exact fault (fault_of_optionalText (by decide) failed)
      rcases bind_eq_error.1 failed with failed | ⟨_, -, failed⟩
      · exact fault (fault_of_optionalFlag (by decide) failed)
      rcases bind_eq_error.1 failed with failed | ⟨_, -, failed⟩
      · have root : rootPath.follow (.object fields) = some start := by
          rw [rootPath, AccessPath.follow_field present, AccessPath.follow_field started]
          rfl
        exact located_trigger root failed
      · cases failed
  | _ => cases failed; exact located_wrongKind rfl leads fun same => by cases same

theorem located_tags {fields : List (String × Json)} {value : Json}
    (present : Json.present? "tags" fields = some value)
    (failed : tags (some value) = .error refusal) :
    refusal.Located cap (.object fields) := by
  cases value with
  | array items =>
    obtain ⟨⟨item, position⟩, member, failed⟩ := mapM_eq_error (map_eq_error.1 failed)
    have here := List.mem_zipIdx_iff_getElem?.1 member
    have leads : AccessPath.follow [.field "tags", .index position] (.object fields) =
        some item := by
      rw [AccessPath.follow_field present, AccessPath.follow_index here]
      rfl
    cases item <;> cases failed <;> exact located_wrongKind rfl leads fun same => by cases same
  | _ =>
    cases failed
    exact located_wrongKind rfl (AccessPath.follow_field present []) fun same => by cases same

end Reading

/-- What a located refusal says of the document: everything in front of its path is there, and so
is what the path leads to unless that is missing. -/
theorem Refusal.Located.follow {cap : UInt64} {document : Json} {refusal : Refusal}
    (located : refusal.Located cap document) :
    (∃ field, refusal.cause = .missing field) ∨
      ∃ value, refusal.path.follow document = some value := by
  obtain ⟨path, cause⟩ := refusal
  have blames := located.blames
  cases cause with
  | unreadable problem => exact blames.elim
  | missing field => exact Or.inl ⟨field, rfl⟩
  | wrongKind wanted found =>
    obtain ⟨value, leads, -⟩ := blames
    exact Or.inr ⟨value, leads⟩
  | unknownTrigger tag => exact Or.inr ⟨_, blames.2.1⟩
  | unknownAction tag =>
    obtain ⟨edges, node, -, -, -, leads, -⟩ := blames
    exact Or.inr ⟨_, leads⟩
  | foreign field kind =>
    obtain ⟨edges, fields, value, -, -, -, -, -, leads, -⟩ := blames
    exact Or.inr ⟨_, leads⟩
  | settings reason =>
    obtain ⟨edges, fields, kind, entries, shape, -, -, -, leads, -⟩ := blames
    exact Or.inr ⟨_, leads⟩
  | tooDeep limit =>
    obtain ⟨-, edges, value, -, -, -, leads⟩ := blames
    exact Or.inr ⟨_, leads⟩

theorem AccessPath.follow_of_prefix {before path : AccessPath} {document value : Json}
    (front : before <+: path) (leads : path.follow document = some value) :
    ∃ found, before.follow document = some found := by
  obtain ⟨rest, rfl⟩ := front
  rw [follow_append] at leads
  obtain ⟨found, here, -⟩ := Option.bind_eq_some_iff.1 leads
  exact ⟨found, here⟩

theorem Refusal.Located.follow_front {cap : UInt64} {document : Json} {refusal : Refusal}
    (located : refusal.Located cap document) {before : AccessPath}
    (front : before <+: refusal.path) (proper : before ≠ refusal.path) :
    ∃ value, before.follow document = some value := by
  rcases located.follow with ⟨field, missing⟩ | ⟨value, leads⟩
  · have blames := located.blames
    rw [missing] at blames
    obtain ⟨parent, fields, path, object, -⟩ := blames
    rw [path] at front proper
    rcases List.prefix_concat_iff.1 front with same | front
    · exact absurd same proper
    · exact AccessPath.follow_of_prefix front object
  · exact AccessPath.follow_of_prefix front leads

/-- The error of a document that is refused locates what is wrong: its path, read from its text,
leads to something in the document, or to where something is missing, that the cause is about. -/
theorem Workflow.refusal_located {options : Options} {document : Json} {refusal : Refusal}
    (refused : Workflow.ofJson options document = .error refusal) :
    AccessPath.ofText refusal.error.path = refusal.path ∧
      (∀ before : AccessPath, before <+: refusal.path → before ≠ refusal.path →
        ∃ value, before.follow document = some value) ∧
      ((∃ field, refusal.cause = .missing field) ∨
        ∃ value, refusal.path.follow document = some value) ∧
      refusal.cause.Blames options.maxDepth document refusal.path := by
  suffices located : refusal.Located options.maxDepth document from
    ⟨AccessPath.ofText_render located.plain, fun before => located.follow_front, located.follow,
      located.blames⟩
  rcases bind_eq_error.1 refused with failed | ⟨fields, object, refused⟩
  · obtain ⟨rfl, differs⟩ := Reading.eq_of_entries failed
    exact located_wrongKind rfl rfl differs
  obtain rfl := Reading.entries_eq_ok.1 object
  have fault : FieldFault fields [] refusal → refusal.Located options.maxDepth (.object fields) :=
    fun fault => @FieldFault.located _ _ _ [] _ _ fault rfl rfl
  rcases bind_eq_error.1 refused with failed | ⟨_, -, refused⟩
  · exact fault (Reading.fault_of_requiredText (by decide) failed)
  rcases bind_eq_error.1 refused with failed | ⟨_, -, refused⟩
  · exact fault (Reading.fault_of_optionalText (by decide) failed)
  rcases bind_eq_error.1 refused with failed | ⟨_, -, refused⟩
  · cases present : Json.present? "tags" fields with
    | none => rw [present] at failed; cases failed
    | some value =>
      rw [present] at failed
      exact Reading.located_tags present failed
  rcases bind_eq_error.1 refused with failed | ⟨_, -, refused⟩
  · cases present : Json.present? "template" fields with
    | none => rw [present] at failed; cases failed
    | some value =>
      rw [present] at failed
      exact Reading.located_template present failed
  · cases refused

/-- A document whose trigger has a continuation that no trigger owns. -/
def Json.misplaced : Json :=
  .object [("name", .string "misplaced"),
    ("template", .object [("trigger", .object [("type", .string "EMPTY"), ("name", .string "start"),
      ("displayName", .string "Start"), ("branches", .array [])])])]

theorem Workflow.refusal_located_misplaced :
    Workflow.ofJson .default .misplaced =
        .error ⟨rootPath ++ [.field "branches"], .foreign "branches" "EMPTY"⟩ ∧
      AccessPath.ofText "template.trigger.branches" = rootPath ++ [.field "branches"] ∧
      AccessPath.follow (rootPath ++ [.field "branches"]) .misplaced = some (.array []) := by
  have refused : Workflow.ofJson .default .misplaced =
      .error ⟨rootPath ++ [.field "branches"], .foreign "branches" "EMPTY"⟩ := rfl
  exact ⟨refused, (refusal_located refused).1, rfl⟩

end FlowGate
