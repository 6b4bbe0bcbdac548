/-
This file shows that the text of a node's path names that node and no other. A path is read back
from its text as segments, and the segments are read back as edges; so different edges make
different texts, and the nodes that a walk lists, which different edges lead to, have different
paths. Where a path is quoted, it is what stands behind the last quotation mark but one, because
no path has a quotation mark in it, and so a name that has some does not hide it.
-/

import FlowGate.Proofs.Blame
import FlowGate.Proofs.Ordering
import FlowGate.Proofs.Preorder

namespace FlowGate

/-! ### Edges -/

/-- The text of a path tells the edges that lead from the trigger to the node. -/
theorem stepPath_injective : Function.Injective stepPath := by
  intro path other same
  have nothing : AccessPath.Inner [] := rfl
  have segments : stepSegments path ++ [] = stepSegments other ++ [] := by
    rw [← render_stepSegments, ← render_stepSegments] at same
    rw [← AccessPath.ofText_render (plain_stepSegments path), same,
      AccessPath.ofText_render (plain_stepSegments other)]
  exact (stepSegments_append_inj nothing nothing segments).1

/-- The text of a path tells the edges that lead from the node to the trigger. -/
theorem nodePath_injective : Function.Injective nodePath :=
  stepPath_injective.comp List.reverse_injective

/-! ### Visits -/

/-- The numbers of the nodes are those below the count of visits. -/
theorem Walk.exists_numbered_iff {walk : Walk} {number : Nat} :
    (∃ node, (node, number) ∈ walk.numbered) ↔ number < walk.visits.size := by
  have size : walk.nodes.length = walk.visits.size := by
    rw [nodes, List.length_map, Array.length_toList]
  rw [← size]
  constructor
  · rintro ⟨node, numbered⟩
    exact (List.getElem?_eq_some_iff.1 (List.mem_zipIdx_iff_getElem?.1 numbered)).1
  · intro listed
    exact ⟨_, List.mem_zipIdx_iff_getElem?.2 (List.getElem?_eq_getElem listed)⟩

/-- Different nodes of a listing have different paths. -/
theorem Trigger.path_injOn (start : Trigger) :
    Set.InjOn start.listing.path {number | number < start.listing.visits.size} := by
  intro number listed other listed' same
  obtain ⟨node, numbered⟩ := Walk.exists_numbered_iff.2 listed
  obtain ⟨node', numbered'⟩ := Walk.exists_numbered_iff.2 listed'
  exact number_eq_of_edgesTo numbered numbered' (stepPath_injective same)

/-! ### Quoted paths -/

theorem Edge.quote_not_mem_suffix (edge : Edge) : '\'' ∉ edge.suffix.toList := by
  cases edge with
  | branch index =>
    intro member
    have digit : '\'' ∈ Nat.toDigits 10 index := by simpa [suffix, toString] using member
    cases Nat.isDigit_of_mem_toDigits (by decide) (by decide) digit
  | _ => decide

theorem quote_not_mem_stepPath (path : List Edge) : '\'' ∉ (stepPath path).toList := by
  induction path using List.reverseRecOn with
  | nil => decide
  | append_singleton rest edge inductionHypothesis =>
    rw [stepPath, List.foldl_append]
    show '\'' ∉ (stepPath rest ++ edge.suffix).toList
    rw [String.toList_append, List.mem_append, not_or]
    exact ⟨inductionHypothesis, edge.quote_not_mem_suffix⟩

/-- A text that begins with its last mark has nothing in front of the last mark. -/
theorem eq_nil_of_cons_mark {mark : α} {between last last' : List α} (free : mark ∉ last)
    (same : mark :: last = between ++ mark :: last') : between = [] ∧ last = last' := by
  cases between with
  | nil => exact ⟨rfl, (List.cons.inj same).2⟩
  | cons char between =>
    exact absurd ((List.cons.inj same).2 ▸ List.mem_append_right _ List.mem_cons_self) free

/-- What stands in front of the last mark and what stands behind it are told by the whole. -/
theorem append_mark_inj {mark : α} {first first' last last' : List α} (free : mark ∉ last)
    (free' : mark ∉ last') (same : first ++ mark :: last = first' ++ mark :: last') :
    first = first' ∧ last = last' := by
  rcases List.append_eq_append_iff.1 same with ⟨between, whole, behind⟩ | ⟨between, whole, behind⟩
  · obtain ⟨rfl, rfl⟩ := eq_nil_of_cons_mark free behind
    exact ⟨by rw [whole, List.append_nil], rfl⟩
  · obtain ⟨rfl, rfl⟩ := eq_nil_of_cons_mark free' behind
    exact ⟨by rw [whole, List.append_nil], rfl⟩

/-- The words for a name that is used again end with a path between two quotation marks. -/
theorem toList_message_duplicateName (name path : String) :
    (Breach.duplicateName name path).message.toList =
      ("step name '" ++ name ++ "' is already used by the node at ").toList ++
        '\'' :: path.toList ++ ['\''] := by
  have words : (Breach.duplicateName name path).message =
      "step name '" ++ name ++ ("' is already used by the node at " ++ "'") ++ path ++ "'" := rfl
  simp only [words, String.toList_append, List.append_assoc]
  rfl

/-- The words for a name that is used again tell the path, whatever stands in the name. -/
theorem path_eq_of_message {name name' path path' : String} (free : '\'' ∉ path.toList)
    (free' : '\'' ∉ path'.toList)
    (same : (Breach.duplicateName name path).message =
      (Breach.duplicateName name' path').message) : path = path' := by
  have words := congrArg String.toList same
  rw [toList_message_duplicateName, toList_message_duplicateName] at words
  have quoted := append_mark_inj free free' (List.append_cancel_right words)
  exact String.toList_inj.1 quoted.2

/-- A message says of some name that the node with a number has it already. -/
def Walk.Quotes (walk : Walk) (message : String) (number : Nat) : Prop :=
  number < walk.visits.size ∧ ∃ name : String,
    message = s!"step name '{name}' is already used by the node at '{walk.path number}'"

theorem Trigger.number_eq_of_quotes {start : Trigger} {message : String} {number other : Nat}
    (quotes : start.listing.Quotes message number) (quotes' : start.listing.Quotes message other) :
    number = other := by
  obtain ⟨listed, name, rfl⟩ := quotes
  obtain ⟨listed', name', same⟩ := quotes'
  exact start.path_injOn listed listed'
    (path_eq_of_message (quote_not_mem_stepPath _) (quote_not_mem_stepPath _) same)

namespace Walk

variable {walk : Walk} {violation : Violation}

theorem mem_aboutNames {options : Options} (member : violation ∈ walk.violations options)
    (kind : violation.kind = .duplicateName) : violation ∈ walk.aboutNames := by
  rw [violations_parts, List.mem_append, List.mem_append] at member
  rcases member with (inNode | aboutName) | aboutDefault
  · exact absurd (kind ▸ List.mem_cons_self) (kind_of_inNodes inNode)
  · exact aboutName
  · cases kind.symm.trans (kind_of_aboutDefaults aboutDefault)

theorem exists_quotes (member : violation ∈ walk.aboutNames) :
    ∃ number, walk.Quotes violation.message number := by
  obtain ⟨⟨node, number⟩, numbered, found⟩ := List.mem_filterMap.1 member
  obtain ⟨first, -, before, rfl⟩ := repeatedName?_eq_some.1 found
  have listed := exists_numbered_iff.1 ⟨node, numbered⟩
  exact ⟨first, Nat.lt_trans before listed, node.name, rfl⟩

end Walk

/-! ### Nodes that lie too deep -/

/-- A document that is refused because a node lies too deep is refused at the path of that node: of
the fields of a document only the template is read under the cap. -/
theorem Workflow.nodeAt_of_tooDeep {options : Options} {document : Json} {refusal : Refusal}
    {cap : UInt64} (refused : ofJson options document = .error refusal)
    (deep : refusal.cause = .tooDeep cap) :
    ∃ edges node, refusal.path = stepSegments edges ∧ document.nodeAt? edges = some node := by
  suffices blames : refusal.cause.Blames options.maxDepth document refusal.path by
    rw [deep] at blames
    obtain ⟨-, edges, node, path, -, found, -⟩ := blames
    exact ⟨edges, node, path, found⟩
  rcases bind_eq_error.1 refused with failed | ⟨fields, object, refused⟩
  · obtain ⟨rfl, -⟩ := Reading.eq_of_entries failed
    cases deep
  obtain rfl := Reading.entries_eq_ok.1 object
  rcases bind_eq_error.1 refused with failed | ⟨_, -, refused⟩
  · cases Reading.fault_of_requiredText (by decide) failed <;> cases deep
  rcases bind_eq_error.1 refused with failed | ⟨_, -, refused⟩
  · cases Reading.fault_of_optionalText (by decide) failed <;> cases deep
  rcases bind_eq_error.1 refused with failed | ⟨_, -, refused⟩
  · cases present : Json.present? "tags" fields with
    | none => rw [present] at failed; cases failed
    | some value =>
      rw [present] at failed
      exact (Reading.located_tags present failed).blames
  rcases bind_eq_error.1 refused with failed | ⟨_, -, refused⟩
  · cases present : Json.present? "template" fields with
    | none => rw [present] at failed; cases failed
    | some value =>
      rw [present] at failed
      exact (Reading.located_template present failed).blames
  · cases refused

/-! ### One node for one path -/

/-- The text of a path tells the edges that it goes along. So the nodes of a walk have different
paths; the path at which a document is refused because a node lies too deep is the path of a node
of the document, and other edges do not make it; and what is reported of a name that is used again
quotes the path of one node of the walk and of no other, whatever stands in the name. -/
theorem nodePath_identifies :
    Function.Injective nodePath ∧
    (∀ (options : Options) (start : Trigger) (walk : Walk), start.walk options = .ok walk →
      ∀ number < walk.visits.size, ∀ other < walk.visits.size,
        walk.path number = walk.path other → number = other) ∧
    (∀ (options : Options) (document : Json) (refusal : Refusal) (cap : UInt64),
      Workflow.ofJson options document = .error refusal → refusal.cause = .tooDeep cap →
      ∃ upward node, document.nodeAt? upward.reverse = some node ∧
        ∀ other, nodePath other = refusal.error.path ↔ other = upward) ∧
    ∀ (options : Options) (workflow : Workflow) (template : Template)
      (violations : List Violation), workflow.template = some template →
      workflow.violations options = .ok violations →
      ∃ walk, template.trigger.walk options = .ok walk ∧
        ∀ violation ∈ violations, violation.kind = .duplicateName →
          ∃! number, walk.Quotes violation.message number := by
  refine ⟨nodePath_injective, fun options start walk walked => ?_,
    fun options document refusal cap refused deep => ?_,
    fun options workflow template violations present found => ?_⟩
  · obtain ⟨-, rfl⟩ := Trigger.walk_eq_ok.1 walked
    exact fun number listed other listed' same => start.path_injOn listed listed' same
  · obtain ⟨edges, node, path, leads⟩ := Workflow.nodeAt_of_tooDeep refused deep
    have text : refusal.error.path = nodePath edges.reverse := by
      rw [nodePath, List.reverse_reverse, ← render_stepSegments, ← path]
      rfl
    refine ⟨edges.reverse, node, by rwa [List.reverse_reverse], fun other => ?_⟩
    rw [text]
    exact nodePath_injective.eq_iff
  · obtain ⟨walked, rfl⟩ := (Workflow.violations_eq_ok present).1 found
    refine ⟨_, walked, fun violation member kind => ?_⟩
    obtain ⟨number, quotes⟩ := Walk.exists_quotes (Walk.mem_aboutNames member kind)
    exact ⟨number, quotes, fun other quotes' => Trigger.number_eq_of_quotes quotes' quotes⟩

/-- A name that reads as if it quoted the path of the first action. -/
def echoingName : String :=
  "start' is already used by the node at 'template.trigger.nextAction"

/-- A workflow whose trigger and last action have a name with quotation marks in it. -/
def Workflow.echoing : Workflow where
  name := "echoing"
  description := ""
  tags := .empty
  template := some {
    displayName := "Echoing"
    valid := true
    trigger := {
      header := ⟨echoingName, "Start", true⟩
      kind := .empty []
      next := some (.mk ⟨⟨"check", "Check", true⟩,
        .branch ⟨[], none⟩ none
          (some (.mk ⟨⟨echoingName, "Again", true⟩, .loop ⟨"items", none⟩ none, none⟩)),
        none⟩) } }

namespace Workflow

/-- The trigger of that workflow. -/
def echoingTrigger : Trigger :=
  (echoing.template.get rfl).trigger

theorem withinDepth_echoing : echoingTrigger.WithinDepth Options.default.maxDepth.toNat :=
  Trigger.withinDepth_of_weight (show 2 ≤ 10000 by decide)

theorem names_echoing : echoingTrigger.listing.names = [echoingName, "check", echoingName] := by
  rw [Walk.names_eq, ← Walk.nodes_located, Trigger.located_listing, ← Trigger.inOrder_eq_preorder]
  rfl

theorem numbered_echoing :
    ∃ node, (node, 2) ∈ echoingTrigger.listing.numbered ∧ node.name = echoingName := by
  refine Walk.exists_numbered ?_
  rw [names_echoing]
  rfl

/-- The last action is refused under a cap of one. -/
theorem ofJson_echoing :
    ofJson ⟨1, false⟩ echoing.toJson = .error ⟨stepSegments [.next, .onFailure], .tooDeep 1⟩ := by
  have read : ofJson .default echoing.toJson = .ok echoing :=
    ofJson_toJson_of_present rfl withinDepth_echoing
  have deep : firstAt 2 (Node.trigger echoingTrigger).paths = some [.next, .onFailure] := by
    rw [Node.paths, ← Trigger.inOrder_eq_preorder]
    rfl
  exact (ofJson_eq ⟨1, false⟩ read rfl).trans (congrArg (refuseDeep 1 [] echoing) deep)

/-- The last action is reported to have the name of the trigger. -/
theorem violations_echoing :
    ∃ violations violation, echoing.violations .default = .ok violations ∧
      violation ∈ violations ∧ violation.kind = .duplicateName := by
  obtain ⟨node, numbered, named⟩ := numbered_echoing
  have first : echoingTrigger.listing.names.idxOf? node.name = some 0 := by
    rw [named, names_echoing]
    decide
  have found := Walk.repeatedName?_eq_some.2 ⟨0, first, Nat.zero_lt_two, rfl⟩
  have walked := Trigger.walk_eq_ok.2 ⟨withinDepth_echoing, rfl⟩
  refine ⟨_, _, (violations_eq_ok rfl).2 ⟨walked, rfl⟩, ?_, Walk.kind_of_repeatedName? found⟩
  have reported := List.mem_filterMap.2 ⟨_, numbered, found⟩
  rw [Walk.violations_parts]
  exact List.mem_append_left _ (List.mem_append_right _ reported)

end Workflow

theorem nodePath_identifies_echoing :
    ∃ walk refusal violations violation, Workflow.echoingTrigger.walk .default = .ok walk ∧
      walk.path 1 ≠ walk.path 2 ∧
      Workflow.ofJson ⟨1, false⟩ Workflow.echoing.toJson = .error refusal ∧
      (∃! upward, nodePath upward = refusal.error.path) ∧
      Workflow.echoing.violations .default = .ok violations ∧ violation ∈ violations ∧
      violation.kind = .duplicateName ∧ ∃! number, walk.Quotes violation.message number := by
  obtain ⟨-, visits, depth, names⟩ := nodePath_identifies
  obtain ⟨violations, violation, found, member, kind⟩ := Workflow.violations_echoing
  obtain ⟨walk, walked, quotes⟩ := names .default .echoing _ violations rfl found
  obtain ⟨upward, node, -, only⟩ := depth _ _ _ 1 Workflow.ofJson_echoing rfl
  refine ⟨walk, _, violations, violation, walked, fun same => ?_, Workflow.ofJson_echoing,
    ⟨upward, (only upward).2 rfl, fun other => (only other).1⟩, found, member, kind,
    quotes violation member kind⟩
  obtain ⟨-, rfl⟩ := Trigger.walk_eq_ok.1 walked
  obtain ⟨last, numbered, -⟩ := Workflow.numbered_echoing
  have listed := Walk.exists_numbered_iff.1 ⟨last, numbered⟩
  cases visits .default _ _ walked 1 (Nat.lt_of_succ_lt listed) 2 listed same

end FlowGate
