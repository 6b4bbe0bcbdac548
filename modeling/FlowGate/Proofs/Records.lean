/-
This file shows that reading a document drops no step and invents none. A step that is read leads
on wherever its value leads, because a field that a step of its kind does not own is refused unless
it is absent. So the tree that grows from a value has the nodes that are met when the value is
followed without regard to types, in the same order, and the action that is built from the tree
has them too.
-/

import FlowGate.Proofs.Access
import FlowGate.Proofs.Links
import FlowGate.Proofs.Numbering
import FlowGate.Proofs.Regrowth

namespace FlowGate

theorem mapError_eq_ok {first : Except ε α} {change : ε → δ} {value : α} :
    first.mapError change = .ok value ↔ first = .ok value := by
  cases first <;> simp [Except.mapError]

/-- A continuation of a step that was read, as what the value of the step leads to. -/
def Edge.link (child : Edge × Json) : AccessPath × Json :=
  (child.1.segments, child.2)

namespace Reading

variable {fields : List (String × Json)}

/-! ### Fields -/

theorem entries_eq_ok {path : AccessPath} {value : Json} :
    entries path value = .ok fields ↔ value = .object fields := by
  cases value <;> simp [entries]

theorem text?_of_required {path : AccessPath} {name text : String}
    (read : requiredText fields path name = .ok text) : Json.text? name fields = some text := by
  rw [requiredText, optionalText] at read
  rw [Json.text?]
  split at read
  · cases read
  · cases read
  · next found =>
    split at found <;> cases found
    next present =>
    cases read
    rw [present]

theorem text?_of_header {found : Header} (read : header fields = .ok found) :
    Json.text? "name" fields = some found.name ∧
      Json.text? "displayName" fields = some found.displayName := by
  obtain ⟨name, named, read⟩ := bind_eq_ok.1 read
  obtain ⟨displayName, displayed, read⟩ := bind_eq_ok.1 read
  obtain ⟨valid, -, same⟩ := bind_eq_ok.1 read
  cases same
  exact ⟨text?_of_required named, text?_of_required displayed⟩

/-- No continuation is there besides those that nodes of the kind own. -/
theorem absent_of_onlyOwn {kind : String} {own : List String}
    (only : onlyOwn fields kind own = .ok ()) (field : String)
    (member : field ∈ continuationFields) (foreign : field ∉ own) :
    Json.present? field fields = none := by
  rw [onlyOwn] at only
  split at only
  · next none =>
    have here := List.find?_eq_none.1 none field member
    simpa [foreign] using here
  · cases only

/-! ### Links of nodes -/

theorem linked_eq (name : String) :
    (Json.object fields).linked name =
      (Json.present? name fields).toList.map fun child => ([.field name], child) := rfl

theorem linked_of_absent {name : String} (absent : Json.present? name fields = none) :
    (Json.object fields).linked name = [] := by
  rw [linked_eq, absent]
  rfl

theorem linkedWays_of_absent (absent : Json.present? "branches" fields = none) :
    (Json.object fields).linkedWays = [] := by
  rw [Json.linkedWays, Json.under?, absent]

theorem linked_of_branch {item : Json} {position : Nat} {way : Branch Json}
    (read : branch (item, position) = .ok way) :
    item.linked "nextAction" = way.next.toList.map fun child => ([.field "nextAction"], child) := by
  obtain ⟨fields, object, read⟩ := bind_eq_ok.1 read
  obtain ⟨optionId, -, same⟩ := bind_eq_ok.1 read
  obtain rfl := entries_eq_ok.1 object
  cases same
  rfl

theorem linkedWays_of_items {items : List Json} {first : Nat} {ways : List (Branch Json)}
    (read : (items.zipIdx first).mapM branch = .ok ways) :
    ((items.zipIdx first).flatMap fun (item, position) =>
        (item.linked "nextAction").map fun link =>
          ([.field "branches", .index position] ++ link.1, link.2)) =
      (Branch.children first ways).map Edge.link := by
  induction items generalizing first ways with
  | nil =>
    cases read
    rfl
  | cons item rest inductionHypothesis =>
    rw [List.zipIdx_cons, List.mapM_cons] at read
    obtain ⟨way, here, read⟩ := bind_eq_ok.1 read
    obtain ⟨others, later, same⟩ := bind_eq_ok.1 read
    cases same
    rw [List.zipIdx_cons, List.flatMap_cons, inductionHypothesis later, Branch.children_cons,
      List.map_append]
    refine congrArg (· ++ _) ?_
    show (item.linked "nextAction").map _ = _
    rw [linked_of_branch here]
    cases way.next <;> rfl

/-- The ways of a split lead on wherever the ways that its value lists do. -/
theorem linkedWays_of_branches {ways : List (Branch Json)} (read : branches fields = .ok ways) :
    (Json.object fields).linkedWays = (Branch.children 0 ways).map Edge.link := by
  rw [branches] at read
  rw [Json.linkedWays, Json.under?]
  split at read
  · next absent =>
    cases read
    rw [absent]
    rfl
  · next items present =>
    rw [present]
    exact linkedWays_of_items read
  · cases read

/-- A node that owns the next action alone leads nowhere else. -/
theorem ownLinks_of_none {kind : String} (only : onlyOwn fields kind ["nextAction"] = .ok ()) :
    (Json.object fields).ownLinks = [] := by
  have absent := absent_of_onlyOwn only
  rw [Json.ownLinks, linked_of_absent (absent "onSuccessAction" (by decide) (by decide)),
    linked_of_absent (absent "onFailureAction" (by decide) (by decide)),
    linkedWays_of_absent (absent "branches" (by decide) (by decide)),
    linked_of_absent (absent "firstLoopAction" (by decide) (by decide))]
  rfl

/-- What a step does is told by its type and its settings, and the continuations that it owns are
all that its value leads to, besides the action that comes next. -/
theorem task_eq_ok {kind : String} {work : Task Json} (read : task kind fields = .ok work) :
    work.kindName = kind ∧ stepSettings? kind fields = some work.nodeSettings ∧
      (Json.object fields).ownLinks = work.children.map Edge.link := by
  unfold task at read
  split at read
  · obtain ⟨_, only, read⟩ := bind_eq_ok.1 read
    obtain ⟨settings, found, same⟩ := bind_eq_ok.1 read
    cases same
    exact ⟨rfl, congrArg (·.toOption.map NodeSettings.code) found, ownLinks_of_none only⟩
  · obtain ⟨_, only, read⟩ := bind_eq_ok.1 read
    obtain ⟨settings, found, same⟩ := bind_eq_ok.1 read
    cases same
    exact ⟨rfl, congrArg (·.toOption.map NodeSettings.block) found, ownLinks_of_none only⟩
  · obtain ⟨_, only, read⟩ := bind_eq_ok.1 read
    obtain ⟨settings, found, same⟩ := bind_eq_ok.1 read
    cases same
    refine ⟨rfl, congrArg (·.toOption.map NodeSettings.branch) found, ?_⟩
    have absent := absent_of_onlyOwn only
    rw [Json.ownLinks, linkedWays_of_absent (absent "branches" (by decide) (by decide)),
      linked_of_absent (absent "firstLoopAction" (by decide) (by decide)), List.append_nil,
      List.append_nil, Task.children, List.map_append, linked_eq, linked_eq]
    cases Json.present? "onSuccessAction" fields <;>
      cases Json.present? "onFailureAction" fields <;> rfl
  · obtain ⟨_, only, read⟩ := bind_eq_ok.1 read
    obtain ⟨settings, found, read⟩ := bind_eq_ok.1 read
    obtain ⟨ways, listed, same⟩ := bind_eq_ok.1 read
    cases same
    refine ⟨rfl, congrArg (·.toOption.map NodeSettings.split) found, ?_⟩
    have absent := absent_of_onlyOwn only
    rw [Json.ownLinks, linked_of_absent (absent "onSuccessAction" (by decide) (by decide)),
      linked_of_absent (absent "onFailureAction" (by decide) (by decide)),
      linkedWays_of_branches listed,
      linked_of_absent (absent "firstLoopAction" (by decide) (by decide)), List.append_nil]
    rfl
  · obtain ⟨_, only, read⟩ := bind_eq_ok.1 read
    obtain ⟨settings, found, same⟩ := bind_eq_ok.1 read
    cases same
    refine ⟨rfl, congrArg (·.toOption.map NodeSettings.loop) found, ?_⟩
    have absent := absent_of_onlyOwn only
    rw [Json.ownLinks, linked_of_absent (absent "onSuccessAction" (by decide) (by decide)),
      linked_of_absent (absent "onFailureAction" (by decide) (by decide)),
      linkedWays_of_absent (absent "branches" (by decide) (by decide)), linked_eq]
    cases present : Json.present? "firstLoopAction" fields <;> rfl
  · cases read

theorem links_of_own {children : List (Edge × Json)}
    (own : (Json.object fields).ownLinks = children.map Edge.link) :
    (Json.object fields).links =
      (children ++ Edge.next.along (Json.present? "nextAction" fields)).map Edge.link := by
  rw [Json.links, own, List.map_append, linked_eq]
  cases Json.present? "nextAction" fields <;> rfl

/-- A step that is read tells what its value tells, and leads on wherever its value does. -/
theorem step_eq_ok {value : Json} {found : Step Json} (read : step value = .ok found) :
    value.record? stepSettings? = some found.record ∧
      value.links = found.children.map Edge.link := by
  obtain ⟨fields, object, read⟩ := bind_eq_ok.1 read
  obtain ⟨kind, typed, read⟩ := bind_eq_ok.1 read
  obtain ⟨header, headed, read⟩ := bind_eq_ok.1 read
  obtain ⟨work, done, same⟩ := bind_eq_ok.1 read
  obtain rfl := entries_eq_ok.1 object
  cases same
  obtain ⟨name, displayName⟩ := text?_of_header headed
  obtain ⟨kindName, settings, own⟩ := task_eq_ok done
  refine ⟨?_, links_of_own own⟩
  subst kindName
  rw [Json.record?, text?_of_required typed, name, displayName]
  show (stepSettings? _ fields).bind _ = _
  rw [settings]
  rfl

theorem kindName_of_triggerKind {kind : String} {found : TriggerKind}
    (read : triggerKind kind fields = .ok found) : found.kindName = kind := by
  unfold triggerKind at read
  split at read
  · split at read
    · cases read
      rfl
    · obtain ⟨settings, -, rfl⟩ := map_eq_ok.1 read
      rfl
  · obtain ⟨settings, -, rfl⟩ := map_eq_ok.1 read
    rfl
  · cases read

/-- A trigger that is read tells what its value tells, and leads on where its value does. -/
theorem triggerNode_eq_ok {value : Json} {start : Trigger} {next : Option Json}
    (read : triggerNode value = .ok (start, next)) :
    value.record? triggerSettings? = some (Node.trigger start).record ∧
      value.links = (Edge.next.along next).map Edge.link := by
  obtain ⟨fields, object, read⟩ := bind_eq_ok.1 read
  obtain ⟨kind, typed, read⟩ := bind_eq_ok.1 read
  obtain ⟨header, headed, read⟩ := bind_eq_ok.1 read
  obtain ⟨work, done, read⟩ := bind_eq_ok.1 read
  obtain ⟨_, only, same⟩ := bind_eq_ok.1 read
  obtain rfl := entries_eq_ok.1 object
  cases same
  obtain ⟨name, displayName⟩ := text?_of_header headed
  have own : (Json.object fields).ownLinks = ([] : List (Edge × Json)).map Edge.link :=
    ownLinks_of_none only
  refine ⟨?_, links_of_own own⟩
  obtain rfl := kindName_of_triggerKind done
  rw [Json.record?, text?_of_required typed, name, displayName]
  show ((triggerKind _ fields).toOption.map _).bind _ = _
  rw [done]
  rfl

/-! ### Nodes of values -/

theorem stepSegments_concat (path : List Edge) (edge : Edge) :
    stepSegments (path ++ [edge]) = stepSegments path ++ edge.segments := by
  simp [stepSegments]

/-- A node of a document, as a step is told of. -/
def shown (node : AccessPath × Json) : AccessPath × Option NodeRecord :=
  (node.1, node.2.record? stepSettings?)

/-- A step at a path below another one, as it is told of. -/
def told (path : List Edge) (entry : List Edge × Step Json) : AccessPath × Option NodeRecord :=
  (stepSegments (path ++ entry.1), some entry.2.record)

theorem told_beneath (path : List Edge) (edge : Edge) :
    told path ∘ beneath edge = told (path ++ [edge]) := by
  funext entry
  simp [told, beneath]

variable {options : Options}

theorem opened_eq_ok {depth : Nat} {place : Unit → AccessPath} {value : Json} {item : Step Json}
    {children : List (Edge × Json)}
    (opened : (opening options).opened depth place value = .ok (item, children)) :
    step value = .ok item ∧ children = item.children := by
  refine ⟨?_, opening_steps options opened⟩
  simp only [opening] at opened
  split at opened
  · cases opened
  · split at opened
    · cases opened
    · next read =>
      cases opened
      exact read

/-- The trees that grow from values have the nodes that the values lead to, if each tree has. -/
theorem nodes_of_growAll {depth : Nat} {path : List Edge} {children : List (Edge × Json)}
    {forest : Forest (Step Json)}
    (grown : (opening options).growAll depth path children = .ok forest)
    (each : ∀ child ∈ children, ∀ depth path tree,
      (opening options).grow depth path child.2 = .ok tree →
        (child.2.nodes (stepSegments path)).map shown = tree.preorder.map (told path)) :
    ((children.map Edge.link).flatMap fun link =>
        link.2.nodes (stepSegments path ++ link.1)).map shown =
      forest.preorder.map (told path) := by
  induction children generalizing forest with
  | nil =>
    rw [Opening.growAll_nil] at grown
    cases grown
    rfl
  | cons child rest inductionHypothesis =>
    obtain ⟨tree, others, first, later, rfl⟩ := Opening.growAll_cons_eq_ok grown
    have here := each child List.mem_cons_self _ _ tree first
    rw [List.map_cons, List.flatMap_cons, List.map_append, Forest.preorder, List.map_append,
      inductionHypothesis later fun child member => each child (List.mem_cons_of_mem _ member),
      List.map_map, told_beneath, ← here, stepSegments_concat]
    rfl

/-- The tree that grows from a value has the nodes that the value leads to. -/
theorem nodes_of_grow (value : Json) :
    ∀ depth path tree, (opening options).grow depth path value = .ok tree →
      (value.nodes (stepSegments path)).map shown = tree.preorder.map (told path) := by
  generalize weighs : (opening options).weight value = weight
  induction weight using Nat.strongRecOn generalizing value with
  | ind weight inductionHypothesis =>
    intro depth path tree grown
    subst weighs
    obtain ⟨item, children, forest, opened, below, rfl⟩ := Opening.grow_eq_ok grown
    obtain ⟨read, rfl⟩ := opened_eq_ok opened
    obtain ⟨record, links⟩ := step_eq_ok read
    have later := nodes_of_growAll below fun child member =>
      inductionHypothesis _ ((opening options).weight_lt_of_mem opened member) child.2 rfl
    rw [Json.nodes_eq, links, List.map_cons, later, Tree.preorder, List.map_cons]
    refine congrArg (· :: _) ?_
    rw [shown, record, told, List.append_nil]

end Reading

/-! ### Nodes of what was built -/

theorem Step.record_bare (step : Step α) : (step.bare : Step β).record = step.record := by
  obtain ⟨header, task, next⟩ := step
  cases task <;> rfl

/-- The steps of a proper tree tell what the nodes of the action that it is built into tell. They
hold values where those of the action hold actions, so they are compared without what follows. -/
theorem Tree.records_fold {tree : Tree (Step α)} (proper : tree.Proper) :
    (Node.action (tree.fold Action.mk)).preorder.map (withItem Node.record) =
      tree.preorder.map (withItem Step.record) := by
  have bare : ∀ {α} (grown : Tree (Step α)), grown.preorder.map (withItem Step.record) =
      (grown.renew (fun _ => Step.bare (β := Empty)) 0).preorder.map (withItem Step.record) :=
    fun grown => (grown.preorder_renew (fun _ step => step.record_bare) 0).symm
  have steps : (Node.action (tree.fold Action.mk)).preorder.map (withItem Node.record) =
      (tree.fold Action.mk).tree.preorder.map (withItem Step.record) := by
    rw [Node.preorder, Node.tree_action _ 0]
    exact Tree.preorder_renew _
      (fun _ step => (rfl : Node.record (.action (.mk step)) = step.record)) 0
  rw [steps, bare, tree.tree_fold proper, ← bare]

/-! ### Documents -/

namespace Reading

variable {options : Options}

/-- What a trigger that is read leads to, and what its value tells. -/
theorem trigger_eq_ok {value : Json} {start : Trigger} (read : trigger options value = .ok start) :
    ∃ next, action options next = .ok start.next ∧
      value.record? triggerSettings? = some (Node.trigger start).record ∧
      value.links = (Edge.next.along next).map Edge.link := by
  obtain ⟨⟨bare, next⟩, node, read⟩ := bind_eq_ok.1 read
  obtain ⟨after, actions, same⟩ := bind_eq_ok.1 read
  cases same
  obtain ⟨record, links⟩ := triggerNode_eq_ok (mapError_eq_ok.1 node)
  exact ⟨next, actions, record, links⟩

/-- What a value leads to is what the action that is read from it leads to. -/
theorem records_of_action {value : Json} {next : Option Action}
    (read : action options (some value) = .ok next) :
    ∃ first, next = some first ∧
      ((value.nodes (stepSegments [.next])).map fun node =>
          (node.1.render, node.2.record? stepSettings?)) =
        ((Node.action first).preorder.map (beneath .next)).map fun entry =>
          (stepPath entry.1, some entry.2.record) := by
  rw [action_some] at read
  obtain ⟨tree, grown, rfl⟩ := map_eq_ok.1 read
  have proper := Opening.grow_proper (opening_steps options) value 1 [.next] tree grown
  have nodes := congrArg (List.map fun node => (node.1.render, node.2))
    (nodes_of_grow value 1 [.next] tree grown)
  have records := congrArg (List.map fun entry => (stepPath (.next :: entry.1), some entry.2))
    (Tree.records_fold proper)
  simp only [List.map_map] at nodes records ⊢
  refine ⟨_, rfl, nodes.trans (Eq.trans ?_ records.symm)⟩
  refine List.map_congr_left fun entry _ => ?_
  simp only [Function.comp_apply, told, withItem, render_stepSegments, List.singleton_append]

/-- What a document leads to is what follows the trigger that is read. -/
theorem records_of_trigger {value : Json} {start : Trigger}
    (read : trigger options value = .ok start) :
    value.records = (Node.trigger start).preorder.map fun entry =>
      (stepPath entry.1, some entry.2.record) := by
  obtain ⟨next, actions, record, links⟩ := trigger_eq_ok read
  have root : rootPath = stepSegments [] := rfl
  rw [Json.records, record, links, Node.preorder_eq, List.map_cons, root, render_stepSegments]
  refine congrArg (_ :: ·) ?_
  obtain ⟨header, kind, after⟩ := start
  cases next with
  | none =>
    rw [action_none] at actions
    cases actions
    rfl
  | some first =>
    obtain ⟨action, rfl, records⟩ := records_of_action actions
    have below : (Node.trigger ⟨header, kind, some action⟩).children =
        [(.next, .action action)] := rfl
    rw [below, List.flatMap_singleton, ← records]
    refine congrArg (List.map _) ?_
    exact List.append_nil _

end Reading

/-- Where the trigger of a document stands, and that it is read. -/
theorem Workflow.trigger_of_read {options : Options} {document : Json} {workflow : Workflow}
    {template : Template} (read : ofJson options document = .ok workflow)
    (present : workflow.template = some template) :
    ∃ value, rootPath.follow document = some value ∧
      Reading.trigger options value = .ok template.trigger := by
  obtain ⟨fields, object, read⟩ := bind_eq_ok.1 read
  obtain ⟨name, -, read⟩ := bind_eq_ok.1 read
  obtain ⟨description, -, read⟩ := bind_eq_ok.1 read
  obtain ⟨tags, -, read⟩ := bind_eq_ok.1 read
  obtain ⟨found, templated, same⟩ := bind_eq_ok.1 read
  obtain rfl := Reading.entries_eq_ok.1 object
  cases same
  cases present
  cases outer : Json.present? "template" fields with
  | none => rw [outer] at templated; cases templated
  | some value =>
    rw [outer] at templated
    obtain ⟨entries, inside, templated'⟩ := bind_eq_ok.1 templated
    obtain rfl := Reading.entries_eq_ok.1 inside
    clear templated
    cases inner : Json.present? "trigger" entries with
    | none => rw [inner] at templated'; cases templated'
    | some start =>
      rw [inner] at templated'
      obtain ⟨displayName, -, later⟩ := bind_eq_ok.1 templated'
      obtain ⟨valid, -, later⟩ := bind_eq_ok.1 later
      obtain ⟨trigger, started, same⟩ := bind_eq_ok.1 later
      cases same
      exact ⟨start, (AccessPath.follow_field outer _).trans (AccessPath.follow_field inner []),
        started⟩

/-- Decoding a document drops no step and invents none. The nodes that are met when the document is
followed from its trigger, along every field that may lead on and whatever the types say, are the
nodes of the walk, with their paths and all that they tell, one by one and in the same order. -/
theorem Workflow.records_of_read (document : Json) (options : Options) (workflow : Workflow)
    (template : Template) (read : ofJson options document = .ok workflow)
    (present : workflow.template = some template) :
    ∃ walk start, template.trigger.walk options = .ok walk ∧
      rootPath.follow document = some start ∧
      start.records = walk.numbered.map fun (node, number) =>
        (walk.path number, some node.record) := by
  obtain ⟨start, found, started⟩ := trigger_of_read read present
  have walked := Trigger.walk_eq_ok.2 ⟨withinDepth_of_read read present, rfl⟩
  refine ⟨_, start, walked, found, ?_⟩
  rw [Reading.records_of_trigger started, ← template.trigger.located_listing, Walk.located,
    List.map_map]
  rfl

/-- The loop on the way of the split, which is on the second way of the branch, is not lost. -/
theorem Workflow.records_of_read_forked :
    ∃ start record, rootPath.follow forked.toJson = some start ∧
      ("template.trigger.nextAction.onFailureAction.branches[0].nextAction", some record) ∈
        start.records ∧
      record.name = "each" ∧ record.kindName = "LOOP_ON_ITEMS" := by
  have read : ofJson .default forked.toJson = .ok forked :=
    ofJson_toJson_of_present rfl (Trigger.withinDepth_of_weight (by decide))
  obtain ⟨walk, start, walked, found, records⟩ :=
    records_of_read forked.toJson .default forked _ read rfl
  obtain ⟨-, rfl⟩ := Trigger.walk_eq_ok.1 walked
  obtain ⟨loop, followed, named, kind⟩ :
      ∃ loop, (Node.trigger (forked.template.get rfl).trigger).follow
          [.next, .onFailure, .branch 0] = some loop ∧
        loop.name = "each" ∧ loop.kindName = "LOOP_ON_ITEMS" := ⟨_, rfl, rfl, rfl⟩
  have listed := Node.mem_preorder.2 followed
  rw [← Trigger.located_listing] at listed
  obtain ⟨⟨node, number⟩, numbered, same⟩ := List.mem_map.1 listed
  obtain ⟨path, rfl⟩ := Prod.mk.inj same
  have text : (forked.template.get rfl).trigger.listing.path number =
      "template.trigger.nextAction.onFailureAction.branches[0].nextAction" :=
    (congrArg stepPath path).trans (by decide)
  refine ⟨start, node.record, found, ?_, named, kind⟩
  rw [records]
  exact List.mem_map.2 ⟨(node, number), numbered, Prod.ext text rfl⟩

end FlowGate
