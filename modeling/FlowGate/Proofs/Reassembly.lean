/-
This file shows that putting slots together loses nothing. The building loop passes over what it
cannot place, so it is set beside one that stops there: at a slot that hangs off one which is not
there any more, or along an edge which that one does not own. On slots that were read the second
loop never stops. What carries this is that the slots are linked: the listing of what they are
built into has the same parents and edges, and in the listing of an action every step hangs off an
earlier one along an edge of its own.
-/

import FlowGate.Proofs.Attachment
import FlowGate.Proofs.Preorder
import FlowGate.Proofs.Regrowth
import FlowGate.Proofs.Roundtrip

namespace FlowGate

/-! ### Linked slots -/

/-- A listed step without what follows it. -/
def Visit.bare (visit : Visit (Step α)) : Visit (Step β) :=
  { visit with item := visit.item.bare }

/-- Listed steps without what follows them. -/
def Visits.bare (visits : Visits (Step α)) : Visits (Step β) :=
  visits.map Visit.bare

/-- Listed steps fit together. -/
structure Visits.Linked (visits : Visits (Step α)) : Prop where
  /-- The first one hangs off nothing, and no other one does. -/
  root : ∀ (number : Nat) (visit : Visit (Step α)), visits[number]? = some visit →
    (visit.parent = none ↔ number = 0)
  /-- The others hang off earlier ones, along edges which these own. -/
  owned : ∀ (number : Nat) (visit : Visit (Step α)) (parent : Nat),
    visits[number]? = some visit → visit.parent = some parent →
      parent < number ∧ ∃ (above : Visit (Step α)) (edge : Edge),
        visits[parent]? = some above ∧ visit.edge = some edge ∧ above.item.task.owns edge = true
  /-- No two of them hang off the same one along the same edge. -/
  apart : ∀ (number other : Nat) (visit visit' : Visit (Step α)),
    visits[number]? = some visit → visits[other]? = some visit' →
      visit.parent = visit'.parent → visit.edge = visit'.edge → number = other

theorem Visits.getElem?_bare (visits : Visits (Step α)) (number : Nat) :
    (visits.bare : Visits (Step β))[number]? = visits[number]?.map Visit.bare :=
  Array.getElem?_map

theorem Visits.exists_of_bare {first : Visits (Step α)} {second : Visits (Step β)}
    (same : (first.bare : Visits (Step Empty)) = second.bare) {number : Nat}
    {visit : Visit (Step α)} (listed : first[number]? = some visit) :
    ∃ visit', second[number]? = some visit' ∧ visit'.parent = visit.parent ∧
      visit'.edge = visit.edge ∧ visit'.item.task.owns = visit.item.task.owns := by
  have shown : second[number]?.map Visit.bare = some (visit.bare : Visit (Step Empty)) := by
    rw [← second.getElem?_bare, ← same, first.getElem?_bare, listed, Option.map_some]
  obtain ⟨visit', listed', bare⟩ := Option.map_eq_some_iff.1 shown
  refine ⟨visit', listed', congrArg (fun visit : Visit (Step Empty) => visit.parent) bare,
    congrArg (fun visit : Visit (Step Empty) => visit.edge) bare, Task.owns_of_bare ?_⟩
  exact congrArg (fun visit : Visit (Step Empty) => visit.item.task) bare

/-- Whether steps fit together does not depend on what still follows them. -/
theorem Visits.Linked.of_bare {first : Visits (Step α)} {second : Visits (Step β)}
    (linked : first.Linked) (same : (first.bare : Visits (Step Empty)) = second.bare) :
    second.Linked where
  root number visit listed := by
    obtain ⟨visit', listed', parent, -, -⟩ := exists_of_bare same.symm listed
    rw [← parent]
    exact linked.root number visit' listed'
  owned number visit parent listed attached := by
    obtain ⟨visit', listed', parent', edge', -⟩ := exists_of_bare same.symm listed
    obtain ⟨earlier, above, edge, top, along, owns⟩ :=
      linked.owned number visit' parent listed' (parent'.trans attached)
    obtain ⟨above', top', -, -, owns'⟩ := exists_of_bare same top
    exact ⟨earlier, above', edge, top', edge'.symm.trans along, owns' ▸ owns⟩
  apart number other visit visit' listed listed' parents edges := by
    obtain ⟨first', found, parent, edge, -⟩ := exists_of_bare same.symm listed
    obtain ⟨second', found', parent', edge', -⟩ := exists_of_bare same.symm listed'
    exact linked.apart number other first' second' found found'
      (parent.trans (parents.trans parent'.symm)) (edge.trans (edges.trans edge'.symm))

/-! ### The listing of an action -/

namespace Action

/-- The steps that a step leads to, with their edges. -/
def leads (step : Step Action) : List (Edge × Step Action) :=
  step.children.map fun child => (child.1, child.2.step)

theorem leadsBy_tree (action : Action) : action.tree.LeadsBy leads := by
  induction action using Opening.induction_children opened with
  | step action inductionHypothesis =>
    rw [tree_eq]
    refine ⟨?_, Forest.leadsBy_ofList fun entry member => ?_⟩
    · rw [Forest.items_ofList, List.map_map]
      refine List.map_congr_left fun child _ => ?_
      rw [Function.comp_apply, tree_eq, Tree.item]
    · obtain ⟨child, inChildren, rfl⟩ := List.mem_map.1 member
      exact inductionHypothesis child inChildren

theorem hangingOff_visits {action : Action} {number : Nat} {visit : Visit (Step Action)}
    (listed : action.visits[number]? = some visit) :
    hangingOff number action.visits.toList = (leads visit.item).map listedAlong := by
  rw [visits_eq] at listed ⊢
  have root : ∀ above, (none : Option Nat) = some above → above < 0 := fun _ same => by cases same
  have hanging := Tree.hangingOff_listed _ action.leadsBy_tree root
    (List.getElem?_toArray ▸ listed)
  rwa [Nat.zero_add] at hanging

theorem attached_visits {action : Action} {number : Nat} {visit : Visit (Step Action)}
    (later : number ≠ 0) (listed : action.visits[number]? = some visit) :
    action.visits.Attached number visit := by
  obtain ⟨place, rfl⟩ := Nat.exists_eq_succ_of_ne_zero later
  rw [visits_eq] at listed ⊢
  have attached := Tree.attached_listed action.tree (holdsFrom_self _)
    (List.getElem?_toArray ▸ listed)
  rwa [Nat.zero_add, Nat.add_comm] at attached

theorem visits_first (action : Action) :
    action.visits[0]? = some ⟨action.tree.item, 1, none, some .next⟩ := by
  rw [visits_eq, List.getElem?_toArray, Tree.listed_first]

/-- The steps that hang off one step do so along different edges. -/
theorem nodup_hangingOff {action : Action} {number : Nat} {visit : Visit (Step Action)}
    (listed : action.visits[number]? = some visit) :
    ((hangingOff number action.visits.toList).map (·.1)).Nodup := by
  have edges : ((leads visit.item).map listedAlong).map (·.1) =
      (visit.item.children.map (·.1)).map some := by
    rw [leads, List.map_map, List.map_map, List.map_map]
    rfl
  rw [hangingOff_visits listed, edges]
  exact visit.item.nodup_edges.map fun _ _ => Option.some.inj

end Action

/-- Entries of a list that are kept are told apart by what they show, if what the kept ones show
is free of repeats. -/
theorem index_eq_of_nodup_filter {list : List α} {keep : α → Bool} {show' : α → β}
    (distinct : ((list.filter keep).map show').Nodup) {first second : Nat} {item item' : α}
    (here : list[first]? = some item) (there : list[second]? = some item') (kept : keep item)
    (kept' : keep item') (same : show' item = show' item') : first = second := by
  have apart : list.Pairwise fun item item' =>
      keep item = true → keep item' = true → show' item ≠ show' item' :=
    List.pairwise_filter.1 (List.pairwise_map.1 distinct)
  obtain ⟨inside, rfl⟩ := List.getElem?_eq_some_iff.1 here
  obtain ⟨inside', rfl⟩ := List.getElem?_eq_some_iff.1 there
  rcases Nat.lt_trichotomy first second with less | equal | greater
  · exact absurd same
      (List.pairwise_iff_getElem.1 apart first second inside inside' less kept kept')
  · exact equal
  · exact absurd same.symm
      (List.pairwise_iff_getElem.1 apart second first inside' inside greater kept' kept)

namespace Action

theorem root_visits {action : Action} {number : Nat} {visit : Visit (Step Action)}
    (listed : action.visits[number]? = some visit) : visit.parent = none ↔ number = 0 := by
  by_cases first : number = 0
  · subst first
    cases action.visits_first.symm.trans listed
    exact ⟨fun _ => rfl, fun _ => rfl⟩
  · obtain ⟨parent, -, -, attached, -⟩ := attached_visits first listed
    rw [attached]
    exact iff_of_false (Option.some_ne_none parent) first

/-- The listed steps of an action fit together. -/
theorem linked_visits (action : Action) : action.visits.Linked where
  root _ _ := root_visits
  owned number visit parent listed attached := by
    have later : number ≠ 0 := fun zero => by
      rw [(root_visits listed).2 zero] at attached
      cases attached
    obtain ⟨parent', above, edge, attached', earlier, along, top, -⟩ :=
      attached_visits later listed
    cases attached.symm.trans attached'
    have hanging := mem_hangingOff
      (Array.mem_toList_iff.2 (Array.mem_of_getElem? listed)) attached
    rw [hangingOff_visits top, along] at hanging
    obtain ⟨⟨edge', item⟩, led, same⟩ := List.mem_map.1 hanging
    cases same
    obtain ⟨⟨_, child⟩, inChildren, same⟩ := List.mem_map.1 led
    obtain ⟨rfl, -⟩ := Prod.mk.inj same
    exact ⟨earlier, above, _, top, along, Step.owns_of_along (Step.mem_children.1 inChildren)⟩
  apart number other visit visit' listed listed' parents edges := by
    cases attached : visit.parent with
    | none =>
      rw [(root_visits listed).1 attached, (root_visits listed').1 (parents ▸ attached)]
    | some parent =>
      have later : number ≠ 0 := fun zero => by
        rw [(root_visits listed).2 zero] at attached
        cases attached
      obtain ⟨_, above, _, attached', -, -, top, -⟩ := attached_visits later listed
      cases attached.symm.trans attached'
      have distinct := nodup_hangingOff top
      rw [hangingOff, List.map_map] at distinct
      refine index_eq_of_nodup_filter distinct (Array.getElem?_toList ▸ listed)
        (Array.getElem?_toList ▸ listed') (beq_iff_eq.2 attached) ?_ edges
      exact beq_iff_eq.2 (parents ▸ attached)

end Action

/-! ### A loop that stops at misfits -/

/-- What keeps a slot from being attached. -/
inductive Misfit where
  | outOfRange (parent : Nat)
  | foreign (parent : Nat) (edge : Option Edge)

theorem size_pop_lt {slots : Array α} {slot : α} (last : slots.back? = some slot) :
    slots.pop.size < slots.size := by
  rw [Array.back?_eq_getElem?] at last
  have := (Array.getElem?_eq_some_iff.1 last).1
  rw [Array.size_pop]
  omega

namespace Visits

/-- Attaches the last slot to the one that it hangs off, until no slots are left. A slot that is
not there, and an edge that a slot does not own, are misfits. -/
def attachAll (slots : Visits (Step β)) (finish : Step β → β) (head : Option β) :
    Except Misfit (Option β) :=
  match _last : slots.back? with
  | none => .ok head
  | some slot =>
    let rest := slots.pop
    let child := finish slot.item
    match slot.parent with
    | none => attachAll rest finish (some child)
    | some parent =>
      match rest[parent]?, slot.edge with
      | none, _ => .error (.outOfRange parent)
      | some above, some edge =>
        if above.item.task.owns edge then
          attachAll
            (rest.setIfInBounds parent { above with item := above.item.attach edge child })
            finish head
        else .error (.foreign parent edge)
      | some _, none => .error (.foreign parent none)
termination_by slots.size
decreasing_by
  · exact size_pop_lt _last
  · rw [Array.size_setIfInBounds]
    exact size_pop_lt _last

section Loop

variable {slots : Visits (Step β)} {finish : Step β → β} {head : Option β} {item : Step β}
  {depth parent : Nat} {edge : Option Edge}

theorem attachAll_nil (empty : slots.size = 0) : slots.attachAll finish head = .ok head := by
  rw [attachAll, Array.eq_empty_of_size_eq_zero empty]
  rfl

theorem attachAll_root (last : slots.back? = some ⟨item, depth, none, edge⟩) :
    slots.attachAll finish head = attachAll slots.pop finish (some (finish item)) := by
  rw [attachAll]
  split
  · next none => rw [last] at none; cases none
  · next slot found =>
    cases last.symm.trans found
    rfl

theorem attachAll_owned {above : Visit (Step β)} {edge : Edge}
    (last : slots.back? = some ⟨item, depth, some parent, some edge⟩)
    (top : slots.pop[parent]? = some above) (owned : above.item.task.owns edge = true) :
    slots.attachAll finish head =
      attachAll
        (slots.pop.setIfInBounds parent
          { above with item := above.item.attach edge (finish item) })
        finish head := by
  rw [attachAll]
  split
  · next none => rw [last] at none; cases none
  · next slot found =>
    cases last.symm.trans found
    simp only [top, owned, if_true]

end Loop

/-- Slots are the first listed nodes, each with the step that is being built in its place; the
steps do what the listed ones do. -/
structure Holds (visits : Visits (Step α)) (number : Nat) (steps : Array (Step β))
    (slots : Visits (Step β)) : Prop where
  size : slots.size = number
  each : ∀ position < number, ∃ visit step, visits[position]? = some visit ∧
    steps[position]? = some step ∧ slots[position]? = some { visit with item := step } ∧
      (step.bare : Step Empty) = visit.item.bare

theorem Holds.pop {visits : Visits (Step α)} {number : Nat} {steps : Array (Step β)}
    {slots : Visits (Step β)} (holds : visits.Holds (number + 1) steps slots) :
    visits.Holds number steps slots.pop where
  size := by rw [Array.size_pop, holds.size, Nat.add_sub_cancel]
  each position less := by
    obtain ⟨visit, step, listed, built, slot, bare⟩ :=
      holds.each position (Nat.lt_succ_of_lt less)
    refine ⟨visit, step, listed, built, ?_, bare⟩
    rw [Array.getElem?_pop, holds.size, if_pos (by omega), slot]

theorem Holds.attach {visits : Visits (Step α)} {number : Nat} {steps : Array (Step β)}
    {slots : Visits (Step β)} (holds : visits.Holds number steps slots) {parent : Nat}
    {above : Visit (Step β)} (top : slots[parent]? = some above) (edge : Edge) (child : β) :
    visits.Holds number (steps.modify parent fun step => step.attach edge child)
      (slots.setIfInBounds parent { above with item := above.item.attach edge child }) where
  size := by rw [Array.size_setIfInBounds, holds.size]
  each position less := by
    obtain ⟨visit, step, listed, built, slot, bare⟩ := holds.each position less
    rw [Array.getElem?_modify, Array.getElem?_setIfInBounds, built]
    by_cases here : parent = position
    · subst here
      cases top.symm.trans slot
      have inside : parent < slots.size := holds.size.symm ▸ less
      refine ⟨visit, step.attach edge child, listed, by simp, by simp [inside], ?_⟩
      rw [Step.bare_attach, bare]
    · exact ⟨visit, step, listed, by simp [here], by simp [here, slot], bare⟩

/-- On linked slots the loop does not stop at misfits, and it builds what the building loop does. -/
theorem Linked.attachAll_eq {visits : Visits (Step α)} (linked : visits.Linked)
    (finish : Step β → β) {number : Nat} {steps : Array (Step β)} {slots : Visits (Step β)}
    (holds : visits.Holds number steps slots) (head : Option β) :
    slots.attachAll finish head = .ok (visits.assembleFrom finish number steps head) := by
  induction number generalizing steps slots head with
  | zero => exact attachAll_nil holds.size
  | succ number inductionHypothesis =>
    obtain ⟨⟨item, depth, parent, edge⟩, step, listed, built, slot, bare⟩ :=
      holds.each number (Nat.lt_succ_self number)
    have last : slots.back? = some ⟨step, depth, parent, edge⟩ := by
      rw [Array.back?_eq_getElem?, holds.size]
      exact slot
    rw [assembleFrom, listed, built]
    cases parent with
    | none => rw [attachAll_root last, inductionHypothesis holds.pop]
    | some parent =>
      obtain ⟨earlier, above, edge, top, rfl, owns⟩ := linked.owned number _ parent listed rfl
      obtain ⟨above', step', listed', -, slot', bare'⟩ := holds.pop.each parent earlier
      cases top.symm.trans listed'
      have owned : step'.task.owns edge = true := by
        rw [Task.owns_of_bare (congrArg Step.task bare'), owns]
      rw [attachAll_owned last slot' owned,
        inductionHypothesis (holds.pop.attach slot' edge (finish step))]

theorem holds_bare (visits : Visits (Step α)) :
    visits.Holds visits.size (visits.map fun visit => (visit.item.bare : Step β)) visits.bare where
  size := Array.size_map
  each position less := by
    have listed := Array.getElem?_eq_getElem less
    refine ⟨visits[position], visits[position].item.bare, listed, ?_, ?_, ?_⟩
    · rw [Array.getElem?_map, listed, Option.map_some]
    · rw [getElem?_bare, listed, Option.map_some]
      rfl
    · exact Step.bare_bare _

end Visits

/-! ### Slots that were read -/

/-- The listed steps of an action, if there is one. -/
def Visits.ofAction (head : Option Action) : Visits (Step Action) :=
  head.elim #[] Action.visits

theorem Visits.linked_ofAction (head : Option Action) : (ofAction head).Linked := by
  cases head with
  | some action => exact action.linked_visits
  | none =>
    have nothing : ∀ {number : Nat} {visit : Visit (Step Action)},
        (ofAction none)[number]? ≠ some visit := fun listed => by cases listed
    exact ⟨fun _ _ listed => absurd listed nothing, fun _ _ _ listed => absurd listed nothing,
      fun _ _ _ _ listed => absurd listed nothing⟩

theorem Tree.bare_listed (tree : Tree (Step α)) (depth : Nat) (parent : Option Nat)
    (edge : Option Edge) :
    (Visits.bare (tree.listed depth parent edge 0).toArray : Visits (Step β)) =
      ((tree.renew (fun _ => Step.bare) 0).listed depth parent edge 0).toArray := by
  rw [Tree.listed_renew, Visits.bare, List.map_toArray]
  refine congrArg List.toArray (List.ext_getElem? fun place => ?_)
  rw [List.getElem?_map, List.getElem?_mapIdx]
  rfl

namespace Reading

/-- What slots are built into is listed as the slots were, but for the values that their steps
still led to. -/
theorem bare_slots {options : Options} {first : Option Json} {visits : Visits (Step Json)}
    (read : slots options first = .ok visits) :
    (Visits.ofAction (visits.assemble Action.mk)).bare = (visits.bare : Visits (Step Empty)) := by
  cases first with
  | none =>
    rw [slots, Option.toList_none, List.map_nil, Opening.explore_nil] at read
    cases read
    have nothing : Visits.assemble (#[] : Visits (Step Json)) Action.mk = none := rfl
    rw [nothing, Visits.ofAction, Option.elim_none, Visits.bare, Visits.bare, Array.map_empty,
      Array.map_empty]
  | some value =>
    rw [slots, Option.toList_some, List.map_singleton, Opening.explore_single] at read
    obtain ⟨tree, grown, rfl⟩ := map_eq_ok.1 read
    have proper : tree.Proper :=
      Opening.grow_proper (opening_steps options) value 1 [.next] tree grown
    rw [Tree.assemble_listed, Visits.ofAction, Option.elim_some, Action.visits_eq,
      Tree.bare_listed, tree.tree_fold proper, ← Tree.bare_listed]

/-- Whatever is read, the slots fit together: the first one hangs off nothing, every other one off
an earlier one, along an edge which that one owns and no other slot takes. So the loop that puts
them together meets no misfits, and what it builds is listed as the slots were, each of them
once. -/
theorem slots_reassembled {options : Options} {first : Option Json} {visits : Visits (Step Json)}
    (read : slots options first = .ok visits) :
    visits.Linked ∧
    ∃ head, visits.bare.attachAll Action.mk none = .ok head ∧ action options first = .ok head ∧
      (Visits.ofAction head).bare = (visits.bare : Visits (Step Empty)) := by
  have listed := bare_slots read
  have linked := (Visits.linked_ofAction _).of_bare listed
  refine ⟨linked, visits.assemble Action.mk,
    linked.attachAll_eq Action.mk visits.holds_bare none, ?_, listed⟩
  rw [action, read]
  rfl

/-- The steps behind the trigger of the forked workflow are put together again. -/
theorem slots_reassembled_forked :
    ∃ first visits, Workflow.forked.template.map (fun found => found.trigger.next) = some first ∧
      first.isSome ∧ slots .default (first.map Action.toJson) = .ok visits ∧ visits.Linked ∧
      visits.bare.attachAll Action.mk none = .ok first ∧
      (Visits.ofAction first).bare = (visits.bare : Visits (Step Empty)) := by
  have within : (Workflow.forked.template.get rfl).trigger.WithinDepth
      Options.default.maxDepth.toNat :=
    Trigger.withinDepth_of_weight (by decide)
  have read := action_toJson within
  obtain ⟨visits, listed, -⟩ := map_eq_ok.1 read
  obtain ⟨linked, head, built, read', same⟩ := slots_reassembled listed
  cases read.symm.trans read'
  exact ⟨_, visits, rfl, rfl, listed, linked, built, same⟩

end Reading

end FlowGate
