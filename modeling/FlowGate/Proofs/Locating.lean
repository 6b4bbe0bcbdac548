/-
This file shows that a path which leads to something within a node tells both the node and the
place in it. Read from its start, an access path goes along the edge that its first segments stand
for; a place within a node begins with no edge, so what is read edge by edge ends where the place
begins. The places that the rules name are such places: the option of a way stands beside what
follows on the way, under a key of its own.
-/

import FlowGate.Proofs.Matching
import FlowGate.Proofs.Unseen

namespace FlowGate

/-! ### Reading edges -/

/-- The edge that an access path goes along first, with the segments behind it. -/
def Edge.ofSegments? : AccessPath → Option (Edge × AccessPath)
  | .field "nextAction" :: rest => some (.next, rest)
  | .field "onSuccessAction" :: rest => some (.onSuccess, rest)
  | .field "onFailureAction" :: rest => some (.onFailure, rest)
  | .field "branches" :: .index index :: .field "nextAction" :: rest => some (.branch index, rest)
  | .field "firstLoopAction" :: rest => some (.loopBody, rest)
  | _ => none

theorem Edge.ofSegments?_segments (edge : Edge) (rest : AccessPath) :
    ofSegments? (edge.segments ++ rest) = some (edge, rest) := by
  cases edge <;> rfl

/-- A place within a node: it goes along no edge. -/
def AccessPath.Inner (place : AccessPath) : Prop :=
  Edge.ofSegments? place = none

theorem AccessPath.Inner.ne_edge {place : AccessPath} (inner : place.Inner) (edge : Edge)
    (rest : AccessPath) : place ≠ edge.segments ++ rest := by
  rintro rfl
  cases inner.symm.trans (edge.ofSegments?_segments rest)

/-- Edges and the place behind them are told by the segments that they make together. -/
theorem flatMap_segments_inj {edges others : List Edge} {place place' : AccessPath}
    (inner : place.Inner) (inner' : place'.Inner)
    (same : edges.flatMap Edge.segments ++ place = others.flatMap Edge.segments ++ place') :
    edges = others ∧ place = place' := by
  induction edges generalizing others with
  | nil =>
    cases others with
    | nil => exact ⟨rfl, same⟩
    | cons other rest =>
      rw [List.flatMap_cons, List.append_assoc] at same
      exact absurd same (inner.ne_edge other _)
  | cons edge rest inductionHypothesis =>
    rw [List.flatMap_cons, List.append_assoc] at same
    cases others with
    | nil => exact absurd same.symm (inner'.ne_edge edge _)
    | cons other others =>
      rw [List.flatMap_cons, List.append_assoc] at same
      have read := congrArg Edge.ofSegments? same
      rw [Edge.ofSegments?_segments, Edge.ofSegments?_segments] at read
      obtain ⟨rfl, behind⟩ := Prod.mk.inj (Option.some.inj read)
      obtain ⟨rfl, places⟩ := inductionHypothesis behind
      exact ⟨rfl, places⟩

/-- A path within a node tells the node and the place in it. -/
theorem stepSegments_append_inj {edges others : List Edge} {place place' : AccessPath}
    (inner : place.Inner) (inner' : place'.Inner)
    (same : stepSegments edges ++ place = stepSegments others ++ place') :
    edges = others ∧ place = place' := by
  rw [stepSegments, stepSegments, List.append_assoc, List.append_assoc] at same
  exact flatMap_segments_inj inner inner' (List.append_cancel_left same)

/-! ### Places that the rules name -/

theorem SplitIndex.inner_of_emptiness {optionIds wayIds : List String} {finding : Finding}
    (member : finding ∈ emptiness optionIds wayIds) : finding.place.Inner := by
  rw [emptiness] at member
  split at member
  · rw [List.mem_singleton.1 member]
    rfl
  · split at member
    · rw [List.mem_singleton.1 member]
      rfl
    · cases member

theorem inner_of_matching {optionIds wayIds : List String} {finding : Finding}
    (member : finding ∈ matchingFindings optionIds wayIds) : finding.place.Inner := by
  rw [matchingFindings, List.mem_append, List.mem_append, List.mem_append] at member
  rcases member with ((empty | repeated) | wrong) | without
  · exact SplitIndex.inner_of_emptiness empty
  · obtain ⟨⟨id, position⟩, -, found⟩ := List.mem_filterMap.1 repeated
    obtain ⟨first, -, -, rfl⟩ := SplitIndex.repeatedOption?_eq_some.1 found
    rfl
  · obtain ⟨⟨id, position⟩, -, found⟩ := List.mem_filterMap.1 wrong
    rcases SplitIndex.wrongWay?_eq_some.1 found with ⟨-, rfl⟩ | ⟨-, -, rfl⟩ <;> rfl
  · obtain ⟨⟨id, position⟩, -, found⟩ := List.mem_filterMap.1 without
    obtain ⟨-, -, rfl⟩ := SplitIndex.optionWithoutWay?_eq_some.1 found
    rfl

theorem BranchSettings.inner_of_findings {settings : BranchSettings} {options : Options}
    {finding : Finding} (member : finding ∈ settings.findings options) :
    finding.place.Inner := by
  rcases List.mem_append.1 member with empty | inGroups
  · split at empty
    · rw [List.mem_singleton.1 empty]
      rfl
    · cases empty
  · obtain ⟨rest, -, located, -⟩ := ConditionGroups.mem_findings inGroups
    rw [located]
    rfl

theorem SplitSettings.inner_of_findings {settings : SplitSettings} {wayIds : List String}
    {options : Options} {finding : Finding}
    (member : finding ∈ settings.findings wayIds options) : finding.place.Inner := by
  rcases SplitSettings.mem_findings member with matching | ⟨-, position, rest, located⟩
  · exact inner_of_matching matching
  · rw [located]
    rfl

theorem Step.inner_of_findings {step : Step α} {options : Options} {finding : Finding}
    (member : finding ∈ step.findings options) : finding.place.Inner := by
  rw [findings] at member
  cases task : step.task with
  | branch settings onSuccess onFailure =>
    rw [task] at member
    exact BranchSettings.inner_of_findings member
  | split settings branches =>
    rw [task] at member
    exact SplitSettings.inner_of_findings member
  | _ => rw [task] at member; cases member

theorem Node.inner_of_default {node : Node} {finding : Finding}
    (found : node.defaultFinding? = some finding) : finding.place.Inner := by
  rw [defaultFinding?] at found
  split at found
  · rw [SplitSettings.defaultFinding?] at found
    split at found <;> cases found
    rfl
  · cases found

/-! ### Located findings -/

/-- What a rule found: it points at something in its node, at a place within the node. -/
structure Finding.Within (finding : Finding) (node : Node) : Prop where
  points : finding.Points node
  inner : finding.place.Inner

theorem Node.within_of_findings {node : Node} {options : Options} {finding : Finding}
    (member : finding ∈ node.findings options) : finding.Within node := by
  rw [findings] at member
  cases stepped : node.step? with
  | none => rw [stepped] at member; cases member
  | some step =>
    rw [stepped] at member
    exact ⟨Step.points stepped member, Step.inner_of_findings member⟩

theorem Node.within_of_default {node : Node} {finding : Finding}
    (found : node.defaultFinding? = some finding) : finding.Within node :=
  ⟨Node.points_default found, Node.inner_of_default found⟩

theorem Node.within_name (node : Node) (firstPath : String) :
    Finding.Within ⟨[.field "name"], .duplicateName node.name firstPath⟩ node :=
  ⟨node.points_name firstPath, rfl⟩

/-- Different numbers of a listing have different paths. -/
theorem Trigger.number_eq_of_edgesTo {start : Trigger} {node node' : Node} {number number' : Nat}
    (numbered : (node, number) ∈ start.listing.numbered)
    (numbered' : (node', number') ∈ start.listing.numbered)
    (same : start.listing.visits.edgesTo number [] = start.listing.visits.edgesTo number' []) :
    number = number' := by
  have distinct : (start.listing.located.map (·.1)).Nodup := by
    rw [located_listing]
    exact (Node.trigger start).nodup_preorder
  rw [Walk.located, List.map_map] at distinct
  exact congrArg Prod.snd (List.inj_on_of_nodup_map distinct numbered numbered' same)

/-- The path of a violation tells the number of its node and the place in the node. -/
theorem Trigger.eq_of_path {start : Trigger} {node node' : Node} {number number' : Nat}
    {finding finding' : Finding} (numbered : (node, number) ∈ start.listing.numbered)
    (numbered' : (node', number') ∈ start.listing.numbered) (within : finding.Within node)
    (within' : finding'.Within node')
    (same : (start.listing.locate number finding).path =
      (start.listing.locate number' finding').path) :
    number = number' ∧ finding.place = finding'.place := by
  have segments := congrArg AccessPath.ofText same
  rw [(Walk.path_locate within.points start.listing number).2.2,
    (Walk.path_locate within'.points start.listing number').2.2] at segments
  obtain ⟨edges, places⟩ := stepSegments_append_inj within.inner within'.inner segments
  exact ⟨number_eq_of_edgesTo numbered numbered' edges, places⟩

end FlowGate
