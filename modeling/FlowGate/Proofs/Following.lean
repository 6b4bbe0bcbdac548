/-
This file follows a document along the continuations that its nodes own. The type of a node tells
which fields may lead on from it, and a value that stands under one of them and is not `null` is
where the edge leads; no order comes into it. A step that is read leads where its value does, and
so reading everything that follows a value succeeds or fails with what the value reaches: it
succeeds just if each of the values that are reached can be read and none lies too deep, and
otherwise one of them is what it fails at.
-/

import FlowGate.Proofs.Records

namespace FlowGate

/-! ### Edges of values -/

/-- The fields of continuations that nodes of a type own. -/
def ownedFields : String → List String
  | "BRANCH" => ["nextAction", "onSuccessAction", "onFailureAction"]
  | "SPLIT" => ["nextAction", "branches"]
  | "LOOP_ON_ITEMS" => ["nextAction", "firstLoopAction"]
  | _ => ["nextAction"]

theorem TriggerKind.ownedFields_kindName (kind : TriggerKind) :
    ownedFields kind.kindName = ["nextAction"] := by
  cases kind <;> rfl

/-- The field under which the continuation of an edge stands. -/
def Edge.field : Edge → String
  | .next => "nextAction"
  | .onSuccess => "onSuccessAction"
  | .onFailure => "onFailureAction"
  | .branch _ => "branches"
  | .loopBody => "firstLoopAction"

namespace Json

/-- Whether a node owns a field of continuations by its type. -/
def owns (field : String) : Json → Bool
  | .object fields => ((text? "type" fields).map ownedFields).any fun own => own.contains field
  | _ => false

/-- What a node leads to along an edge, if it owns the field of the edge; `null` is nothing. -/
def along (value : Json) (edge : Edge) : Option Json :=
  if value.owns edge.field then
    (edge.segments.follow value).filter fun child => !child.isNull
  else none

/-- What a node reaches through a path of edges. -/
def reach (value : Json) : List Edge → Option Json
  | [] => some value
  | edge :: path => (value.along edge).bind fun child => child.reach path

theorem owns_of_type {fields : List (String × Json)} {kind : String}
    (typed : text? "type" fields = some kind) (field : String) :
    (Json.object fields).owns field = (ownedFields kind).contains field := by
  rw [owns, typed]
  rfl

/-- What a path of edges reaches is what the segments of the edges lead to. -/
theorem follow_of_along {value child : Json} {edge : Edge} (found : value.along edge = some child) :
    edge.segments.follow value = some child ∧ child.isNull = false := by
  rw [along] at found
  split at found
  · obtain ⟨here, present⟩ := Option.filter_eq_some_iff.1 found
    exact ⟨here, by simpa using present⟩
  · cases found

theorem follow_of_reach {value target : Json} {path : List Edge}
    (reached : value.reach path = some target) :
    AccessPath.follow (path.flatMap Edge.segments) value = some target := by
  induction path generalizing value with
  | nil => exact reached
  | cons edge rest inductionHypothesis =>
    obtain ⟨child, here, later⟩ := Option.bind_eq_some_iff.1 reached
    rw [List.flatMap_cons, AccessPath.follow_append, (follow_of_along here).1, Option.bind_some,
      inductionHypothesis later]

end Json

/-! ### Steps that are read -/

namespace Reading

variable {fields : List (String × Json)}

/-- What stands under a field of its own, without `null`. -/
theorem along_field {edge : Edge} {kind : String} (typed : Json.text? "type" fields = some kind)
    (alone : edge.segments = [.field edge.field]) :
    (Json.object fields).along edge =
      if (ownedFields kind).contains edge.field then Json.present? edge.field fields else none := by
  rw [Json.along, Json.owns_of_type typed, alone, AccessPath.follow, Segment.follow,
    Json.present?]
  cases Json.field? edge.field fields <;> rfl

theorem next_of_branch {item : Json} {position : Nat} {way : Branch Json}
    (read : branch (item, position) = .ok way) :
    (AccessPath.follow [.field "nextAction"] item).filter (fun child => !child.isNull) =
      way.next := by
  obtain ⟨entries, object, read⟩ := bind_eq_ok.1 read
  obtain ⟨optionId, -, same⟩ := bind_eq_ok.1 read
  obtain rfl := entries_eq_ok.1 object
  cases same
  show _ = (Json.field? "nextAction" entries).filter _
  rw [AccessPath.follow, Segment.follow]
  cases Json.field? "nextAction" entries <;> rfl

/-- The ways that are read lead on where the items that they are read from do. -/
theorem next_of_items {items : List Json} {first : Nat} {ways : List (Branch Json)}
    (read : (items.zipIdx first).mapM branch = .ok ways) (index : Nat) :
    ((items[index]?).bind (AccessPath.follow [.field "nextAction"])).filter
        (fun child => !child.isNull) = ways[index]?.bind Branch.next := by
  induction items generalizing first ways index with
  | nil =>
    cases read
    rfl
  | cons item rest inductionHypothesis =>
    rw [List.zipIdx_cons, List.mapM_cons] at read
    obtain ⟨way, here, read⟩ := bind_eq_ok.1 read
    obtain ⟨others, later, same⟩ := bind_eq_ok.1 read
    cases same
    cases index with
    | zero => exact next_of_branch here
    | succ index => exact inductionHypothesis later index

theorem along_branch {index : Nat} {ways : List (Branch Json)}
    (typed : Json.text? "type" fields = some "SPLIT") (read : branches fields = .ok ways) :
    (Json.object fields).along (.branch index) = ways[index]?.bind Branch.next := by
  have owned : (Json.object fields).owns "branches" = true := by
    rw [Json.owns_of_type typed]
    rfl
  rw [Json.along, Edge.field, if_pos owned, Edge.segments, AccessPath.follow, Segment.follow]
  rw [branches, Json.present?] at read
  cases found : Json.field? "branches" fields with
  | none =>
    rw [found] at read
    cases read
    rfl
  | some value =>
    rw [found] at read
    cases value with
    | null => cases read; rfl
    | array items => exact @next_of_items items 0 _ read index
    | _ => cases read

/-- A node that owns no ways leads along an edge to what stands under the field of the edge. -/
theorem along_eq {kind : String} (typed : Json.text? "type" fields = some kind)
    (single : (ownedFields kind).contains "branches" = false) (edge : Edge) :
    (Json.object fields).along edge =
      if (ownedFields kind).contains edge.field then Json.present? edge.field fields else none := by
  cases edge with
  | branch index =>
    rw [Json.along, Json.owns_of_type typed, Edge.field, single]
    rfl
  | _ => exact along_field typed rfl

/-- A step that is read leads along every edge where its value leads. -/
theorem along_of_step {value : Json} {node : Step Json} (read : step value = .ok node)
    (edge : Edge) : value.along edge = node.along edge := by
  obtain ⟨fields, object, read⟩ := bind_eq_ok.1 read
  obtain ⟨kind, typed, read⟩ := bind_eq_ok.1 read
  obtain ⟨header, -, read⟩ := bind_eq_ok.1 read
  obtain ⟨work, done, same⟩ := bind_eq_ok.1 read
  obtain rfl := entries_eq_ok.1 object
  have typed := text?_of_required typed
  cases same
  unfold task at done
  split at done
  · obtain ⟨_, -, done⟩ := bind_eq_ok.1 done
    obtain ⟨settings, -, same⟩ := bind_eq_ok.1 done
    cases same
    rw [along_eq typed rfl]
    cases edge <;> rfl
  · obtain ⟨_, -, done⟩ := bind_eq_ok.1 done
    obtain ⟨settings, -, same⟩ := bind_eq_ok.1 done
    cases same
    rw [along_eq typed rfl]
    cases edge <;> rfl
  · obtain ⟨_, -, done⟩ := bind_eq_ok.1 done
    obtain ⟨settings, -, same⟩ := bind_eq_ok.1 done
    cases same
    rw [along_eq typed rfl]
    cases edge <;> rfl
  · obtain ⟨_, -, done⟩ := bind_eq_ok.1 done
    obtain ⟨settings, -, done⟩ := bind_eq_ok.1 done
    obtain ⟨ways, listed, same⟩ := bind_eq_ok.1 done
    cases same
    cases edge with
    | branch index => exact along_branch typed listed
    | _ => exact along_field typed rfl
  · obtain ⟨_, -, done⟩ := bind_eq_ok.1 done
    obtain ⟨settings, -, same⟩ := bind_eq_ok.1 done
    cases same
    rw [along_eq typed rfl]
    cases edge <;> rfl
  · cases done

/-- The continuations of a step that is read are where its value leads. -/
theorem mem_children_of_step {value child : Json} {node : Step Json} {edge : Edge}
    (read : step value = .ok node) :
    (edge, child) ∈ node.children ↔ value.along edge = some child := by
  rw [along_of_step read, Step.mem_children]

/-- A trigger that is read leads to its next action and nowhere else. -/
theorem along_of_triggerNode {value : Json} {start : Trigger} {next : Option Json}
    (read : triggerNode value = .ok (start, next)) (edge : Edge) :
    value.along edge = if edge = .next then next else none := by
  obtain ⟨fields, object, read⟩ := bind_eq_ok.1 read
  obtain ⟨kind, typed, read⟩ := bind_eq_ok.1 read
  obtain ⟨header, -, read⟩ := bind_eq_ok.1 read
  obtain ⟨work, done, read⟩ := bind_eq_ok.1 read
  obtain ⟨_, -, same⟩ := bind_eq_ok.1 read
  obtain rfl := entries_eq_ok.1 object
  cases same
  obtain rfl := kindName_of_triggerKind done
  have alone := work.ownedFields_kindName
  have typed := text?_of_required typed
  rw [along_eq typed (by rw [alone]; rfl), alone]
  cases edge <;> rfl

/-! ### Everything that follows a value -/

variable {options : Options}

/-- A value opens just if it is not too deep and is read as a step. -/
theorem opened_eq_ok_iff {depth : Nat} {place : Unit → AccessPath} {value : Json} :
    (∃ found, (opening options).opened depth place value = .ok found) ↔
      (∃ node, step value = .ok node) ∧ depth ≤ options.maxDepth.toNat := by
  simp only [opening]
  by_cases deep : options.maxDepth.toNat < depth
  · simp only [if_pos deep]
    constructor
    · rintro ⟨_, found⟩
      cases found
    · rintro ⟨_, shallow⟩
      omega
  · simp only [if_neg deep]
    cases step value with
    | error refusal => simp
    | ok node => simpa using Nat.le_of_not_lt deep

/-- Reading fails at one of the values that are reached, and at none that lies more than one edge
too deep: what it hangs off was opened. -/
theorem exists_reach_of_failed (value : Json) :
    ∀ {depth path refusal}, (opening options).grow depth path value = .error refusal →
      ∃ below target, value.reach below = some target ∧
        (depth ≤ options.maxDepth.toNat + 1 →
          depth + below.length ≤ options.maxDepth.toNat + 1) ∧
        (opening options).opened (depth + below.length)
          (fun () => stepSegments (path ++ below)) target = .error refusal := by
  generalize weighs : (opening options).weight value = weight
  induction weight using Nat.strongRecOn generalizing value with
  | ind weight inductionHypothesis =>
    intro depth path refusal failed
    subst weighs
    rcases Opening.grow_eq_error failed with here | ⟨item, children, child, opened, member, below⟩
    · exact ⟨[], value, rfl, id, by simpa using here⟩
    · obtain ⟨read, rfl⟩ := opened_eq_ok opened
      have lighter := (opening options).weight_lt_of_mem opened member
      obtain ⟨rest, target, reached, shallow, found⟩ :=
        inductionHypothesis _ lighter child.2 rfl below
      have depths : depth + (child.1 :: rest).length = depth + 1 + rest.length := by
        rw [List.length_cons, Nat.add_comm rest.length, Nat.add_assoc]
      refine ⟨child.1 :: rest, target, ?_, fun _ => ?_, ?_⟩
      · rw [Json.reach, (mem_children_of_step read).1 member, Option.bind_some, reached]
      · rw [depths]
        exact shallow (Nat.succ_le_succ (opened_eq_ok_iff.1 ⟨_, opened⟩).2)
      · rw [depths]
        rwa [List.append_assoc] at found

/-- Where a tree grows from a value, every value that is reached is read and is not too deep. -/
theorem step_of_reach {value target : Json} {below : List Edge} :
    ∀ {depth path tree}, (opening options).grow depth path value = .ok tree →
      value.reach below = some target →
      (∃ node, step target = .ok node) ∧ depth + below.length ≤ options.maxDepth.toNat := by
  induction below generalizing value with
  | nil =>
    intro depth path tree grown reached
    cases reached
    obtain ⟨item, children, -, opened, -⟩ := Opening.grow_eq_ok grown
    exact opened_eq_ok_iff.1 ⟨_, opened⟩
  | cons edge rest inductionHypothesis =>
    intro depth path tree grown reached
    obtain ⟨item, children, forest, opened, grownAll, -⟩ := Opening.grow_eq_ok grown
    obtain ⟨child, here, later⟩ := Option.bind_eq_some_iff.1 reached
    obtain ⟨read, rfl⟩ := opened_eq_ok opened
    obtain ⟨tree', below⟩ := Opening.grow_of_growAll grownAll ((mem_children_of_step read).2 here)
    obtain ⟨node, shallow⟩ := inductionHypothesis below later
    rw [Nat.add_assoc, Nat.add_comm 1] at shallow
    exact ⟨node, shallow⟩

/-- A tree grows from a value just if every value that is reached is read and is not too deep. -/
theorem exists_grow_iff {value : Json} {depth : Nat} {path : List Edge} :
    (∃ tree, (opening options).grow depth path value = .ok tree) ↔
      ∀ below target, value.reach below = some target →
        (∃ node, step target = .ok node) ∧ depth + below.length ≤ options.maxDepth.toNat := by
  constructor
  · rintro ⟨tree, grown⟩ below target reached
    exact step_of_reach grown reached
  · intro each
    cases outcome : (opening options).grow depth path value with
    | ok tree => exact ⟨tree, rfl⟩
    | error refusal =>
      obtain ⟨below, target, reached, -, failed⟩ := exists_reach_of_failed value outcome
      obtain ⟨found, opened⟩ := opened_eq_ok_iff.2 (each below target reached)
      cases failed.symm.trans opened

end Reading

end FlowGate
