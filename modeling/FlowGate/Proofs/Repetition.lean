/-
This file says which nodes of a walk are reported for their names. Of the nodes with one name the
first is right, and each of the others is reported once, with the path of the first one, however
many lie between them. A name first stands in the list of names where no earlier entry is the same,
so the entries that are not reported hold each name once, and counting them counts the names.
-/

import FlowGate.Proofs.Pointing
import Mathlib.Data.Finset.Card

namespace FlowGate

/-! ### Later entries of a list of names -/

/-- As many entries are the first with their name as there are names. -/
theorem length_firsts (names : List String) :
    (names.zipIdx.filter fun entry => decide (names.idxOf? entry.1 = some entry.2)).length =
      names.toFinset.card := by
  generalize firsts : (names.zipIdx.filter fun entry =>
    decide (names.idxOf? entry.1 = some entry.2)) = entries
  have member : ∀ {name position}, (name, position) ∈ entries ↔
      names.idxOf? name = some position := by
    intro name position
    rw [← firsts, List.mem_filter, List.mem_zipIdx_iff_getElem?, decide_eq_true_iff]
    exact and_iff_right_of_imp getElem?_of_idxOf?
  have distinct : (entries.map Prod.fst).Nodup := by
    have positions : (names.zipIdx.map Prod.snd).Nodup := by
      rw [List.zipIdx_map_snd]
      exact List.nodup_range'
    refine List.Nodup.map_on ?_ (firsts ▸ (positions.of_map _).filter _)
    rintro ⟨name, position⟩ found ⟨name', position'⟩ found' same
    cases same
    rw [Option.some.inj ((member.1 found).symm.trans (member.1 found'))]
  have names' : names.toFinset = (entries.map Prod.fst).toFinset := by
    ext name
    simp only [List.mem_toFinset, List.mem_map, Prod.exists, exists_and_right, exists_eq_right,
      member]
    exact mem_iff_idxOf?
  rw [names', List.toFinset_card_of_nodup distinct, List.length_map]

/-- What is found in a list, each with the item that it was found in. -/
theorem forall₂_filterMap {find : α → Option β} {related : α → β → Prop} {items : List α}
    (each : ∀ item ∈ items, ∀ found, find item = some found → related item found) :
    List.Forall₂ related (items.filter fun item => (find item).isSome) (items.filterMap find) := by
  induction items with
  | nil => exact .nil
  | cons item rest inductionHypothesis =>
    have later := inductionHypothesis fun other member => each other (List.mem_cons_of_mem _ member)
    cases found : find item with
    | none =>
      rw [List.filter_cons_of_neg (by simp [found]), List.filterMap_cons_none found]
      exact later
    | some value =>
      rw [List.filter_cons_of_pos (by simp [found]), List.filterMap_cons_some found]
      exact .cons (each item List.mem_cons_self value found) later

/-! ### Names of a walk -/

namespace Walk

variable {walk : Walk} {node : Node} {number : Nat}

/-- The violations of a walk that some name is used again. -/
def duplicateNames (walk : Walk) : List Violation :=
  walk.treeViolations.filter fun violation => violation.kind == .duplicateName

/-- The nodes that are found to have the name of an earlier one, with their numbers. -/
def repeating (walk : Walk) : List (Node × Nat) :=
  walk.numbered.filter fun numbered =>
    (walk.repeatedName? (firstPositions walk.names) numbered).isSome

theorem name_of_numbered (numbered : (node, number) ∈ walk.numbered) :
    walk.names[number]? = some node.name := by
  have here : walk.nodes[number]? = some node := List.mem_zipIdx_iff_getElem?.1 numbered
  rw [names_eq, List.getElem?_map, here, Option.map_some]

theorem exists_numbered {name : String} (named : walk.names[number]? = some name) :
    ∃ node, (node, number) ∈ walk.numbered ∧ node.name = name := by
  rw [names_eq, List.getElem?_map] at named
  obtain ⟨node, here, same⟩ := Option.map_eq_some_iff.1 named
  exact ⟨node, List.mem_zipIdx_iff_getElem?.2 here, same⟩

theorem isSome_repeatedName? (numbered : (node, number) ∈ walk.numbered) :
    (walk.repeatedName? (firstPositions walk.names) (node, number)).isSome = true ↔
      walk.names.idxOf? node.name ≠ some number := by
  obtain ⟨first, found, le⟩ := idxOf?_le (name_of_numbered numbered)
  rw [Option.isSome_iff_exists]
  simp only [repeatedName?_eq_some, found, Option.some.injEq, exists_eq_left', ne_eq]
  constructor
  · rintro ⟨_, before, -⟩
    omega
  · intro differs
    exact ⟨_, by omega, rfl⟩

end Walk

theorem Node.breach_of_defaultFinding? {node : Node} {finding : Finding}
    (found : node.defaultFinding? = some finding) :
    ∃ id, finding.breach = .invalidDefaultBranch id := by
  rw [defaultFinding?] at found
  split at found
  · rw [SplitSettings.defaultFinding?] at found
    split at found <;> cases found
    exact ⟨_, rfl⟩
  · cases found

namespace Walk

variable {walk : Walk} {node : Node} {number : Nat}

theorem kind_of_repeatedName? {known : Std.HashMap String Nat} {numbered : Node × Nat}
    {violation : Violation} (found : walk.repeatedName? known numbered = some violation) :
    violation.kind = .duplicateName := by
  rw [repeatedName?] at found
  split at found
  · split at found <;> cases found
    rfl
  · cases found

theorem kind_of_defaultFinding? {violation : Violation}
    (found : node.defaultFinding?.map (walk.locate number) = some violation) :
    violation.kind = .invalidDefaultBranch := by
  obtain ⟨finding, here, rfl⟩ := Option.map_eq_some_iff.1 found
  obtain ⟨id, breach⟩ := Node.breach_of_defaultFinding? here
  show finding.breach.kind = _
  rw [breach]
  rfl

/-- What is found of names is of the kind, and what is found of default branches is not. -/
theorem duplicateNames_eq (walk : Walk) :
    walk.duplicateNames =
      walk.numbered.filterMap (walk.repeatedName? (firstPositions walk.names)) := by
  rw [duplicateNames, treeViolations, List.filter_append, List.filter_eq_self.2,
    List.filter_eq_nil_iff.2, List.append_nil]
  · intro violation member
    obtain ⟨⟨node, number⟩, -, found⟩ := List.mem_filterMap.1 member
    rw [kind_of_defaultFinding? found]
    exact Bool.false_ne_true
  · intro violation member
    obtain ⟨⟨node, number⟩, -, found⟩ := List.mem_filterMap.1 member
    rw [kind_of_repeatedName? found]
    rfl

/-! ### What is reported of a name -/

/-- A violation says of the node with a number that its name is the name of an earlier node. -/
def Reports (walk : Walk) (number : Nat) (violation : Violation) : Prop :=
  ∃ name first, walk.names[number]? = some name ∧ walk.names[first]? = some name ∧
    (∀ earlier < first, walk.names[earlier]? ≠ some name) ∧
    violation = {
      path := walk.path number ++ ".name"
      kind := .duplicateName
      message := s!"step name '{name}' is already used by the node at '{walk.path first}'"
      node := some number }

theorem locate_name (walk : Walk) (number : Nat) (node : Node) (firstPath : String) :
    walk.locate number ⟨[.field "name"], .duplicateName node.name firstPath⟩ = {
      path := walk.path number ++ ".name"
      kind := .duplicateName
      message := s!"step name '{node.name}' is already used by the node at '{firstPath}'"
      node := some number } := by
  have path := (walk.path_locate (node.points_name firstPath) number).2.1
  have text : "." ++ AccessPath.render [.field "name"] = ".name" := by decide
  rw [String.append_assoc, text] at path
  rw [← path]
  rfl

theorem reports_of_found {violation : Violation} (numbered : (node, number) ∈ walk.numbered)
    (found : walk.repeatedName? (firstPositions walk.names) (node, number) = some violation) :
    walk.Reports number violation := by
  obtain ⟨first, here, -, rfl⟩ := repeatedName?_eq_some.1 found
  obtain ⟨named, earliest⟩ := idxOf?_eq_some_iff_first.1 here
  exact ⟨node.name, first, name_of_numbered numbered, named, earliest, walk.locate_name _ _ _⟩

/-- The numbers of the nodes that have the name of an earlier one. -/
theorem mem_numbers_repeating :
    number ∈ walk.repeating.map Prod.snd ↔ ∃ name, walk.names[number]? = some name ∧
      ∃ earlier < number, walk.names[earlier]? = some name := by
  rw [repeating, List.mem_map]
  constructor
  · rintro ⟨⟨node, number⟩, member, rfl⟩
    obtain ⟨numbered, found⟩ := List.mem_filter.1 member
    have named := name_of_numbered numbered
    exact ⟨node.name, named, (idxOf?_ne_iff named).1 ((isSome_repeatedName? numbered).1 found)⟩
  · rintro ⟨name, named, earlier⟩
    obtain ⟨node, numbered, rfl⟩ := exists_numbered named
    have found := (isSome_repeatedName? numbered).2 ((idxOf?_ne_iff named).2 earlier)
    exact ⟨(node, number), List.mem_filter.2 ⟨numbered, found⟩, rfl⟩

/-- The nodes that are not reported have all names, each of them once: a node is passed over just
where its name stands for the first time. -/
theorem length_repeating (walk : Walk) :
    walk.repeating.length + walk.names.toFinset.card = walk.visits.size := by
  have entries : walk.names.zipIdx = walk.numbered.map (Prod.map Node.name id) := by
    rw [names_eq, List.zipIdx_map]
    rfl
  have firsts : (walk.names.zipIdx.filter fun entry =>
      decide (walk.names.idxOf? entry.1 = some entry.2)).length =
        (walk.numbered.filter fun numbered =>
          !(walk.repeatedName? (firstPositions walk.names) numbered).isSome).length := by
    rw [entries, List.filter_map, List.length_map]
    refine congrArg List.length (List.filter_congr ?_)
    rintro ⟨node, number⟩ numbered
    show decide (walk.names.idxOf? node.name = some number) = _
    rw [Bool.eq_iff_iff, decide_eq_true_iff, Bool.not_eq_true', ← Bool.not_eq_true,
      isSome_repeatedName? numbered, not_not]
  have size : walk.numbered.length = walk.visits.size := by
    rw [numbered, List.length_zipIdx, List.length_map, Array.length_toList]
  rw [← length_firsts, firsts, ← size]
  exact (List.length_eq_length_filter_add fun numbered =>
    (walk.repeatedName? (firstPositions walk.names) numbered).isSome).symm

/-- Of the nodes of a walk those are reported for their names, in the order of their numbers and
each of them once, that have the name of an earlier node. What is reported of a node gives its own
path and the path of the first node with the name. So as many nodes are reported as there are nodes
less the number of their names, and the first node with a name never is. -/
theorem duplicateNames_exact (walk : Walk) :
    (∃ numbers : List Nat, numbers.Pairwise (· < ·) ∧
      (∀ number, number ∈ numbers ↔ ∃ name, walk.names[number]? = some name ∧
        ∃ earlier < number, walk.names[earlier]? = some name) ∧
      List.Forall₂ walk.Reports numbers walk.duplicateNames) ∧
    walk.duplicateNames.length + walk.names.toFinset.card = walk.visits.size ∧
    ∀ number name, walk.names[number]? = some name →
      (∀ earlier < number, walk.names[earlier]? ≠ some name) →
        ∀ violation ∈ walk.duplicateNames, violation.node ≠ some number := by
  have reports : List.Forall₂ walk.Reports (walk.repeating.map Prod.snd) walk.duplicateNames := by
    rw [duplicateNames_eq, List.forall₂_map_left_iff]
    exact forall₂_filterMap fun _ numbered _ found => reports_of_found numbered found
  have ascending : (walk.repeating.map Prod.snd).Pairwise (· < ·) := by
    have all : (walk.numbered.map Prod.snd).Pairwise (· < ·) := by
      rw [numbered, List.zipIdx_map_snd]
      exact List.pairwise_lt_range'
    exact all.sublist (List.filter_sublist.map Prod.snd)
  refine ⟨⟨_, ascending, fun _ => mem_numbers_repeating, reports⟩, ?_, ?_⟩
  · rw [← reports.length_eq, List.length_map]
    exact walk.length_repeating
  · intro number name named earliest violation member same
    rw [duplicateNames_eq] at member
    obtain ⟨⟨node, number'⟩, numbered, found⟩ := List.mem_filterMap.1 member
    obtain ⟨first, here, before, rfl⟩ := repeatedName?_eq_some.1 found
    cases same
    cases named.symm.trans (name_of_numbered numbered)
    exact earliest first before (getElem?_of_idxOf? here)

end Walk

/-- A walk in which the first, the third and the fourth node have one name. -/
def Walk.thrice : Walk :=
  let leaf : Action := .mk ⟨⟨"start", "Again", true⟩, .loop ⟨"items", none⟩ none, none⟩
  let fork : Action :=
    .mk ⟨⟨"check", "Check", true⟩, .branch ⟨[], none⟩ (some leaf) (some leaf), none⟩
  ⟨#[⟨.trigger ⟨⟨"start", "Start", true⟩, .empty [], some fork⟩, 0, none, none⟩,
    ⟨.action fork, 1, some 0, some .next⟩, ⟨.action leaf, 2, some 1, some .onSuccess⟩,
    ⟨.action leaf, 2, some 1, some .onFailure⟩]⟩

namespace Walk

theorem duplicateNames_exact_thrice :
    thrice.duplicateNames.length = 2 ∧
      ∀ violation ∈ thrice.duplicateNames, violation.node ≠ some 0 := by
  obtain ⟨-, count, first⟩ := duplicateNames_exact thrice
  have names : thrice.names = ["start", "check", "start", "start"] := rfl
  refine ⟨?_, first 0 "start" rfl fun earlier before => absurd before (Nat.not_lt_zero _)⟩
  rw [names] at count
  exact Nat.add_right_cancel count

end Walk

end FlowGate
