/-
This file says what is reported of a split when its options and its ways do not match. Each rule
goes over a list of ids and reports some of its positions, so what it reports is told by which
positions these are: later ones with an id that an earlier one has, and first ones with an id that
the other list has not. A position is never both, which is why no way is reported twice, and an id
stands at one first position of a list, which is why no id is reported twice as unmatched.
-/

import FlowGate.Proofs.Repetition
import Mathlib.Data.Finset.SymmDiff

namespace FlowGate

/-! ### Positions of a list of names -/

theorem mem_take_iff {names : List String} {name : String} {position : Nat} :
    name ∈ names.take position ↔ ∃ earlier < position, names[earlier]? = some name := by
  simp only [List.mem_iff_getElem?, List.getElem?_take]
  refine exists_congr fun earlier => ?_
  by_cases before : earlier < position <;> simp [before]

/-- The first position of a name is the one before which the name does not stand. -/
theorem idxOf?_eq_some_iff_take {names : List String} {name : String} {first : Nat} :
    names.idxOf? name = some first ↔ names[first]? = some name ∧ name ∉ names.take first := by
  rw [idxOf?_eq_some_iff_first, mem_take_iff]
  simp

/-- The name at a position stands there for the first time unless it stands before. -/
theorem idxOf?_iff_not_mem_take {names : List String} {name : String} {position : Nat}
    (here : names[position]? = some name) :
    names.idxOf? name = some position ↔ name ∉ names.take position := by
  rw [idxOf?_eq_some_iff_take, and_iff_right here]

/-- The entries of a list stand in the order of their positions. -/
theorem pairwise_zipIdx (items : List α) :
    items.zipIdx.Pairwise fun entry later => entry.2 < later.2 := by
  rw [← List.pairwise_map (f := Prod.snd) (R := (· < ·)), List.zipIdx_map_snd]
  exact List.pairwise_lt_range'

/-- A name stands for the first time at one position if it stands in the list at all. -/
theorem countP_first (names : List String) (name : String) :
    (names.zipIdx.countP fun entry =>
      decide (entry.1 = name ∧ names.idxOf? entry.1 = some entry.2)) =
        if name ∈ names then 1 else 0 := by
  by_cases member : name ∈ names
  · obtain ⟨first, found⟩ := mem_iff_idxOf?.1 member
    have listed : (name, first) ∈ names.zipIdx :=
      List.mem_zipIdx_iff_getElem?.2 (getElem?_of_idxOf? found)
    have distinct : names.zipIdx.Nodup :=
      (pairwise_zipIdx names).imp fun before same => Nat.ne_of_lt before (congrArg Prod.snd same)
    rw [if_pos member, ← List.count_eq_one_of_mem distinct listed, List.count]
    refine List.countP_congr ?_
    rintro ⟨other, position⟩ -
    simp only [decide_eq_true_eq, beq_iff_eq, Prod.mk.injEq]
    refine and_congr_right ?_
    rintro rfl
    rw [found, Option.some.injEq, eq_comm]
  · rw [if_neg member, List.countP_eq_zero]
    rintro ⟨other, position⟩ listed holds
    obtain ⟨rfl, -⟩ := of_decide_eq_true holds
    exact member (List.mem_of_getElem? (List.mem_zipIdx_iff_getElem?.1 listed))

/-! ### Reports -/

/-- The findings of one kind. -/
def ofKind (kind : Violation.Kind) (findings : List Finding) : List Finding :=
  findings.filter fun finding => finding.breach.kind == kind

/-- A finding is about a breach, and is reported at a path in its node with a message. -/
def Finding.Tells (finding : Finding) (breach : Breach) (path message : String) : Prop :=
  finding.breach = breach ∧ finding.violation = .plain breach.kind path message

/-- Findings are listed for just those positions of a list of names that are meant, in their order
and one for each, and tell what there is to tell of the position. -/
def ListedAt (names : List String) (meant : Nat → String → Prop)
    (tells : Nat → String → Finding → Prop) (findings : List Finding) : Prop :=
  ∃ positions : List Nat, positions.Pairwise (· < ·) ∧
    (∀ position, position ∈ positions ↔
      ∃ name, names[position]? = some name ∧ meant position name) ∧
    List.Forall₂ (fun position finding =>
      ∃ name, names[position]? = some name ∧ tells position name finding) positions findings

/-- The kinds of violation that are about how options and ways match. -/
def matchingKinds : List Violation.Kind :=
  [.splitRequiresBranch, .duplicateOptionId, .duplicateBranch, .unknownBranchOption,
    .missingBranch]

/-- What is found in a split whose options have these ids and whose ways name those. -/
structure MatchingReport (optionIds wayIds : List String) (findings : List Finding) : Prop where
  /-- Options whose id an earlier one has, with the first position of the id. -/
  repeatedOptions : ListedAt optionIds (fun position id => id ∈ optionIds.take position)
    (fun position id finding => ∃ first, optionIds[first]? = some id ∧
      id ∉ optionIds.take first ∧
      finding.Tells (.duplicateOptionId id first) s!"settings.options[{position}].id"
        s!"option id '{id}' is already used by settings.options[{first}]")
    (ofKind .duplicateOptionId findings)
  /-- Ways that name what an earlier one names. -/
  repeatedWays : ListedAt wayIds (fun position id => id ∈ wayIds.take position)
    (fun position id finding => finding.Tells (.duplicateBranch id)
      s!"branches[{position}].optionId" s!"option '{id}' has more than one branch")
    (ofKind .duplicateBranch findings)
  /-- The first ways that name something which is no option. -/
  unknownOptions : ListedAt wayIds
    (fun position id => id ∉ wayIds.take position ∧ id ∉ optionIds)
    (fun position id finding => finding.Tells (.unknownBranchOption id)
      s!"branches[{position}].optionId"
      s!"branch references option '{id}' which is not declared in settings.options")
    (ofKind .unknownBranchOption findings)
  /-- The first options with an id that no way names. -/
  missingWays : ListedAt optionIds
    (fun position id => id ∉ optionIds.take position ∧ id ∉ wayIds)
    (fun position id finding => finding.Tells (.missingBranch id)
      s!"settings.options[{position}].id" s!"option '{id}' has no matching branch")
    (ofKind .missingBranch findings)
  emptiness : (ofKind .splitRequiresBranch findings).map Finding.violation =
    if optionIds = [] then
      [.plain .splitRequiresBranch "settings.options" "split requires at least one branch"]
    else if wayIds = [] then
      [.plain .splitRequiresBranch "branches" "split requires at least one branch"]
    else []
  /-- An id that only one of the two lists has is reported once, and no other one is. -/
  once : ∀ id, (findings.map Finding.breach).count (.unknownBranchOption id) +
    (findings.map Finding.breach).count (.missingBranch id) =
      if id ∈ symmDiff optionIds.toFinset wayIds.toFinset then 1 else 0
  /-- No way has two violations. -/
  single : ∀ position, (findings.map Finding.place).count (wayPlace position) ≤ 1
  silent : (∀ finding ∈ findings, finding.breach.kind ∉ matchingKinds) ↔
    (optionIds ≠ [] ∧ wayIds ≠ []) ∧ optionIds.Nodup ∧ wayIds.Nodup ∧
      optionIds.toFinset = wayIds.toFinset

/-! ### Findings of one kind -/

theorem ofKind_append (kind : Violation.Kind) (first second : List Finding) :
    ofKind kind (first ++ second) = ofKind kind first ++ ofKind kind second :=
  List.filter_append ..

theorem ofKind_eq_self {kind : Violation.Kind} {findings : List Finding}
    (all : ∀ finding ∈ findings, finding.breach.kind = kind) : ofKind kind findings = findings :=
  List.filter_eq_self.2 fun finding member => beq_iff_eq.2 (all finding member)

theorem ofKind_eq_nil {kind : Violation.Kind} {findings : List Finding}
    (none : ∀ finding ∈ findings, finding.breach.kind ≠ kind) : ofKind kind findings = [] :=
  List.filter_eq_nil_iff.2 fun finding member same => none finding member (beq_iff_eq.1 same)

/-- What a rule finds of one kind at the positions of a list is listed at those where it finds
something of the kind. -/
theorem listedAt_ofKind {names : List String} {find : String × Nat → Option Finding}
    {kind : Violation.Kind} {meant : Nat → String → Prop} {tells : Nat → String → Finding → Prop}
    (sound : ∀ position name, names[position]? = some name → ∀ finding,
      find (name, position) = some finding → finding.breach.kind = kind →
        meant position name ∧ tells position name finding)
    (complete : ∀ position name, names[position]? = some name → meant position name →
      ∃ finding, find (name, position) = some finding ∧ finding.breach.kind = kind) :
    ListedAt names meant tells (ofKind kind (names.zipIdx.filterMap find)) := by
  rw [ofKind, List.filter_filterMap]
  generalize chosen : (fun entry => (find entry).filter fun finding => finding.breach.kind == kind)
    = choose
  have choose_iff : ∀ {entry finding}, choose entry = some finding ↔
      find entry = some finding ∧ finding.breach.kind = kind := by
    intro entry finding
    rw [← chosen, Option.filter_eq_some_iff, beq_iff_eq]
  refine ⟨(names.zipIdx.filter fun entry => (choose entry).isSome).map Prod.snd, ?_, ?_, ?_⟩
  · rw [List.pairwise_map]
    exact (pairwise_zipIdx names).filter _
  · intro position
    simp only [List.mem_map, List.mem_filter, Option.isSome_iff_exists, choose_iff]
    constructor
    · rintro ⟨⟨name, position⟩, ⟨listed, finding, found, same⟩, rfl⟩
      have here := List.mem_zipIdx_iff_getElem?.1 listed
      exact ⟨name, here, (sound position name here finding found same).1⟩
    · rintro ⟨name, here, meant⟩
      obtain ⟨finding, found, same⟩ := complete position name here meant
      exact ⟨(name, position), ⟨List.mem_zipIdx_iff_getElem?.2 here, finding, found, same⟩, rfl⟩
  · rw [List.forall₂_map_left_iff]
    refine forall₂_filterMap fun entry listed finding found => ?_
    obtain ⟨found, same⟩ := choose_iff.1 found
    have here := List.mem_zipIdx_iff_getElem?.1 listed
    exact ⟨entry.1, here, (sound entry.2 entry.1 here finding found same).2⟩

/-! ### Paths and messages -/

theorem render_optionId (position : Nat) :
    (optionPlace position ++ [Segment.field "id"]).render =
      s!"settings.options[{position}].id" := by
  simp [optionPlace, optionsPlace, AccessPath.render, Segment.extend, indexPath, fieldPath,
    String.append_assoc, toString]

theorem render_wayPlace (position : Nat) :
    (wayPlace position).render = s!"branches[{position}].optionId" := by
  simp [wayPlace, AccessPath.render, Segment.extend, indexPath, fieldPath, String.append_assoc,
    toString]

theorem render_option (position : Nat) :
    (optionsPlace ++ [Segment.index position]).render = s!"settings.options[{position}]" := by
  simp [optionsPlace, AccessPath.render, Segment.extend, indexPath, fieldPath,
    String.append_assoc, toString]

/-- The message holds the text of a path, so its words are two literals that meet there. -/
theorem message_duplicateOptionId (id : String) (first : Nat) :
    (Breach.duplicateOptionId id first).message =
      s!"option id '{id}' is already used by settings.options[{first}]" := by
  have words : "' is already used by settings.options[" =
      "' is already used by " ++ "settings.options[" := by decide
  show s!"option id '{id}' is already used by {(optionsPlace ++ [Segment.index first]).render}" = _
  simp only [render_option, toString, words, String.append_assoc]

theorem Finding.tells_of_place {place : AccessPath} {breach : Breach} {path message : String}
    (rendered : place.render = path) (words : breach.message = message) :
    Finding.Tells ⟨place, breach⟩ breach path message := by
  subst rendered words
  exact ⟨rfl, rfl⟩

/-! ### What the rules about matching find -/

/-- The index of the options of a split and of what its ways name. -/
def SplitIndex.of (optionIds wayIds : List String) : SplitIndex :=
  ⟨firstPositions optionIds, firstPositions wayIds⟩

namespace SplitIndex

variable {optionIds wayIds : List String} {id : String} {position : Nat} {finding : Finding}

theorem repeatedOption?_iff :
    (of optionIds wayIds).repeatedOption? (id, position) = some finding ↔
      ∃ first, optionIds.idxOf? id = some first ∧ first < position ∧
        finding = ⟨optionPlace position ++ [.field "id"], .duplicateOptionId id first⟩ := by
  rw [repeatedOption?_eq_some, of, getElem?_firstPositions]

theorem wrongWay?_iff :
    (of optionIds wayIds).wrongWay? (id, position) = some finding ↔
      (wayIds.idxOf? id ≠ some position ∧
          finding = ⟨wayPlace position, .duplicateBranch id⟩) ∨
        (wayIds.idxOf? id = some position ∧ id ∉ optionIds ∧
          finding = ⟨wayPlace position, .unknownBranchOption id⟩) := by
  rw [wrongWay?_eq_some, of, getElem?_firstPositions, ← Bool.not_eq_true, contains_firstPositions]

theorem optionWithoutWay?_iff :
    (of optionIds wayIds).optionWithoutWay? (id, position) = some finding ↔
      optionIds.idxOf? id = some position ∧ id ∉ wayIds ∧
        finding = ⟨optionPlace position ++ [.field "id"], .missingBranch id⟩ := by
  rw [optionWithoutWay?_eq_some, of, getElem?_firstPositions, ← Bool.not_eq_true,
    contains_firstPositions]

/-! Each rule has kinds of violation of its own. -/

theorem kind_of_emptiness (member : finding ∈ emptiness optionIds wayIds) :
    finding.breach.kind = .splitRequiresBranch := by
  rw [emptiness] at member
  split at member
  · rw [List.mem_singleton.1 member]
    rfl
  · split at member
    · rw [List.mem_singleton.1 member]
      rfl
    · cases member

theorem kind_of_repeatedOption
    (member : finding ∈ optionIds.zipIdx.filterMap (of optionIds wayIds).repeatedOption?) :
    finding.breach.kind = .duplicateOptionId := by
  obtain ⟨⟨id, position⟩, -, found⟩ := List.mem_filterMap.1 member
  obtain ⟨first, -, -, rfl⟩ := repeatedOption?_iff.1 found
  rfl

theorem kind_of_wrongWay
    (member : finding ∈ wayIds.zipIdx.filterMap (of optionIds wayIds).wrongWay?) :
    finding.breach.kind = .duplicateBranch ∨ finding.breach.kind = .unknownBranchOption := by
  obtain ⟨⟨id, position⟩, -, found⟩ := List.mem_filterMap.1 member
  rcases wrongWay?_iff.1 found with ⟨-, rfl⟩ | ⟨-, -, rfl⟩
  · exact Or.inl rfl
  · exact Or.inr rfl

theorem kind_of_optionWithoutWay
    (member : finding ∈ optionIds.zipIdx.filterMap (of optionIds wayIds).optionWithoutWay?) :
    finding.breach.kind = .missingBranch := by
  obtain ⟨⟨id, position⟩, -, found⟩ := List.mem_filterMap.1 member
  obtain ⟨-, -, rfl⟩ := optionWithoutWay?_iff.1 found
  rfl

end SplitIndex

/-- The findings of a kind come from the rule that the kind belongs to. -/
theorem ofKind_matchingFindings (optionIds wayIds : List String) (kind : Violation.Kind) :
    ofKind kind (matchingFindings optionIds wayIds) =
      match kind with
      | .splitRequiresBranch => SplitIndex.emptiness optionIds wayIds
      | .duplicateOptionId =>
        ofKind kind (optionIds.zipIdx.filterMap (SplitIndex.of optionIds wayIds).repeatedOption?)
      | .duplicateBranch | .unknownBranchOption =>
        ofKind kind (wayIds.zipIdx.filterMap (SplitIndex.of optionIds wayIds).wrongWay?)
      | .missingBranch =>
        ofKind kind
          (optionIds.zipIdx.filterMap (SplitIndex.of optionIds wayIds).optionWithoutWay?)
      | _ => [] := by
  have parts : matchingFindings optionIds wayIds =
      SplitIndex.emptiness optionIds wayIds ++
        optionIds.zipIdx.filterMap (SplitIndex.of optionIds wayIds).repeatedOption? ++
        wayIds.zipIdx.filterMap (SplitIndex.of optionIds wayIds).wrongWay? ++
        optionIds.zipIdx.filterMap (SplitIndex.of optionIds wayIds).optionWithoutWay? := rfl
  have emptiness : kind ≠ .splitRequiresBranch →
      ofKind kind (SplitIndex.emptiness optionIds wayIds) = [] := fun other =>
    ofKind_eq_nil fun _ member same => other (same ▸ SplitIndex.kind_of_emptiness member)
  have repeated : kind ≠ .duplicateOptionId → ofKind kind
      (optionIds.zipIdx.filterMap (SplitIndex.of optionIds wayIds).repeatedOption?) = [] :=
    fun other => ofKind_eq_nil fun _ member same =>
      other (same ▸ SplitIndex.kind_of_repeatedOption member)
  have wrong : kind ≠ .duplicateBranch → kind ≠ .unknownBranchOption → ofKind kind
      (wayIds.zipIdx.filterMap (SplitIndex.of optionIds wayIds).wrongWay?) = [] :=
    fun other another => ofKind_eq_nil fun _ member same =>
      (SplitIndex.kind_of_wrongWay member).elim (fun found => other (same ▸ found))
        fun found => another (same ▸ found)
  have without : kind ≠ .missingBranch → ofKind kind
      (optionIds.zipIdx.filterMap (SplitIndex.of optionIds wayIds).optionWithoutWay?) = [] :=
    fun other => ofKind_eq_nil fun _ member same =>
      other (same ▸ SplitIndex.kind_of_optionWithoutWay member)
  rw [parts, ofKind_append, ofKind_append, ofKind_append]
  cases kind <;> simp [emptiness, repeated, wrong, without]
  exact ofKind_eq_self fun _ member => SplitIndex.kind_of_emptiness member

theorem mem_matchingKinds_of_matching {optionIds wayIds : List String} {finding : Finding}
    (member : finding ∈ matchingFindings optionIds wayIds) :
    finding.breach.kind ∈ matchingKinds := by
  have listed : finding ∈ ofKind finding.breach.kind (matchingFindings optionIds wayIds) :=
    List.mem_filter.2 ⟨member, beq_self_eq_true _⟩
  rw [ofKind_matchingFindings] at listed
  cases kind : finding.breach.kind <;> rw [kind] at listed <;> first | decide | cases listed

/-! ### Conditions are another matter -/

theorem ConditionGroups.kind_of_findings {groups : ConditionGroups} {place : AccessPath}
    {rejectEmpty : Bool} {finding : Finding}
    (member : finding ∈ groups.findings place rejectEmpty) :
    finding.breach.kind = .emptyConditionGroup ∨ finding.breach.kind = .unknownOperator := by
  obtain ⟨⟨group, position⟩, -, found⟩ := List.mem_flatMap.1 member
  rcases List.mem_append.1 found with empty | unknown
  · split at empty
    · rw [List.mem_singleton.1 empty]
      exact Or.inl rfl
    · cases empty
  · obtain ⟨⟨condition, number⟩, -, found⟩ := List.mem_filterMap.1 unknown
    obtain ⟨rfl, -⟩ := Condition.finding?_eq_some found
    exact Or.inr rfl

/-- What is found in the conditions of options is not about how options and ways match, and lies
within the option. -/
theorem SplitOption.apart_of_findings {defaultBranch : String} {options : Options}
    {option : SplitOption} {position : Nat} {finding : Finding}
    (member : finding ∈ findings defaultBranch options (option, position)) :
    finding.breach.kind ∉ matchingKinds ∧ ∃ rest, finding.place = optionPlace position ++ rest := by
  rcases List.mem_append.1 member with empty | inGroups
  · split at empty
    · rw [List.mem_singleton.1 empty]
      have apart : Violation.Kind.optionRequiresCondition ∉ matchingKinds := by decide
      exact ⟨apart, _, rfl⟩
    · cases empty
  · obtain ⟨rest, -, located, -⟩ := ConditionGroups.mem_findings inGroups
    refine ⟨?_, _, located.trans (List.append_assoc ..)⟩
    rcases ConditionGroups.kind_of_findings inGroups with kind | kind <;> rw [kind] <;> decide

namespace SplitSettings

variable {settings : SplitSettings} {wayIds : List String} {options : Options}

/-- What is found in a split comes from how options and ways match, or from an option. -/
theorem mem_findings {finding : Finding} (member : finding ∈ settings.findings wayIds options) :
    finding ∈ matchingFindings (settings.options.map SplitOption.id) wayIds ∨
      finding.breach.kind ∉ matchingKinds ∧
        ∃ position rest, finding.place = optionPlace position ++ rest := by
  rcases List.mem_append.1 member with matching | inOptions
  · exact Or.inl matching
  · obtain ⟨⟨option, position⟩, -, found⟩ := List.mem_flatMap.1 inOptions
    obtain ⟨kind, rest, located⟩ := SplitOption.apart_of_findings found
    exact Or.inr ⟨kind, position, rest, located⟩

theorem ofKind_findings {kind : Violation.Kind} (matching : kind ∈ matchingKinds) :
    ofKind kind (settings.findings wayIds options) =
      ofKind kind (matchingFindings (settings.options.map SplitOption.id) wayIds) := by
  rw [findings, ofKind_append, @ofKind_eq_nil _ (settings.options.zipIdx.flatMap _),
    List.append_nil]
  intro finding member same
  obtain ⟨⟨option, position⟩, -, found⟩ := List.mem_flatMap.1 member
  exact (SplitOption.apart_of_findings found).1 (same ▸ matching)

end SplitSettings

/-! ### Counting -/

/-- Breaches of a kind are counted among the findings of the kind. -/
theorem count_ofKind (findings : List Finding) (breach : Breach) :
    ((ofKind breach.kind findings).map Finding.breach).count breach =
      (findings.map Finding.breach).count breach := by
  simp only [List.count, List.countP_map, ofKind, List.countP_filter]
  refine List.countP_congr fun finding _ => ?_
  simp only [Function.comp_apply, Bool.and_eq_true, beq_iff_eq]
  exact and_iff_left_of_imp fun same => same ▸ rfl

/-- A rule that finds a breach at the first position of a name finds it once. -/
theorem count_filterMap_first {names : List String} {find : String × Nat → Option Finding}
    {breach : Breach} {name : String} {unmatched : Prop} [Decidable unmatched]
    (each : ∀ other position, (∃ finding, find (other, position) = some finding ∧
      finding.breach = breach) ↔
        (other = name ∧ names.idxOf? other = some position) ∧ unmatched) :
    ((names.zipIdx.filterMap find).map Finding.breach).count breach =
      if name ∈ names ∧ unmatched then 1 else 0 := by
  have first : ∀ entry : String × Nat,
      ((find entry).map fun finding => finding.breach == breach).getD false = true ↔
        decide (entry.1 = name ∧ names.idxOf? entry.1 = some entry.2) = true ∧ unmatched := by
    intro entry
    rw [decide_eq_true_iff, ← each]
    cases find entry <;> simp
  rw [List.count, List.countP_map, List.countP_filterMap]
  by_cases holds : unmatched
  · simp only [holds, and_true] at first ⊢
    rw [← countP_first names name]
    exact List.countP_congr fun entry _ => first entry
  · simp only [holds, and_false, if_false] at first ⊢
    exact List.countP_eq_zero.2 fun entry _ => (first entry).1

section Reports

variable {settings : SplitSettings} {wayIds : List String} {options : Options}

/-- How often an id is reported that only one of the two lists has. -/
theorem SplitSettings.count_unknown (id : String) :
    ((settings.findings wayIds options).map Finding.breach).count (.unknownBranchOption id) =
      if id ∈ wayIds ∧ id ∉ settings.options.map SplitOption.id then 1 else 0 := by
  rw [← count_ofKind]
  show ((ofKind .unknownBranchOption _).map Finding.breach).count _ = _
  rw [ofKind_findings (by decide), ofKind_matchingFindings]
  refine (count_ofKind _ (.unknownBranchOption id)).trans (count_filterMap_first ?_)
  intro other position
  simp only [SplitIndex.wrongWay?_iff]
  constructor
  · rintro ⟨finding, ⟨-, rfl⟩ | ⟨first, unknown, rfl⟩, same⟩
    · cases same
    · cases same
      exact ⟨⟨rfl, first⟩, unknown⟩
  · rintro ⟨⟨rfl, first⟩, unknown⟩
    exact ⟨_, Or.inr ⟨first, unknown, rfl⟩, rfl⟩

theorem SplitSettings.count_missing (id : String) :
    ((settings.findings wayIds options).map Finding.breach).count (.missingBranch id) =
      if id ∈ settings.options.map SplitOption.id ∧ id ∉ wayIds then 1 else 0 := by
  rw [← count_ofKind]
  show ((ofKind .missingBranch _).map Finding.breach).count _ = _
  rw [ofKind_findings (by decide), ofKind_matchingFindings]
  refine (count_ofKind _ (.missingBranch id)).trans (count_filterMap_first ?_)
  intro other position
  simp only [SplitIndex.optionWithoutWay?_iff]
  constructor
  · rintro ⟨finding, ⟨first, missing, rfl⟩, same⟩
    cases same
    exact ⟨⟨rfl, first⟩, missing⟩
  · rintro ⟨⟨rfl, first⟩, missing⟩
    exact ⟨_, ⟨first, missing, rfl⟩, rfl⟩

end Reports

/-! ### Places of ways -/

theorem optionPlace_append_ne (number position : Nat) (rest : AccessPath) :
    optionPlace number ++ rest ≠ wayPlace position := by
  simp [optionPlace, optionsPlace, wayPlace]

theorem count_place_eq_zero {findings : List Finding} {place : AccessPath}
    (apart : ∀ finding ∈ findings, finding.place ≠ place) :
    (findings.map Finding.place).count place = 0 := by
  rw [List.count_eq_zero, List.mem_map]
  rintro ⟨finding, member, same⟩
  exact apart finding member same

theorem SplitIndex.place_of_wrongWay? {optionIds wayIds : List String} {id : String}
    {position : Nat} {finding : Finding}
    (found : (of optionIds wayIds).wrongWay? (id, position) = some finding) :
    finding.place = wayPlace position := by
  rcases wrongWay?_iff.1 found with ⟨-, rfl⟩ | ⟨-, -, rfl⟩ <;> rfl

/-- The rule about ways finds no two things at one way. -/
theorem SplitIndex.nodup_places (optionIds wayIds : List String) :
    ((wayIds.zipIdx.filterMap (of optionIds wayIds).wrongWay?).map Finding.place).Nodup := by
  rw [List.Nodup, List.pairwise_map, List.pairwise_filterMap]
  refine (pairwise_zipIdx wayIds).imp fun before finding found finding' found' same => ?_
  rw [place_of_wrongWay? found, place_of_wrongWay? found'] at same
  simp only [wayPlace, List.cons.injEq, Segment.index.injEq] at same
  exact Nat.ne_of_lt before same.2.1

/-- No other rule finds anything at a way. -/
theorem SplitSettings.count_wayPlace {settings : SplitSettings} {wayIds : List String}
    {options : Options} (position : Nat) :
    ((settings.findings wayIds options).map Finding.place).count (wayPlace position) ≤ 1 := by
  have emptiness : ∀ finding ∈ SplitIndex.emptiness (settings.options.map SplitOption.id) wayIds,
      finding.place ≠ wayPlace position := by
    intro finding member
    rw [SplitIndex.emptiness] at member
    split at member
    · rw [List.mem_singleton.1 member]
      simp [optionsPlace, wayPlace]
    · split at member
      · rw [List.mem_singleton.1 member]
        simp [wayPlace]
      · cases member
  have repeated : ∀ finding ∈ (settings.options.map SplitOption.id).zipIdx.filterMap
      (SplitIndex.of (settings.options.map SplitOption.id) wayIds).repeatedOption?,
        finding.place ≠ wayPlace position := by
    intro finding member
    obtain ⟨⟨id, number⟩, -, found⟩ := List.mem_filterMap.1 member
    obtain ⟨first, -, -, rfl⟩ := SplitIndex.repeatedOption?_iff.1 found
    exact optionPlace_append_ne _ _ _
  have without : ∀ finding ∈ (settings.options.map SplitOption.id).zipIdx.filterMap
      (SplitIndex.of (settings.options.map SplitOption.id) wayIds).optionWithoutWay?,
        finding.place ≠ wayPlace position := by
    intro finding member
    obtain ⟨⟨id, number⟩, -, found⟩ := List.mem_filterMap.1 member
    obtain ⟨-, -, rfl⟩ := SplitIndex.optionWithoutWay?_iff.1 found
    exact optionPlace_append_ne _ _ _
  have conditions : ∀ finding ∈ settings.options.zipIdx.flatMap
      (SplitOption.findings settings.defaultBranch options),
        finding.place ≠ wayPlace position := by
    intro finding member
    obtain ⟨⟨option, number⟩, -, found⟩ := List.mem_flatMap.1 member
    obtain ⟨-, rest, located⟩ := SplitOption.apart_of_findings found
    exact located ▸ optionPlace_append_ne _ _ _
  have parts : settings.findings wayIds options =
      SplitIndex.emptiness (settings.options.map SplitOption.id) wayIds ++
        (settings.options.map SplitOption.id).zipIdx.filterMap
          (SplitIndex.of (settings.options.map SplitOption.id) wayIds).repeatedOption? ++
        wayIds.zipIdx.filterMap
          (SplitIndex.of (settings.options.map SplitOption.id) wayIds).wrongWay? ++
        (settings.options.map SplitOption.id).zipIdx.filterMap
          (SplitIndex.of (settings.options.map SplitOption.id) wayIds).optionWithoutWay? ++
        settings.options.zipIdx.flatMap (SplitOption.findings settings.defaultBranch options) := rfl
  have ways := List.nodup_iff_count_le_one.1
    (SplitIndex.nodup_places (settings.options.map SplitOption.id) wayIds) (wayPlace position)
  simp only [parts, List.map_append, List.count_append, count_place_eq_zero emptiness,
    count_place_eq_zero repeated, count_place_eq_zero without, count_place_eq_zero conditions]
  simpa using ways

/-! ### Positions that are reported -/

section Listed

variable (optionIds wayIds : List String)

theorem listedAt_repeatedOptions :
    ListedAt optionIds (fun position id => id ∈ optionIds.take position)
      (fun position id finding => ∃ first, optionIds[first]? = some id ∧
        id ∉ optionIds.take first ∧
        finding.Tells (.duplicateOptionId id first) s!"settings.options[{position}].id"
          s!"option id '{id}' is already used by settings.options[{first}]")
      (ofKind .duplicateOptionId (matchingFindings optionIds wayIds)) := by
  rw [ofKind_matchingFindings]
  refine listedAt_ofKind ?_ ?_
  · intro position id here finding found _
    obtain ⟨first, earliest, before, rfl⟩ := SplitIndex.repeatedOption?_iff.1 found
    obtain ⟨there, fresh⟩ := idxOf?_eq_some_iff_take.1 earliest
    exact ⟨mem_take_iff.2 ⟨first, before, there⟩, first, there, fresh,
      Finding.tells_of_place (render_optionId position) (message_duplicateOptionId id first)⟩
  · intro position id here repeated
    obtain ⟨first, earliest, le⟩ := idxOf?_le here
    have later : first ≠ position := by
      rintro rfl
      exact (idxOf?_iff_not_mem_take here).1 earliest repeated
    exact ⟨_, SplitIndex.repeatedOption?_iff.2 ⟨first, earliest, by omega, rfl⟩, rfl⟩

theorem listedAt_repeatedWays :
    ListedAt wayIds (fun position id => id ∈ wayIds.take position)
      (fun position id finding => finding.Tells (.duplicateBranch id)
        s!"branches[{position}].optionId" s!"option '{id}' has more than one branch")
      (ofKind .duplicateBranch (matchingFindings optionIds wayIds)) := by
  rw [ofKind_matchingFindings]
  refine listedAt_ofKind ?_ ?_
  · intro position id here finding found kind
    rcases SplitIndex.wrongWay?_iff.1 found with ⟨later, rfl⟩ | ⟨-, -, rfl⟩
    · rw [ne_eq, idxOf?_iff_not_mem_take here, not_not] at later
      exact ⟨later, Finding.tells_of_place (render_wayPlace position) rfl⟩
    · cases kind
  · intro position id here repeated
    have later := (idxOf?_iff_not_mem_take here).not.2 (not_not.2 repeated)
    exact ⟨_, SplitIndex.wrongWay?_iff.2 (Or.inl ⟨later, rfl⟩), rfl⟩

theorem listedAt_unknownOptions :
    ListedAt wayIds (fun position id => id ∉ wayIds.take position ∧ id ∉ optionIds)
      (fun position id finding => finding.Tells (.unknownBranchOption id)
        s!"branches[{position}].optionId"
        s!"branch references option '{id}' which is not declared in settings.options")
      (ofKind .unknownBranchOption (matchingFindings optionIds wayIds)) := by
  rw [ofKind_matchingFindings]
  refine listedAt_ofKind ?_ ?_
  · intro position id here finding found kind
    rcases SplitIndex.wrongWay?_iff.1 found with ⟨-, rfl⟩ | ⟨first, unknown, rfl⟩
    · cases kind
    · exact ⟨⟨(idxOf?_iff_not_mem_take here).1 first, unknown⟩,
        Finding.tells_of_place (render_wayPlace position) rfl⟩
  · intro position id here meant
    have first := (idxOf?_iff_not_mem_take here).2 meant.1
    exact ⟨_, SplitIndex.wrongWay?_iff.2 (Or.inr ⟨first, meant.2, rfl⟩), rfl⟩

theorem listedAt_missingWays :
    ListedAt optionIds (fun position id => id ∉ optionIds.take position ∧ id ∉ wayIds)
      (fun position id finding => finding.Tells (.missingBranch id)
        s!"settings.options[{position}].id" s!"option '{id}' has no matching branch")
      (ofKind .missingBranch (matchingFindings optionIds wayIds)) := by
  rw [ofKind_matchingFindings]
  refine listedAt_ofKind ?_ ?_
  · intro position id here finding found _
    obtain ⟨first, missing, rfl⟩ := SplitIndex.optionWithoutWay?_iff.1 found
    exact ⟨⟨(idxOf?_iff_not_mem_take here).1 first, missing⟩,
      Finding.tells_of_place (render_optionId position) rfl⟩
  · intro position id here meant
    have first := (idxOf?_iff_not_mem_take here).2 meant.1
    exact ⟨_, SplitIndex.optionWithoutWay?_iff.2 ⟨first, meant.2, rfl⟩, rfl⟩

theorem violations_emptiness :
    (ofKind .splitRequiresBranch (matchingFindings optionIds wayIds)).map Finding.violation =
      if optionIds = [] then
        [.plain .splitRequiresBranch "settings.options" "split requires at least one branch"]
      else if wayIds = [] then
        [.plain .splitRequiresBranch "branches" "split requires at least one branch"]
      else [] := by
  rw [ofKind_matchingFindings, SplitIndex.emptiness]
  cases optionIds <;> cases wayIds <;> rfl

end Listed

/-! ### Splits -/

/-- Nothing is reported of how options and ways match just if they do. -/
theorem SplitSettings.silent_iff {settings : SplitSettings} {wayIds : List String}
    {options : Options} :
    (∀ finding ∈ settings.findings wayIds options, finding.breach.kind ∉ matchingKinds) ↔
      matchingFindings (settings.options.map SplitOption.id) wayIds = [] := by
  rw [List.eq_nil_iff_forall_not_mem]
  constructor
  · intro silent finding member
    exact silent finding (List.mem_append_left _ member) (mem_matchingKinds_of_matching member)
  · intro none finding member
    rcases SplitSettings.mem_findings member with matching | ⟨apart, -⟩
    · exact absurd matching (none finding)
    · exact apart

/-- What is found of a split is told by the ids of its options and those that its ways name. Each
rule reports just the positions that it is about, in their order and each of them once. So an id
that only one of the two lists has is reported once, no way has two violations, and nothing is
reported just if both lists hold the same ids, each of them once and at least one. -/
theorem Step.matching_exact (header : Header) (settings : SplitSettings)
    (branches : List (Branch α)) (next : Option α) (options : Options) :
    MatchingReport (settings.options.map SplitOption.id) (branches.map Branch.optionId)
      (Step.findings options ⟨header, .split settings branches, next⟩) := by
  show MatchingReport _ _ (settings.findings (branches.map Branch.optionId) options)
  generalize branches.map Branch.optionId = wayIds
  refine ⟨?_, ?_, ?_, ?_, ?_, fun id => ?_, SplitSettings.count_wayPlace, ?_⟩
  · rw [SplitSettings.ofKind_findings (by decide)]
    exact listedAt_repeatedOptions _ _
  · rw [SplitSettings.ofKind_findings (by decide)]
    exact listedAt_repeatedWays _ _
  · rw [SplitSettings.ofKind_findings (by decide)]
    exact listedAt_unknownOptions _ _
  · rw [SplitSettings.ofKind_findings (by decide)]
    exact listedAt_missingWays _ _
  · rw [SplitSettings.ofKind_findings (by decide)]
    exact violations_emptiness _ _
  · rw [SplitSettings.count_unknown, SplitSettings.count_missing]
    by_cases option : id ∈ settings.options.map SplitOption.id <;>
      by_cases way : id ∈ wayIds <;>
        simp only [Finset.mem_symmDiff, List.mem_toFinset, option, way] <;> rfl
  · rw [SplitSettings.silent_iff, matchingFindings_eq_nil, Finset.ext_iff]
    simp only [List.mem_toFinset]

end FlowGate
