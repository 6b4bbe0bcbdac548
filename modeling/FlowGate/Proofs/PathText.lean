/-
This file reads access paths back from their texts. A text is read from its end: a point or an
opening bracket ends the name or the number that stands behind it, and what is left at the start
is a name. As long as the names of a path are not empty and have none of these characters in them,
the path that is read from its text is the path itself, so the text tells where it leads.
-/

import FlowGate.Path
import Mathlib.Data.List.Induction

namespace FlowGate

/-! ### Reading -/

namespace AccessPath

/-- Reads one more character in front of what was read of a text: the characters of the word that
begins there, and the segments behind that word. -/
def readBefore (char : Char) (read : List Char × AccessPath) : List Char × AccessPath :=
  if char = '.' then ([], .field (String.ofList read.1) :: read.2)
  else if char = '[' then ([], .index (Nat.ofDigitChars 10 read.1 0) :: read.2)
  else if char = ']' then ([], read.2)
  else (char :: read.1, read.2)

/-- The path that was read when a text is at its start. -/
def atStart (read : List Char × AccessPath) : AccessPath :=
  match read.1 with
  | [] => read.2
  | first :: rest => .field (String.ofList (first :: rest)) :: read.2

/-- The access path that a text stands for. -/
def ofText (text : String) : AccessPath :=
  atStart (text.toList.foldr readBefore ([], []))

end AccessPath

/-! ### Plain paths -/

/-- Whether a character may stand in the names of a path. -/
def isPlain (char : Char) : Bool :=
  char != '.' && char != '[' && char != ']'

/-- Whether a segment can be told from its text. -/
def Segment.plain : Segment → Bool
  | .field name => !name.isEmpty && name.toList.all isPlain
  | .index _ => true

theorem fieldPath_of_ne {parent : String} (nonempty : parent ≠ "") (field : String) :
    fieldPath parent field = parent ++ "." ++ field := by
  rw [fieldPath, if_neg (by rwa [String.isEmpty_iff])]
  rfl

namespace AccessPath

/-- Whether all segments of a path can be told from its text. -/
def plain (path : AccessPath) : Bool :=
  path.all Segment.plain

theorem plain_append (first second : AccessPath) :
    plain (first ++ second) = (plain first && plain second) :=
  List.all_append

theorem foldr_readBefore {word : List Char} (ordinary : word.all isPlain = true)
    (read : List Char × AccessPath) :
    word.foldr readBefore read = (word ++ read.1, read.2) := by
  induction word with
  | nil => rfl
  | cons char rest inductionHypothesis =>
    rw [List.all_cons, Bool.and_eq_true] at ordinary
    obtain ⟨here, later⟩ := ordinary
    simp only [isPlain, Bool.and_eq_true, bne_iff_ne] at here
    rw [List.foldr_cons, inductionHypothesis later, readBefore, if_neg here.1.1, if_neg here.1.2,
      if_neg here.2]
    rfl

theorem atStart_word {word : List Char} (nonempty : word ≠ []) (behind : AccessPath) :
    atStart (word, behind) = .field (String.ofList word) :: behind := by
  cases word with
  | nil => exact absurd rfl nonempty
  | cons first rest => rfl

theorem isPlain_of_isDigit {char : Char} (digit : char.isDigit = true) : isPlain char = true := by
  simp only [isPlain, Bool.and_eq_true, bne_iff_ne]
  refine ⟨⟨?_, ?_⟩, ?_⟩ <;> rintro rfl <;> cases digit

theorem all_isPlain_toDigits (number : Nat) :
    (Nat.toDigits 10 number).all isPlain = true :=
  List.all_eq_true.2 fun _ member => isPlain_of_isDigit (Nat.isDigit_of_mem_toDigits (by decide)
    (by decide) member)

/-! ### Texts of longer paths -/

theorem render_concat (path : AccessPath) (segment : Segment) :
    render (path ++ [segment]) = segment.extend path.render := by
  rw [render, List.foldl_append]
  rfl

theorem extend_ne_empty {segment : Segment} (named : segment.plain = true) (parent : String) :
    segment.extend parent ≠ "" := by
  cases segment with
  | field name =>
    rw [Segment.plain, Bool.and_eq_true, Bool.not_eq_true', String.isEmpty_eq_false_iff] at named
    rw [Segment.extend, fieldPath]
    split
    · exact named.1
    · simp [toString]
  | index position => simp [Segment.extend, indexPath, toString]

/-- Only the empty path has an empty text. -/
theorem render_ne_empty {path : AccessPath} (named : path.plain = true) (nonempty : path ≠ []) :
    path.render ≠ "" := by
  cases path using List.reverseRecOn with
  | nil => exact absurd rfl nonempty
  | append_singleton rest segment =>
    rw [plain_append, Bool.and_eq_true] at named
    rw [render_concat]
    exact extend_ne_empty (List.all_eq_true.1 named.2 segment List.mem_cons_self) _

/-- The name that a text begins with has nothing in front of it. -/
theorem atStart_name {name : String} (named : (Segment.field name).plain = true)
    (behind : AccessPath) :
    atStart (name.toList.foldr readBefore ([], behind)) = .field name :: behind := by
  rw [Segment.plain, Bool.and_eq_true, Bool.not_eq_true', String.isEmpty_eq_false_iff] at named
  have nonempty : name.toList ≠ [] := fun none => named.1 (String.toList_eq_nil_iff.1 none)
  rw [foldr_readBefore named.2, List.append_nil, atStart_word nonempty, String.ofList_toList]

theorem foldr_readBefore_field {parent name : String} (nonempty : parent ≠ "")
    (named : (Segment.field name).plain = true) (behind : AccessPath) :
    (fieldPath parent name).toList.foldr readBefore ([], behind) =
      parent.toList.foldr readBefore ([], .field name :: behind) := by
  rw [Segment.plain, Bool.and_eq_true] at named
  have text : (fieldPath parent name).toList = parent.toList ++ '.' :: name.toList := by
    simp [fieldPath_of_ne nonempty]
  rw [text, List.foldr_append, List.foldr_cons, foldr_readBefore named.2, List.append_nil,
    readBefore, if_pos rfl, String.ofList_toList]

theorem foldr_readBefore_index (parent : String) (position : Nat) (behind : AccessPath) :
    (indexPath parent position).toList.foldr readBefore ([], behind) =
      parent.toList.foldr readBefore ([], .index position :: behind) := by
  have text : (indexPath parent position).toList =
      parent.toList ++ '[' :: (Nat.toDigits 10 position ++ [']']) := by
    simp [indexPath, toString]
  have number : (Nat.toDigits 10 position ++ [']']).foldr readBefore ([], behind) =
      (Nat.toDigits 10 position, behind) := by
    rw [List.foldr_append, foldr_readBefore (all_isPlain_toDigits position)]
    exact congrArg (·, behind) (List.append_nil _)
  rw [text, List.foldr_append, List.foldr_cons, number, readBefore, if_neg (by decide), if_pos rfl,
    Nat.ofDigitChars_ten_toDigits]

/-- A path is read back from its text, in front of whatever was read behind it. -/
theorem atStart_render {path : AccessPath} (named : path.plain = true) (behind : AccessPath) :
    atStart (path.render.toList.foldr readBefore ([], behind)) = path ++ behind := by
  induction path using List.reverseRecOn generalizing behind with
  | nil => rfl
  | append_singleton rest segment inductionHypothesis =>
    rw [plain_append, Bool.and_eq_true] at named
    have here : segment.plain = true := List.all_eq_true.1 named.2 segment List.mem_cons_self
    have later := inductionHypothesis named.1 (segment :: behind)
    rw [render_concat, List.append_assoc, List.singleton_append, ← later]
    cases segment with
    | field name =>
      by_cases first : rest = []
      · subst first
        exact atStart_name here behind
      · rw [Segment.extend, foldr_readBefore_field (render_ne_empty named.1 first) here]
    | index position => rw [Segment.extend, foldr_readBefore_index]

theorem extend_append (base : String) {parent : String} (nonempty : parent ≠ "")
    (segment : Segment) : segment.extend (base ++ parent) = base ++ segment.extend parent := by
  have longer : base ++ parent ≠ "" := by simp [nonempty]
  cases segment <;>
    simp [Segment.extend, fieldPath_of_ne, indexPath, nonempty, longer, toString,
      String.append_assoc]

theorem foldl_extend_append (base : String) {parent : String} (nonempty : parent ≠ "")
    (path : AccessPath) :
    path.foldl Segment.extend (base ++ parent) = base ++ path.foldl Segment.extend parent := by
  induction path generalizing parent with
  | nil => rfl
  | cons segment rest inductionHypothesis =>
    have longer : segment.extend parent ≠ "" := by
      cases segment <;> simp [Segment.extend, fieldPath_of_ne, indexPath, nonempty, toString]
    rw [List.foldl_cons, List.foldl_cons, extend_append base nonempty, inductionHypothesis longer]

/-- The text of a path is the text of its start and, behind a point, the text of the rest, which
begins with a name. -/
theorem render_append {base : AccessPath} {name : String} (nonempty : base.render ≠ "")
    (named : name ≠ "") (rest : AccessPath) :
    render (base ++ .field name :: rest) = base.render ++ "." ++ render (.field name :: rest) := by
  have first : (Segment.field name).extend base.render = base.render ++ "." ++ name :=
    fieldPath_of_ne nonempty name
  rw [render, List.foldl_append, List.foldl_cons]
  show rest.foldl Segment.extend ((Segment.field name).extend base.render) = _
  rw [first, foldl_extend_append _ named]
  rfl

/-- A path is read back from its text. -/
theorem ofText_render {path : AccessPath} (named : path.plain = true) :
    ofText path.render = path :=
  (atStart_render named []).trans (List.append_nil path)

example : ofText "template.trigger.branches[12].nextAction" =
    [.field "template", .field "trigger", .field "branches", .index 12, .field "nextAction"] := by
  decide

end AccessPath

end FlowGate
