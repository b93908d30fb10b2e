import RelationalAccess.Proofs.Query.Lowering
import RelationalAccess.Schema.Draft

/-!
What patterns match. Patterns are read as SQL reads them: a percent sign stands for any run
of characters, an underscore for any one, and a character behind a backslash for itself. A
text that is escaped matches itself and nothing else, so the pattern that a match is lowered
to finds the text at the start, at the end or anywhere, whatever characters it is made of.
-/

namespace RelationalAccess

/-- A pattern matches a text, characters being told apart as they are. -/
inductive Like : List Char → List Char → Prop where
  | nothing : Like [] []
  | run {pattern rest : List Char} (skipped : List Char) (matched : Like pattern rest) :
      Like ('%' :: pattern) (skipped ++ rest)
  | any {pattern rest : List Char} (char : Char) (matched : Like pattern rest) :
      Like ('_' :: pattern) (char :: rest)
  | escaped {pattern rest : List Char} (char : Char) (matched : Like pattern rest) :
      Like ('\\' :: char :: pattern) (char :: rest)
  | itself {pattern rest : List Char} {char : Char} (ordinary : char ∉ ['\\', '%', '_'])
      (matched : Like pattern rest) : Like (char :: pattern) (char :: rest)

namespace Like

variable {pattern candidate : List Char} {char : Char}

theorem nil_iff : Like [] candidate ↔ candidate = [] := by
  constructor
  · intro matched
    cases matched
    rfl
  · rintro rfl
    exact .nothing

theorem percent_iff : Like ('%' :: pattern) candidate ↔
    ∃ skipped rest, candidate = skipped ++ rest ∧ Like pattern rest := by
  constructor
  · intro matched
    cases matched with
    | run skipped matched => exact ⟨skipped, _, rfl, matched⟩
    | itself ordinary => simp at ordinary
  · rintro ⟨skipped, rest, rfl, matched⟩
    exact .run skipped matched

theorem backslash_iff : Like ('\\' :: char :: pattern) candidate ↔
    ∃ rest, candidate = char :: rest ∧ Like pattern rest := by
  constructor
  · intro matched
    cases matched with
    | escaped _ matched => exact ⟨_, rfl, matched⟩
    | itself ordinary => simp at ordinary
  · rintro ⟨rest, rfl, matched⟩
    exact .escaped char matched

theorem ordinary_iff (ordinary : char ∉ ['\\', '%', '_']) : Like (char :: pattern) candidate ↔
    ∃ rest, candidate = char :: rest ∧ Like pattern rest := by
  constructor
  · intro matched
    cases matched with
    | run => simp at ordinary
    | any => simp at ordinary
    | escaped => simp at ordinary
    | itself _ matched => exact ⟨_, rfl, matched⟩
  · rintro ⟨rest, rfl, matched⟩
    exact .itself ordinary matched

/-- A percent sign at the end of a pattern takes whatever is left. -/
theorem percent_end (candidate : List Char) : Like ['%'] candidate := by
  have taken := run candidate .nothing
  rwa [List.append_nil] at taken

/-- An escaped text takes itself off the front, whatever pattern comes behind it. -/
theorem escapePattern_append_iff (text pattern candidate : List Char) :
    Like (Lowering.escapePattern text ++ pattern) candidate ↔
      ∃ rest, candidate = text ++ rest ∧ Like pattern rest := by
  induction text generalizing candidate with
  | nil => simp [Lowering.escapePattern]
  | cons char text inductionHypothesis =>
    have split : Like (Lowering.escapePattern (char :: text) ++ pattern) candidate ↔
        ∃ rest, candidate = char :: rest ∧ Like (Lowering.escapePattern text ++ pattern) rest := by
      rw [Lowering.escapePattern, List.flatMap_cons, List.append_assoc]
      by_cases special : char = '\\' ∨ char = '%' ∨ char = '_'
      · rw [if_pos special]
        exact backslash_iff
      · rw [if_neg special]
        apply ordinary_iff
        simpa using special
    rw [split]
    constructor
    · rintro ⟨_, rfl, matched⟩
      obtain ⟨rest, rfl, behind⟩ := (inductionHypothesis _).mp matched
      exact ⟨rest, rfl, behind⟩
    · rintro ⟨rest, rfl, matched⟩
      refine ⟨text ++ rest, rfl, ?_⟩
      apply (inductionHypothesis _).mpr
      exact ⟨rest, rfl, matched⟩

/-- An escaped text matches just itself. -/
theorem escapePattern_iff (text candidate : List Char) :
    Like (Lowering.escapePattern text) candidate ↔ candidate = text := by
  have alone := escapePattern_append_iff text [] candidate
  simpa [nil_iff] using alone

end Like

namespace Lowering.Match

/-- Where a text stands in another for a match to hold. -/
def Finds : Match → List Char → List Char → Prop
  | anywhere, text, candidate => text <:+: candidate
  | atStart, text, candidate => text <+: candidate
  | atEnd, text, candidate => text <:+ candidate

/-- The method by which a predicate asks for a match. -/
def method : Match → String
  | anywhere => "contains"
  | atStart => "starts_with"
  | atEnd => "ends_with"

/-- The pattern of a text matches where the text is found, whatever signs of patterns it holds. -/
theorem like_pattern_iff (kind : Match) (text candidate : String) :
    Like (pattern kind text).toList candidate.toList ↔ kind.Finds text.toList candidate.toList := by
  cases kind with
  | anywhere =>
    rw [pattern, String.toList_ofList, List.cons_append, Like.percent_iff]
    constructor
    · rintro ⟨before, behind, split, matched⟩
      obtain ⟨after, rfl, _⟩ := (Like.escapePattern_append_iff _ _ _).mp matched
      exact ⟨before, after, by rw [split, List.append_assoc]⟩
    · rintro ⟨before, after, split⟩
      refine ⟨before, text.toList ++ after, by rw [← split, List.append_assoc], ?_⟩
      exact (Like.escapePattern_append_iff _ _ _).mpr ⟨after, rfl, Like.percent_end after⟩
  | atStart =>
    rw [pattern, String.toList_ofList, Like.escapePattern_append_iff]
    constructor
    · rintro ⟨after, split, _⟩
      exact ⟨after, split.symm⟩
    · rintro ⟨after, split⟩
      exact ⟨after, split.symm, Like.percent_end after⟩
  | atEnd =>
    rw [pattern, String.toList_ofList, Like.percent_iff]
    constructor
    · rintro ⟨before, rest, split, matched⟩
      rw [Like.escapePattern_iff] at matched
      exact ⟨before, by rw [split, matched]⟩
    · rintro ⟨before, split⟩
      exact ⟨before, text.toList, split.symm, (Like.escapePattern_iff _ _).mpr rfl⟩

end Lowering.Match

namespace Predicate

variable {table : Table} {target : Predicate} {position : Nat}

/-- The call by which a predicate asks whether a text is found in a field. -/
def finds (target : Predicate) (kind : Lowering.Match) (text : String) : Predicate :=
  call target kind.method [constant (.text text)]

/-- A field is not a list of values. -/
theorem listed?_of_field (isField : target.fieldIndex? table = some position) :
    target.listed? = none := by
  cases target with
  | list values => simp [fieldIndex?, operand?] at isField
  | span inner => simp [fieldIndex?, operand?] at isField
  | _ => rfl

/-- The comparison that a match is lowered to, under a NOT or not. -/
theorem leaf_finds (isField : target.fieldIndex? table = some position) (kind : Lowering.Match)
    (text : String) (negated : Bool) :
    Lowering.leaf table negated (target.finds kind text) =
      .ok (.comparison
        { column := position, operator := .like, operands := [.text (Lowering.pattern kind text)]
          negated }) := by
  have found := Lowering.columnOf_eq_ok_iff.mpr isField
  have lowered : Lowering.patternMatch table negated kind target (constant (.text text)) =
      .ok (.comparison
        { column := position, operator := .like, operands := [.text (Lowering.pattern kind text)]
          negated }) := by
    rw [Lowering.patternMatch, found]
    rfl
  cases kind with
  | anywhere =>
    rw [← lowered]
    simp [finds, Lowering.leaf, Lowering.call, Lowering.Match.method, listed?_of_field isField]
  | atStart => exact lowered
  | atEnd => exact lowered

theorem lower_finds (isField : target.fieldIndex? table = some position) (kind : Lowering.Match)
    (text : String) (negated : Bool) :
    Lowering.lower table .and negated (target.finds kind text) =
      .ok [.comparison
        { column := position, operator := .like, operands := [.text (Lowering.pattern kind text)]
          negated }] := by
  have lowered := leaf_finds isField kind text negated
  simp only [finds, Lowering.lower] at lowered ⊢
  rw [lowered]
  rfl

/-- A match is lowered to the comparison of the field with a pattern, also under a NOT, and the
pattern matches exactly those texts in which the given one is found. -/
theorem finds_exact (isField : target.fieldIndex? table = some position) (kind : Lowering.Match)
    (text : String) :
    ∃ pattern : String,
      (target.finds kind text).lower table = .ok
        { members := [.comparison
            { column := position, operator := .like, operands := [.text pattern] }] } ∧
      (not (target.finds kind text)).lower table = .ok
        { members := [.comparison
            { column := position, operator := .like, operands := [.text pattern], negated := true }] } ∧
      ∀ candidate : String,
        Like pattern.toList candidate.toList ↔ kind.Finds text.toList candidate.toList := by
  refine ⟨Lowering.pattern kind text, ?_, ?_, kind.like_pattern_iff text⟩
  · rw [lower, lower_finds isField]
    rfl
  · rw [lower, Lowering.lower, Bool.not_false, lower_finds isField]
    rfl

/-- A percent sign and a backslash stand for themselves in the pattern that is sent. -/
theorem finds_exact_percentSign :
    let files : Table := ({ name := "files", columns := [{ name := "path", host := .string }] } :
      TableDraft).table 0
    (field "path").fieldIndex? files = some 0 ∧
      ∃ pattern : String,
        ((field "path").finds .atStart "50%\\").lower files = .ok
          { members := [.comparison
              { column := 0, operator := .like, operands := [.text pattern] }] } ∧
        Like pattern.toList "50%\\tmp".toList ∧ ¬ Like pattern.toList "501\\tmp".toList := by
  intro files
  have isField : (field "path").fieldIndex? files = some 0 := by decide
  obtain ⟨pattern, lowered, _, exact⟩ := finds_exact isField .atStart "50%\\"
  refine ⟨isField, pattern, lowered, (exact _).mpr ?_, fun matched => ?_⟩
  · show "50%\\".toList <+: "50%\\tmp".toList
    decide
  · have found : "50%\\".toList <+: "501\\tmp".toList := (exact _).mp matched
    revert found
    decide

end Predicate

end RelationalAccess
