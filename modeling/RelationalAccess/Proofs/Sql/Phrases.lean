import RelationalAccess.Proofs.Lists
import RelationalAccess.Proofs.Sql.Grammar
import RelationalAccess.Proofs.Sql.Spacing
import RelationalAccess.Sql.Filtering

/-!
Pieces that are read as an operand wherever one is due: constants, comparisons, what stands
in parentheses, and each of them under a NOT.
-/

namespace RelationalAccess

/-- The word of a connective. -/
def Reading.keyword : Connective → String
  | .and => "AND"
  | .or => "OR"

/-- The parentheses before some operands of a connective, by the operands before it. -/
def Frame.started (connective : Connective) (before : Option (Expression Test)) : Frame :=
  match connective with
  | .and => { factors := before }
  | .or => { alternatives := before }

namespace Reading

/-- The operand of a connective after the ones before it. The reading ends there or goes
on with the connective. -/
theorem place_started (connective : Connective) (before : Option (Expression Test))
    (operand : Expression Test) (outer : List Frame) :
    ∃ alternatives factors,
      place (.started connective before) operand outer = ended alternatives factors outer ∧
      Expression.behind .or alternatives factors = Expression.behind connective before operand ∧
      [Token.word (keyword connective)].foldlM step (ended alternatives factors outer) =
        some (due (.started connective (some (.behind connective before operand))) outer) := by
  cases connective
  · exact ⟨none, _, rfl, rfl, rfl⟩
  · exact ⟨before, operand, rfl, rfl, rfl⟩

end Reading

namespace Piece

/-- Pieces that are read as an operand. -/
structure Reads (dialect : Dialect) (pieces : List Piece) (expression : Expression Test) :
    Prop where
  spaced : Spaced dialect pieces
  read : ∀ frame outer, (pieces.flatMap (tokens dialect)).foldlM Reading.step (.due frame outer) =
    some (.place frame expression outer)

variable {dialect : Dialect} {pieces : List Piece} {expression : Expression Test}

/-- Pieces that are read as an operand are a condition by themselves. -/
theorem Reads.ofTokens? (reads : Reads dialect pieces expression) :
    Expression.ofTokens? (pieces.flatMap (tokens dialect)) = some expression := by
  rw [Expression.ofTokens?, reads.read]
  rfl

theorem tokens_closing : tokens dialect (.words ")") = [.sign ")"] := by
  cases dialect <;> decide

theorem spaced_closing : Spaced dialect [.words ")"] :=
  spaced_words (by cases dialect <;> decide)

theorem tokens_comma : tokens dialect (.words ", ") = [.sign ","] := by
  cases dialect <;> decide

theorem partingWords_comma : partingWords dialect ", " = true := by
  cases dialect <;> decide

theorem reads_truth (holds : Bool) : Reads dialect [truth holds] (.constant holds) where
  spaced := by
    cases holds <;> exact spaced_words (by cases dialect <;> decide)
  read frame outer := by
    cases holds <;> cases dialect <;> rfl

theorem spaced_enclosed {opening : String} (whole : wholeWords dialect opening = true)
    (apart : (Token.readFrom dialect .apart opening.toList).2 = .apart)
    (spaced : Spaced dialect pieces) :
    Spaced dialect (.words opening :: pieces ++ [.words ")"]) := by
  exact (spaced_words whole).append (spaced.append spaced_closing (.inr rfl))
    (.inl (shut_words apart))

/-- What is read up to the closing of parentheses is an operand behind them. -/
theorem read_enclosed {opening : List Token} {before : Reading} {frame : Frame} {outer : List Frame}
    (opened : opening.foldlM Reading.step before = some (.due {} (frame :: outer)))
    {inside : List Token} {alternatives : Option (Expression Test)} {factors : Expression Test}
    (read : inside.foldlM Reading.step (.due {} (frame :: outer)) =
      some (.ended alternatives factors (frame :: outer))) :
    (opening ++ (inside ++ [Token.sign ")"])).foldlM Reading.step before =
      some (.place frame (.behind .or alternatives factors) outer) := by
  simp only [List.foldlM_append, opened, read, Option.bind_eq_bind, Option.bind_some]
  rfl

theorem Reads.underNot (reads : Reads dialect pieces expression) :
    Reads dialect (.words "NOT " :: pieces) (.not expression) where
  spaced := by
    have negation : Spaced dialect [.words "NOT "] := spaced_words (by cases dialect <;> decide)
    exact negation.append reads.spaced (.inl (shut_words (by cases dialect <;> decide)))
  read frame outer := by
    have negation : tokens dialect (.words "NOT ") = [.word "NOT"] := by cases dialect <;> decide
    rw [List.flatMap_cons, List.foldlM_append, negation]
    exact reads.read { frame with negations := frame.negations + 1 } outer

/-- Pieces in parentheses under a NOT. -/
theorem Reads.negated (reads : Reads dialect pieces expression) :
    Reads dialect (.words "NOT (" :: pieces ++ [.words ")"]) (.not expression) where
  spaced := spaced_enclosed (by cases dialect <;> decide) (by cases dialect <;> decide) reads.spaced
  read frame outer := by
    have opening : tokens dialect (.words "NOT (") = [.word "NOT", .sign "("] := by
      cases dialect <;> decide
    let deeper : Frame := { frame with negations := frame.negations + 1 }
    rw [List.cons_append, List.flatMap_cons, List.flatMap_append, opening, List.flatMap_singleton,
      tokens_closing]
    have opened : [Token.word "NOT", .sign "("].foldlM Reading.step (.due frame outer) =
        some (.due {} (deeper :: outer)) := rfl
    exact read_enclosed opened (reads.read {} (deeper :: outer))

section

variable (connective : Connective) {first : List Piece} {others : List (List Piece)}
  {firstExpression : Expression Test} {otherExpressions : List (Expression Test)}

theorem separated_cons (separator : String) (first second : List Piece) (rest : List (List Piece)) :
    separated separator (first :: second :: rest) =
      first ++ .words separator :: separated separator (second :: rest) := rfl

theorem spaced_joined {members : List (List Piece)}
    (each : ∀ member ∈ members, Spaced dialect member) :
    Spaced dialect (separated (Condition.joiner connective) members) := by
  refine .separated ?_ each
  cases connective <;> cases dialect <;> decide

/-- The reading of operands with a connective between them. -/
theorem read_joined (reads : Reads dialect first firstExpression)
    (each : List.Forall₂ (Reads dialect) others otherExpressions)
    (before : Option (Expression Test)) (outer : List Frame) :
    ∃ alternatives factors,
      ((separated (Condition.joiner connective) (first :: others)).flatMap
          (tokens dialect)).foldlM Reading.step (.due (.started connective before) outer) =
        some (.ended alternatives factors outer) ∧
      Expression.behind .or alternatives factors =
        otherExpressions.foldl (.join connective) (.behind connective before firstExpression) := by
  induction each generalizing first firstExpression before with
  | nil =>
    obtain ⟨alternatives, factors, placed, joined, _⟩ :=
      Reading.place_started connective before firstExpression outer
    exact ⟨alternatives, factors, (reads.read _ outer).trans (congrArg some placed), joined⟩
  | cons secondReads _ inductionHypothesis =>
    -- With the connective behind it, the first operand is one of those before the others.
    obtain ⟨_, _, placed, _, further⟩ :=
      Reading.place_started connective before firstExpression outer
    obtain ⟨alternatives, factors, read, joined⟩ :=
      inductionHypothesis secondReads (some (.behind connective before firstExpression))
    refine ⟨alternatives, factors, ?_, joined⟩
    have joiner : tokens dialect (.words (Condition.joiner connective)) =
        [.word (Reading.keyword connective)] := by
      cases connective <;> cases dialect <;> decide
    rw [separated_cons, List.flatMap_append, List.flatMap_cons, joiner, List.foldlM_append,
      reads.read _ outer, placed, Option.bind_eq_bind, Option.bind_some, List.foldlM_append,
      further]
    exact read

/-- Operands with a connective between them, in parentheses. -/
theorem Reads.parted (reads : Reads dialect first firstExpression)
    (each : List.Forall₂ (Reads dialect) others otherExpressions) :
    Reads dialect
      (.words "(" :: separated (Condition.joiner connective) (first :: others) ++ [.words ")"])
      (.joinAll connective (firstExpression :: otherExpressions)) where
  spaced := by
    refine spaced_enclosed (by cases dialect <;> decide) (by cases dialect <;> decide)
      (spaced_joined connective fun member listed => ?_)
    obtain ⟨_, _, isRead⟩ := counterpart_right (List.Forall₂.cons reads each) listed
    exact isRead.spaced
  read frame outer := by
    have opening : tokens dialect (.words "(") = [.sign "("] := by cases dialect <;> decide
    have opened : [Token.sign "("].foldlM Reading.step (.due frame outer) =
        some (.due {} (frame :: outer)) := rfl
    have start : Frame.started connective none = {} := by cases connective <;> rfl
    obtain ⟨alternatives, factors, read, joined⟩ :=
      read_joined connective reads each none (frame :: outer)
    rw [start] at read
    rw [List.cons_append, List.flatMap_cons, List.flatMap_append, opening, List.flatMap_singleton,
      tokens_closing, read_enclosed opened read, joined]
    rfl

end

theorem enclose_several (connective : Connective) (first second : List Piece)
    (rest : List (List Piece)) :
    Condition.enclose connective false (first :: second :: rest) =
      .words "(" :: separated (Condition.joiner connective) (first :: second :: rest) ++
        [.words ")"] := by
  simp [Condition.enclose]

/-- A group of operands is read as its expression. -/
theorem reads_enclose (connective : Connective) (negated : Bool) {members : List (List Piece)}
    {expressions : List (Expression Test)}
    (each : List.Forall₂ (Reads dialect) members expressions) :
    Reads dialect (Condition.enclose connective negated members)
      ((Expression.joinAll connective expressions).negateIf negated) := by
  cases each with
  | nil =>
    have constant : Reads dialect _ _ := reads_truth (decide (connective = .and))
    cases negated with
    | false => exact constant
    | true => exact constant.underNot
  | cons reads others =>
    cases negated with
    | true => exact (reads.parted connective others).underNot
    | false =>
      cases others with
      -- A single operand has no parentheses of its own: it is an operand already.
      | nil => exact reads
      | cons second further =>
        rw [enclose_several]
        exact reads.parted connective (.cons second further)

theorem reads_nullTest (name : String) (operator : Operator)
    (isNullTest : operator ∈ [.isNull, .isNotNull]) :
    Reads dialect [.name name, .words (" " ++ operator.sql)]
      (.atom { column := name, operator, operands := [] }) where
  spaced := by
    have whole : ∀ operator ∈ [Operator.isNull, .isNotNull],
        wholeWords dialect (" " ++ operator.sql) = true := by
      cases dialect <;> decide
    have breaks : ∀ operator ∈ [Operator.isNull, .isNotNull],
        (" " ++ operator.sql).toList.head?.any Token.isBreak = true := by
      decide
    exact (spaced_name name).append (spaced_words (whole operator isNullTest))
      (.inr (breaks operator isNullTest))
  read frame outer := by
    have cases : operator = .isNull ∨ operator = .isNotNull := by simpa using isNullTest
    rcases cases with rfl | rfl
    · have words : tokens dialect (.words (" " ++ Operator.isNull.sql)) =
          [.word "IS", .word "NULL"] := by cases dialect <;> decide
      rw [List.flatMap_cons, List.flatMap_singleton, words]
      rfl
    · have words : tokens dialect (.words (" " ++ Operator.isNotNull.sql)) =
          [.word "IS", .word "NOT", .word "NULL"] := by cases dialect <;> decide
      rw [List.flatMap_cons, List.flatMap_singleton, words]
      rfl

/-- The operators that stand between a column and one value. -/
def signs : List Operator := [.equal, .notEqual, .greater, .greaterOrEqual, .less, .lessOrEqual]

theorem signs_cases {operator : Operator} (isSign : operator ∈ signs) :
    operator = .equal ∨ operator = .notEqual ∨ operator = .greater ∨ operator = .greaterOrEqual ∨
      operator = .less ∨ operator = .lessOrEqual := by
  simpa [signs] using isSign

theorem next_sign {operator : Operator} (isSign : operator ∈ signs) (name : String)
    (value : Value) :
    Begun.next (.column name) (.sign operator.sql) = some (.inl (.operandDue name operator)) ∧
      Begun.next (.operandDue name operator) (.bound value) =
        some (.inr (.atom { column := name, operator, operands := [value] })) := by
  rcases signs_cases isSign with rfl | rfl | rfl | rfl | rfl | rfl <;> exact ⟨rfl, rfl⟩

theorem reads_sign (name : String) {operator : Operator} (isSign : operator ∈ signs)
    (value : Value) :
    Reads dialect [.name name, .words (" " ++ operator.sql ++ " "), .bound value]
      (.atom { column := name, operator, operands := [value] }) where
  spaced := by
    have parting : ∀ operator ∈ signs,
        partingWords dialect (" " ++ operator.sql ++ " ") = true := by
      cases dialect <;> decide
    exact .around (parting operator isSign) (spaced_name name) (spaced_bound value)
  read frame outer := by
    have words : ∀ operator ∈ signs,
        tokens dialect (.words (" " ++ operator.sql ++ " ")) = [.sign operator.sql] := by
      cases dialect <;> decide
    obtain ⟨signed, bound⟩ := next_sign isSign name value
    rw [List.flatMap_cons, List.flatMap_cons, List.flatMap_singleton, words operator isSign]
    simp [tokens, Reading.step, signed, bound]

theorem reads_like (name : String) (value : Value) :
    Reads dialect [.name name, .words " LIKE ", .bound value, .words (" " ++ dialect.likeEscape)]
      (.atom { column := name, operator := .like, operands := [value] }) where
  spaced := by
    have escape : Spaced dialect [.words (" " ++ dialect.likeEscape)] :=
      spaced_words (by cases dialect <;> decide)
    have parting : partingWords dialect " LIKE " = true := by cases dialect <;> decide
    exact .around parting (spaced_name name)
      ((spaced_bound value).append escape (.inr (by cases dialect <;> rfl)))
  read frame outer := by
    have words : tokens dialect (.words " LIKE ") = [.word "LIKE"] := by cases dialect <;> decide
    have escape : tokens dialect (.words (" " ++ dialect.likeEscape)) =
        [.word "ESCAPE", .text "\\"] := by cases dialect <;> decide
    rw [List.flatMap_cons, List.flatMap_cons, List.flatMap_cons, List.flatMap_singleton, words,
      escape]
    rfl

/-- The reading of a list of values after those before. -/
theorem read_list (name : String) (operator : Operator) (frame : Frame) (outer : List Frame)
    (value : Value) (others before : List Value) :
    ((separated ", " ((value :: others).map fun value => [.bound value])).flatMap
        (tokens dialect)).foldlM Reading.step
          (.within (.listDue name operator before) frame outer) =
      some (.within (.listed name operator (before ++ value :: others)) frame outer) := by
  induction others generalizing value before with
  | nil => rfl
  | cons second rest inductionHypothesis =>
    have further := inductionHypothesis second (before ++ [value])
    have parted : separated ", " ((value :: second :: rest).map fun value => [.bound value]) =
        .bound value :: .words ", " ::
          separated ", " ((second :: rest).map fun value => [.bound value]) := rfl
    rw [parted, List.flatMap_cons, List.flatMap_cons, tokens_comma]
    rw [List.append_assoc, List.singleton_append] at further
    exact further

theorem reads_list (name : String) {operator : Operator}
    (isMembership : operator ∈ [.isIn, .isNotIn]) (value : Value) (others : List Value) :
    Reads dialect
      (.name name :: .words (" " ++ operator.sql ++ " (") ::
        (separated ", " ((value :: others).map fun value => [.bound value]) ++ [.words ")"]))
      (.atom { column := name, operator, operands := value :: others }) where
  spaced := by
    have parting : ∀ operator ∈ [Operator.isIn, .isNotIn],
        partingWords dialect (" " ++ operator.sql ++ " (") = true := by
      cases dialect <;> decide
    have values : Spaced dialect
        (separated ", " ((value :: others).map fun value => [.bound value])) :=
      .separated partingWords_comma (List.forall_mem_map.mpr fun value _ => spaced_bound value)
    exact .around (parting operator isMembership) (spaced_name name)
      (values.append spaced_closing (.inr rfl))
  read frame outer := by
    have opened : (tokens dialect (.name name) ++
        tokens dialect (.words (" " ++ operator.sql ++ " ("))).foldlM Reading.step
          (.due frame outer) = some (.within (.listDue name operator []) frame outer) := by
      have cases : operator = .isIn ∨ operator = .isNotIn := by simpa using isMembership
      rcases cases with rfl | rfl <;> cases dialect <;> rfl
    rw [List.flatMap_cons, List.flatMap_cons, List.flatMap_append, List.flatMap_singleton,
      tokens_closing, ← List.append_assoc, List.foldlM_append, opened, Option.bind_eq_bind,
      Option.bind_some, List.foldlM_append, read_list]
    rfl

end Piece

end RelationalAccess
