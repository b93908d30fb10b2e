import RelationalAccess.Proofs.Query.Membership
import RelationalAccess.Proofs.Sql.Phrases

/-!
The text of a filter is read back as the filter: with the precedence of SQL it is the
expression of the filter over its tests, and has the filter's value whatever the tests say.
-/

namespace RelationalAccess

namespace Table

/-- The name of the column at a position. -/
def nameAt (table : Table) (position : Nat) : String :=
  (table.columns[position]?.map (·.name)).getD ""

/-- What is bound for a value of the column at a position. -/
def boundForm (dialect : Dialect) (table : Table) (position : Nat) (value : Value) : Value :=
  (table.columns[position]?.bind fun column => (dialect.write column value).toOption).getD .null

theorem write_eq_boundForm {dialect : Dialect} {table : Table} {position : Nat} {column : Column}
    (found : table.columns[position]? = some column) {value : Value}
    (written : ∃ bound, dialect.write column value = .ok bound) :
    dialect.write column value = .ok (table.boundForm dialect position value) := by
  obtain ⟨bound, written⟩ := written
  simp [boundForm, found, written, Except.toOption]

theorem boundForm_eq {dialect : Dialect} {table : Table} {position : Nat} {column : Column}
    (found : table.columns[position]? = some column) {value bound : Value}
    (written : dialect.write column value = .ok bound) :
    table.boundForm dialect position value = bound :=
  Except.ok.inj ((write_eq_boundForm found ⟨bound, written⟩).symm.trans written)

end Table

namespace Comparison

/-- The operands that the operator of a comparison takes. A missing one is null. -/
def asked (comparison : Comparison) : List Value :=
  match comparison.operator with
  | .isIn | .isNotIn => comparison.operands
  | .isNull | .isNotNull => []
  | _ => [comparison.operands.headD .null]

/-- The test of a comparison in a statement, its negation aside. -/
def test (dialect : Dialect) (table : Table) (comparison : Comparison) : Test where
  column := table.nameAt comparison.column
  operator := comparison.operator
  operands := comparison.asked.map (table.boundForm dialect comparison.column)

/-- The column of a comparison is one of the table's, and its operands can be written for it. -/
def Writable (dialect : Dialect) (table : Table) (comparison : Comparison) : Prop :=
  ∃ column, table.columns[comparison.column]? = some column ∧
    ∀ operand ∈ comparison.asked, ∃ bound, dialect.write column operand = .ok bound

theorem isOk_iff {α : Type} {attempt : Except Error α} :
    attempt.isOk = true ↔ ∃ result, attempt = .ok result := by
  cases attempt <;> simp [Except.isOk, Except.toBool]

instance (dialect : Dialect) (table : Table) (comparison : Comparison) :
    Decidable (comparison.Writable dialect table) :=
  decidable_of_iff
    ((table.columns[comparison.column]?.any fun column =>
      comparison.asked.all fun operand => (dialect.write column operand).isOk) = true)
    (by simp [Writable, Option.any_eq_true, isOk_iff])

end Comparison

/-- A filter over the columns of a table whose operands can be written in a dialect. -/
def Filter.Writable (dialect : Dialect) (table : Table) (filter : Filter) : Prop :=
  ∀ comparison ∈ filter.toCondition.comparisons, comparison.Writable dialect table

instance (dialect : Dialect) (table : Table) (filter : Filter) :
    Decidable (filter.Writable dialect table) :=
  inferInstanceAs (Decidable (∀ comparison ∈ filter.toCondition.comparisons, _))

namespace Comparison

variable {dialect : Dialect} {table : Table} {comparison : Comparison} {column : Column}

/-- The bound operands of a membership. -/
theorem written_eq_ok (bound : Value → Value) {operands : List Value}
    (each : ∀ operand ∈ operands, dialect.write column operand = .ok (bound operand)) :
    written dialect column operands = .ok (operands.map fun operand => .bound (bound operand)) := by
  induction operands with
  | nil => rfl
  | cons first others inductionHypothesis =>
    have here := each first List.mem_cons_self
    have further := inductionHypothesis fun operand listed =>
      each operand (List.mem_cons_of_mem _ listed)
    unfold written at further ⊢
    rw [List.mapM_cons, here, further]
    rfl

/-- What a comparison is read as, its negation aside. -/
def plainExpression (test : Test) (comparison : Comparison) : Expression Test :=
  (comparison.constant?.map .constant).getD (.atom test)

section

variable {position : Nat} {operator : Operator} {operands : List Value} {negated : Bool}
  {form : Value → Value}

theorem reads_membership (isMembership : operator ∈ [.isIn, .isNotIn])
    (bound : ∀ operand ∈ operands, dialect.write column operand = .ok (form operand)) :
    ∃ body, Comparison.body dialect column ⟨position, operator, operands, negated⟩ = .ok body ∧
      Piece.Reads dialect body
        (plainExpression { column := column.name, operator, operands := operands.map form }
          ⟨position, operator, operands, negated⟩) := by
  have cases : operator = .isIn ∨ operator = .isNotIn := by simpa using isMembership
  cases operands with
  | nil =>
    rcases cases with rfl | rfl
    · exact ⟨_, rfl, Piece.reads_truth false⟩
    · exact ⟨_, rfl, Piece.reads_truth true⟩
  | cons first others =>
    have reads : Piece.Reads dialect _ _ :=
      Piece.reads_list column.name isMembership (form first) (others.map form)
    have body : Comparison.body dialect column ⟨position, operator, first :: others, negated⟩ =
        .ok (.name column.name :: .words (" " ++ operator.sql ++ " (") ::
          (Piece.separated ", " (((first :: others).map form).map fun value => [.bound value]) ++
            [.words ")"])) := by
      rw [List.map_map]
      rcases cases with rfl | rfl <;> simp [Comparison.body, written_eq_ok form bound] <;> rfl
    refine ⟨_, body, ?_⟩
    rcases cases with rfl | rfl <;> exact reads

theorem reads_sign (isSign : operator ∈ Piece.signs)
    (bound : dialect.write column (operands.headD .null) = .ok (form (operands.headD .null))) :
    ∃ body, Comparison.body dialect column ⟨position, operator, operands, negated⟩ = .ok body ∧
      Piece.Reads dialect body
        (plainExpression
          { column := column.name, operator, operands := [form (operands.headD .null)] }
          ⟨position, operator, operands, negated⟩) := by
  have reads : Piece.Reads dialect _ _ :=
    Piece.reads_sign column.name isSign (form (operands.headD .null))
  have body : Comparison.body dialect column ⟨position, operator, operands, negated⟩ =
      .ok [.name column.name, .words (" " ++ operator.sql ++ " "),
        .bound (form (operands.headD .null))] := by
    rcases Piece.signs_cases isSign with rfl | rfl | rfl | rfl | rfl | rfl <;>
      (simp only [Comparison.body, bound]; rfl)
  refine ⟨_, body, ?_⟩
  rcases Piece.signs_cases isSign with rfl | rfl | rfl | rfl | rfl | rfl <;> exact reads

theorem reads_like
    (bound : dialect.write column (operands.headD .null) = .ok (form (operands.headD .null))) :
    ∃ body, Comparison.body dialect column ⟨position, .like, operands, negated⟩ = .ok body ∧
      Piece.Reads dialect body
        (plainExpression
          { column := column.name, operator := .like, operands := [form (operands.headD .null)] }
          ⟨position, .like, operands, negated⟩) := by
  have body : Comparison.body dialect column ⟨position, .like, operands, negated⟩ =
      .ok [.name column.name, .words " LIKE ", .bound (form (operands.headD .null)),
        .words (" " ++ dialect.likeEscape)] := by
    simp only [Comparison.body, bound]
    rfl
  exact ⟨_, body, Piece.reads_like column.name (form (operands.headD .null))⟩

end

/-- The body of a comparison is read as its test, or as the constant that it is. -/
theorem reads_body (found : table.columns[comparison.column]? = some column)
    (written : ∀ operand ∈ comparison.asked, ∃ bound, dialect.write column operand = .ok bound) :
    ∃ body, comparison.body dialect column = .ok body ∧
      Piece.Reads dialect body (comparison.plainExpression (comparison.test dialect table)) := by
  have named : table.nameAt comparison.column = column.name := by simp [Table.nameAt, found]
  have bound : ∀ operand ∈ comparison.asked, dialect.write column operand =
      .ok (table.boundForm dialect comparison.column operand) :=
    fun operand listed => Table.write_eq_boundForm found (written operand listed)
  unfold test
  rw [named]
  obtain ⟨position, operator, operands, negated⟩ := comparison
  cases operator with
  | isIn | isNotIn => exact reads_membership (by decide) bound
  | isNull => exact ⟨_, rfl, Piece.reads_nullTest column.name .isNull (by decide)⟩
  | isNotNull => exact ⟨_, rfl, Piece.reads_nullTest column.name .isNotNull (by decide)⟩
  | like => exact reads_like (bound _ (List.mem_singleton_self _))
  | _ => exact reads_sign (by decide) (bound _ (List.mem_singleton_self _))

/-- A comparison over the columns of a table is written, and read as its expression. -/
theorem reads_pieces (writable : comparison.Writable dialect table) :
    ∃ pieces, comparison.pieces dialect table = .ok pieces ∧
      Piece.Reads dialect pieces (comparison.expression.map (test dialect table)) := by
  obtain ⟨column, found, written⟩ := writable
  obtain ⟨body, isBody, reads⟩ := reads_body found written
  have plain : comparison.expression.map (test dialect table) =
      (comparison.plainExpression (comparison.test dialect table)).negateIf comparison.negated := by
    rw [expression, Expression.map_negateIf, plainExpression]
    cases comparison.constant? <;> rfl
  rw [plain, pieces, found]
  simp only [isBody]
  cases comparison.negated with
  | false => exact ⟨body, rfl, reads⟩
  | true => exact ⟨_, rfl, reads.negated⟩

end Comparison

namespace Condition

variable {dialect : Dialect} {table : Table}

mutual

/-- A condition over the columns of a table is written, and read as its expression. -/
theorem reads_pieces (condition : Condition)
    (writable : ∀ comparison ∈ condition.comparisons, comparison.Writable dialect table) :
    ∃ pieces, condition.pieces dialect table = .ok pieces ∧
      Piece.Reads dialect pieces (condition.expression.map (Comparison.test dialect table)) := by
  match condition with
  | .comparison atom =>
    have atomWritable := writable atom (by simp [comparisons])
    simpa only [pieces, expression] using Comparison.reads_pieces atomWritable
  | .literal holds =>
    refine ⟨[.truth holds], by simp only [pieces], ?_⟩
    simpa only [expression, Expression.map] using Piece.reads_truth holds
  | .group connective negated members =>
    have membersWritable : ∀ comparison ∈ comparisonsOfAll members,
        comparison.Writable dialect table := by
      simpa only [comparisons] using writable
    obtain ⟨written, isWritten, each⟩ := reads_piecesOfAll members membersWritable
    refine ⟨enclose connective negated written, ?_, ?_⟩
    · simp only [pieces, isWritten]
      rfl
    · rw [expression, Expression.map_negateIf, Expression.map_joinAll]
      exact Piece.reads_enclose connective negated each

/-- So are several conditions, each by itself. -/
theorem reads_piecesOfAll (conditions : List Condition)
    (writable : ∀ comparison ∈ comparisonsOfAll conditions, comparison.Writable dialect table) :
    ∃ written, piecesOfAll dialect table conditions = .ok written ∧
      List.Forall₂ (Piece.Reads dialect) written
        ((expressions conditions).map (Expression.map (Comparison.test dialect table))) := by
  match conditions with
  | [] => exact ⟨[], by simp only [piecesOfAll], by simp only [expressions]; exact .nil⟩
  | first :: others =>
    obtain ⟨pieces, isPieces, reads⟩ := reads_pieces first fun comparison listed =>
      writable comparison (by simp [comparisonsOfAll, listed])
    obtain ⟨written, isWritten, each⟩ := reads_piecesOfAll others fun comparison listed =>
      writable comparison (by simp [comparisonsOfAll, listed])
    refine ⟨pieces :: written, ?_, ?_⟩
    · simp only [piecesOfAll, isPieces, isWritten]
      rfl
    · simp only [expressions, List.map_cons]
      exact .cons reads each

end

end Condition

/-- The condition that a statement by itself is, if it is one. -/
def Statement.condition? (dialect : Dialect) (statement : Statement) : Option (Expression Test) :=
  Expression.ofTokens? (statement.tokens dialect)

namespace Filter

/-- A filter over the columns of a table is written, and its text is read back, with the
precedence of SQL, as an expression over the tests of the filter that has the filter's
value whatever the tests say at their places. -/
theorem render_read_back (dialect : Dialect) (table : Table) (filter : Filter)
    (writable : filter.Writable dialect table) :
    ∃ statement expression, filter.render dialect table = .ok statement ∧
      statement.condition? dialect = some expression ∧
      expression.atoms = filter.toCondition.tests.map (Comparison.test dialect table) ∧
      ∀ values : Nat → Truth, expression.truthBy (fun place _ => values place) =
        filter.toCondition.truthBy fun place _ => values place := by
  obtain ⟨pieces, isPieces, reads⟩ := Condition.reads_pieces filter.toCondition writable
  refine ⟨.assemble dialect pieces,
    filter.toCondition.expression.map (Comparison.test dialect table), ?_, ?_, ?_,
    fun values => ?_⟩
  · rw [render, Filter.pieces, isPieces]
    rfl
  · rw [Statement.condition?, Statement.tokens_assemble reads.spaced]
    exact reads.ofTokens?
  · rw [Expression.atoms_map, Condition.atoms_expression]
  · rw [Expression.truthBy_map, Condition.truthBy_expression]

/-- A filter on items with groups within each other, some of them empty. -/
def nested : Filter where
  connective := .or
  negated := true
  members :=
    [.group .and false [.comparison { column := 1, operator := .isIn, operands := [] }],
      .comparison
        { column := 1, operator := .isIn, operands := [.int 1, .int 2], negated := true },
      .group .and true [],
      .group .or false
        [.literal false, .comparison { column := 0, operator := .less, operands := [.int 7] }]]

/-- The text of the nested groups and its value. -/
theorem render_read_back_nested :
    nested.Writable .sqlite sortedItems ∧
      ∃ statement expression, nested.render .sqlite sortedItems = .ok statement ∧
        statement.text =
          "NOT (1=0 OR NOT (\"grp\" IN (@p0, @p1)) OR NOT 1=1 OR (1=0 OR \"id\" < @p2))" ∧
        statement.condition? .sqlite = some expression ∧
        ∀ values : Nat → Truth, expression.truthBy (fun place _ => values place) =
          ((values 0).not.or (values 1)).not := by
  have writable : nested.Writable .sqlite sortedItems := by decide
  obtain ⟨statement, expression, rendered, read, _, agrees⟩ :=
    render_read_back .sqlite sortedItems nested writable
  refine ⟨writable, statement, expression, rendered, ?_, read, fun values => ?_⟩
  · obtain rfl := Except.ok.inj rendered
    decide
  · rw [agrees]
    show (Truth.joinAll .or
      [.fails, (values 0).not, .fails, .joinAll .or [.fails, values 1]]).not = _
    cases values 0 <;> cases values 1 <;> rfl

end Filter

end RelationalAccess
