import RelationalAccess.Proofs.Outcome
import RelationalAccess.Proofs.Sql.Splicing

/-!
What is written are the pieces: every statement that is written, with its marks bound before their
text is put down, is the one that the pieces of the statement make up, and is refused where they
are.
-/

namespace RelationalAccess

namespace Writing

variable {dialect : Dialect}

theorem Writes.pushedIf (dialect : Dialect) (asked : Bool) (text : String) :
    Writes dialect (pushIf asked text) (.ok (if asked then [.words text] else [])) := by
  cases asked with
  | false => exact .nothing
  | true => exact .pushed (Piece.spell_words text)

theorem push_truth (holds : Bool) :
    Writes dialect (push (if holds then "1=1" else "1=0")) (.ok [.truth holds]) :=
  .pushed (Piece.spell_words _)

section

variable (dialect) (table : Table)

/-- A membership binds all its operands before its text is put down. -/
theorem membership_writes (column : Column) (operator : Operator) (operands : List Value) :
    Writes dialect
      (do
        let marks ← operands.mapM (bindOperand dialect column)
        push (dialect.quote column.name ++ " " ++ operator.sql ++ " (" ++ ", ".intercalate marks ++
          ")"))
      (do
        let bound ← Comparison.written dialect column operands
        return .name column.name :: .words (" " ++ operator.sql ++ " (") ::
          (Piece.separated ", " (bound.map ([·])) ++ [.words ")"])) := by
  have each (operand : Value) : Binds dialect (bindOperand dialect column operand)
      (do return [← (do return .bound (← dialect.write column operand))]) := by
    simpa using bindOperand_binds dialect column operand
  have opening : Piece.Spell dialect (dialect.quote column.name ++ (" " ++ operator.sql ++ " ("))
      [.name column.name, .words (" " ++ operator.sql ++ " (")] :=
    (Piece.spell_name column.name).append (Piece.spell_words _)
  have spliced := (Binds.separated each ", " operands).within opening (Piece.spell_words ")")
  simpa [Comparison.written, String.append_assoc] using spliced.pushed

/-- A comparison with one value, behind which the escape of a pattern may stand. -/
theorem singleComparison_writes (column : Column) (operator : Operator) (operand : Value)
    {escape : String} {tail : List Piece} (spells : Piece.Spell dialect escape tail) :
    Writes dialect
      (do
        let mark ← bindOperand dialect column operand
        push (dialect.quote column.name ++ " " ++ operator.sql ++ " " ++ mark ++ escape))
      (do
        let bound ← dialect.write column operand
        return .name column.name :: .words (" " ++ operator.sql ++ " ") :: .bound bound ::
          tail) := by
  have opening : Piece.Spell dialect (dialect.quote column.name ++ (" " ++ operator.sql ++ " "))
      [.name column.name, .words (" " ++ operator.sql ++ " ")] :=
    (Piece.spell_name column.name).append (Piece.spell_words _)
  have spliced := (bindOperand_binds dialect column operand).within opening spells
  simpa [String.append_assoc] using spliced.pushed

theorem comparisonBody_writes (column : Column) (comparison : Comparison) :
    Writes dialect (comparisonBody dialect column comparison) (comparison.body dialect column) := by
  obtain ⟨position, operator, operands, negated⟩ := comparison
  have noEscape : Piece.Spell dialect "" [] := fun _ => rfl
  have tested (operator : Operator) :
      Writes dialect (push (dialect.quote column.name ++ " " ++ operator.sql))
        (.ok [.name column.name, .words (" " ++ operator.sql)]) :=
    String.append_assoc ▸
      .pushed ((Piece.spell_name column.name).append (Piece.spell_words (" " ++ operator.sql)))
  cases operator with
  | isIn =>
    cases operands with
    | nil => exact push_truth false
    | cons first others => exact membership_writes dialect column .isIn (first :: others)
  | isNotIn =>
    cases operands with
    | nil => exact push_truth true
    | cons first others => exact membership_writes dialect column .isNotIn (first :: others)
  | isNull => exact tested .isNull
  | isNotNull => exact tested .isNotNull
  | like =>
    exact singleComparison_writes dialect column .like (operands.headD .null)
      (Piece.spell_words (" " ++ dialect.likeEscape))
  | equal => exact singleComparison_writes dialect column .equal (operands.headD .null) noEscape
  | notEqual =>
    exact singleComparison_writes dialect column .notEqual (operands.headD .null) noEscape
  | greater =>
    exact singleComparison_writes dialect column .greater (operands.headD .null) noEscape
  | greaterOrEqual =>
    exact singleComparison_writes dialect column .greaterOrEqual (operands.headD .null) noEscape
  | less => exact singleComparison_writes dialect column .less (operands.headD .null) noEscape
  | lessOrEqual =>
    exact singleComparison_writes dialect column .lessOrEqual (operands.headD .null) noEscape

theorem comparison_writes (test : Comparison) :
    Writes dialect (comparison dialect table test) (test.pieces dialect table) := by
  unfold comparison Comparison.pieces
  cases table.columns[test.column]? with
  | none => exact .throws _
  | some column =>
    have whole := (Writes.pushedIf dialect test.negated "NOT (").around
      (comparisonBody_writes dialect column test) (.pushedIf dialect test.negated ")")
    cases negated : test.negated with
    | false => simpa [negated] using whole
    | true => simpa [negated] using whole

theorem length_piecesOfAll {members : List Condition} {groups : List (List Piece)}
    (made : Condition.piecesOfAll dialect table members = .ok groups) :
    groups.length = members.length := by
  induction members generalizing groups with
  | nil =>
    simp only [Condition.piecesOfAll] at made
    obtain rfl := Except.ok.inj made
    rfl
  | cons first others inductionHypothesis =>
    simp only [Condition.piecesOfAll] at made
    obtain ⟨pieces, _, further⟩ := ok_of_bind made
    obtain ⟨rest, areOthers, same⟩ := ok_of_bind further
    obtain rfl := Except.ok.inj same
    rw [List.length_cons, List.length_cons, inductionHypothesis areOthers]

/-- A group is enclosed by how many members it has, which are known before they are written. -/
theorem enclosed_writes (connective : Connective) (negated : Bool) {first : Condition}
    {others : List Condition} {act : Writing Unit}
    (writes : Writes dialect act (do
      return Piece.separated (Condition.joiner connective)
        (← Condition.piecesOfAll dialect table (first :: others)))) :
    Writes dialect
      (do
        pushIf negated "NOT "
        pushIf (negated || decide (1 < (first :: others).length)) "("
        act
        pushIf (negated || decide (1 < (first :: others).length)) ")")
      (do
        return Condition.enclose connective negated
          (← Condition.piecesOfAll dialect table (first :: others))) := by
  have whole := (Writes.pushedIf dialect negated "NOT ").both
    ((Writes.pushedIf dialect (negated || decide (1 < (first :: others).length)) "(").around writes
      (.pushedIf dialect (negated || decide (1 < (first :: others).length)) ")"))
  cases made : Condition.piecesOfAll dialect table (first :: others) with
  | error refusal =>
    rw [made] at whole
    exact whole
  | ok groups =>
    have sameLength := length_piecesOfAll dialect table made
    have notEmpty : ¬ groups.isEmpty := by
      cases groups with
      | nil => cases sameLength
      | cons => exact Bool.false_ne_true
    have enclosed (count : Nat) (sameCount : groups.length = count) :
        Condition.enclose connective negated groups =
          (if negated then [.words "NOT "] else []) ++
            ((if negated || decide (1 < count) then [.words "("] else []) ++
              Piece.separated (Condition.joiner connective) groups ++
              if negated || decide (1 < count) then [.words ")"] else []) := by
      rw [Condition.enclose, if_neg notEmpty, sameCount]
      by_cases many : 1 < count <;> cases negated <;> simp [many]
    rw [made] at whole
    show Writes dialect _ (.ok (Condition.enclose connective negated groups))
    rw [enclosed _ sameLength]
    exact whole

mutual

theorem condition_writes (given : Condition) :
    Writes dialect (condition dialect table given) (given.pieces dialect table) := by
  match given with
  | .comparison test =>
    simp only [condition, Condition.pieces]
    exact comparison_writes dialect table test
  | .literal holds =>
    simp only [condition, Condition.pieces]
    exact push_truth holds
  | .group connective negated [] =>
    simp only [condition, Condition.pieces, Condition.piecesOfAll]
    have truth : Writes dialect (push (if connective = .and then "1=1" else "1=0"))
        (.ok [.truth (decide (connective = .and))]) := by
      cases connective with
      | and => exact push_truth true
      | or => exact push_truth false
    exact (Writes.pushedIf dialect negated "NOT ").both truth
  | .group connective negated (first :: others) =>
    simp only [condition, Condition.pieces]
    exact enclosed_writes dialect table connective negated
      (conditions_writes connective false (first :: others))

/-- The members of a group are written with the connective before each but the first. -/
theorem conditions_writes (connective : Connective) (behind : Bool) (given : List Condition) :
    Writes dialect (conditions dialect table connective behind given) (do
      let groups ← Condition.piecesOfAll dialect table given
      return if behind then groups.flatMap (.words (Condition.joiner connective) :: ·)
        else Piece.separated (Condition.joiner connective) groups) := by
  match given with
  | [] =>
    simp only [conditions, Condition.piecesOfAll]
    cases behind <;> exact .nothing
  | first :: others =>
    simp only [conditions, Condition.piecesOfAll]
    have whole := (Writes.pushedIf dialect behind (Condition.joiner connective)).both
      ((condition_writes first).both (conditions_writes connective true others))
    cases onFirst : first.pieces dialect table with
    | error refusal =>
      rw [onFirst] at whole
      exact whole
    | ok pieces =>
      cases onOthers : Condition.piecesOfAll dialect table others with
      | error refusal =>
        rw [onFirst, onOthers] at whole
        exact whole
      | ok groups =>
        rw [onFirst, onOthers] at whole
        cases behind with
        | false =>
          show Writes dialect _ (.ok (Piece.separated _ (pieces :: groups)))
          rw [Piece.separated_eq]
          exact whole
        | true => exact whole

end

theorem filter_writes (given : Filter) :
    Writes dialect (filter dialect table given) (given.pieces dialect table) :=
  condition_writes dialect table given.toCondition

theorem whereClause_writes (given : Query) :
    Writes dialect (whereClause dialect given) (given.filterPieces dialect) := by
  unfold whereClause Query.filterPieces
  cases given.filter with
  | none => exact .nothing
  | some condition =>
    show Writes dialect (if condition.isEmpty then pure () else _)
      (if condition.isEmpty then .ok [] else _)
    split
    · exact .nothing
    · have opening : Writes dialect (push " WHERE ") (.ok [.words " WHERE "]) :=
        .pushed (Piece.spell_words " WHERE ")
      exact opening.both (filter_writes dialect given.table condition)

theorem orderClause_writes (given : Query) :
    Writes dialect (orderClause dialect given) (.ok given.orderPieces) := by
  have term (asked : Nat × Bool) :
      Piece.Spell dialect (orderTerm dialect given asked) (given.orderTerm asked) := by
    obtain ⟨position, descending⟩ := asked
    have named := Piece.spell_names dialect (given.table.columnsAt [position])
    cases descending with
    | false => exact named.append fun _ => rfl
    | true => exact named.append (Piece.spell_words " DESC")
  unfold orderClause Query.orderPieces
  split
  · exact .nothing
  · exact .pushed ((Piece.spell_words " ORDER BY ").append (.separated term given.order))

theorem pageClause_writes (given : Query) :
    Writes dialect (pageClause dialect given) (.ok (given.pagePieces dialect)) := by
  unfold pageClause Query.pagePieces
  split
  · exact .nothing
  · cases dialect.page? given.limit given.offset with
    | none => exact .nothing
    | some clause =>
      intro statement
      show Except.ok _ = Except.ok _
      simp [Statement.extended, Statement.assembleFrom, String.append_assoc]

/-- What a query returns is known, or refused, before anything is written. -/
theorem returned_eq (given : Query) :
    (∃ text pieces, returned dialect given = .ok text ∧ given.projectionPieces = .ok pieces ∧
        Piece.Spell dialect text pieces) ∨
      ∃ refusal, returned dialect given = .error refusal ∧
        given.projectionPieces = .error refusal := by
  unfold returned Query.projectionPieces
  cases given.projection with
  | count => exact .inl ⟨_, _, rfl, rfl, Piece.spell_words _⟩
  | all => exact .inl ⟨_, _, rfl, rfl, Piece.spell_names dialect _⟩
  | keys =>
    cases given.table.hasPrimaryKey with
    | true => exact .inl ⟨_, _, rfl, rfl, Piece.spell_names dialect _⟩
    | false => exact .inr ⟨_, rfl, rfl⟩

theorem query_writes (given : Query) :
    Writes dialect (query dialect given) (given.pieces dialect) := by
  have clauses := (whereClause_writes dialect given).both
    ((orderClause_writes dialect given).both (pageClause_writes dialect given))
  unfold query Query.pieces
  rcases returned_eq dialect given with ⟨text, pieces, isText, arePieces, spells⟩ |
    ⟨refusal, isRefused, areRefused⟩
  · rw [isText, arePieces]
    have opening : Piece.Spell dialect
        ("SELECT " ++ text ++ " FROM " ++ dialect.quote given.table.name)
        ([.words "SELECT "] ++ pieces ++ [.words " FROM "] ++ [.name given.table.name]) :=
      (((Piece.spell_words "SELECT ").append spells).append (Piece.spell_words " FROM ")).append
        (Piece.spell_name given.table.name)
    have whole := (Writes.pushed opening).both clauses
    cases areFiltered : given.filterPieces dialect with
    | error refusal =>
      rw [areFiltered] at whole
      exact whole
    | ok filtered =>
      rw [areFiltered] at whole
      have same : .words "SELECT " :: pieces ++ .words " FROM " :: .name given.table.name ::
          filtered ++ given.orderPieces ++ given.pagePieces dialect =
            [.words "SELECT "] ++ pieces ++ [.words " FROM "] ++ [.name given.table.name] ++
              (filtered ++ (given.orderPieces ++ given.pagePieces dialect)) := by
        simp
      show Writes dialect _ (.ok _)
      rw [same]
      exact whole
  · rw [isRefused, areRefused]
    exact .throws refusal

/-- The cells of a row that an insertion binds, with their written forms. -/
def boundCells (cells : List (Column × Value)) : Except Error (List (Column × Value)) :=
  (cells.filter fun (column, value) => !(column.autoIncrement && value.isNull)).mapM
    fun (column, value) => do return (column, ← dialect.write column value)

theorem boundCells_cons (column : Column) (value : Value) (rest : List (Column × Value)) :
    boundCells dialect ((column, value) :: rest) =
      if column.autoIncrement && value.isNull then boundCells dialect rest
      else do
        let written ← dialect.write column value
        return (column, written) :: (← boundCells dialect rest) := by
  unfold boundCells
  by_cases skipped : (column.autoIncrement && value.isNull) = true
  · rw [List.filter_cons_of_neg (by simp [skipped]), if_pos skipped]
  · rw [List.filter_cons_of_pos (by simp [skipped]), if_neg skipped, List.mapM_cons]
    simp

/-- A row is bound cell by cell. The names and the marks that are gathered belong to the columns
that are bound. -/
theorem bindRow_apply (cells : List (Column × Value)) (statement : Statement) :
    bindRow dialect cells statement = do
      let columns ← boundCells dialect cells
      let groups : List (List Piece) := columns.map fun (_, value) => [.bound value]
      let further := Statement.assembleFrom dialect statement.parameters.length groups.flatten
      return ((columns.map fun (column, _) => dialect.quote column.name,
          Piece.texts dialect statement.parameters.length groups),
        { statement with parameters := statement.parameters ++ further.parameters }) := by
  induction cells generalizing statement with
  | nil =>
    show Except.ok _ = Except.ok _
    simp [Piece.texts, Statement.assembleFrom]
  | cons cell rest inductionHypothesis =>
    obtain ⟨column, value⟩ := cell
    rw [bindRow, boundCells_cons]
    cases column.autoIncrement && value.isNull with
    | true => exact inductionHypothesis statement
    | false =>
      simp only [Bool.false_eq_true, if_false]
      rw [bind_apply, bindOperand_binds]
      cases dialect.write column value with
      | error refusal => rfl
      | ok written =>
        let bound := Statement.assembleFrom dialect statement.parameters.length [.bound written]
        let after := { statement with parameters := statement.parameters ++ bound.parameters }
        show (do
          let outcome ← bindRow dialect rest after
          Except.ok ((dialect.quote column.name :: outcome.1.1, bound.text :: outcome.1.2),
            outcome.2)) = _
        rw [inductionHypothesis]
        cases boundCells dialect rest with
        | error refusal => rfl
        | ok columns =>
          show Except.ok _ = Except.ok _
          simp [after, bound, Piece.texts, Statement.assembleFrom, Piece.parameterCount]

theorem insertion_writes (values : List Value) :
    Writes dialect (insertion dialect table values) (Statement.insertPieces dialect table values) := by
  intro statement
  have asked : Statement.boundColumns dialect table values =
      boundCells dialect (table.columns.zip values) := rfl
  rw [insertion, Statement.insertPieces, asked, bind_apply, bindRow_apply]
  cases boundCells dialect (table.columns.zip values) with
  | error refusal => rfl
  | ok columns =>
    have named : Piece.Spell dialect
        (", ".intercalate (columns.map fun (column, _) => dialect.quote column.name))
        (Piece.names (columns.map fun (column, _) => column.name)) := by
      simpa [columnList, Function.comp_def] using
        Piece.spell_names dialect (columns.map Prod.fst)
    have opening : Piece.Spell dialect ("INSERT INTO " ++ dialect.quote table.name ++ " (" ++
        ", ".intercalate (columns.map fun (column, _) => dialect.quote column.name) ++ ") VALUES (")
        ([.words "INSERT INTO ", .name table.name, .words " ("] ++
          Piece.names (columns.map fun (column, _) => column.name) ++ [.words ") VALUES ("]) :=
      ((((Piece.spell_words "INSERT INTO ").append (Piece.spell_name table.name)).append
        (Piece.spell_words " (")).append named).append (Piece.spell_words ") VALUES (")
    have spliced := opening.around (Piece.spell_words ")") statement.parameters.length
      (Piece.separated ", " (columns.map fun (_, value) => [.bound value]))
    rw [Piece.assembleFrom_separated] at spliced
    cases columns with
    | nil =>
      show Except.ok _ = Except.ok _
      simp [Statement.extended, Statement.assembleFrom, String.append_assoc]
    | cons first others =>
      show Except.ok _ = Except.ok ((), statement.extended dialect _)
      rw [Statement.extended, spliced]

theorem assignment_binds (change : Nat × Value) :
    Binds dialect (assignment dialect table change) (Statement.assignment dialect table change) := by
  unfold assignment Statement.assignment
  cases table.columns[change.1]? with
  | none => exact fun _ => rfl
  | some column =>
    have opening : Piece.Spell dialect (dialect.quote column.name ++ " = ")
        [.name column.name, .words " = "] :=
      (Piece.spell_name column.name).append (Piece.spell_words _)
    have closing : Piece.Spell dialect "" [] := fun _ => rfl
    simpa using (bindOperand_binds dialect column change.2).within opening closing

/-- The filter of a row by its keys stands behind what is written before it. -/
theorem rowFilter_writes (keys : Keys) {opens : Writing Unit}
    {opening : Except Error (List Piece)} (onOpening : Writes dialect opens opening) :
    Writes dialect (do opens; filter dialect table (← liftM (Statement.rowFilter table keys)))
      (do
        let opening ← opening
        let found ← Statement.rowFilter table keys
        return opening ++ (← found.pieces dialect table)) := by
  have whole := onOpening.both
    (Writes.attempt fun found (_ : Statement.rowFilter table keys = .ok found) =>
      filter_writes dialect table found)
  simpa using whole

theorem update_writes (keys : Keys) (changes : List (Nat × Value)) :
    Writes dialect (update dialect table keys changes)
      (Statement.updatePieces dialect table keys changes) := by
  unfold update Statement.updatePieces
  cases changes.isEmpty with
  | true => exact .throws _
  | false =>
    have opening : Piece.Spell dialect ("UPDATE " ++ dialect.quote table.name ++ " SET ")
        [.words "UPDATE ", .name table.name, .words " SET "] :=
      ((Piece.spell_words "UPDATE ").append (Piece.spell_name table.name)).append
        (Piece.spell_words " SET ")
    have each (change : Nat × Value) : Binds dialect (assignment dialect table change)
        (do return id (← Statement.assignment dialect table change)) := by
      simpa using assignment_binds dialect table change
    have assigned := (Binds.separated each ", " changes).within opening (Piece.spell_words " WHERE ")
    have whole := rowFilter_writes dialect table keys assigned.pushed
    simpa using whole

theorem deletion_writes (keys : Keys) :
    Writes dialect (deletion dialect table keys) (Statement.deletePieces dialect table keys) := by
  have opening : Piece.Spell dialect ("DELETE FROM " ++ dialect.quote table.name ++ " WHERE ")
      [.words "DELETE FROM ", .name table.name, .words " WHERE "] :=
    ((Piece.spell_words "DELETE FROM ").append (Piece.spell_name table.name)).append
      (Piece.spell_words " WHERE ")
  exact rowFilter_writes dialect table keys (.pushed opening)

end

/-- What is written from an empty statement is what the pieces make up. -/
theorem run_eq {dialect : Dialect} {act : Writing Unit} {pieces : Except Error (List Piece)}
    (writes : Writes dialect act pieces) :
    run act = do return Statement.assemble dialect (← pieces) := by
  rw [run, writes]
  cases pieces with
  | error refusal => rfl
  | ok made =>
    show Except.ok _ = Except.ok _
    simp [Statement.extended, Statement.assemble]

section

variable (dialect : Dialect) (table : Table)

theorem run_query (given : Query) : run (query dialect given) = given.statement dialect :=
  run_eq (query_writes dialect given)

theorem run_filter (given : Filter) :
    run (filter dialect table given) = given.render dialect table :=
  run_eq (filter_writes dialect table given)

theorem run_insertion (values : List Value) :
    run (insertion dialect table values) = Statement.insert dialect table values :=
  run_eq (insertion_writes dialect table values)

theorem run_update (keys : Keys) (changes : List (Nat × Value)) :
    run (update dialect table keys changes) = Statement.update dialect table keys changes :=
  run_eq (update_writes dialect table keys changes)

theorem run_deletion (keys : Keys) :
    run (deletion dialect table keys) = Statement.delete dialect table keys :=
  run_eq (deletion_writes dialect table keys)

end

end Writing

end RelationalAccess
