import RelationalAccess.Proofs.Sql.FilterText
import RelationalAccess.Sql.Selecting

/-!
The text of a query of one table, in no order and on no page, is read back as the columns
that it returns, its table and its condition.
-/

namespace RelationalAccess

/-- A query of one table as an engine reads it. -/
structure ReadQuery where
  /-- The columns of the rows that are returned; there are none if the rows are counted. -/
  columns : Option (List String)
  table : String
  /-- The condition on the rows, if there is one. -/
  condition : Option (Expression Test)

namespace ReadQuery

/-- Names with commas between them. -/
def names? : List Token → Option (List String)
  | [.name only] => some [only]
  | .name first :: .sign "," :: rest => (names? rest).map (first :: ·)
  | _ => none

/-- What is returned of the rows. -/
def projection? : List Token → Option (Option (List String))
  | [.word "COUNT", .sign "(", .sign "*", .sign ")"] => some none
  | [] => some (some [])
  | tokens => (names? tokens).map some

/-- What stands behind the table. -/
def condition? : List Token → Option (Option (Expression Test))
  | [] => some none
  | .word "WHERE" :: tokens => (Expression.ofTokens? tokens).map some
  | _ => none

def isFrom (token : Token) : Bool := decide (token = .word "FROM")

/-- The selection that tokens are, if they are one. -/
def ofTokens? : List Token → Option ReadQuery
  | .word "SELECT" :: rest =>
    match rest.dropWhile (!isFrom ·) with
    | _ :: .name table :: further => do
      return { columns := ← projection? (rest.takeWhile (!isFrom ·)), table
               condition := ← condition? further }
    | _ => none
  | _ => none

/-- The selection of the tokens of its clauses. -/
theorem ofTokens?_clauses {returned further : List Token}
    (noFrom : ∀ token ∈ returned, isFrom token = false) {columns : Option (List String)}
    (isReturned : projection? returned = some columns) {condition : Option (Expression Test)}
    (isCondition : condition? further = some condition) (table : String) :
    ofTokens? (.word "SELECT" :: (returned ++ .word "FROM" :: .name table :: further)) =
      some { columns, table, condition } := by
  have passed : ∀ token ∈ returned, (!isFrom token) = true :=
    fun token listed => by rw [noFrom token listed]; rfl
  have isFirst : (!isFrom (.word "FROM")) = false := by decide
  rw [ofTokens?, List.dropWhile_append_of_pos passed, List.takeWhile_append_of_pos passed,
    List.dropWhile_cons_of_neg (by simp [isFirst]), List.takeWhile_cons_of_neg (by simp [isFirst]),
    List.append_nil]
  simp [isReturned, isCondition]

end ReadQuery

/-- The columns that a projection returns, in their order. -/
def Projection.columns? (table : Table) : Projection → Option (List String)
  | .count => none
  | .all => some (table.columns.map (·.name))
  | .keys => some ((table.columnsAt table.primaryKeys).map (·.name))

namespace Piece

variable {dialect : Dialect}

theorem spaced_names (list : List String) : Spaced dialect (names list) :=
  .separated partingWords_comma (List.forall_mem_map.mpr fun name _ => spaced_name name)

/-- Names with commas between them are read as themselves. -/
theorem names?_tokens (first : String) (others : List String) :
    ReadQuery.names? ((names (first :: others)).flatMap (tokens dialect)) =
      some (first :: others) := by
  induction others generalizing first with
  | nil => rfl
  | cons second rest inductionHypothesis =>
    have parted : names (first :: second :: rest) =
        .name first :: .words ", " :: names (second :: rest) := rfl
    rw [parted, List.flatMap_cons, List.flatMap_cons, tokens_comma]
    exact congrArg (Option.map (first :: ·)) (inductionHypothesis second)

theorem projection?_tokens (list : List String) :
    ReadQuery.projection? ((names list).flatMap (tokens dialect)) = some (some list) := by
  match list with
  | [] => rfl
  | [only] => rfl
  | first :: second :: rest =>
    exact congrArg (Option.map some) (names?_tokens first (second :: rest))

theorem mem_separated {separator : String} {groups : List (List Piece)} {piece : Piece}
    (listed : piece ∈ separated separator groups) :
    piece = .words separator ∨ ∃ group ∈ groups, piece ∈ group := by
  fun_induction separated separator groups with
  | case1 => cases listed
  | case2 only => exact .inr ⟨only, List.mem_cons_self, listed⟩
  | case3 first others _ inductionHypothesis =>
    rcases List.mem_append.mp listed with here | later
    · exact .inr ⟨first, List.mem_cons_self, here⟩
    · rcases List.mem_cons.mp later with same | behind
      · exact .inl same
      · refine (inductionHypothesis behind).imp_right ?_
        rintro ⟨group, isGroup, inside⟩
        exact ⟨group, List.mem_cons_of_mem _ isGroup, inside⟩

theorem isFrom_names {list : List String} {token : Token}
    (listed : token ∈ (names list).flatMap (tokens dialect)) : ReadQuery.isFrom token = false := by
  obtain ⟨piece, isPiece, isToken⟩ := List.mem_flatMap.mp listed
  rcases mem_separated isPiece with rfl | ⟨group, isGroup, inside⟩
  · rw [tokens_comma, List.mem_singleton] at isToken
    subst isToken
    decide
  · obtain ⟨called, _, rfl⟩ := List.mem_map.mp isGroup
    obtain rfl := List.mem_singleton.mp inside
    obtain rfl := List.mem_singleton.mp isToken
    simp [ReadQuery.isFrom]

end Piece

namespace Query

variable {dialect : Dialect} {table : Table} {projection : Projection}

/-- The projection of a query is written, and read as its columns. -/
theorem reads_projection (dialect : Dialect) (query : Query)
    (keyed : query.projection = .keys → query.table.hasPrimaryKey = true) :
    ∃ pieces, query.projectionPieces = .ok pieces ∧ Piece.Spaced dialect pieces ∧
      (∀ token ∈ pieces.flatMap (Piece.tokens dialect), ReadQuery.isFrom token = false) ∧
      ReadQuery.projection? (pieces.flatMap (Piece.tokens dialect)) =
        some (query.projection.columns? query.table) := by
  obtain ⟨table, projection, filter, order, limit, offset⟩ := query
  cases projection with
  | count =>
    have counting : Piece.tokens dialect (.words "COUNT(*)") =
        [.word "COUNT", .sign "(", .sign "*", .sign ")"] := by cases dialect <;> decide
    refine ⟨[.words "COUNT(*)"], rfl, Piece.spaced_words (by cases dialect <;> decide), ?_, ?_⟩
    · rw [List.flatMap_singleton, counting]
      decide
    · rw [List.flatMap_singleton, counting]
      rfl
  | all =>
    exact ⟨_, rfl, Piece.spaced_names _, fun _ => Piece.isFrom_names, Piece.projection?_tokens _⟩
  | keys =>
    refine ⟨_, if_pos (keyed rfl), Piece.spaced_names _, fun _ => Piece.isFrom_names,
      Piece.projection?_tokens _⟩

/-- What a query returns can be written unless it asks for keys that are missing. -/
theorem projectionPieces_iff {query : Query} :
    (∃ pieces, query.projectionPieces = .ok pieces) ↔
      (query.projection = .keys → query.table.hasPrimaryKey = true) := by
  unfold projectionPieces
  cases query.projection with
  | keys => cases query.table.hasPrimaryKey <;> simp
  | _ => simp

/-- So whether a query has a statement depends on its filter, where it asks for no missing keys. -/
theorem statement_iff {query : Query} :
    (∃ statement, query.statement dialect = .ok statement) ↔
      (query.projection = .keys → query.table.hasPrimaryKey = true) ∧
        ∃ pieces, query.filterPieces dialect = .ok pieces := by
  rw [← projectionPieces_iff, statement, pieces]
  cases query.projectionPieces with
  | error refusal => exact ⟨nofun, nofun⟩
  | ok returned =>
    cases query.filterPieces dialect with
    | error refusal => exact ⟨nofun, nofun⟩
    | ok clause => exact ⟨fun _ => ⟨⟨_, rfl⟩, _, rfl⟩, fun _ => ⟨_, rfl⟩⟩

/-- A query is written and read as a selection with a condition. -/
def ReadsAs (dialect : Dialect) (query : Query) (read : ReadQuery) : Prop :=
  ∃ statement, query.statement dialect = .ok statement ∧
    ReadQuery.ofTokens? (statement.tokens dialect) = some read

/-- A query in no order and on no page is read by its projection and its filter. -/
theorem readsAs_of_filterPieces {filter : Option Filter}
    (keyed : projection = .keys → table.hasPrimaryKey = true) {pieces : List Piece}
    (isFilter : filterPieces dialect { table, projection, filter } = .ok pieces)
    (spaced : Piece.Spaced dialect (.name table.name :: pieces))
    {condition : Option (Expression Test)}
    (isCondition : ReadQuery.condition? (pieces.flatMap (Piece.tokens dialect)) = some condition) :
    ReadsAs dialect { table, projection, filter }
      { columns := projection.columns? table, table := table.name, condition } := by
  obtain ⟨returned, isReturned, spacedReturned, noFrom, isProjection⟩ :=
    reads_projection dialect { table, projection, filter } keyed
  have isPieces : Query.pieces dialect { table, projection, filter } =
      .ok (.words "SELECT " :: returned ++ .words " FROM " :: .name table.name :: pieces) := by
    rw [Query.pieces, isReturned, isFilter]
    cases projection <;> simp [orderPieces, pagePieces, Dialect.page?] <;> rfl
  refine ⟨.assemble dialect _, by rw [Query.statement, isPieces]; rfl, ?_⟩
  have select : Piece.Spaced dialect [.words "SELECT "] :=
    Piece.spaced_words (by cases dialect <;> decide)
  have spacedStart : Piece.Spaced dialect (.words "SELECT " :: returned) :=
    select.append spacedReturned (.inl (Piece.shut_words (by cases dialect <;> decide)))
  have parting : Piece.partingWords dialect " FROM " = true := by cases dialect <;> decide
  have spacedPieces := Piece.Spaced.around parting spacedStart spaced
  rw [Statement.tokens_assemble spacedPieces]
  have selectRead : Piece.tokens dialect (.words "SELECT ") = [.word "SELECT"] := by
    cases dialect <;> decide
  have fromRead : Piece.tokens dialect (.words " FROM ") = [.word "FROM"] := by
    cases dialect <;> decide
  simp only [List.cons_append, List.flatMap_cons, List.flatMap_append, selectRead, fromRead]
  exact ReadQuery.ofTokens?_clauses noFrom isProjection isCondition table.name

theorem readsAs_filter (keyed : projection = .keys → table.hasPrimaryKey = true) {filter : Filter}
    (members : filter.isEmpty = false) (writable : filter.Writable dialect table) :
    ReadsAs dialect { table, projection, filter := some filter }
      { columns := projection.columns? table
        table := table.name
        condition := filter.toCondition.expression.map (Comparison.test dialect table) } := by
  obtain ⟨pieces, isPieces, reads⟩ := Condition.reads_pieces filter.toCondition writable
  have isFilter : filterPieces dialect { table, projection, filter := some filter } =
      .ok (.words " WHERE " :: pieces) := by
    simp only [filterPieces, members, Filter.pieces, isPieces]
    rfl
  refine readsAs_of_filterPieces keyed isFilter ?_ ?_
  · exact .around (by cases dialect <;> decide) (Piece.spaced_name table.name) reads.spaced
  · have whereRead : Piece.tokens dialect (.words " WHERE ") = [.word "WHERE"] := by
      cases dialect <;> decide
    rw [List.flatMap_cons, whereRead]
    exact congrArg (Option.map some) reads.ofTokens?

/-- The filter of a query is left out where it has no members. -/
theorem readsAs_empty (keyed : projection = .keys → table.hasPrimaryKey = true) {filter : Filter}
    (noMembers : filter.isEmpty = true) :
    ReadsAs dialect { table, projection, filter := some filter }
      { columns := projection.columns? table, table := table.name, condition := none } :=
  have isFilter : filterPieces dialect { table, projection, filter := some filter } = .ok [] :=
    if_pos noMembers
  readsAs_of_filterPieces keyed isFilter (Piece.spaced_name table.name) rfl

end Query

end RelationalAccess
