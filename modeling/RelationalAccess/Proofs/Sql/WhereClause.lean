import RelationalAccess.Proofs.Query.Traversal
import RelationalAccess.Proofs.Sql.Parameters

/-!
The filter of a query in the text of its statement: a filter with members stands there behind a
`WHERE`, in the middle of the statement that the query has without it. The filter of a predicate
always has members.
-/

namespace RelationalAccess

namespace Statement

variable {dialect : Dialect} {pieces : List Piece}

/-- Pieces that bind nothing make up the same text behind any number of parameters. -/
theorem assembleFrom_unbound (dialect : Dialect) (unbound : Piece.boundValues pieces = [])
    (first : Nat) :
    assembleFrom dialect first pieces = { text := (assemble dialect pieces).text } ∧
      Piece.parameterCount pieces = 0 := by
  unfold assemble
  induction pieces with
  | nil => exact ⟨rfl, rfl⟩
  | cons piece rest inductionHypothesis =>
    cases piece with
    | bound value => cases unbound
    | words words =>
      obtain ⟨same, none⟩ := inductionHypothesis unbound
      exact ⟨by simp [assembleFrom, same], none⟩
    | name called =>
      obtain ⟨same, none⟩ := inductionHypothesis unbound
      exact ⟨by simp [assembleFrom, same], none⟩

/-- The parameters of pieces between others that bind nothing are those of the pieces alone. -/
theorem assemble_between {opening closing : List Piece}
    (unboundOpening : Piece.boundValues opening = [])
    (unboundClosing : Piece.boundValues closing = []) :
    assemble dialect (opening ++ pieces ++ closing) =
      { text := (assemble dialect opening).text ++ (assemble dialect pieces).text ++
          (assemble dialect closing).text
        parameters := (assemble dialect pieces).parameters } := by
  obtain ⟨opened, none⟩ := assembleFrom_unbound dialect unboundOpening 0
  have closed (first : Nat) := (assembleFrom_unbound dialect unboundClosing first).1
  rw [assemble, Piece.assembleFrom_append, Piece.assembleFrom_append, opened, none, closed]
  simp [assemble]

end Statement

theorem Filter.text_ne_empty {dialect : Dialect} {table : Table} {filter : Filter}
    {pieces : List Piece} (isMade : filter.pieces dialect table = .ok pieces) :
    (Statement.assemble dialect pieces).text ≠ "" := by
  obtain ⟨writable, _⟩ := Condition.writes_of_pieces filter.toCondition isMade
  obtain ⟨same, isSame, reads⟩ := Condition.reads_pieces filter.toCondition writable
  obtain rfl := Except.ok.inj (isMade.symm.trans isSame)
  intro empty
  have read := reads.ofTokens?
  rw [← Statement.tokens_assemble reads.spaced, Statement.tokens, empty] at read
  cases read

namespace Query

variable {dialect : Dialect} {query : Query} {filter : Filter}

theorem filterPieces_eq (filtered : query.filter = some filter) (present : filter.members ≠ []) :
    query.filterPieces dialect =
      do return .words " WHERE " :: (← filter.pieces dialect query.table) := by
  have notEmpty : ¬ filter.isEmpty = true := by simpa [Filter.isEmpty] using present
  simp only [filterPieces, filtered, if_neg notEmpty]

/-- What stands in front of the condition in the statement of a query. -/
def opening (query : Query) (returned : List Piece) : List Piece :=
  .words "SELECT " :: returned ++ [.words " FROM ", .name query.table.name]

/-- What stands behind the condition. -/
def closing (dialect : Dialect) (query : Query) : List Piece :=
  query.orderPieces ++ query.pagePieces dialect

theorem pieces_eq {returned clause : List Piece}
    (isReturned : query.projectionPieces = .ok returned)
    (isClause : query.filterPieces dialect = .ok clause) :
    query.pieces dialect = .ok (query.opening returned ++ clause ++ query.closing dialect) := by
  rw [pieces, isReturned, isClause]
  simp only [bind, Except.bind, pure, Except.pure, opening, closing, List.cons_append,
    List.append_assoc, List.nil_append]

theorem boundValues_opening {returned : List Piece}
    (isReturned : query.projectionPieces = .ok returned) :
    Piece.boundValues (query.opening returned) = [] := by
  have carried : Piece.Carries .sqlite query.table [] returned :=
    carries_projectionPieces isReturned
  simp [opening, List.forall₂_nil_left_iff.mp carried.bound]

theorem boundValues_closing (dialect : Dialect) (query : Query) :
    Piece.boundValues (query.closing dialect) = [] := by
  have ordered := (carries_orderPieces dialect query).1.bound
  have paged := (carries_pagePieces dialect query).1.bound
  rw [closing, Piece.boundValues_append, List.forall₂_nil_left_iff.mp ordered,
    List.forall₂_nil_left_iff.mp paged]
  rfl

/-- A filter with members stands behind a `WHERE` in the middle of the statement that there is
without it, and all parameters are its own. -/
theorem statement_filtered {statement : Statement}
    (isMade : query.statement dialect = .ok statement)
    (filtered : query.filter = some filter) (present : filter.members ≠ []) :
    ∃ condition head tail, filter.render dialect query.table = .ok condition ∧
      condition.text ≠ "" ∧
      ({ query with filter := none } : Query).statement dialect = .ok { text := head ++ tail } ∧
      statement = { text := head ++ " WHERE " ++ condition.text ++ tail
                    parameters := condition.parameters } := by
  obtain ⟨pieces, arePieces, made⟩ := ok_of_bind isMade
  obtain rfl := Except.ok.inj made
  obtain ⟨returned, isReturned, further⟩ := ok_of_bind arePieces
  obtain ⟨clause, isClause, _⟩ := ok_of_bind further
  rw [pieces_eq isReturned isClause] at arePieces
  obtain rfl := Except.ok.inj arePieces
  rw [filterPieces_eq filtered present] at isClause
  obtain ⟨pieces, isCondition, made⟩ := ok_of_bind isClause
  obtain rfl := Except.ok.inj made
  have opened := boundValues_opening isReturned
  have closed := boundValues_closing dialect query
  have between (middle : List Piece) :
      Statement.assemble dialect (query.opening returned ++ middle ++ query.closing dialect) = _ :=
    Statement.assemble_between opened closed
  refine ⟨.assemble dialect pieces, (Statement.assemble dialect (query.opening returned)).text,
    (Statement.assemble dialect (query.closing dialect)).text, ?_, Filter.text_ne_empty isCondition,
    ?_, ?_⟩
  · rw [Filter.render, isCondition]
    rfl
  · have bare : ({ query with filter := none } : Query).pieces dialect =
        .ok (query.opening returned ++ [] ++ query.closing dialect) :=
      pieces_eq isReturned rfl
    rw [Query.statement, bare]
    show Except.ok (Statement.assemble dialect _) = _
    rw [between]
    simp [Statement.assemble, Statement.assembleFrom]
  · rw [between]
    simp [Statement.assemble, Statement.assembleFrom, String.append_assoc]

end Query

/-- Lowering is refused exactly if it refuses some leaf by itself, and then for the leftmost of
these, in whatever groups and under whatever NOTs it stands; the pass with a stack of groups agrees
and never finds its stack empty. What it comes to is a conjunction of at least one condition
without an empty group, so every statement that is made with it has a `WHERE`. -/
theorem Predicate.lower_by_leaves (table : Table) (predicate : Predicate) :
    ((∃ refusal, predicate.lower table = .error refusal) ↔
        ∃ leaf ∈ predicate.leaves, ∃ refusal, leaf.lower table = .error refusal) ∧
      (∀ refusal, predicate.lower table = .error refusal ↔ ∃ before leaf after,
        predicate.leaves = before ++ leaf :: after ∧
        (∀ earlier ∈ before, ∃ filter, earlier.lower table = .ok filter) ∧
        leaf.lower table = .error refusal) ∧
      Pass.run table predicate = predicate.lower table ∧
      Pass.run table predicate ≠ .error Pass.underflow ∧
      ∀ filter, predicate.lower table = .ok filter →
        filter.connective = .and ∧ filter.negated = false ∧ filter.members ≠ [] ∧
        (∀ member ∈ filter.members, member.Populated) ∧
        ∀ (dialect : Dialect) (query : Query) (statement : Statement), query.table = table →
          query.filter = some filter → query.statement dialect = .ok statement →
          ∃ condition head tail, filter.render dialect table = .ok condition ∧
            condition.text ≠ "" ∧
            ({ query with filter := none } : Query).statement dialect =
              .ok { text := head ++ tail } ∧
            statement = { text := head ++ " WHERE " ++ condition.text ++ tail
                          parameters := condition.parameters } := by
  refine ⟨lower_refused_iff, fun refusal => lower_eq_error_iff, Pass.run_eq table predicate, ?_, ?_⟩
  · rw [Pass.run_eq]
    intro refused
    rcases refusal_of_lower refused with isKind | isKind <;> cases isKind
  · intro filter lowered
    obtain ⟨isAnd, plain, present, populated⟩ := populated_of_lower lowered
    refine ⟨isAnd, plain, present, populated, ?_⟩
    rintro dialect query statement rfl filtered isMade
    exact Query.statement_filtered isMade filtered present

end RelationalAccess
