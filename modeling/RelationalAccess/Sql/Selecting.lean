import RelationalAccess.Sql.Filtering

/-!
Statements that read the rows of one table.
-/

namespace RelationalAccess

/-- What a statement returns of the rows it finds. -/
inductive Projection where
  /-- Every column, in the order of the table. -/
  | all
  /-- The key columns, in key order. -/
  | keys
  /-- How many rows there are. -/
  | count
  deriving DecidableEq

/-- A query of one table. -/
structure Query where
  table : Table
  projection : Projection
  filter : Option Filter := none
  /-- The columns that rows are ordered by, and whether each is descending. -/
  order : List (Nat × Bool) := []
  limit : Option Nat := none
  offset : Option Nat := none

namespace Query

/-- What the query returns. -/
def projectionPieces (query : Query) : Except Error (List Piece) :=
  match query.projection with
  | .count => .ok [.words "COUNT(*)"]
  | .all => .ok (Piece.names (query.table.columns.map (·.name)))
  | .keys =>
    if query.table.hasPrimaryKey then .ok (Piece.columnNames query.table query.table.primaryKeys)
    else .error (.noKeyToSelect query.table.name)

/-- The filter, left out where there is none or it has no members. -/
def filterPieces (dialect : Dialect) (query : Query) : Except Error (List Piece) :=
  match query.filter with
  | none => .ok []
  | some filter =>
    if filter.isEmpty then .ok []
    else do return .words " WHERE " :: (← filter.pieces dialect query.table)

def orderTerm (query : Query) (term : Nat × Bool) : List Piece :=
  Piece.columnNames query.table [term.1] ++ if term.2 then [.words " DESC"] else []

/-- The order of the rows, which a count has no use for. -/
def orderPieces (query : Query) : List Piece :=
  if query.order.isEmpty ∨ query.projection = .count then []
  else .words " ORDER BY " :: Piece.separated ", " (query.order.map query.orderTerm)

/-- The page of the rows, which a count has no use for. -/
def pagePieces (dialect : Dialect) (query : Query) : List Piece :=
  if query.projection = .count then []
  else
    match dialect.page? query.limit query.offset with
    | none => []
    | some clause => [.words (" " ++ clause)]

def pieces (dialect : Dialect) (query : Query) : Except Error (List Piece) := do
  let projection ← query.projectionPieces
  let filter ← query.filterPieces dialect
  return .words "SELECT " :: projection ++ .words " FROM " :: .name query.table.name ::
    filter ++ query.orderPieces ++ query.pagePieces dialect

/-- The statement of a query. -/
def statement (dialect : Dialect) (query : Query) : Except Error Statement := do
  return .assemble dialect (← query.pieces dialect)

/-- The rows of a table with one of some primary keys. -/
def byKeys (table : Table) (keys : List Keys) : Query :=
  { table, projection := .all, filter := some (.ofKeys table keys) }

/-- The rows of a table that have a value in a column. -/
def byValue (table : Table) (projection : Projection) (column : Nat) (value : Value) : Query :=
  { table, projection, filter := some (.ofValues [column] [value]) }

end Query

end RelationalAccess
