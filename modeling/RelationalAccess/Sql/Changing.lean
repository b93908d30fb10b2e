import RelationalAccess.Sql.Filtering

/-!
Statements that insert, update and delete one row.
-/

namespace RelationalAccess

namespace Statement

/-- The columns that an insert binds, with their bound values. A column that the
engine numbers is left out while it is null. -/
def boundColumns (dialect : Dialect) (table : Table) (values : List Value) :
    Except Error (List (Column × Value)) :=
  ((table.columns.zip values).filter fun (column, value) =>
    !(column.autoIncrement && value.isNull)).mapM fun (column, value) => do
      return (column, ← dialect.write column value)

def insertPieces (dialect : Dialect) (table : Table) (values : List Value) :
    Except Error (List Piece) := do
  let columns ← boundColumns dialect table values
  if columns.isEmpty then
    return [.words "INSERT INTO ", .name table.name, .words " DEFAULT VALUES"]
  else
    return [.words "INSERT INTO ", .name table.name, .words " ("] ++
      Piece.names (columns.map fun (column, _) => column.name) ++ [.words ") VALUES ("] ++
      Piece.separated ", " (columns.map fun (_, value) => [.bound value]) ++ [.words ")"]

/-- The insertion of a whole row. -/
def insert (dialect : Dialect) (table : Table) (values : List Value) : Except Error Statement := do
  return .assemble dialect (← insertPieces dialect table values)

/-- The filter for just the row of some keys. -/
def rowFilter (table : Table) (keys : Keys) : Except Error Filter :=
  if !table.hasPrimaryKey ∨ keys.length ≠ table.primaryKeys.length ∨ keys.hasNull then
    .error (.unusableKeys keys table.name)
  else .ok (.ofKeys table [keys])

/-- One column set to its new value. -/
def assignment (dialect : Dialect) (table : Table) (change : Nat × Value) :
    Except Error (List Piece) :=
  match table.columns[change.1]? with
  | none => .error (.unknownColumn table.name (Error.number change.1))
  | some column => do
    return [.name column.name, .words " = ", .bound (← dialect.write column change.2)]

def updatePieces (dialect : Dialect) (table : Table) (keys : Keys) (changes : List (Nat × Value)) :
    Except Error (List Piece) := do
  if changes.isEmpty then .error (.nothingToUpdate table.name keys)
  let assignments ← changes.mapM (assignment dialect table)
  let filter ← rowFilter table keys
  return [.words "UPDATE ", .name table.name, .words " SET "] ++
    Piece.separated ", " assignments ++ .words " WHERE " :: (← filter.pieces dialect table)

/-- The update of columns, given by position, of the row with the given keys. -/
def update (dialect : Dialect) (table : Table) (keys : Keys) (changes : List (Nat × Value)) :
    Except Error Statement := do
  return .assemble dialect (← updatePieces dialect table keys changes)

def deletePieces (dialect : Dialect) (table : Table) (keys : Keys) : Except Error (List Piece) := do
  let filter ← rowFilter table keys
  return [.words "DELETE FROM ", .name table.name, .words " WHERE "] ++
    (← filter.pieces dialect table)

/-- The deletion of the row with the given keys. -/
def delete (dialect : Dialect) (table : Table) (keys : Keys) : Except Error Statement := do
  return .assemble dialect (← deletePieces dialect table keys)

end Statement

end RelationalAccess
