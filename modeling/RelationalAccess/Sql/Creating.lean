import RelationalAccess.Sql.Statement

/-!
Statements that create the tables and indices of a database. MySQL and MariaDB
take indices within the table, SQLite takes them by themselves; SQLite takes a
numbered key only within the definition of its column.
-/

namespace RelationalAccess

namespace Creating

/-- The type of a column as it stands in a statement. -/
def typeText (dialect : Dialect) (column : Column) : Except Error String := do
  return (← column.requireType dialect.engine).ddl

/-- The position of the only key column, where the engine numbers it. -/
def numberedKey? (table : Table) : Option Nat :=
  match table.primaryKeys with
  | [only] => if (table.columns[only]?.any (·.autoIncrement)) then some only else none
  | _ => none

/-- A list of columns in parentheses. -/
def columnList (table : Table) (positions : List Nat) : List Piece :=
  .words "(" :: Piece.columnNames table positions ++ [.words ")"]

def columnMySql (dialect : Dialect) (column : Column) : Except Error (List Piece) := do
  let type ← typeText dialect column
  return [.name column.name, .words (" " ++ type ++
    (if column.nullable then " NULL" else " NOT NULL") ++
    (if column.autoIncrement then " AUTO_INCREMENT" else ""))]

def columnSqlite (table : Table) (column : Column) : Except Error (List Piece) := do
  if numberedKey? table = some column.position then
    return [.name column.name, .words " INTEGER PRIMARY KEY AUTOINCREMENT"]
  else
    let type ← typeText .sqlite column
    return [.name column.name, .words (" " ++ type ++ if column.nullable then "" else " NOT NULL")]

/-- The definition of a column. -/
def column (dialect : Dialect) (table : Table) (column : Column) : Except Error (List Piece) :=
  match dialect with
  | .sqlite => columnSqlite table column
  | _ => columnMySql dialect column

/-- The clause for the primary key, where it is not within a column. -/
def keyClause (dialect : Dialect) (table : Table) : List (List Piece) :=
  if table.hasPrimaryKey && !(decide (dialect = .sqlite) && (numberedKey? table).isSome) then
    [.words "PRIMARY KEY " :: columnList table table.primaryKeys]
  else []

/-- The indices other than that of the primary key. -/
def ownIndices (table : Table) : List Index := table.indices.filter (·.kind ≠ .primaryKey)

/-- The clauses for indices within a table. -/
def indexClauses (dialect : Dialect) (table : Table) : List (List Piece) :=
  match dialect with
  | .sqlite => []
  | _ =>
    (ownIndices table).map fun index =>
      [.words (if index.kind = .unique then "UNIQUE KEY " else "KEY "), .name index.name, .words " "] ++
        columnList table index.columns

/-- The columns of an index of a table, by the positions of both. -/
def indexColumns (table : Table) (index : Nat) : List Piece :=
  columnList table ((table.indices[index]?.map (·.columns)).getD [])

/-- The clauses for the foreign keys of a table. -/
def constraintClauses (database : Database) (table : Table) : List (List Piece) :=
  (database.relations.filter (·.foreignKey.table == table.id)).filterMap fun relation => do
    let referred ← database.tables[relation.candidateKey.table]?
    return [.words "CONSTRAINT ", .name relation.constraint, .words " FOREIGN KEY "] ++
      indexColumns table relation.foreignKey.index ++
      [.words " REFERENCES ", .name referred.name, .words " "] ++
      indexColumns referred relation.candidateKey.index

def tablePieces (dialect : Dialect) (database : Database) (table : Table) :
    Except Error (List Piece) := do
  let columns ← table.columns.mapM (column dialect table)
  let clauses := columns ++ keyClause dialect table ++ indexClauses dialect table ++
    constraintClauses database table
  return [.words "CREATE TABLE IF NOT EXISTS ", .name table.name, .words " (\n  "] ++
    Piece.separated ",\n  " clauses ++ [.words "\n)"]

/-- The creation of a table. -/
def table (dialect : Dialect) (database : Database) (table : Table) : Except Error Statement := do
  return .assemble dialect (← tablePieces dialect database table)

def indexPieces (table : Table) (index : Index) : List Piece :=
  [.words ("CREATE " ++ (if index.kind = .unique then "UNIQUE " else "") ++ "INDEX IF NOT EXISTS "),
    .name index.name, .words " ON ", .name table.name, .words " "] ++ columnList table index.columns

/-- The creation of an index by itself, for indices that are not within their table. -/
def index? (dialect : Dialect) (table : Table) (index : Index) : Option Statement :=
  match dialect with
  | .sqlite =>
    if index.kind = .primaryKey then none else some (.assemble dialect (indexPieces table index))
  | _ => none

/-- The statements that create a database: its tables first, then its indices. -/
def database (dialect : Dialect) (database : Database) : Except Error (List Statement) := do
  let tables ← database.tables.mapM (table dialect database)
  let indices := database.tables.flatMap fun table => table.indices.filterMap (index? dialect table)
  return tables ++ indices

end Creating

end RelationalAccess
