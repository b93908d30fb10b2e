import RelationalAccess.DataSource

/-!
Reads of a data source: rows by their keys, by a value, and along a relation,
through the cache wherever it can serve.
-/

namespace RelationalAccess

namespace DataSource

variable {World : Type} (backend : Backend World)

/-- The host values of what was returned for some columns. -/
def readValues (dialect : Dialect) (columns : List Column) (raw : List Value) :
    Except Error (List Value) :=
  (columns.zip raw).mapM fun (column, value) => dialect.read column value

/-- The result of a query. -/
def run (query : Query) : Session World (List (List Value)) := do
  onBackend (backend.query (← query.statement (← current).dialect))

/-- The rows of a table that a query returned with all their columns. -/
def readRows (table : Table) (result : List (List Value)) : Session World (List Row) :=
  result.mapM fun raw => do makeRow table (← readValues (← current).dialect table.columns raw)

/-- The keys that a query returned. -/
def readKeys (table : Table) (result : List (List Value)) : Session World (List Keys) :=
  result.mapM fun raw => do return ⟨← readValues (← current).dialect table.keyColumns raw⟩

/-- The rows that a query of all columns finds. -/
def loadRows (query : Query) : Session World (List Row) := do
  readRows query.table (← run backend query)

/-- The keys of the rows that a query of the key columns finds. -/
def loadKeys (query : Query) : Session World (List Keys) := do
  readKeys query.table (← run backend query)

/-- The rows of a table as the backend has them. -/
def rowSource (table : Table) : RowSource (DataSource × World) where
  rowsByKeys keys := beside (loadRows backend (.byKeys table keys))
  keysByValue column value := beside (loadKeys backend (.byValue table .keys column value))
  rowsByValue column value := beside (loadRows backend (.byValue table .all column value))

/-- The row of a table that has the given keys. -/
def get (name : String) (keys : Keys) : Session World (Option Row) := do
  let table ← requireTable name
  if table.hasPrimaryKey ∧ keys.length = table.primaryKeys.length then
    throughCache table (TableCache.getRow (rowSource backend table) keys)
  else throw (.unusableKeys keys table.name)

/-- The rows of a table that have a value in a column. -/
def getRowsBy (name column : String) (value : Value) : Session World (List Row) := do
  let table ← requireTable name
  match table.columnIndex? column with
  | none => throw (.missingColumn table.name column)
  | some position =>
    if table.hasPrimaryKey then
      throughCache table (TableCache.getRows (rowSource backend table) position value)
    else loadRows backend (.byValue table .all position value)

/-- The rows of a table that have given values in some columns, all loaded. -/
def loadMatching (table : Table) (columns : List Nat) (values : List Value) :
    Loading (DataSource × World) (List Row) := do
  let cache ← TableCache.current
  let rows ← beside (loadRows backend
    { table, projection := .all, filter := some (.ofValues columns values) })
  TableCache.update fun cache' => cache'.storeRead cache.generation rows

/-- The columns that a part of a relation goes through. -/
def partColumns (table : Table) (part : RelationPart) : List Nat :=
  (table.indices[part.index]?.map Index.columns).getD []

/-- The rows that a row leads to by the name of a relation. Values with a null
among them refer to no row. From the side that refers it is the row with the
referred values as its keys, or else rows are looked up by the referred column. -/
def related (row : Row) (relation : String) : Session World (List Row) := do
  let table := row.table
  let database := (← current).database
  let found := do
    let part ← database.relationPart? table.id relation
    let other ← database.otherSide? part
    let otherTable ← database.tables[other.table]?
    return (part, otherTable, partColumns otherTable other)
  match found with
  | none => throw (.missingRelation table.name relation)
  | some (part, other, columns) =>
    let values := (partColumns table part).map fun position => (row.at? position).getD .null
    let source := rowSource backend other
    if values.any Value.isNull then return []
    else if part.side = .foreignKey ∧ columns = other.primaryKeys then
      return (← throughCache other (TableCache.getRow source ⟨values⟩)).toList
    else
      match columns, values, other.hasPrimaryKey with
      | [column], [value], true => throughCache other (TableCache.getRows source column value)
      | columns, values, _ => throughCache other (loadMatching backend other columns values)

end DataSource

end RelationalAccess
