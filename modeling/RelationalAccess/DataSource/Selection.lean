import RelationalAccess.DataSource.Reading
import RelationalAccess.Query.Lowering

/-!
Selections: queries of a table by predicates. The rows are found as a list of
keys first and then taken from the cache, so a row that is cached is the same
in every selection.
-/

namespace RelationalAccess

/-- Which rows of a table are asked for, in which order. -/
structure Selection where
  table : Table
  filter : Option Predicate := none
  order : List OrderTerm := []
  limit : Option Nat := none
  offset : Option Nat := none

namespace Selection

variable {World : Type} (backend : Backend World)

/-- Only those rows for which a predicate holds as well. -/
def matching (selection : Selection) (predicate : Predicate) : Selection :=
  { selection with
    filter := some (match selection.filter with
      | none => predicate
      | some filter => .join .and filter predicate) }

/-- The filter of the rows; one without members where any row will do. -/
def lowered (selection : Selection) : Except Error Filter :=
  match selection.filter with
  | none => .ok {}
  | some predicate => predicate.lower selection.table

/-- The query for what is asked of the rows. -/
def query (selection : Selection) (projection : Projection) : Except Error Query := do
  let filter ← selection.lowered
  let order ← OrderTerm.lowerAll selection.table selection.order
  return {
    table := selection.table, projection, filter := some filter, order
    limit := selection.limit, offset := selection.offset }

/-- The statement that finds the rows by itself. -/
def statement (selection : Selection) : Session World Statement := do
  (← selection.query .all).statement (← DataSource.current).dialect

/-- The keys of the rows. -/
def keys (selection : Selection) : Session World (List Keys) := do
  DataSource.loadKeys backend (← selection.query .keys)

/-- The rows. Those of a table without a cache are loaded at once. -/
def rows (selection : Selection) : Session World (List Row) := do
  let table := selection.table
  let cache := (← DataSource.current).cache.table? table.id
  if table.hasPrimaryKey && cache.any TableCache.enabled then
    let keys ← selection.keys backend
    DataSource.throughCache table
      (TableCache.getRowsByKeys (DataSource.rowSource backend table) keys)
  else DataSource.loadRows backend (← selection.query .all)

/-- The first of the rows. -/
def first (selection : Selection) : Session World (Option Row) := do
  return (← { selection with limit := some 1 }.rows backend).head?

/-- How many rows there are, limit and offset aside. -/
def count (selection : Selection) : Session World Nat := do
  let filter ← selection.lowered
  let result ← DataSource.run backend
    { table := selection.table, projection := .count, filter := some filter }
  match result.head?.bind List.head? with
  | some (.int number) =>
    if 0 ≤ number.toInt then return number.toInt.toNat
    else throw (.badCount selection.table.name (some (.int number)))
  | found => throw (.badCount selection.table.name found)

end Selection

end RelationalAccess
