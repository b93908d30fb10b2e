import RelationalAccess.Error
import RelationalAccess.Schema.Table

/-!
Rows of a table as they are shared between the cache and the host program. A
row never changes, and has an identity: two rows of the same values that were
made apart are told apart.
-/

namespace RelationalAccess

/-- The keys among the values of a row. -/
def Table.keysOf (table : Table) (values : List Value) : Keys :=
  ⟨table.primaryKeys.map fun position => values.getD position .null⟩

/-- One row, its values in the order of the columns. -/
structure Row where
  identity : Nat
  table : Table
  values : List Value

namespace Row

/-- A row of a table, which has one value for each column. -/
def ofValues (identity : Nat) (table : Table) (values : List Value) : Except Error Row :=
  if values.length = table.columns.length then .ok { identity, table, values }
  else .error (.rowWidth table.name values.length table.columns.length)

def keys (row : Row) : Keys := row.table.keysOf row.values

/-- The octets of memory that every row is counted with. -/
def inlineSize : Nat := 48

/-- The octets of memory a row is counted with. -/
def size (row : Row) : Nat := (row.values.map Value.size).foldl (· + ·) 0 + inlineSize

def at? (row : Row) (position : Nat) : Option Value := row.values[position]?

/-- The value of a column, by its name or the name of its property. -/
def get (row : Row) (name : String) : Except Error Value :=
  match row.table.columnIndex? name with
  | some position => .ok (row.values.getD position .null)
  | none => .error (.missingColumn row.table.name name)

end Row

end RelationalAccess
