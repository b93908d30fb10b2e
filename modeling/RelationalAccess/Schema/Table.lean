import RelationalAccess.Schema.DefaultValue
import RelationalAccess.Schema.Resolution

/-!
Tables of a schema: their columns, their indices, and the sides of relations
that go through an index. Columns are named within a table by position.
-/

namespace RelationalAccess

/-- A column of a table. -/
structure Column where
  /-- The position of the table in the database. -/
  table : Nat
  /-- The position of the column in the table. -/
  position : Nat
  name : String
  /-- The types declared for the column, in order. -/
  declared : List ColumnType
  nullable : Bool
  autoIncrement : Bool
  primaryKey : Bool
  foreignKey : Bool := false
  /-- The name of the property on the host side. -/
  property : String
  host : HostType
  defaultValue : Option DefaultValue
  /-- The types resolved for the engines a database can run on. -/
  resolved : List ColumnType := []

namespace Column

/-- The type declared for exactly this engine. -/
def declaredType? (column : Column) (engine : Engine) : Option ColumnType :=
  ColumnType.declaredFor? column.declared engine

/-- The type of a column for an engine, which a schema has for every engine but
the common one. -/
def type? (column : Column) (engine : Engine) : Option ColumnType :=
  match engine with
  | .common => column.declaredType? .common
  | engine => ColumnType.declaredFor? column.resolved engine

end Column

/-- What an index is for. -/
inductive IndexKind where
  | primaryKey
  | unique
  | foreignKey
  | plain
  deriving DecidableEq

def IndexKind.name : IndexKind → String
  | primaryKey => "PrimaryKey"
  | unique => "Unique"
  | foreignKey => "ForeignKey"
  | plain => "Index"

/-- The two sides of a relation: the rows that refer, and the rows referred to. -/
inductive Side where
  | foreignKey
  | candidateKey
  deriving DecidableEq

namespace Side

def name : Side → String
  | foreignKey => "ForeignKey"
  | candidateKey => "CandidateKey"

def other : Side → Side
  | foreignKey => candidateKey
  | candidateKey => foreignKey

@[simp] theorem other_other (side : Side) : side.other.other = side := by
  cases side <;> rfl

end Side

/-- An index over columns of a table. -/
structure Index where
  name : String
  table : Nat
  /-- The positions of its columns in the table. -/
  columns : List Nat
  kind : IndexKind
  /-- The sides of relations that go through the index. -/
  parts : List (Nat × Side) := []

/-- A table of a schema. -/
structure Table where
  /-- The position of the table in the database. -/
  id : Nat
  name : String
  /-- The name of the host model bound to the table. -/
  model : String
  columns : List Column
  /-- The positions of the key columns, in key order. -/
  primaryKeys : List Nat
  indices : List Index
  useCache : Bool

namespace Table

/-- The position of a column by its name, or else by the name of its property. -/
def columnIndex? (table : Table) (name : String) : Option Nat :=
  table.columns.findIdx? (·.name == name) <|> table.columns.findIdx? (·.property == name)

def column? (table : Table) (name : String) : Option Column :=
  (table.columnIndex? name).bind (table.columns[·]?)

/-- The columns at some positions. -/
def columnsAt (table : Table) (positions : List Nat) : List Column :=
  positions.filterMap (table.columns[·]?)

/-- The key columns in key order. -/
def keyColumns (table : Table) : List Column := table.columnsAt table.primaryKeys

def hasPrimaryKey (table : Table) : Bool := !table.primaryKeys.isEmpty

/-- Whether a look-up by value can go through an index: it has one column and is
not the primary key. -/
def isLookup (index : Index) : Bool :=
  decide (index.columns.length = 1) && decide (index.kind ≠ .primaryKey)

/-- The positions of the indices by which rows are looked up by value. -/
def lookupIndices (table : Table) : List Nat :=
  (table.indices.zipIdx.filter fun (index, _) => isLookup index).map Prod.snd

/-- The columns by which rows are looked up by value, one for each such index. -/
def lookupColumns (table : Table) : List Nat :=
  (table.indices.filter isLookup).flatMap (·.columns)

/-- The position of the first index, other than the primary key, on just this column. -/
def indexOn? (table : Table) (column : Nat) : Option Nat :=
  table.indices.findIdx? fun index =>
    decide (index.kind ≠ .primaryKey) && decide (index.columns = [column])

end Table

end RelationalAccess
