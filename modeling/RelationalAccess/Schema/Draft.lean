import RelationalAccess.Schema.Database

/-!
Drafts: a schema as it is declared, before it has been checked. A table's draft
has a list of faults, and stands for a table once the list is empty.
-/

namespace RelationalAccess

/-- The draft of a column. -/
structure ColumnDraft where
  name : String
  /-- The name of the property, if it is not the column's name. -/
  property : Option String := none
  host : HostType
  /-- Declarations of the column's type, each for an engine. -/
  declarations : List (Engine × String) := []
  nullable : Bool := false
  autoIncrement : Bool := false
  primaryKey : Bool := false
  defaultValue : Option DefaultValue := none

/-- The draft of an index over columns, given by their names. -/
structure IndexDraft where
  name : String
  columns : List String
  unique : Bool := false

/-- The draft of a foreign key: a column, the table and the column it refers to,
and the names by which the relation is followed, one from each end. -/
structure ForeignKeyDraft where
  column : String
  table : String
  references : String
  name : String
  inverse : String

/-- The draft of a table. -/
structure TableDraft where
  name : String
  /-- The name of the host model, if it is not the table's name. -/
  model : Option String := none
  columns : List ColumnDraft
  indices : List IndexDraft := []
  foreignKeys : List ForeignKeyDraft := []
  useCache : Bool := true

/-- The draft of a database. -/
structure DatabaseDraft where
  name : String
  /-- The name of the host type, if it is not the database's name. -/
  modelType : Option String := none
  tables : List TableDraft
  settings : CacheSettings := {}

namespace Draft

def isIdentifierStart (char : Char) : Bool := char.isAlpha || char == '_'

def isIdentifierChar (char : Char) : Bool := char.isAlphanum || char == '_'

/-- Whether a name is a letter or underscore, followed by letters, digits and underscores. -/
def isIdentifier (name : String) : Bool :=
  match name.toList with
  | [] => false
  | first :: others => isIdentifierStart first && others.all isIdentifierChar

end Draft

namespace ColumnDraft

def propertyName (column : ColumnDraft) : String := column.property.getD column.name

/-- The declared types that can be read. -/
def declaredTypes (column : ColumnDraft) : List ColumnType :=
  column.declarations.filterMap fun (engine, text) => (ColumnType.parse engine text).toOption

/-- The faults of the declared types. -/
def typeFaults (table model : String) (column : ColumnDraft) : List SchemaFault :=
  column.declarations.filterMap fun (engine, text) =>
    match ColumnType.parse engine text with
    | .ok _ => none
    | .error fault => some (.unreadableType table column.name model text fault)

/-- The faults of a column that do not concern its name. -/
def bodyFaults (table model : String) (column : ColumnDraft) : List SchemaFault :=
  column.typeFaults table model ++
    if column.primaryKey && column.nullable then [.nullableKey table column.name] else []

/-- The column that a draft stands for, at its place. -/
def column (table position : Nat) (draft : ColumnDraft) : Column :=
  { table, position
    name := draft.name
    declared := draft.declaredTypes
    nullable := draft.nullable
    autoIncrement := draft.autoIncrement
    primaryKey := draft.primaryKey
    property := draft.propertyName
    host := draft.host
    defaultValue := draft.defaultValue }

end ColumnDraft

namespace TableDraft

def modelName (table : TableDraft) : String := table.model.getD table.name

/-- The faults of columns, of which some names have been seen. Of a column whose
name was seen before only the name is looked at. -/
def columnFaults (table model : String) (seen : List String) : List ColumnDraft → List SchemaFault
  | [] => []
  | column :: others =>
    (if Draft.isIdentifier column.name then [] else [.invalidColumnName table column.name]) ++
      if seen.contains column.name then
        .duplicateColumn table column.name :: columnFaults table model seen others
      else column.bodyFaults table model ++ columnFaults table model (column.name :: seen) others

/-- The faults of an index: the columns it names that the table lacks. -/
def indexFaults (table : TableDraft) (index : IndexDraft) : List SchemaFault :=
  (index.columns.filter fun column => !(table.columns.map (·.name)).contains column).map
    (.unknownIndexColumn index.name table.name)

/-- The faults of a table by itself. -/
def faults (table : TableDraft) : List SchemaFault :=
  (if Draft.isIdentifier table.name then [] else [.invalidTableName table.name]) ++
    columnFaults table.name table.modelName [] table.columns ++
    table.indices.flatMap table.indexFaults

/-- The positions of the key columns. -/
def keyPositions (table : TableDraft) : List Nat :=
  (table.columns.zipIdx.filter fun (column, _) => column.primaryKey).map Prod.snd

/-- The index over the key columns, if there are any. -/
def keyIndex (id : Nat) (table : TableDraft) : List Index :=
  if table.keyPositions.isEmpty then []
  else
    [{ name := "pk_" ++ table.name, table := id, columns := table.keyPositions
       kind := .primaryKey }]

/-- The index that a draft stands for. -/
def index (id : Nat) (table : TableDraft) (draft : IndexDraft) : Index :=
  { name := draft.name
    table := id
    columns := draft.columns.filterMap fun name => table.columns.findIdx? (·.name == name)
    kind := if draft.unique then .unique else .plain }

/-- The table that a draft stands for, at its place. Relations are not linked yet
and types not resolved. -/
def table (id : Nat) (draft : TableDraft) : Table :=
  { id
    name := draft.name
    model := draft.modelName
    columns := draft.columns.mapIdx fun position column => column.column id position
    primaryKeys := draft.keyPositions
    indices := draft.keyIndex id ++ draft.indices.map (draft.index id)
    useCache := draft.useCache }

end TableDraft

namespace DatabaseDraft

/-- The faults of tables, of which some names have been seen. Of a table whose
name was seen before nothing else is looked at. -/
def tableFaults (database : String) (seen : List String) : List TableDraft → List SchemaFault
  | [] => []
  | table :: others =>
    if seen.contains table.name then
      .duplicateTable database table.name :: tableFaults database seen others
    else table.faults ++ tableFaults database (table.name :: seen) others

/-- The faults of a database that lie within single tables. -/
def faults (database : DatabaseDraft) : List SchemaFault :=
  tableFaults database.name [] database.tables

end DatabaseDraft

end RelationalAccess
