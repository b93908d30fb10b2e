import RelationalAccess.Error
import RelationalAccess.Schema.Table

/-!
Databases: tables and the relations between them. Tables and relations name
each other by position, never by reference.
-/

namespace RelationalAccess

/-- The type of a column for an engine, which a database has for all its columns. -/
def Column.requireType (column : Column) (engine : Engine) : Except Error ColumnType :=
  match column.type? engine with
  | some type => .ok type
  | none => .error (.untypedColumn column.name column.property engine)

/-- One end of a relation: a table, the index it goes through, and the name by
which rows of the table are followed to the other end. -/
structure RelationPart where
  relation : Nat
  side : Side
  table : Nat
  /-- The position of the index in its table. -/
  index : Nat
  name : String
  deriving DecidableEq

/-- A relation between the rows that refer and the rows referred to. -/
structure Relation where
  id : Nat
  constraint : String
  foreignKey : RelationPart
  candidateKey : RelationPart

namespace Relation

def part (relation : Relation) : Side → RelationPart
  | .foreignKey => relation.foreignKey
  | .candidateKey => relation.candidateKey

end Relation

/-- A database: what is known of one schema. -/
structure Database where
  name : String
  /-- The name of the host type that declares the database. -/
  modelType : String
  tables : List Table
  relations : List Relation
  settings : CacheSettings

namespace Database

def table? (database : Database) (name : String) : Option Table :=
  database.tables.find? (·.name == name)

def tableByModel? (database : Database) (model : String) : Option Table :=
  database.tables.find? (·.model == model)

/-- A table by its name, or else by the name of its model. -/
def requireTable (database : Database) (name : String) : Except Error Table :=
  match database.table? name <|> database.tableByModel? name with
  | some table => .ok table
  | none => .error (.unknownTable database.name name)

/-- A column by the positions of its table and its own. -/
def column? (database : Database) (table position : Nat) : Option Column :=
  database.tables[table]?.bind (·.columns[position]?)

/-- The part at the other end of a part's relation. -/
def otherSide? (database : Database) (part : RelationPart) : Option RelationPart :=
  database.relations[part.relation]?.map (·.part part.side.other)

/-- The parts that a table owns, in the order of its indices. -/
def relationParts (database : Database) (table : Nat) : List RelationPart :=
  match database.tables[table]? with
  | none => []
  | some table =>
    table.indices.flatMap fun index =>
      index.parts.filterMap fun (relation, side) =>
        database.relations[relation]?.map (·.part side)

/-- The first part of a table that has the given name. -/
def relationPart? (database : Database) (table : Nat) (name : String) : Option RelationPart :=
  (database.relationParts table).find? (·.name == name)

end Database

end RelationalAccess
