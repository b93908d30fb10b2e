import RelationalAccess.Schema.Draft

/-!
Linking foreign keys: each becomes a relation between the index on its column
and the index on the column it refers to. Indices are reused where they exist.
-/

namespace RelationalAccess

namespace Table

/-- An index on just one column, reused or added behind the others, with its
position. A plain index that serves a foreign key becomes one of that kind. -/
def indexFor (table : Table) (column : Nat) (kind : IndexKind) (name : String) : Table × Nat :=
  match table.indexOn? column with
  | some position =>
    let promoted (index : Index) : Index :=
      if kind = .foreignKey ∧ index.kind = .plain then { index with kind := .foreignKey } else index
    ({ table with indices := table.indices.modify position promoted }, position)
  | none =>
    ({ table with indices := table.indices ++ [{ name, table := table.id, columns := [column], kind }] },
      table.indices.length)

/-- Marks a column as one that refers to another. -/
def markForeignKey (table : Table) (column : Nat) : Table :=
  { table with
    columns := table.columns.modify column fun column => { column with foreignKey := true } }

/-- Lets a side of a relation go through an index. -/
def addPart (table : Table) (index relation : Nat) (side : Side) : Table :=
  { table with
    indices := table.indices.modify index fun index =>
      { index with parts := index.parts ++ [(relation, side)] } }

end Table

namespace Linking

/-- What a foreign key joins: two tables and a column of each, by position. -/
structure Ends where
  referring : Nat
  referringColumn : Nat
  referred : Nat
  referredColumn : Nat

def constraintName (table : String) (key : ForeignKeyDraft) : String :=
  "fk_" ++ table ++ "_" ++ key.column

def candidateIndexName (key : ForeignKeyDraft) : String :=
  "uq_" ++ key.table ++ "_" ++ key.references

/-- Finds what a foreign key of a table joins. -/
def ends? (tables : List Table) (referring : Nat) (table : String) (key : ForeignKeyDraft) :
    Except SchemaFault Ends :=
  let constraint := constraintName table key
  match tables.findIdx? (·.name == key.table) with
  | none => .error (.unknownReferencedTable constraint table key.column key.table)
  | some referred =>
    match tables[referring]?.bind (·.columnIndex? key.column) with
    | none => .error (.unknownReferencingColumn constraint table key.column)
    | some referringColumn =>
      match tables[referred]?.bind (·.columnIndex? key.references) with
      | none => .error (.unknownReferencedColumn constraint key.table key.references)
      | some referredColumn => .ok { referring, referringColumn, referred, referredColumn }

/-- Changes one table and returns what the change yields besides. -/
def onTable (tables : List Table) (position : Nat) (change : Table → Table × Nat) :
    List Table × Nat :=
  match tables[position]? with
  | none => (tables, 0)
  | some table =>
    let (changed, result) := change table
    (tables.set position changed, result)

/-- The tables with the index that the referring side goes through. -/
def referringIndex (tables : List Table) (ends : Ends) (constraint : String) : List Table × Nat :=
  onTable tables ends.referring fun table =>
    (table.markForeignKey ends.referringColumn).indexFor ends.referringColumn .foreignKey constraint

/-- The tables with the index that the referred side goes through. A column that
is the whole primary key has its index at the front. -/
def referredIndex (tables : List Table) (ends : Ends) (name : String) : List Table × Nat :=
  onTable tables ends.referred fun table =>
    if table.primaryKeys = [ends.referredColumn] then (table, 0)
    else table.indexFor ends.referredColumn .unique name

/-- Links one foreign key: the tables with its indices, and the relation. -/
def link (tables : List Table) (referring : Nat) (table : String) (key : ForeignKeyDraft)
    (id : Nat) : Except SchemaFault (List Table × Relation) := do
  let ends ← ends? tables referring table key
  let constraint := constraintName table key
  let (tables, foreignIndex) := referringIndex tables ends constraint
  let (tables, candidateIndex) := referredIndex tables ends (candidateIndexName key)
  let tables := tables.modify ends.referring (·.addPart foreignIndex id .foreignKey)
  let tables := tables.modify ends.referred (·.addPart candidateIndex id .candidateKey)
  return (tables,
    { id, constraint
      foreignKey :=
        { relation := id, side := .foreignKey, table := ends.referring, index := foreignIndex
          name := key.name }
      candidateKey :=
        { relation := id, side := .candidateKey, table := ends.referred, index := candidateIndex
          name := key.inverse } })

/-- Tables and relations linked so far, and the faults met. -/
structure Progress where
  tables : List Table
  relations : List Relation := []
  faults : List SchemaFault := []

/-- Links one more foreign key, or notes its fault. -/
def step (progress : Progress) (referring : Nat) (table : String) (key : ForeignKeyDraft) : Progress :=
  match link progress.tables referring table key progress.relations.length with
  | .ok (tables, relation) =>
    { progress with tables, relations := progress.relations ++ [relation] }
  | .error fault => { progress with faults := progress.faults ++ [fault] }

/-- All foreign keys with the position and the name of their table. -/
def foreignKeys (drafts : List TableDraft) : List (Nat × String × ForeignKeyDraft) :=
  drafts.zipIdx.flatMap fun (draft, position) =>
    draft.foreignKeys.map fun key => (position, draft.name, key)

/-- Links all foreign keys in order. -/
def linkAll (tables : List Table) (drafts : List TableDraft) : Progress :=
  (foreignKeys drafts).foldl
    (fun progress (position, name, key) => step progress position name key) { tables }

end Linking

end RelationalAccess
