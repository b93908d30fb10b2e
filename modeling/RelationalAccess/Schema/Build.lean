import RelationalAccess.Schema.Linking

/-!
Building a database from its draft. Faults within tables are reported together;
where there are none, those of foreign keys and of types without a resolution
are; where there are none either, the first fault of the cache settings is.
-/

namespace RelationalAccess

namespace Column

/-- The types that a column resolves to, one for each engine that has one. -/
def resolvedTypes (column : Column) : List ColumnType :=
  Engine.concrete.filterMap (ColumnType.resolve? column.declared column.host)

/-- The column with its types resolved. -/
def resolve (column : Column) : Column := { column with resolved := column.resolvedTypes }

/-- The engines for which a column has no type. -/
def resolutionFaults (table model : String) (column : Column) : List SchemaFault :=
  Engine.concrete.filterMap fun engine =>
    match ColumnType.resolve? column.declared column.host engine with
    | some _ => none
    | none => some (.unresolvableType engine table column.name model column.property column.host)

end Column

namespace Table

def resolve (table : Table) : Table := { table with columns := table.columns.map Column.resolve }

def resolutionFaults (table : Table) : List SchemaFault :=
  table.columns.flatMap (Column.resolutionFaults table.name table.model)

end Table

namespace DatabaseDraft

/-- One error for a list of faults that is not empty. -/
def report (faults : List SchemaFault) : Error := Error.aggregate (faults.map .schema)

/-- The tables as they are declared. -/
def declaredTables (draft : DatabaseDraft) : List Table :=
  draft.tables.mapIdx fun position table => table.table position

/-- Checks and links a draft. -/
def build (draft : DatabaseDraft) : Except Error Database :=
  if draft.faults.isEmpty then
    let linked := Linking.linkAll draft.declaredTables draft.tables
    let faults := linked.faults ++ linked.tables.flatMap Table.resolutionFaults
    if faults.isEmpty then
      match draft.settings.fault? with
      | some fault => .error (.settings fault)
      | none =>
        .ok
          { name := draft.name
            modelType := draft.modelType.getD draft.name
            tables := linked.tables.map Table.resolve
            relations := linked.relations
            settings := draft.settings.withDefaults }
    else .error (report faults)
  else .error (report draft.faults)

end DatabaseDraft

end RelationalAccess
