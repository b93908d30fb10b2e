import RelationalAccess.Row
import RelationalAccess.Sql.Conversion

/-!
Drafts of rows: the values of a row that is to be inserted, or of a stored row
that is to be updated. A draft knows which of its columns were given another
value.
-/

namespace RelationalAccess

/-- The pending values of a row. -/
structure DraftRow where
  table : Table
  /-- The stored row that the draft changes; none for a row that is new. -/
  stored : Option Row
  values : List Value
  /-- The positions that were given another value than they had. -/
  changed : List Bool

namespace DraftRow

/-- A new row, all of whose values are null. -/
def new (table : Table) : DraftRow :=
  { table, stored := none
    values := table.columns.map fun _ => .null
    changed := table.columns.map fun _ => false }

/-- The draft of a stored row, as yet without changes. -/
def ofRow (row : Row) : DraftRow :=
  { table := row.table, stored := some row, values := row.values
    changed := row.values.map fun _ => false }

def isNew (draft : DraftRow) : Bool := draft.stored.isNone

/-- A value put at a position, whatever was there. -/
def setAt (draft : DraftRow) (position : Nat) (value : Value) : DraftRow :=
  { draft with values := draft.values.set position value, changed := draft.changed.set position true }

/-- A value that the host program puts into a column. A value that is there
already is no change. -/
def set (draft : DraftRow) (name : String) (value : Value) : Except Error DraftRow :=
  match draft.table.columnIndex? name with
  | none => .error (.unknownColumn draft.table.name name)
  | some position =>
    match draft.table.columns[position]? with
    | none => .error (.unknownColumn draft.table.name name)
    | some column => do
      let accepted ← (column.accept value).mapError .conversion
      return if draft.values[position]? = some accepted then draft else draft.setAt position accepted

/-- Several columns set in order, up to the first that does not accept its value. -/
def setAll (draft : DraftRow) (assignments : List (String × Value)) : Except Error DraftRow :=
  assignments.foldlM (fun draft (name, value) => draft.set name value) draft

def get? (draft : DraftRow) (name : String) : Option Value :=
  (draft.table.columnIndex? name).bind (draft.values[·]?)

/-- The positions of the changed columns, in order. -/
def changedColumns (draft : DraftRow) : List Nat :=
  (draft.changed.zipIdx.filter Prod.fst).map Prod.snd

def hasChanges (draft : DraftRow) : Bool := draft.changed.any id

/-- The changed columns with their values, in the order of the columns. -/
def changes (draft : DraftRow) : List (Nat × Value) :=
  draft.changedColumns.map fun position => (position, draft.values.getD position .null)

/-- The keys as they are now. They differ from those of the stored row where a
key column was changed. -/
def currentKeys (draft : DraftRow) : Keys := draft.table.keysOf draft.values

/-- The row that a draft has become. -/
def toRow (draft : DraftRow) (identity : Nat) : Except Error Row :=
  Row.ofValues identity draft.table draft.values

end DraftRow

end RelationalAccess
