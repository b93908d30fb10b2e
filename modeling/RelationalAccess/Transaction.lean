import RelationalAccess.DataSource
import RelationalAccess.Row.Draft
import RelationalAccess.Sql.Changing

/-!
Transactions. Every change runs on the backend at once, so that its failure
shows at once; the cache learns of the changes when the backend has committed
them, and never otherwise.
-/

namespace RelationalAccess

inductive ChangeKind where
  | insert
  | update
  | delete
  deriving DecidableEq

def ChangeKind.name : ChangeKind → String
  | insert => "Insert"
  | update => "Update"
  | delete => "Delete"

/-- A change of one row that the backend has carried out. -/
structure Change where
  kind : ChangeKind
  /-- The position of the table. -/
  table : Nat
  /-- The row as it was; none for an insert. -/
  before : Option Row
  /-- The row as it is now; none for a delete. -/
  after : Option Row

/-- The keys of the row as it is now, or as it was if it is gone. -/
def Change.keys? (change : Change) : Option Keys := (change.after <|> change.before).map Row.keys

/-- A transaction of a data source. -/
structure Transaction where
  number : Nat
  /-- The transaction of the backend, as long as it is not ended. -/
  handle : Option Nat
  state : TransactionState := .active
  /-- The changes carried out so far, in order. -/
  changes : List Change := []

/-- An action within a transaction. It may fail, and acts even then. -/
abbrev Work (World : Type) := ExceptT Error (StateM (Transaction × DataSource × World))

namespace Transaction

variable {World : Type} (backend : Backend World)

/-- Begins a transaction, on the backend first. -/
def start : Session World Transaction := do
  let handle ← DataSource.onBackend backend.start
  let source ← DataSource.current
  modify fun (source, world) => ({ source with nextTransaction := source.nextTransaction + 1 }, world)
  return { number := source.nextTransaction, handle := some handle }

/-- The transaction as it stands. -/
def current : Work World Transaction := fun (transaction, state) =>
  (.ok transaction, transaction, state)

def modifyCurrent (change : Transaction → Transaction) : Work World Unit :=
  fun (transaction, state) => (.ok (), change transaction, state)

/-- An action of the data source. -/
def onSource (action : Session World α) : Work World α := fun (transaction, state) =>
  let (result, state) := action state
  (result, transaction, state)

/-- Refuses an operation on a transaction that has ended. -/
def checkActive (operation : String) : Work World Unit := do
  let transaction ← current
  if transaction.state = .active then return ()
  else throw (.notActive operation transaction.number transaction.state)

/-- Refuses a table that is not one of the data source. -/
def checkOwn (table : Table) : Work World Unit := do
  let database := (← onSource DataSource.current).database
  if (database.table? table.name).any (·.id == table.id) then return ()
  else throw (.foreignTable table.name database.name)

/-- Runs a statement in the transaction of the backend. -/
def execute (operation : String) (statement : Statement) : Work World Execution := do
  let transaction ← current
  match transaction.handle with
  | some handle => onSource (DataSource.onBackend (backend.execute handle statement))
  | none => throw (.notActive operation transaction.number transaction.state)

/-- A change that the backend has carried out is kept. -/
def record (change : Change) : Work World Unit :=
  modifyCurrent fun transaction => { transaction with changes := transaction.changes ++ [change] }

/-- The value of a column that an insert leaves unset: its default, else none if
it may be null or the engine numbers it. -/
def fillColumn (supply : Supply) (draft : DraftRow) (column : Column) : Except Error DraftRow :=
  if draft.values[column.position]? = some .null then
    match column.defaultValue with
    | some value => .ok (draft.setAt column.position (value.resolve (supply.draw column.position)))
    | none =>
      if column.nullable || column.autoIncrement then .ok draft
      else .error (.missingValue draft.table.name column.name)
  else .ok draft

/-- A draft with all columns that were left unset filled. -/
def fill (supply : Supply) (draft : DraftRow) : Except Error DraftRow :=
  draft.table.columns.foldlM (fillColumn supply) draft

/-- The key columns for which the engine is to give a number. -/
def numberedColumns (draft : DraftRow) : List Column :=
  draft.table.keyColumns.filter fun column =>
    column.autoIncrement && decide (draft.values[column.position]? = some .null)

/-- A draft with the number that the engine gave to a key column. -/
def numberColumn (execution : Execution) (draft : DraftRow) (column : Column) :
    Except Error DraftRow :=
  match execution.insertedKey with
  | some number => .ok (draft.setAt column.position (.int number))
  | none => .error (.missingGeneratedKey draft.table.name column.name)

/-- A draft with the numbers that the engine gave, after the insert was executed. -/
def numberColumns (execution : Execution) (draft : DraftRow) : Except Error DraftRow :=
  (numberedColumns draft).foldlM (numberColumn execution) draft

/-- Inserts a new row, and returns it as it is stored: with its defaults and
with the keys that the engine gave. -/
def insert (supply : Supply) (draft : DraftRow) : Work World Row := do
  checkActive "insert"
  let table := draft.table
  checkOwn table
  match draft.stored with
  | some stored => throw (.alreadyStored stored.keys table.name)
  | none =>
    let draft ← fill supply draft
    let dialect := (← onSource DataSource.current).dialect
    let execution ← execute backend "insert" (← Statement.insert dialect table draft.values)
    let draft ← numberColumns execution draft
    let row ← onSource (DataSource.makeRow table draft.values)
    record { kind := .insert, table := table.id, before := none, after := some row }
    return row

/-- Writes the changed columns of a stored row, and returns the row as it is
then. Without changes it is the stored row itself. -/
def update (draft : DraftRow) : Work World Row := do
  checkActive "update"
  let table := draft.table
  checkOwn table
  match draft.stored with
  | none => throw (.neverStored table.name)
  | some stored =>
    if draft.hasChanges then
      let dialect := (← onSource DataSource.current).dialect
      let statement ← Statement.update dialect table stored.keys draft.changes
      let execution ← execute backend "update" statement
      if execution.affected = 0 then throw (.noRowToUpdate table.name stored.keys)
      let row ← onSource (DataSource.makeRow table draft.values)
      record { kind := .update, table := table.id, before := some stored, after := some row }
      return row
    else return stored

/-- Deletes a stored row, and returns whether the backend still had it. -/
def delete (row : Row) : Work World Bool := do
  checkActive "delete"
  let table := row.table
  checkOwn table
  let dialect := (← onSource DataSource.current).dialect
  let execution ← execute backend "delete" (← Statement.delete dialect table row.keys)
  if execution.affected = 0 then return false
  else
    record { kind := .delete, table := table.id, before := some row, after := none }
    return true

/-- A committed change applied to the cache of its table. -/
def applyChange (change : Change) (cache : DatabaseCache) : List Announcement × DatabaseCache :=
  match cache.table? change.table with
  | none => ([], cache)
  | some table =>
    let (told, table) := table.applyChange change.before change.after
    (told, cache.setTable change.table table)

/-- Committed changes applied in order, and all that subscribers are told. -/
def applyChanges (cache : DatabaseCache) : List Change → List Announcement × DatabaseCache
  | [] => ([], cache)
  | change :: changes =>
    let (told, cache) := applyChange change cache
    let (others, cache) := applyChanges cache changes
    (told ++ others, cache)

/-- The backend's transaction given out of hand, to be ended. -/
def release : Work World (Option Nat) := do
  let transaction ← current
  modifyCurrent fun transaction => { transaction with handle := none }
  return transaction.handle

/-- Commits on the backend and then applies the changes to the cache. If the
backend fails to commit, the transaction is closed and the cache left alone. -/
def commit : Work World (List Announcement) := do
  checkActive "commit"
  if let some handle := ← release then
    tryCatch (onSource (DataSource.onBackend (backend.commit handle))) fun error => do
      modifyCurrent fun transaction => { transaction with state := .closed }
      throw error
  let transaction ← current
  modifyCurrent fun transaction => { transaction with state := .committed, changes := [] }
  onSource (DataSource.onCache (applyChanges · transaction.changes))

/-- Takes all changes back. -/
def rollback : Work World Unit := do
  checkActive "rollback"
  modifyCurrent fun transaction => { transaction with state := .rolledBack, changes := [] }
  if let some handle := ← release then
    onSource (DataSource.onBackend (backend.rollback handle))

/-- Gives a transaction up. One that is still open is taken back on the backend,
and no failure of that is reported. -/
def drop : Work World Unit := do
  if (← current).state = .active then
    modifyCurrent fun transaction => { transaction with state := .closed }
    if let some handle := ← release then
      tryCatch (onSource (DataSource.onBackend (backend.rollback handle))) fun _ => pure ()

end Transaction

end RelationalAccess
