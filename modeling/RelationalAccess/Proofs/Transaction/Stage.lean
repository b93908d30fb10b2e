import RelationalAccess.Proofs.Throughout
import RelationalAccess.Proofs.Transaction.Agreement
import RelationalAccess.Proofs.Transaction.Outcomes

/-!
Stages: a data source with its transaction, and the world. What happens at one is an
event; here is what an event asks of the backend, and when it is sound: updates start
from rows as they are, no two host keys of one stored row are cached when it is written,
and no read brings back what the open transaction has replaced.
-/

namespace RelationalAccess

/-- A data source, its transaction if there is one, and the world. -/
structure Stage (World : Type) where
  source : DataSource
  transaction : Option Transaction := none
  world : World

/-- What happens at a data source. -/
inductive SessionEvent where
  | begin
  | insert (supply : Supply) (table : Table) (assignments : List (String × Value))
  | update (row : Row) (assignments : List (String × Value))
  | delete (row : Row)
  | commit
  | rollback
  | drop
  | get (name : String) (keys : Keys)
  | getRowsBy (name column : String) (value : Value)
  | related (row : Row) (relation : String)
  | rows (selection : Selection)

/-- The tables and rows that an event is given are those of a database. -/
def SessionEvent.Owned (database : Database) : SessionEvent → Prop
  | .insert _ table _ => database.tables[table.id]? = some table
  | .update row _ | .delete row => database.tables[row.table.id]? = some row.table ∧
      row.values.length = row.table.columns.length
  | .rows selection => database.tables[selection.table.id]? = some selection.table
  | _ => True

namespace Stage

variable {World : Type}

/-- The pending changes, while a transaction is active. -/
def pending (stage : Stage World) : Option (List Change) :=
  (stage.transaction.filter (·.state = .active)).map Transaction.changes

/-- The work of the transaction, if there is one. -/
def working {α : Type} (stage : Stage World) (work : Work World α) : Stage World :=
  match stage.transaction with
  | none => stage
  | some transaction =>
    let (transaction, source, world) := (work (transaction, stage.source, stage.world)).2
    { source, transaction := some transaction, world }

/-- A read of the data source, whether a transaction is open or not. -/
def reading {α : Type} (stage : Stage World) (read : Session World α) : Stage World :=
  let (source, world) := (read (stage.source, stage.world)).2
  { stage with source, world }

variable (backend : Backend World)

/-- A transaction begun, unless the one before it is still active. -/
def begin (stage : Stage World) : Stage World :=
  if stage.pending.isSome then stage
  else
    match Transaction.start backend (stage.source, stage.world) with
    | (.ok transaction, source, world) => { source, transaction := some transaction, world }
    | (.error _, source, world) => { stage with source, world }

/-- What an event makes of a stage. A value that a column does not accept is set nowhere. -/
def perform (stage : Stage World) : SessionEvent → Stage World
  | .begin => stage.begin backend
  | .insert supply table assignments =>
    match (DraftRow.new table).setAll assignments with
    | .error _ => stage
    | .ok draft => stage.working (Transaction.insert backend supply draft)
  | .update row assignments =>
    match (DraftRow.ofRow row).setAll assignments with
    | .error _ => stage
    | .ok draft => stage.working (Transaction.update backend draft)
  | .delete row => stage.working (Transaction.delete backend row)
  | .commit => stage.working (Transaction.commit backend)
  | .rollback => stage.working (Transaction.rollback backend)
  | .drop => stage.working (Transaction.drop backend)
  | .get name keys => stage.reading (DataSource.get backend name keys)
  | .getRowsBy name column value => stage.reading (DataSource.getRowsBy backend name column value)
  | .related row relation => stage.reading (DataSource.related backend row relation)
  | .rows selection => stage.reading (selection.rows backend)

def run (stage : Stage World) (events : List SessionEvent) : Stage World :=
  events.foldl (perform backend) stage

/-- Something holds of every event of a run and of the stage it happens at. -/
def Throughout (holds : Stage World → SessionEvent → Prop) :
    Stage World → List SessionEvent → Prop :=
  RelationalAccess.Throughout (perform backend) holds

variable (ledger : Ledger World)

/-- A statement, if the transaction sends it now, changes the stored rows of a table as it
says. -/
def SendsExactly (stage : Stage World) (statement : Except Error Statement) (position : Nat)
    (effect : Execution → List (List Value) → List (List Value) → Prop) : Prop :=
  ∀ transaction handle sent, stage.transaction = some transaction →
    transaction.handle = some handle → statement = .ok sent →
      ledger.Carries position effect stage.world (backend.execute handle sent stage.world)

/-- The backend carries out exactly what an event asks of it. -/
def Exact (stage : Stage World) : SessionEvent → Prop
  | .begin => ledger.Begins stage.world (backend.start stage.world)
  | .insert supply table assignments => ∀ draft filled,
      (DraftRow.new table).setAll assignments = .ok draft →
      Transaction.fill supply draft = .ok filled →
        stage.SendsExactly backend ledger (Statement.insert stage.source.dialect table filled.values)
          table.id (table.Inserted stage.source.dialect filled.values)
  | .update row assignments => ∀ draft, (DraftRow.ofRow row).setAll assignments = .ok draft →
      stage.SendsExactly backend ledger
        (Statement.update stage.source.dialect row.table row.keys draft.changes) row.table.id
        (row.table.Updated stage.source.dialect row.keys draft.changes)
  | .delete row =>
      stage.SendsExactly backend ledger (Statement.delete stage.source.dialect row.table row.keys)
        row.table.id (row.table.Deleted stage.source.dialect row.keys)
  | .commit => ∀ transaction handle, stage.transaction = some transaction →
      transaction.handle = some handle →
        ledger.Commits stage.world (backend.commit handle stage.world)
  | .rollback | .drop => ∀ transaction handle, stage.transaction = some transaction →
      transaction.handle = some handle →
        ledger.committed (backend.rollback handle stage.world).2 = ledger.committed stage.world
  | _ => True

/-- The cached rows are the committed ones, and would be if the transaction committed now. -/
structure Agrees (stage : Stage World) : Prop where
  committed : stage.source.cache.Agrees stage.source.dialect (ledger.committed stage.world)
  pending : ∀ changes, stage.pending = some changes →
    (stage.source.cache.withChanges changes).Agrees stage.source.dialect
      (ledger.working stage.world)

/-- An event records a change on top of some pending ones. -/
def Records (stage : Stage World) (event : SessionEvent) (changes : List Change) (change : Change) :
    Prop :=
  stage.pending = some changes ∧
    (stage.perform backend event).pending = some (changes ++ [change])

/-- An update that is carried out starts, where its table is cached, from a row that has the
values stored now in all columns that are not written. And no row is cached under other keys
that stands for the stored row, unless the update changes nothing. -/
def UpdatesFresh (stage : Stage World) (row : Row) (assignments : List (String × Value)) : Prop :=
  ∀ draft changes after, (DraftRow.ofRow row).setAll assignments = .ok draft →
    stage.Records backend (.update row assignments) changes
      { kind := .update, table := row.table.id, before := some row, after := some after } →
    ∀ stored ∈ ledger.working stage.world row.table.id,
      row.table.names stage.source.dialect row.keys stored = true →
        (stage.source.cache.caches row.table.id = true →
          row.table.BindsBut draft.changedColumns stage.source.dialect row.values stored) ∧
        ∀ keys other, (stage.source.cache.withChanges changes).cached? row.table.id keys = some other →
          keys ≠ row.keys → keys ≠ after.keys →
          other.table.Binds stage.source.dialect other.values stored →
            row.table.Overwrites stage.source.dialect draft.changes stored stored

/-- When a deletion is carried out, no row is cached under other keys that stands for the
stored row. -/
def DeletesAlone (stage : Stage World) (row : Row) : Prop :=
  ∀ changes, stage.Records backend (.delete row) changes
      { kind := .delete, table := row.table.id, before := some row, after := none } →
    ∀ stored ∈ ledger.working stage.world row.table.id,
      row.table.names stage.source.dialect row.keys stored = true →
        ∀ keys other, (stage.source.cache.withChanges changes).cached? row.table.id keys = some other →
          keys ≠ row.keys → ¬ other.table.Binds stage.source.dialect other.values stored

/-- A read while changes are pending caches no row, under keys that the changes do not touch,
for a stored row that the transaction has replaced. -/
def ReadsCurrent (stage : Stage World) (event : SessionEvent) : Prop :=
  ∀ changes, stage.pending = some changes → ∀ position keys row stored,
    stage.source.cache.cached? position keys = none →
    (stage.perform backend event).source.cache.cached? position keys = some row →
    (∀ change ∈ changes, ¬ change.Touches position keys) →
    stored ∈ ledger.committed stage.world position →
    row.table.Binds stage.source.dialect row.values stored →
      stored ∈ ledger.working stage.world position

/-- What keeps the cached rows and the stored ones in agreement. -/
def Sound (stage : Stage World) : SessionEvent → Prop
  | .update row assignments => stage.UpdatesFresh backend ledger row assignments
  | .delete row => stage.DeletesAlone backend ledger row
  | .get name keys => stage.ReadsCurrent backend ledger (.get name keys)
  | .getRowsBy name column value => stage.ReadsCurrent backend ledger (.getRowsBy name column value)
  | .related row relation => stage.ReadsCurrent backend ledger (.related row relation)
  | .rows selection => stage.ReadsCurrent backend ledger (.rows selection)
  | .begin | .insert .. | .commit | .rollback | .drop => True

/-- What holds of every stage of a run, whether the rows agree or not. -/
structure Settled (ledger : Ledger World) (database : Database) (dialect : Dialect)
    (stage : Stage World) : Prop where
  sameDatabase : stage.source.cache.database = database
  sameDialect : stage.source.dialect = dialect
  tidy : stage.source.cache.Tidy
  committed : (ledger.committed stage.world).Fits database
  active : ∀ transaction, stage.transaction = some transaction → transaction.state = .active →
    (∃ handle, transaction.handle = some handle) ∧ (ledger.working stage.world).Fits database

/-- The stage of a transaction at work. -/
def ofScene (scene : Scene World) : Stage World :=
  { source := scene.2.1, transaction := some scene.1, world := scene.2.2 }

theorem pending_eq_some {stage : Stage World} {changes : List Change} :
    stage.pending = some changes ↔ ∃ transaction, stage.transaction = some transaction ∧
      transaction.state = .active ∧ transaction.changes = changes := by
  unfold pending
  cases stage.transaction with
  | none => simp
  | some transaction =>
    by_cases active : transaction.state = .active
    · simp [active]
    · simp [active]

end Stage

end RelationalAccess
