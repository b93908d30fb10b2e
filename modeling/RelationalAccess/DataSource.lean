import RelationalAccess.Backend
import RelationalAccess.Cache.Database
import RelationalAccess.Cache.Reading
import RelationalAccess.Sql.Creating
import RelationalAccess.Sql.Selecting

/-!
A data source: a database, the dialect of the backend it runs on, and the cache
between the two.
-/

namespace RelationalAccess

/-- One database on one backend. -/
structure DataSource where
  dialect : Dialect
  cache : DatabaseCache
  /-- The identity of the row that is made next. -/
  nextRow : Nat := 0
  /-- The number of the transaction that is begun next. -/
  nextTransaction : Nat := 0

/-- An action of a data source in the world of its backend. It may fail, and
acts even then. -/
abbrev Session (World : Type) := ExceptT Error (StateM (DataSource × World))

namespace DataSource

variable {World : Type}

/-- The data source of a database on an engine, with nothing cached. -/
def ofDatabase (database : Database) (engine : Engine) : Except Error DataSource := do
  return { dialect := ← Dialect.ofEngine engine, cache := DatabaseCache.new database }

def database (source : DataSource) : Database := source.cache.database

/-- The data source as it stands. -/
def current : Session World DataSource := fun (source, world) => (.ok source, source, world)

/-- An action of the backend. -/
def onBackend (action : Action World α) : Session World α := fun (source, world) =>
  let (result, world) := action world
  (result, source, world)

/-- A change of the cache. -/
def onCache (change : DatabaseCache → α × DatabaseCache) : Session World α := fun (source, world) =>
  let (result, cache) := change source.cache
  (.ok result, { source with cache }, world)

/-- A read through the cache of a table. -/
def throughCache (table : Table) (read : Loading (DataSource × World) α) : Session World α :=
  fun (source, world) =>
    match source.cache.table? table.id with
    | none => (.error (.missingCache table.name), source, world)
    | some cache =>
      let (result, cache, source, world) := read (cache, source, world)
      (result, { source with cache := source.cache.setTable table.id cache }, world)

/-- What a read does that leaves its cache alone. -/
def beside (action : Session World α) : Loading (DataSource × World) α := fun (cache, state) =>
  let (result, state) := action state
  (result, cache, state)

/-- A row made from its values. -/
def makeRow (table : Table) (values : List Value) : Session World Row := do
  let source ← current
  modify fun (source, world) => ({ source with nextRow := source.nextRow + 1 }, world)
  Row.ofValues source.nextRow table values

def requireTable (name : String) : Session World Table := do
  (← current).database.requireTable name

/-- Runs statements in order within a transaction of the backend, up to the
first that fails. -/
def executeAll (backend : Backend World) (handle : Nat) (statements : List Statement) :
    Session World Unit :=
  statements.forM fun statement => do
    let _ ← onBackend (backend.execute handle statement)

/-- Creates the tables of the database and then its indices, all or none. -/
def createSchema (backend : Backend World) : Session World Unit := do
  let source ← current
  let statements ← Creating.database source.dialect source.database
  let handle ← onBackend backend.start
  tryCatch (executeAll backend handle statements) fun error => do
    tryCatch (onBackend (backend.rollback handle)) fun _ => pure ()
    throw error
  onBackend (backend.commit handle)

end DataSource

end RelationalAccess
