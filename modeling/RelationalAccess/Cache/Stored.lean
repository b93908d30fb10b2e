import RelationalAccess.Cache.Reading

/-!
A table held in memory, as a source of rows for a cache. It keeps a record of
what it was asked, can be made to fail, and lets other writers change the table
while a read is under way: after the read has seen the table, and before the
cache sees what was read.
-/

namespace RelationalAccess

/-- A read that a source was asked for. -/
inductive SourceRequest where
  | rowsByKeys (keys : Nat)
  | keysByValue (column : Nat) (value : Value)
  | rowsByValue (column : Nat) (value : Value)
  deriving DecidableEq

/-- What another writer does to a table. -/
inductive Interference where
  /-- A row comes, goes or becomes another. -/
  | change (before after : Option (List Value))
  /-- The rows with a value in a column change in an unknown way. -/
  | invalidate (column : Nat) (value : Value)

/-- A table held in memory. -/
structure StoredTable where
  table : Table
  rows : List (List Value)
  /-- The identity of the row that is made next. -/
  nextRow : Nat := 0
  requests : List SourceRequest := []
  /-- With what the next read fails. -/
  failure : Option Error := none
  /-- What other writers do during the next read. -/
  interferences : List Interference := []
  /-- What the cache has told its subscribers. -/
  announcements : List Announcement := []

namespace StoredTable

/-- The state changed, and nothing else. -/
def modifyStored (change : StoredTable → StoredTable) : Loading StoredTable Unit :=
  fun (cache, stored) => (.ok (), cache, change stored)

def stored : Loading StoredTable StoredTable := fun (cache, stored) => (.ok stored, cache, stored)

/-- A row made from its values. -/
def make (values : List Value) : Loading StoredTable Row := do
  let state ← stored
  modifyStored fun state => { state with nextRow := state.nextRow + 1 }
  Row.ofValues state.nextRow state.table values

/-- The cache changed, and what it tells its subscribers kept. -/
def announcing (change : TableCache → List Announcement × TableCache) : Loading StoredTable Unit := do
  let told ← TableCache.update change
  modifyStored fun state => { state with announcements := state.announcements ++ told }

/-- The table without the rows that have the keys of a row, and with another row
at its end. -/
def exchange (before after : Option (List Value)) (stored : StoredTable) : StoredTable :=
  let kept := match before with
    | none => stored.rows
    | some old => stored.rows.filter fun row => stored.table.keysOf row != stored.table.keysOf old
  { stored with rows := kept ++ after.toList }

/-- What another writer does, to the table first and then to the cache. -/
def interfere : Interference → Loading StoredTable Unit
  | .invalidate column value => announcing fun cache => cache.invalidate column value
  | .change before after => do
    modifyStored (exchange before after)
    let before ← before.mapM make
    let after ← after.mapM make
    announcing fun cache => cache.applyChange before after

/-- A read: its record, its failure if there is one, and else the rows as they
were before other writers came in between. -/
def read (request : SourceRequest) : Loading StoredTable (List (List Value)) := do
  modifyStored fun state => { state with requests := state.requests ++ [request] }
  let state ← stored
  match state.failure with
  | some error =>
    modifyStored fun state => { state with failure := none }
    throw error
  | none =>
    modifyStored fun state => { state with interferences := [] }
    state.interferences.forM interfere
    return state.rows

def valueAt (column : Nat) (row : List Value) : Value := row.getD column .null

/-- The table as a source, which returns rows in the order in which they are held. -/
def source (table : Table) : RowSource StoredTable where
  rowsByKeys keys := do
    let rows ← read (.rowsByKeys keys.length)
    (rows.filter fun row => keys.contains (table.keysOf row)).mapM make
  keysByValue column value := do
    let rows ← read (.keysByValue column value)
    return (rows.filter fun row => valueAt column row == value).map table.keysOf
  rowsByValue column value := do
    let rows ← read (.rowsByValue column value)
    (rows.filter fun row => valueAt column row == value).mapM make

end StoredTable

end RelationalAccess
