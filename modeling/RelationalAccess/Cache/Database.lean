import RelationalAccess.Cache.Table
import RelationalAccess.Schema.Database

/-!
The caches of a database's tables together. Cleanups keep them within their
limits: first goes what is too old, then so many rows, by the eviction policy,
that no limit is passed any more.
-/

namespace RelationalAccess

/-- Time is counted in nanoseconds. -/
def Limit.nanoseconds (seconds : Nat) : Nat := seconds * 1000000000

/-- The caches of the tables of a database. -/
structure DatabaseCache where
  database : Database
  /-- One for each table, in the order of the tables. -/
  tables : List TableCache
  evictedRows : Nat := 0
  cleanupRuns : Nat := 0
  /-- Whether cleanups run from time to time. -/
  cleanupRunning : Bool
  clock : Nat := 0

/-- A row that may be evicted. -/
structure Evictable where
  /-- The position of the table. -/
  table : Nat
  keys : Keys
  storedAt : Nat
  size : Nat

namespace DatabaseCache

/-- The empty caches of a database. -/
def new (database : Database) : DatabaseCache :=
  { database
    tables := database.tables.map fun table => TableCache.new table database.settings
    cleanupRunning := database.settings.useCache && database.settings.cleanupInterval?.isSome }

/-- The cache of the first table that has the given name. -/
def tableByName (cache : DatabaseCache) (name : String) : Except Error TableCache :=
  match cache.tables.find? (·.table.name == name) with
  | some table => .ok table
  | none => .error (.missingCache name)

/-- The cache of a table, on the clock that all tables share. -/
def table? (cache : DatabaseCache) (position : Nat) : Option TableCache :=
  cache.tables[position]?.map fun table => { table with clock := cache.clock }

/-- The cache of a table replaced, with whom the clock has gone on. -/
def setTable (cache : DatabaseCache) (position : Nat) (table : TableCache) : DatabaseCache :=
  { cache with tables := cache.tables.set position table, clock := table.clock }

def totalRows (cache : DatabaseCache) : Nat := (cache.tables.map TableCache.size).foldl (· + ·) 0

def totalBytes (cache : DatabaseCache) : Nat := (cache.tables.map TableCache.bytes).foldl (· + ·) 0

def isOver (limit : Option Nat) (amount : Nat) : Bool := limit.any fun most => decide (most < amount)

/-- Whether so many rows of so many octets pass a limit. -/
def isOverLimits (settings : CacheSettings) (rows bytes : Nat) : Bool :=
  isOver settings.maxRows? rows || isOver settings.maxBytes? bytes

/-- Every cached row, table by table. -/
def candidates (cache : DatabaseCache) : List Evictable :=
  cache.tables.zipIdx.flatMap fun (table, position) =>
    table.rows.list.map fun (keys, entry) =>
      { table := position, keys, storedAt := entry.storedAt, size := entry.row.size }

/-- Whether one row is evicted before another. Of rows of one size the older goes first. -/
def goesFirst (policy : EvictionPolicy) (left right : Evictable) : Bool :=
  match policy with
  | .oldestFirst => decide (left.storedAt ≤ right.storedAt)
  | .largestFirst =>
    decide (right.size < left.size) ||
      (left.size == right.size && decide (left.storedAt ≤ right.storedAt))

/-- A row taken out of the cache of its table. -/
def evict (cache : DatabaseCache) (candidate : Evictable) : DatabaseCache :=
  { cache with tables := cache.tables.modify candidate.table (·.removeRow candidate.keys) }

/-- Rows evicted in the given order for as long as a limit is passed; how many went. -/
def evictInOrder (settings : CacheSettings) (cache : DatabaseCache) (rows bytes : Nat) :
    List Evictable → Nat × DatabaseCache
  | [] => (0, cache)
  | first :: others =>
    if isOverLimits settings rows bytes then
      let (evicted, cache) :=
        evictInOrder settings (cache.evict first) (rows - 1) (bytes - first.size) others
      (evicted + 1, cache)
    else (0, cache)

/-- Rows evicted by the policy until no limit is passed. -/
def evictExcess (cache : DatabaseCache) : Nat × DatabaseCache :=
  let settings := cache.database.settings
  evictInOrder settings cache cache.totalRows cache.totalBytes
    (cache.candidates.mergeSort (goesFirst settings.eviction))

/-- What was stored before a time evicted from some tables; how many rows went. -/
def evictTables (cutoff : Nat) : List TableCache → Nat × List TableCache
  | [] => (0, [])
  | table :: tables =>
    let ((evicted, _), table) := table.evictBefore cutoff
    let (others, tables) := evictTables cutoff tables
    (evicted + others, table :: tables)

/-- What is older at the given time than it may be evicted; how many rows went. -/
def evictAged (cache : DatabaseCache) (now : Nat) : Nat × DatabaseCache :=
  match cache.database.settings.maxAge?.map Limit.nanoseconds with
  | none => (0, cache)
  | some age =>
    if now < age then (0, cache)
    else
      let (evicted, tables) := evictTables (now - age) cache.tables
      (evicted, { cache with tables })

/-- A cleanup at the given time; how many rows it evicted. -/
def cleanUpAt (cache : DatabaseCache) (now : Nat) : Nat × DatabaseCache :=
  let (aged, cache) := cache.evictAged now
  let (excess, cache) := cache.evictExcess
  (aged + excess,
    { cache with
      tables := cache.tables.map TableCache.trim
      evictedRows := cache.evictedRows + (aged + excess)
      cleanupRuns := cache.cleanupRuns + 1 })

/-- A cleanup now. -/
def cleanUp (cache : DatabaseCache) : Nat × DatabaseCache := cache.cleanUpAt cache.clock

/-- A cleanup now, outside its turn, if cleanups are running at all. -/
def cleanUpIfRunning (cache : DatabaseCache) : Bool × DatabaseCache :=
  if cache.cleanupRunning then (true, cache.cleanUp.2) else (false, cache)

def stopCleanup (cache : DatabaseCache) : DatabaseCache := { cache with cleanupRunning := false }

def clear (cache : DatabaseCache) : DatabaseCache :=
  { cache with tables := cache.tables.map TableCache.clear }

def stats (cache : DatabaseCache) : DatabaseStats :=
  let settings := cache.database.settings
  DatabaseStats.ofTables cache.database.name
    (cache.tables.map fun table =>
      { table := table.table.name, enabled := table.enabled, stats := table.stats })
    settings.maxBytes? settings.maxRows? cache.evictedRows cache.cleanupRuns

end DatabaseCache

end RelationalAccess
