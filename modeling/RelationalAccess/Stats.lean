import RelationalAccess.Number.Binary64

/-!
Counters of caches: of one table, of several together, and of a whole database.
-/

namespace RelationalAccess

/-- The counters of one table's cache, or the sums over several. -/
structure CacheStats where
  hits : Nat := 0
  misses : Nat := 0
  rows : Nat := 0
  bytes : Nat := 0
  indexBuckets : Nat := 0
  indexKeys : Nat := 0
  deriving DecidableEq

namespace CacheStats

/-- The quotient of two counters. -/
def ratio (part whole : Nat) : Binary64 := Binary64.ofFloat (Float.ofNat part / Float.ofNat whole)

/-- The share of reads that were answered from the cache; zero where nothing was read. -/
def hitRate (stats : CacheStats) : Binary64 :=
  if stats.hits + stats.misses = 0 then ⟨0⟩ else ratio stats.hits (stats.hits + stats.misses)

def merge (left right : CacheStats) : CacheStats :=
  { hits := left.hits + right.hits
    misses := left.misses + right.misses
    rows := left.rows + right.rows
    bytes := left.bytes + right.bytes
    indexBuckets := left.indexBuckets + right.indexBuckets
    indexKeys := left.indexKeys + right.indexKeys }

end CacheStats

/-- The counters of one table's cache under the table's name. -/
structure TableStats where
  table : String
  enabled : Bool
  stats : CacheStats

/-- The counters of a database's cache. -/
structure DatabaseStats where
  database : String
  tables : List TableStats
  total : CacheStats
  maxBytes : Option Nat
  maxRows : Option Nat
  /-- The rows that cleanups have evicted. -/
  evictedRows : Nat
  cleanupRuns : Nat

namespace DatabaseStats

/-- The counters of a database from those of its tables. -/
def ofTables (database : String) (tables : List TableStats) (maxBytes maxRows : Option Nat)
    (evictedRows cleanupRuns : Nat) : DatabaseStats :=
  { database, tables, maxBytes, maxRows, evictedRows, cleanupRuns
    total := tables.foldl (fun total entry => total.merge entry.stats) {} }

/-- The counters of the first table of a name. -/
def table? (stats : DatabaseStats) (name : String) : Option CacheStats :=
  (stats.tables.find? (·.table == name)).map (·.stats)

/-- The share of the octets in use, where a ceiling above zero is set. -/
def utilization? (stats : DatabaseStats) : Option Binary64 :=
  match stats.maxBytes with
  | none => none
  | some ceiling =>
    if ceiling = 0 then none else some (CacheStats.ratio stats.total.bytes ceiling)

end DatabaseStats

end RelationalAccess
