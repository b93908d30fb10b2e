import RelationalAccess.Cache.Index
import RelationalAccess.Row
import RelationalAccess.Stats
import RelationalAccess.Subscriptions
import RelationalAccess.Text.Inspected

/-!
The cache of one table: rows by their keys, and an index cache for each column
by which rows are looked up. Every change of the table raises the generation;
what was read from the table is stored only if the generation is still the one
from before the read, so a read never brings back what a change has replaced.
-/

namespace RelationalAccess

/-- A row in the cache, and when it was stored. -/
structure RowEntry where
  row : Row
  storedAt : Nat

/-- What subscribers are told: rows with a value in a column have changed. -/
structure IndexChange where
  table : String
  column : String
  value : Value
  deriving DecidableEq

/-- The cache of one table. -/
structure TableCache where
  table : Table
  enabled : Bool
  rows : Entries Keys RowEntry := {}
  bytes : Nat := 0
  indices : List IndexCache := []
  /-- The share of missing rows from which on all rows of a value are loaded at once. -/
  bulkThreshold : Float := 0.5
  hits : Nat := 0
  misses : Nat := 0
  /-- How many changes have been applied. -/
  generation : Nat := 0
  /-- The time at which an entry that is stored next is stored. -/
  clock : Nat := 0
  subscriptions : Subscriptions := {}

/-- What the cache of a table tells its subscribers of one column: the change,
and how the cache stands when they are told. -/
structure Announcement where
  change : IndexChange
  /-- The position of the column. -/
  column : Nat
  sender : TableCache

namespace Announcement

/-- Those who are told. -/
def receivers (alive : Nat → Bool) (announcement : Announcement) : List Subscription :=
  announcement.sender.subscriptions.live alive announcement.change.column

end Announcement

namespace TableCache

/-- The index caches of a table under a strategy. -/
def indicesFor (table : Table) : IndexStrategy → List IndexCache
  | .off => []
  | .all => table.lookupColumns.map fun column => .empty column none
  | .atMost keys => table.lookupColumns.map fun column => .empty column (some keys)

/-- The empty cache of a table. It is enabled if the settings and the table want
it and the table has a primary key. -/
def new (table : Table) (settings : CacheSettings) : TableCache :=
  let enabled := settings.useCache && table.useCache && table.hasPrimaryKey
  { table, enabled, indices := if enabled then indicesFor table settings.indexStrategy else [] }

/-- A threshold is a share, and is cut off at nothing and at all. -/
def withThreshold (cache : TableCache) (threshold : Float) : TableCache :=
  { cache with
    bulkThreshold := if threshold < 0 then 0 else if 1 < threshold then 1 else threshold }

/-- The index cache of a column. -/
def index? (cache : TableCache) (column : Nat) : Option IndexCache :=
  cache.indices.find? (·.column == column)

/-- The index cache of a column changed. -/
def modifyIndex (cache : TableCache) (column : Nat) (change : IndexCache → IndexCache) :
    TableCache :=
  { cache with
    indices := match cache.indices.findIdx? (·.column == column) with
      | none => cache.indices
      | some position => cache.indices.modify position change }

/-- The row cached under some keys. -/
def peek? (cache : TableCache) (keys : Keys) : Option Row :=
  (cache.rows.get? keys).map RowEntry.row

def contains (cache : TableCache) (keys : Keys) : Bool := cache.rows.contains keys

def size (cache : TableCache) : Nat := cache.rows.size

def isEmpty (cache : TableCache) : Bool := cache.size == 0

/-- Reads counted, by whether they were answered from the cache. -/
def count (cache : TableCache) (hits misses : Nat) : TableCache :=
  { cache with hits := cache.hits + hits, misses := cache.misses + misses }

/-- A row put in place of whatever is cached under its keys. -/
def replaceRow (cache : TableCache) (row : Row) : TableCache :=
  if cache.enabled then
    let replaced := match cache.peek? row.keys with
      | none => 0
      | some present => present.size
    { cache with
      rows := cache.rows.put row.keys ⟨row, cache.clock⟩
      bytes := cache.bytes - replaced + row.size
      clock := cache.clock + 1 }
  else cache

/-- A row cached unless one is under its keys already; and the one that is there then. -/
def insertRow (cache : TableCache) (row : Row) : Row × TableCache :=
  if cache.enabled then
    match cache.peek? row.keys with
    | some present => (present, cache)
    | none => (row, cache.replaceRow row)
  else (row, cache)

/-- The row under some keys taken out. -/
def removeRow (cache : TableCache) (keys : Keys) : TableCache :=
  match cache.peek? keys with
  | none => cache
  | some present =>
    { cache with rows := cache.rows.erase keys, bytes := cache.bytes - present.size }

/-- Rows inserted in order, and the cached ones in their stead. -/
def insertRows (cache : TableCache) : List Row → List Row × TableCache
  | [] => ([], cache)
  | row :: rows =>
    let (present, cache) := cache.insertRow row
    let (others, cache) := insertRows cache rows
    (present :: others, cache)

/-- Rows that were read when the cache had the given generation. After a change
none of them is cached any more, but a cached row still stands for the one read. -/
def storeRead (cache : TableCache) (generation : Nat) (rows : List Row) : List Row × TableCache :=
  if cache.generation = generation then cache.insertRows rows
  else (rows.map fun row => (cache.peek? row.keys).getD row, cache)

/-- Keys found for a value of a column when the cache had the given generation.
They are stored if there was no change since and none are there already; those
that stand for the value then. -/
def storeReadKeys (cache : TableCache) (generation column : Nat) (value : Value) (keys : List Keys) :
    List Keys × TableCache :=
  match cache.index? column with
  | none => (keys, cache)
  | some index =>
    if cache.generation = generation then
      let (present, index) := index.insert cache.clock value keys
      (present, { cache.modifyIndex column fun _ => index with clock := cache.clock + 1 })
    else (keys, cache)

/-- Keys that replace those of a value of a column, unless there was a change. -/
def replaceKeys (cache : TableCache) (generation column : Nat) (value : Value) (keys : List Keys) :
    TableCache :=
  if cache.generation = generation then
    { cache.modifyIndex column fun index => index.replace cache.clock value keys with
      clock := cache.clock + 1 }
  else cache

/-- The keys of a value of a column taken out. -/
def forgetKeys (cache : TableCache) (column : Nat) (value : Value) : TableCache :=
  cache.modifyIndex column fun index => index.remove value

/-- What the subscribers of a column are told about a value. -/
def announce (cache : TableCache) (column : Nat) (value : Value) : Option Announcement :=
  cache.table.columns[column]?.map fun definition =>
    { change := { table := cache.table.name, column := definition.name, value }
      column, sender := cache }

/-- A subscription to what is told of the column of a name. -/
def subscribe (alive : Nat → Bool) (cache : TableCache) (column : String)
    (subscription : Subscription) : Bool × TableCache :=
  let (isNew, subscriptions) := cache.subscriptions.subscribe alive column subscription
  (isNew, { cache with subscriptions })

/-- The rows with a value in a column have changed in an unknown way. -/
def invalidate (cache : TableCache) (column : Nat) (value : Value) :
    List Announcement × TableCache :=
  if value.isNull then ([], cache)
  else
    let cache := { cache with generation := cache.generation + 1 }.forgetKeys column value
    ((cache.announce column value).toList, cache)

/-- The values of a column whose rows a change of one row affects: the old one
and the new one where they differ, the only one where the row came or went.
Nothing is looked up by null. -/
def touchedValues (before after : Option Row) (column : Nat) : List Value :=
  let old := before.bind (·.at? column)
  let new := after.bind (·.at? column)
  if old = new then [] else (old.toList ++ new.toList).filter (!·.isNull)

/-- The columns of lookups and the values in them that a change of one row affects. -/
def touched (table : Table) (before after : Option Row) : List (Nat × Value) :=
  table.lookupColumns.flatMap fun column => (touchedValues before after column).map (column, ·)

/-- A row as it was, taken out unless one with its keys comes in its place. -/
def forget (cache : TableCache) (before after : Option Row) : TableCache :=
  match before with
  | none => cache
  | some old =>
    if after.map Row.keys = some old.keys then cache else cache.removeRow old.keys

/-- A committed change of one row applied: none before for an insert, none after
for a delete. Subscribers are told when the cache is consistent again. -/
def applyChange (cache : TableCache) (before after : Option Row) : List Announcement × TableCache :=
  let touched := touched cache.table before after
  let cache := { cache with generation := cache.generation + 1 }.forget before after
  let cache := touched.foldl (fun cache (column, value) => cache.forgetKeys column value) cache
  let cache := after.elim cache cache.replaceRow
  (touched.filterMap fun (column, value) => cache.announce column value, cache)

/-- The index caches evicted one by one, and how many buckets went. -/
def evictBuckets (cutoff : Nat) : List IndexCache → Nat × List IndexCache
  | [] => (0, [])
  | index :: indices =>
    let (evicted, index) := index.evictBefore cutoff
    let (others, indices) := evictBuckets cutoff indices
    (evicted + others, index :: indices)

/-- The keys of the rows stored before a time. -/
def staleKeys (cache : TableCache) (cutoff : Nat) : List Keys :=
  (cache.rows.list.filter fun entry => decide (entry.2.storedAt < cutoff)).map Prod.fst

/-- The rows and buckets stored before a time taken out, and how many of each. -/
def evictBefore (cache : TableCache) (cutoff : Nat) : (Nat × Nat) × TableCache :=
  let stale := cache.staleKeys cutoff
  let cache := stale.foldl removeRow cache
  let (buckets, indices) := evictBuckets cutoff cache.indices
  ((stale.length, buckets), { cache with indices })

def trim (cache : TableCache) : TableCache :=
  { cache with indices := cache.indices.map IndexCache.trim }

def clear (cache : TableCache) : TableCache :=
  { cache with rows := {}, bytes := 0, indices := cache.indices.map IndexCache.clear }

def stats (cache : TableCache) : CacheStats :=
  { hits := cache.hits
    misses := cache.misses
    rows := cache.size
    bytes := cache.bytes
    indexBuckets := (cache.indices.map IndexCache.size).foldl (· + ·) 0
    indexKeys := (cache.indices.map IndexCache.keyCount).foldl (· + ·) 0 }

/-- The text of a cache that shows how it stands. -/
def inspect (cache : TableCache) : String :=
  "TableCache \x7b table: " ++ Inspected.text cache.table.name ++
    ", enabled: " ++ (if cache.enabled then "true" else "false") ++
    ", rows: " ++ Error.number cache.size ++ ", bytes: " ++ Error.number cache.bytes ++
    ", generation: " ++ Error.number cache.generation ++ " \x7d"

end TableCache

end RelationalAccess
