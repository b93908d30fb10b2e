import RelationalAccess.Cache.Table

/-!
Reads through the cache of a table. What is missing is loaded from a source,
and what happens to the cache while a source is being read is part of the
source's own action.
-/

namespace RelationalAccess

/-- An action that may fail, over the cache of a table and the world around it. -/
abbrev Loading (World : Type) := ExceptT Error (StateM (TableCache × World))

/-- Where the rows of a table are loaded from. -/
structure RowSource (World : Type) where
  /-- The rows with one of some keys, in any order. -/
  rowsByKeys : List Keys → Loading World (List Row)
  /-- The keys of the rows that have a value in a column. -/
  keysByValue : Nat → Value → Loading World (List Keys)
  /-- The rows that have a value in a column. -/
  rowsByValue : Nat → Value → Loading World (List Row)

namespace TableCache

variable {World : Type}

/-- The cache as it stands. -/
def current : Loading World TableCache := fun (cache, world) => (.ok cache, cache, world)

/-- The cache changed. -/
def update (change : TableCache → α × TableCache) : Loading World α := fun (cache, world) =>
  let (result, cache) := change cache
  (.ok result, cache, world)

def countReads (hits misses : Nat) : Loading World Unit :=
  update fun cache => ((), cache.count hits misses)

/-- The most keys that a source is asked for at once. -/
def chunkSize : Nat := 100

/-- A list cut into pieces of a size, the last of which may be shorter. -/
def chunks (size : Nat) (list : List α) : List (List α) :=
  if list.isEmpty ∨ size = 0 then [] else list.take size :: chunks size (list.drop size)
termination_by list.length
decreasing_by
  simp only [List.length_drop]
  have : 0 < list.length := by
    cases list <;> simp_all
  omega

/-- The distinct keys that can identify a row, in the order of their first occurrence. -/
def askedKeys (keys : List Keys) : List Keys := (keys.filter (!·.hasNull)).eraseDups

/-- The rows found for a list of keys, each taken once, in the order of the list. -/
def take (found : Entries Keys Row) : List Keys → List Row
  | [] => []
  | key :: keys =>
    match found.get? key with
    | none => take found keys
    | some row => row :: take (found.erase key) keys

/-- The rows of some keys loaded, on top of those found before. A row loaded
again stands for the one found before. -/
def loadChunk (source : RowSource World) (generation : Nat) (found : Entries Keys Row)
    (chunk : List Keys) : Loading World (Entries Keys Row) := do
  let loaded ← source.rowsByKeys chunk
  let rows ← update fun cache => cache.storeRead generation loaded
  return found.putAll (rows.map fun row => (row.keys, row))

/-- The rows of some keys, in the order of the list. Keys without a row are
skipped, and so are repeated ones. -/
def getRowsByKeys (source : RowSource World) (keys : List Keys) : Loading World (List Row) := do
  let cache ← current
  let asked := askedKeys keys
  let cached := asked.filterMap fun key => (cache.peek? key).map (key, ·)
  let missing := asked.filter (!cache.contains ·)
  countReads cached.length missing.length
  let found ← (chunks chunkSize missing).foldlM (loadChunk source cache.generation) (.putAll {} cached)
  return take found keys

/-- The row of some keys. -/
def getRow (source : RowSource World) (keys : Keys) : Loading World (Option Row) := do
  return (← getRowsByKeys source [keys]).head?

/-- The rows with a value in a column that has no index cache. -/
def getRowsDirectly (source : RowSource World) (column : Nat) (value : Value) :
    Loading World (List Row) := do
  let cache ← current
  let rows ← source.rowsByValue column value
  countReads 0 rows.length
  update fun cache' => cache'.storeRead cache.generation rows

/-- The keys of the rows with a value in a column, from its index cache or else
from the source. -/
def getKeys (source : RowSource World) (index : IndexCache) (value : Value) :
    Loading World (List Keys) := do
  match index.get? value with
  | some keys => return keys
  | none =>
    let cache ← current
    let keys ← source.keysByValue index.column value
    update fun cache' => cache'.storeReadKeys cache.generation index.column value keys

/-- The rows with a value in a column loaded all at once. -/
def getRowsInBulk (source : RowSource World) (column : Nat) (value : Value)
    (hits misses : Nat) : Loading World (List Row) := do
  let cache ← current
  let loaded ← source.rowsByValue column value
  countReads hits misses
  let rows ← update fun cache' => cache'.storeRead cache.generation loaded
  update fun cache' => ((), cache'.replaceKeys cache.generation column value (rows.map Row.keys))
  return rows

/-- Whether so few of some rows are missing that they are loaded by their keys. -/
def isMostlyCached (threshold : Float) (missing all : Nat) : Bool :=
  missing == 0 || decide (Float.ofNat missing < threshold * Float.ofNat all)

/-- The rows with a value in a column; no row has a null. With an index cache
the keys are looked up first: then the missing rows are loaded by their keys
where they are few, and else all rows of the value are loaded at once. -/
def getRows (source : RowSource World) (column : Nat) (value : Value) :
    Loading World (List Row) := do
  if value.isNull then return []
  match (← current).index? column with
  | none => getRowsDirectly source column value
  | some index =>
    let keys ← getKeys source index value
    let cache ← current
    let missing := keys.countP (!cache.contains ·)
    if isMostlyCached cache.bulkThreshold missing keys.length then getRowsByKeys source keys
    else getRowsInBulk source column value (keys.length - missing) missing

end TableCache

end RelationalAccess
