import RelationalAccess.Cache.Entries
import RelationalAccess.Keys

/-!
The index cache of one column: for values of the column the keys of the rows
that have them. With a ceiling on the keys kept, the oldest buckets go first.
-/

namespace RelationalAccess

/-- The keys found for one value, and when they were stored. -/
structure Bucket where
  keys : List Keys
  storedAt : Nat

/-- Key lists by value, for one indexed column. -/
structure IndexCache where
  /-- The position of the column in its table. -/
  column : Nat
  /-- The most keys that may be kept in all. -/
  maxKeys : Option Nat
  buckets : Entries Value Bucket := {}
  keyCount : Nat := 0

namespace IndexCache

def empty (column : Nat) (maxKeys : Option Nat) : IndexCache := { column, maxKeys }

def get? (index : IndexCache) (value : Value) : Option (List Keys) :=
  (index.buckets.get? value).map Bucket.keys

def size (index : IndexCache) : Nat := index.buckets.size

def clear (index : IndexCache) : IndexCache := { index with buckets := {}, keyCount := 0 }

/-- The bucket of a value taken out. -/
def remove (index : IndexCache) (value : Value) : IndexCache :=
  match index.buckets.get? value with
  | none => index
  | some bucket =>
    { index with
      buckets := index.buckets.erase value
      keyCount := index.keyCount - bucket.keys.length }

/-- Buckets taken out in the given order for as long as too many keys are kept. -/
def trimInOrder (most : Nat) (index : IndexCache) : List Value → IndexCache
  | [] => index
  | oldest :: others =>
    if index.keyCount ≤ most then index else trimInOrder most (index.remove oldest) others

/-- The values that have buckets, the one stored first in front. -/
def byAge (index : IndexCache) : List Value :=
  (index.buckets.list.mergeSort fun left right =>
    decide (left.2.storedAt ≤ right.2.storedAt)).map Prod.fst

/-- The oldest buckets taken out until no more keys are kept than may be. -/
def trim (index : IndexCache) : IndexCache :=
  match index.maxKeys with
  | none => index
  | some most => index.trimInOrder most index.byAge

/-- The keys of a value stored at a time, in place of any that were there. -/
def replace (index : IndexCache) (now : Nat) (value : Value) (keys : List Keys) : IndexCache :=
  let replaced := match index.buckets.get? value with
    | none => 0
    | some bucket => bucket.keys.length
  { index with
    buckets := index.buckets.put value ⟨keys, now⟩
    keyCount := index.keyCount - replaced + keys.length }.trim

/-- The keys of a value stored at a time, unless some are there already; and
those that are there then. -/
def insert (index : IndexCache) (now : Nat) (value : Value) (keys : List Keys) :
    List Keys × IndexCache :=
  match index.get? value with
  | some present => (present, index)
  | none => (keys, index.replace now value keys)

/-- The buckets stored before a time taken out, and how many there were. -/
def evictBefore (index : IndexCache) (cutoff : Nat) : Nat × IndexCache :=
  let stale := (index.buckets.list.filter fun entry => decide (entry.2.storedAt < cutoff)).map Prod.fst
  (stale.length, stale.foldl remove index)

end IndexCache

end RelationalAccess
