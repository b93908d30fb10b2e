import RelationalAccess.Proofs.Cache.Buckets
import RelationalAccess.Proofs.Cache.Shown
import RelationalAccess.Proofs.Cache.Upkeep

/-!
Where the buckets of a cache come from while it is read and changes are applied to it. Reads
store keys that they have found. Every other bucket was there before, with the same keys.
-/

namespace RelationalAccess

namespace TableCache

namespace Kept

variable {table : Table} {cache : TableCache}

theorem sameRows (kept : Kept table cache) {other : TableCache} (sameTable : other.table = cache.table)
    (enabled : other.enabled = cache.enabled) (rows : other.rows = cache.rows) : Kept table other := by
  have same (keys : Keys) : other.peek? keys = cache.peek? keys := by rw [peek?, rows, peek?]
  refine ⟨sameTable.trans kept.sameTable, fun off keys => ?_, fun keys row found => ?_⟩
  · rw [same]
    exact kept.idle (enabled.symm.trans off) keys
  · exact kept.keyed keys row ((same keys).symm.trans found)

theorem storeRead (kept : Kept table cache) (generation : Nat) (rows : List Row) :
    Kept table (cache.storeRead generation rows).2 := by
  have same := cache.storeRead_sameButRows generation rows
  refine ⟨same.table.trans kept.sameTable, fun off keys => ?_, kept.keyed.storeRead generation rows⟩
  rw [same.enabled] at off
  unfold TableCache.storeRead
  split
  · rw [insertRows_of_disabled off]
    exact kept.idle off keys
  · exact kept.idle off keys

theorem applyChange (kept : Kept table cache) (before after : Option Row) :
    Kept table (cache.applyChange before after).2 where
  sameTable := by
    rw [applyChange_table]
    exact kept.sameTable
  idle off keys := by
    rw [applyChange_enabled] at off
    exact peek?_applyChange_of_disabled off (kept.idle off) before after keys
  keyed := kept.keyed.applyChange before after

theorem new (table : Table) (settings : CacheSettings) : Kept table (TableCache.new table settings) := by
  have nothing (keys : Keys) : (TableCache.new table settings).peek? keys = none := rfl
  refine ⟨rfl, fun _ => nothing, fun keys row found => ?_⟩
  rw [nothing] at found
  cases found

end Kept

/-- A cache still keeps its rows under their keys, and its buckets are some of those of another
cache, or rightly name the rows of a value. -/
structure Follows (table : Table) (named : Nat → Value → List Keys → Prop)
    (origin cache : TableCache) : Prop where
  kept : Kept table cache
  buckets : ∀ column value keys, cache.HasBucket column value keys →
    origin.HasBucket column value keys ∨ named column value keys

namespace Follows

variable {table : Table} {named : Nat → Value → List Keys → Prop} {origin cache : TableCache}

theorem refl (kept : Kept table cache) : Follows table named cache cache :=
  ⟨kept, fun _ _ _ => .inl⟩

theorem sameButRows (follows : Follows table named origin cache) {other : TableCache}
    (kept : Kept table other) (indices : other.indices = cache.indices) :
    Follows table named origin other :=
  ⟨kept, fun column value keys bucket =>
    follows.buckets column value keys ((hasBucket_congr indices).mp bucket)⟩

private theorem stores (follows : Follows table named origin cache) {other : TableCache}
    {column : Nat} {value : Value} {keys : List Keys} (change : IndexCache → IndexCache)
    (sameTable : other.table = cache.table) (enabled : other.enabled = cache.enabled)
    (rows : other.rows = cache.rows)
    (indices : other.indices = (cache.modifyIndex column change).indices)
    (isNamed : named column value keys)
    (stores : ∀ index, cache.index? column = some index → (change index).Stores value keys index) :
    Follows table named origin other := by
  refine ⟨follows.kept.sameRows sameTable enabled rows, fun place found kept bucket => ?_⟩
  rcases hasBucket_modifyIndex stores ((hasBucket_congr indices).mp bucket) with here | earlier
  · obtain ⟨rfl, rfl, rfl⟩ := here
    exact .inr isNamed
  · exact follows.buckets place found kept earlier

theorem storeReadKeys (follows : Follows table named origin cache) (generation : Nat) {column : Nat}
    {value : Value} {keys : List Keys} (isNamed : named column value keys) :
    Follows table named origin (cache.storeReadKeys generation column value keys).2 := by
  unfold TableCache.storeReadKeys
  split
  · exact follows
  · next index isIndex =>
    split
    · refine follows.stores (fun _ => (index.insert cache.clock value keys).2) rfl rfl rfl rfl isNamed
        fun same isSame => ?_
      obtain rfl := Option.some.inj (isIndex.symm.trans isSame)
      exact index.insert_stores cache.clock value keys
    · exact follows

theorem replaceKeys (follows : Follows table named origin cache) (generation : Nat) {column : Nat}
    {value : Value} {keys : List Keys} (isNamed : named column value keys) :
    Follows table named origin (cache.replaceKeys generation column value keys) := by
  unfold TableCache.replaceKeys
  split
  · exact follows.stores (·.replace cache.clock value keys) rfl rfl rfl rfl isNamed
      fun index _ => index.replace_stores cache.clock value keys
  · exact follows

/-- A change only takes buckets out. -/
theorem applyChange (follows : Follows table named origin cache) (before after : Option Row) :
    Follows table named origin (cache.applyChange before after).2 :=
  ⟨follows.kept.applyChange before after, fun column value keys bucket =>
    follows.buckets column value keys ((applyChange_within cache before after).hasBucket bucket)⟩

end Follows

/-- Reads store keys only for values whose rows they rightly name. -/
theorem follows_upheld (table : Table) (named : Nat → Value → List Keys → Prop) (origin : TableCache) :
    Upheld (Follows table named origin) (fun _ => True) named where
  count _ _ _ follows := follows.sameButRows (follows.kept.sameRows rfl rfl rfl) rfl
  storeRead cache generation rows follows _ :=
    follows.sameButRows (follows.kept.storeRead generation rows)
      (cache.storeRead_sameButRows generation rows).indices
  storeReadKeys _ generation _ _ _ follows _ isNamed := follows.storeReadKeys generation isNamed
  replaceKeys _ generation _ _ _ follows _ isNamed := follows.replaceKeys generation isNamed
  returned _ generation _ _ rows follows isNamed := by
    rw [follows.kept.keyed.storeRead_keys generation rows]
    exact isNamed

/-- Whatever is read through a cache, nothing need hold of it. -/
theorem trivial_upheld : Upheld (fun _ => True) (fun _ => True) fun _ _ _ => True where
  count _ _ _ _ := trivial
  storeRead _ _ _ _ _ := trivial
  storeReadKeys _ _ _ _ _ _ _ _ := trivial
  replaceKeys _ _ _ _ _ _ _ _ := trivial
  returned _ _ _ _ _ _ _ := trivial

end TableCache

end RelationalAccess
