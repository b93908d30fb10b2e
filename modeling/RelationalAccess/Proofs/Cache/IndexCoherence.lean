import RelationalAccess.Proofs.Cache.Buckets
import RelationalAccess.Proofs.Cache.Source
import RelationalAccess.Proofs.Cache.Upkeep

/-!
When the buckets of a cache have exactly the keys of the rows they stand for.
Reads and evictions keep it so, and a committed change does but for one case:
it gives a row other keys and leaves alone the value by which a bucket has the
row. Such a change strands the bucket.
-/

namespace RelationalAccess

namespace TableCache

/-- Every bucket has exactly the keys of the rows with its value. -/
def BucketsExact (cache : TableCache) (rows : List (List Value)) : Prop :=
  ∀ column value keys, cache.HasBucket column value keys →
    keys.Perm (cache.table.keysWith rows column value)

namespace BucketsExact

variable {cache : TableCache} {rows : List (List Value)} {column : Nat} {value : Value}
  {keys : List Keys}

theorem modifyIndex (exact : cache.BucketsExact rows) {change : IndexCache → IndexCache}
    (named : keys.Perm (cache.table.keysWith rows column value))
    (stores : ∀ index, cache.index? column = some index →
      (change index).Stores value keys index) :
    (cache.modifyIndex column change).BucketsExact rows := by
  intro found foundValue kept bucket
  rcases hasBucket_modifyIndex stores bucket with ⟨rfl, rfl, rfl⟩ | earlier
  · exact named
  · exact exact found foundValue kept earlier

theorem replaceKeys (exact : cache.BucketsExact rows) (generation : Nat)
    (named : keys.Perm (cache.table.keysWith rows column value)) :
    (cache.replaceKeys generation column value keys).BucketsExact rows := by
  unfold TableCache.replaceKeys
  split
  · exact exact.modifyIndex named fun index _ => index.replace_stores cache.clock value keys
  · exact exact

theorem storeReadKeys (exact : cache.BucketsExact rows) (generation : Nat)
    (named : keys.Perm (cache.table.keysWith rows column value)) :
    (cache.storeReadKeys generation column value keys).2.BucketsExact rows := by
  unfold TableCache.storeReadKeys
  split
  · exact exact
  · next index found =>
    split
    · have stores : ∀ same, cache.index? column = some same →
          (index.insert cache.clock value keys).2.Stores value keys same := by
        intro same isSame
        rw [found] at isSame
        cases isSame
        exact index.insert_stores cache.clock value keys
      exact exact.modifyIndex named stores
    · exact exact

end BucketsExact

/-- The cache of a table that holds some rows, with exact buckets. -/
structure Tracks (table : Table) (cache : TableCache) (rows : List (List Value)) : Prop where
  sameTable : cache.table = table
  keyed : cache.RowsKeyed
  sound : cache.IndicesSound
  exact : cache.BucketsExact rows
  distinct : table.DistinctKeys rows

namespace Tracks

variable {table : Table} {cache other : TableCache} {rows : List (List Value)}

theorem within (tracks : Tracks table cache rows) (within : other.IndicesWithin cache)
    (keyed : other.RowsKeyed) : Tracks table other rows where
  sameTable := within.table.trans tracks.sameTable
  keyed := keyed
  sound := within.sound tracks.sound
  exact column value keys bucket := by
    rw [within.table]
    exact tracks.exact column value keys (within.hasBucket bucket)
  distinct := tracks.distinct

theorem sameButRows (tracks : Tracks table cache rows) (same : cache.SameButRows other)
    (keyed : other.RowsKeyed) : Tracks table other rows :=
  tracks.within (.of_same same.table same.indices) keyed

theorem count (tracks : Tracks table cache rows) (hits misses : Nat) :
    Tracks table (cache.count hits misses) rows :=
  tracks.sameButRows (cache.count_sameButRows hits misses) tracks.keyed

theorem storeRead (tracks : Tracks table cache rows) (generation : Nat) (loaded : List Row) :
    Tracks table (cache.storeRead generation loaded).2 rows :=
  tracks.sameButRows (cache.storeRead_sameButRows generation loaded)
    (tracks.keyed.storeRead generation loaded)

/-- The index cache of a column stores the keys of a value. -/
private theorem stores (tracks : Tracks table cache rows) {column : Nat} {value : Value}
    {keys : List Keys} (change : IndexCache → IndexCache) (notNull : value ≠ .null)
    (exact : keys.Perm (table.keysWith rows column value))
    (stores : ∀ index, cache.index? column = some index →
      (change index).Stores value keys index) :
    Tracks table (cache.modifyIndex column change) rows where
  sameTable := tracks.sameTable
  keyed := tracks.keyed
  sound := modifyIndex_sound tracks.sound notNull stores
  exact := tracks.exact.modifyIndex (tracks.sameTable ▸ exact) stores
  distinct := tracks.distinct

theorem replaceKeys (tracks : Tracks table cache rows) (generation : Nat) {column : Nat}
    {value : Value} {keys : List Keys} (notNull : value ≠ .null)
    (exact : keys.Perm (table.keysWith rows column value)) :
    Tracks table (cache.replaceKeys generation column value keys) rows := by
  unfold TableCache.replaceKeys
  split
  · have stored := tracks.stores _ notNull exact fun index _ =>
      index.replace_stores cache.clock value keys
    exact stored.within (.of_same rfl rfl) stored.keyed
  · exact tracks

theorem storeReadKeys (tracks : Tracks table cache rows) (generation : Nat) {column : Nat}
    {value : Value} {keys : List Keys} (notNull : value ≠ .null)
    (exact : keys.Perm (table.keysWith rows column value)) :
    Tracks table (cache.storeReadKeys generation column value keys).2 rows := by
  unfold TableCache.storeReadKeys
  split
  · exact tracks
  · next index found =>
    split
    · have stored := tracks.stores (fun _ => (index.insert cache.clock value keys).2)
        notNull exact fun same isSame => by
          rw [found] at isSame
          cases isSame
          exact index.insert_stores cache.clock value keys
      exact stored.within (.of_same rfl rfl) stored.keyed
    · exact tracks

end Tracks

section

variable {World : Type} {table : Table} {source : RowSource World}
  {rows : World → List (List Value)}

/-- What is stored on a read is stored for values whose rows it names. -/
private theorem tracks_upheld (table : Table) (stored : List (List Value)) :
    Upheld (fun cache => Tracks table cache stored) (fun _ => True)
      (fun column value keys => keys.Perm (table.keysWith stored column value)) where
  count _ hits misses tracks := tracks.count hits misses
  storeRead _ generation loaded tracks _ := tracks.storeRead generation loaded
  storeReadKeys _ generation _ _ _ tracks notNull named :=
    tracks.storeReadKeys generation notNull named
  replaceKeys _ generation _ _ _ tracks notNull named := tracks.replaceKeys generation notNull named
  returned _ generation _ _ loaded tracks named := by
    rw [tracks.keyed.storeRead_keys generation loaded]
    exact named

private theorem supplies_of_honest (honest : source.Honest table rows) (stored : List (List Value)) :
    source.Supplies (rows · = stored) (fun _ => True)
      (fun column value keys => keys.Perm (table.keysWith stored column value)) (fun _ => Never) where
  rowsByKeys condition keys :=
    (honest.rowsByKeys_leads (fun cache content => condition cache ∧ content = stored) keys).weaken
      (fun _ => id) (fun _ _ holds => ⟨holds.1, fun _ _ => trivial⟩) fun _ => id
  keysByValue condition column value _ :=
    (honest.keysByValue_leads (fun cache content => condition cache ∧ content = stored) column
      value).weaken (fun _ => id) (fun _ _ holds => ⟨holds.1, holds.1.2 ▸ holds.2⟩) fun _ => id
  rowsByValue condition column value _ :=
    (honest.rowsByValue_leads (fun cache content => condition cache ∧ content = stored) column
      value).weaken (fun _ => id)
      (fun _ _ holds => ⟨holds.1, fun _ _ => trivial, holds.1.2 ▸ holds.2.keys⟩) fun _ => id

/-- Reads do not fail, and keep the buckets exact. -/
theorem tracks_kept (honest : source.Honest table rows) {α : Type} {read : Loading World α}
    (upholds : source.Upholds read) :
    Keeps (fun state => Tracks table state.1 (rows state.2)) read := by
  intro state tracks
  have kept := upholds (tracks_upheld table (rows state.2)) (supplies_of_honest honest (rows state.2))
  refine kept.weaken (fun _ => id) (fun _ last holding => ?_) (fun _ => id) state ⟨tracks, rfl⟩
  exact holding.2.symm ▸ holding.1

end

/-- A change of one row strands a bucket: the row gets other keys, and the bucket has
it by a value that it keeps. -/
def Strands (cache : TableCache) (before after : Option Row) : Prop :=
  ∃ old new, before = some old ∧ after = some new ∧ old.keys ≠ new.keys ∧
    ∃ column value keys, cache.HasBucket column value keys ∧
      old.at? column = some value ∧ new.at? column = some value

/-- A value of a column is untouched by a change if the column has the value neither
before nor after, or no other value after than before. -/
theorem not_mem_touched {table : Table} {before after : Option Row} {column : Nat} {value : Value}
    (lookup : column ∈ table.lookupColumns) (notNull : value ≠ .null) :
    (column, value) ∉ touched table before after ↔
      before.bind (·.at? column) = after.bind (·.at? column) ∨
        before.bind (·.at? column) ≠ some value ∧ after.bind (·.at? column) ≠ some value := by
  have mem : (column, value) ∈ touched table before after ↔
      value ∈ touchedValues before after column := by
    simp [touched, lookup]
  rw [mem, touchedValues]
  split
  · next same => simp [same]
  · next differ =>
    have notNull' : value.isNull = false := by
      rw [Bool.eq_false_iff, ne_eq, Value.isNull_iff]
      exact notNull
    simp [notNull', differ]

section

variable {table : Table} {cache : TableCache} {rows : List (List Value)} {before after : Option Row}

private theorem toList_perm_iff {first second : Option Keys} :
    first.toList.Perm second.toList ↔ first = second := by
  cases first <;> cases second <;> simp

/-- A bucket is exact after a change if and only if the images that have its value
have the same keys. -/
private theorem bucket_exact_iff (tracks : Tracks table cache rows)
    (images : table.TrueImages rows before after) {column : Nat} {value : Value}
    {keys : List Keys} (notNull : value ≠ .null) (bucket : cache.HasBucket column value keys) :
    keys.Perm (table.keysWith (table.exchange before after rows) column value) ↔
      (if before.bind (·.at? column) = some value then before.map Row.keys else none) =
        if after.bind (·.at? column) = some value then after.map Row.keys else none := by
  have wasExact : keys.Perm (table.keysWith rows column value) :=
    tracks.sameTable ▸ tracks.exact column value keys bucket
  have split : (table.keysWith rows column value).Perm _ :=
    Table.keysWith_perm (images.perm tracks.distinct) column value
  rw [Table.keysWith_append,
    Table.keysWith_image (fun old isOld => (images.stored old isOld).1) column notNull] at split
  rw [Table.exchange, Table.keysWith_append,
    Table.keysWith_image (fun new isNew => (images.unused new isNew).1) column notNull]
  refine Iff.trans ?_ toList_perm_iff
  refine Iff.trans ?_ (List.perm_append_left_iff (table.keysWith (table.untouched before rows) column value))
  exact ⟨fun exact => (wasExact.trans split).symm.trans exact, (wasExact.trans split).trans⟩

/-- A change keeps all buckets exact if and only if it strands none. -/
theorem exact_applyChange_iff (tracks : Tracks table cache rows)
    (images : table.TrueImages rows before after) :
    (cache.applyChange before after).2.BucketsExact (table.exchange before after rows) ↔
      ¬ cache.Strands before after := by
  have usable : ∀ column value keys, cache.HasBucket column value keys →
      column ∈ cache.table.lookupColumns ∧ value ≠ .null := by
    rintro column value keys ⟨index, membership, rfl, present⟩
    refine ⟨tracks.sound.lookup index membership, fun isNull => ?_⟩
    rw [isNull, tracks.sound.noNull index membership] at present
    cases present
  constructor
  · rintro exact ⟨old, new, rfl, rfl, differ, column, value, keys, bucket, oldValue, newValue⟩
    obtain ⟨lookup, notNull⟩ := usable column value keys bucket
    have kept : (column, value) ∉ touched cache.table (some old) (some new) :=
      (not_mem_touched lookup notNull).mpr (.inl (oldValue.trans newValue.symm))
    have stillExact := exact column value keys
      ((hasBucket_applyChange tracks.sound _ _).mpr ⟨bucket, kept⟩)
    rw [applyChange_table, tracks.sameTable, bucket_exact_iff tracks images notNull bucket] at stillExact
    simp only [Option.bind_some, oldValue, newValue] at stillExact
    exact differ (Option.some.inj stillExact)
  · intro strandsNone column value keys left
    obtain ⟨bucket, untouched⟩ := (hasBucket_applyChange tracks.sound _ _).mp left
    obtain ⟨lookup, notNull⟩ := usable column value keys bucket
    rw [applyChange_table, tracks.sameTable, bucket_exact_iff tracks images notNull bucket]
    rcases (not_mem_touched lookup notNull).mp untouched with alike | ⟨notBefore, notAfter⟩
    · rw [← alike]
      split
      · next hasValue =>
        obtain ⟨old, isOld, oldValue⟩ := Option.bind_eq_some_iff.mp hasValue
        obtain ⟨new, isNew, newValue⟩ := Option.bind_eq_some_iff.mp (alike ▸ hasValue)
        rw [isOld, isNew]
        by_contra differ
        exact strandsNone ⟨old, new, isOld, isNew, fun same => differ (congrArg some same),
          column, value, keys, bucket, oldValue, newValue⟩
      · rfl
    · rw [if_neg notBefore, if_neg notAfter]

end

end TableCache

end RelationalAccess
