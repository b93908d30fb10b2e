import RelationalAccess.Proofs.Cache.Growth
import RelationalAccess.Proofs.Cache.IndexCoherence

/-!
When a cache agrees with the rows of its table: what it has cached is what the table has,
and its buckets have just the keys of the rows they stand for. Reads of current rows keep
the agreement, and so does a committed change, as far as the rows are concerned.
-/

namespace RelationalAccess

namespace TableCache

/-- Only rows that the table has are cached, each under its own keys, and none by a cache
that is not enabled. -/
structure RowsCurrent (table : Table) (cache : TableCache) (rows : List (List Value)) : Prop where
  sameTable : cache.table = table
  idle : cache.enabled = false → ∀ keys, cache.peek? keys = none
  keyed : cache.RowsKeyed
  current : ∀ keys row, cache.peek? keys = some row → table.Has rows row

/-- The cached rows and the buckets agree with the rows of the table. -/
structure Mirrors (table : Table) (cache : TableCache) (rows : List (List Value)) : Prop
    extends RowsCurrent table cache rows where
  exact : cache.BucketsExact rows

namespace RowsCurrent

variable {table : Table} {cache other : TableCache} {rows : List (List Value)}

theorem sameRows (current : RowsCurrent table cache rows) (sameTable : other.table = cache.table)
    (enabled : other.enabled = cache.enabled) (same : other.rows = cache.rows) :
    RowsCurrent table other rows := by
  have looked (keys : Keys) : other.peek? keys = cache.peek? keys := by rw [peek?, same, peek?]
  refine ⟨sameTable.trans current.sameTable, ?_, ?_, ?_⟩
  · intro off keys
    rw [looked]
    exact current.idle (enabled.symm.trans off) keys
  · intro keys row found
    exact current.keyed keys row ((looked keys).symm.trans found)
  · intro keys row found
    exact current.current keys row ((looked keys).symm.trans found)

theorem count (current : RowsCurrent table cache rows) (hits misses : Nat) :
    RowsCurrent table (cache.count hits misses) rows :=
  current.sameRows rfl rfl rfl

/-- Rows that were read are stored only in the generation from before the read, and then
the table has to have them. -/
theorem storeRead (current : RowsCurrent table cache rows) {generation : Nat} {loaded : List Row}
    (has : cache.generation = generation → ∀ row ∈ loaded, table.Has rows row) :
    RowsCurrent table (cache.storeRead generation loaded).2 rows := by
  by_cases same : cache.generation = generation
  · have grown := (Extends.refl (table.Has rows) cache).storeRead generation (has same)
    have sameButRows := cache.storeRead_sameButRows generation loaded
    refine ⟨grown.table.trans current.sameTable, ?_, current.keyed.storeRead generation loaded, ?_⟩
    · intro off keys
      refine Option.eq_none_iff_forall_ne_some.mpr fun row found => ?_
      have wasOff : cache.enabled = false := sameButRows.enabled.symm.trans off
      rcases grown.added keys row found with before | ⟨_, isOn, _⟩
      · rw [current.idle wasOff keys] at before
        cases before
      · rw [off] at isOn
        cases isOn
    · intro keys row found
      rcases grown.added keys row found with before | ⟨_, _, _, isThere⟩
      · exact current.current keys row before
      · exact isThere
  · rw [TableCache.storeRead, if_neg same]
    exact current

theorem applyChange (current : RowsCurrent table cache rows) {before after : Option Row}
    (images : table.TrueImages rows before after) :
    RowsCurrent table (cache.applyChange before after).2 (table.exchange before after rows) := by
  refine ⟨(applyChange_table cache before after).trans current.sameTable, ?_,
    current.keyed.applyChange before after, ?_⟩
  · intro off keys
    have wasOff : cache.enabled = false := (applyChange_enabled cache before after).symm.trans off
    exact peek?_applyChange_of_disabled wasOff (current.idle wasOff) before after keys
  · intro keys row found
    cases enabled : cache.enabled with
    | false =>
      rw [peek?_applyChange_of_disabled enabled (current.idle enabled)] at found
      cases found
    | true =>
      rw [peek?_applyChange enabled] at found
      split at found
      · refine ⟨(images.unused row found).1, List.mem_append_right _ ?_⟩
        simp [found]
      · split at found
        · cases found
        · next notBefore =>
          have has := current.current keys row found
          refine ⟨has.sameTable, Table.mem_exchange has.stored fun same => notBefore ?_⟩
          rw [← same, ← has.keys, current.keyed keys row found]

end RowsCurrent

private theorem insertRow_cases (cache : TableCache) (row : Row) :
    (cache.insertRow row).1 = row ∨ cache.peek? row.keys = some (cache.insertRow row).1 := by
  unfold insertRow
  split
  · split
    · next found => exact .inr found
    · exact .inl rfl
  · exact .inl rfl

private theorem peek?_of_insertRow {cache : TableCache} {inserted row : Row} {keys : Keys}
    (found : (cache.insertRow inserted).2.peek? keys = some row) :
    cache.peek? keys = some row ∨ row = inserted := by
  cases enabled : cache.enabled with
  | false =>
    rw [insertRow, enabled] at found
    exact .inl found
  | true =>
    rw [peek?_insertRow enabled, Option.or_eq_some_iff] at found
    rcases found with before | ⟨_, now⟩
    · exact .inl before
    · split at now
      · exact .inr (Option.some.inj now).symm
      · cases now

private theorem mem_insertRows {cache : TableCache} {rows : List Row} {row : Row}
    (returned : row ∈ (cache.insertRows rows).1) :
    row ∈ rows ∨ ∃ other ∈ rows, cache.peek? other.keys = some row := by
  induction rows generalizing cache with
  | nil => cases returned
  | cons first others inductionHypothesis =>
    rcases List.mem_cons.mp returned with now | later
    · rcases cache.insertRow_cases first with same | found
      · exact .inl (List.mem_cons.mpr (.inl (now.trans same)))
      · exact .inr ⟨first, List.mem_cons_self, found.trans (congrArg some now.symm)⟩
    · rcases inductionHypothesis later with isRead | ⟨other, membership, found⟩
      · exact .inl (List.mem_cons_of_mem _ isRead)
      · rcases peek?_of_insertRow found with before | same
        · exact .inr ⟨other, List.mem_cons_of_mem _ membership, before⟩
        · exact .inl (List.mem_cons.mpr (.inl same))

/-- What is returned for the rows that were read: these, or the rows cached under their keys. -/
theorem mem_storeRead {cache : TableCache} {generation : Nat} {loaded : List Row} {row : Row}
    (returned : row ∈ (cache.storeRead generation loaded).1) :
    row ∈ loaded ∨ ∃ other ∈ loaded, cache.peek? other.keys = some row := by
  unfold storeRead at returned
  split at returned
  · exact mem_insertRows returned
  · obtain ⟨other, membership, rfl⟩ := List.mem_map.mp returned
    cases found : cache.peek? other.keys with
    | none => exact .inl membership
    | some present => exact .inr ⟨other, membership, found⟩

/-- The keys that stand for those that were read: these, or a bucket of the cache, which has
seen no change then. -/
theorem storeReadKeys_cases (cache : TableCache) (generation column : Nat) (value : Value)
    (keys : List Keys) :
    (cache.storeReadKeys generation column value keys).1 = keys ∨
      cache.generation = generation ∧
        cache.HasBucket column value (cache.storeReadKeys generation column value keys).1 := by
  unfold storeReadKeys
  split
  · exact .inl rfl
  · next index found =>
    obtain ⟨before, after, split, here, _⟩ := index?_split found
    have isThere : index ∈ cache.indices := by simp [split]
    split
    · next same =>
      cases bucket : index.get? value with
      | none => simp [IndexCache.insert, bucket]
      | some present =>
        right
        refine ⟨same, index, isThere, here, ?_⟩
        simp [IndexCache.insert, bucket]
    · exact .inl rfl

namespace Mirrors

variable {table : Table} {cache : TableCache} {rows : List (List Value)}

/-- A cache without rows and buckets agrees with any rows. -/
theorem ofNothing (sameTable : cache.table = table) (noRows : ∀ keys, cache.peek? keys = none)
    (noBuckets : ∀ column value keys, ¬ cache.HasBucket column value keys)
    (rows : List (List Value)) : Mirrors table cache rows := by
  refine ⟨⟨sameTable, fun _ => noRows, ?_, ?_⟩, ?_⟩
  · intro keys row found
    rw [noRows] at found
    cases found
  · intro keys row found
    rw [noRows] at found
    cases found
  · intro column value keys bucket
    exact absurd bucket (noBuckets column value keys)

theorem new (table : Table) (settings : CacheSettings) (rows : List (List Value)) :
    Mirrors table (TableCache.new table settings) rows := by
  have noRows (keys : Keys) : (TableCache.new table settings).peek? keys = none := rfl
  exact .ofNothing rfl noRows (not_hasBucket_new table settings) rows

theorem count (mirrors : Mirrors table cache rows) (hits misses : Nat) :
    Mirrors table (cache.count hits misses) rows :=
  ⟨mirrors.toRowsCurrent.count hits misses, mirrors.exact⟩

theorem storeRead (mirrors : Mirrors table cache rows) {generation : Nat} {loaded : List Row}
    (has : ∀ row ∈ loaded, table.Has rows row) :
    Mirrors table (cache.storeRead generation loaded).2 rows := by
  refine ⟨mirrors.toRowsCurrent.storeRead fun _ => has, ?_⟩
  have same := cache.storeRead_sameButRows generation loaded
  intro column value keys bucket
  rw [same.table]
  exact mirrors.exact column value keys ((hasBucket_congr same.indices).mp bucket)

theorem storeReadKeys (mirrors : Mirrors table cache rows) (generation : Nat) {column : Nat}
    {value : Value} {keys : List Keys} (named : keys.Perm (table.keysWith rows column value)) :
    Mirrors table (cache.storeReadKeys generation column value keys).2 rows := by
  refine ⟨?_, mirrors.exact.storeReadKeys generation (mirrors.sameTable ▸ named)⟩
  unfold TableCache.storeReadKeys
  split
  · exact mirrors.toRowsCurrent
  · split
    · exact mirrors.toRowsCurrent.sameRows rfl rfl rfl
    · exact mirrors.toRowsCurrent

theorem replaceKeys (mirrors : Mirrors table cache rows) (generation : Nat) {column : Nat}
    {value : Value} {keys : List Keys} (named : keys.Perm (table.keysWith rows column value)) :
    Mirrors table (cache.replaceKeys generation column value keys) rows := by
  refine ⟨?_, mirrors.exact.replaceKeys generation (mirrors.sameTable ▸ named)⟩
  unfold TableCache.replaceKeys
  split
  · exact mirrors.toRowsCurrent.sameRows rfl rfl rfl
  · exact mirrors.toRowsCurrent

/-- What is returned for current rows that were read are current rows. -/
theorem has_storeRead (mirrors : Mirrors table cache rows) {generation : Nat} {loaded : List Row}
    (has : ∀ row ∈ loaded, table.Has rows row) :
    ∀ row ∈ (cache.storeRead generation loaded).1, table.Has rows row := by
  intro row returned
  rcases mem_storeRead returned with isLoaded | ⟨other, _, cached⟩
  · exact has row isLoaded
  · exact mirrors.current other.keys row cached

end Mirrors

end TableCache

end RelationalAccess
