import RelationalAccess.Proofs.Cache.Acts
import RelationalAccess.Proofs.Cache.Adjustments
import RelationalAccess.Proofs.Cache.Source

/-!
The accounts of a cache. Everything that is done to a cache consists of single changes
that count off only what was counted, also where the source of a read fails halfway. So
the counters always give the size of what is there.
-/

namespace RelationalAccess

namespace TableCache

theorem Adjusted.enabled {origin cache : TableCache} (adjusted : origin.Adjusted cache) :
    cache.enabled = origin.enabled := by
  induction adjusted with
  | refl => rfl
  | tail _ adjusts inductionHypothesis =>
    rw [← inductionHypothesis]
    cases adjusts with
    | aside enabled => exact enabled
    | storeRow row => exact (replaceRow_sameButRows _ row).enabled
    | takeRow => exact (removeRow_sameButRows _ _).enabled
    | index => rfl
    | clear => rfl

/-- The changes of one index cache are changes of the cache. -/
theorem Adjusted.index {cache : TableCache} {before after : List IndexCache}
    {index other : IndexCache} (split : cache.indices = before ++ index :: after)
    (adjusted : index.Adjusted other) :
    cache.Adjusted { cache with indices := before ++ other :: after } := by
  induction adjusted with
  | refl =>
    rw [← split]
  | tail _ adjusts inductionHypothesis =>
    exact inductionHypothesis.tail (.index rfl adjusts)

/-- Index caches can be changed one after another. -/
theorem Adjusted.indices {cache : TableCache} {before left right : List IndexCache}
    (split : cache.indices = before ++ left) (each : left.Forall₂ IndexCache.Adjusted right) :
    cache.Adjusted { cache with indices := before ++ right } := by
  induction each generalizing cache before with
  | nil =>
    rw [← split]
  | @cons index other left right adjusted _ inductionHypothesis =>
    have first := Adjusted.index split adjusted
    have rest := @inductionHypothesis { cache with indices := before ++ other :: left }
      (before ++ [other]) (by simp)
    simpa using first.trans rest

theorem Adjusted.aside {cache other : TableCache} (enabled : other.enabled = cache.enabled)
    (rows : other.rows = cache.rows) (bytes : other.bytes = cache.bytes)
    (indices : other.indices = cache.indices) (clock : cache.clock ≤ other.clock) :
    cache.Adjusted other :=
  .single (.aside enabled rows bytes indices clock)

theorem Adjusted.modifyIndex {cache : TableCache} {column : Nat} {change : IndexCache → IndexCache}
    (adjusts : ∀ index, cache.index? column = some index → index.Adjusted (change index)) :
    cache.Adjusted (cache.modifyIndex column change) := by
  cases found : cache.index? column with
  | none =>
    exact .aside rfl rfl rfl (modifyIndex_of_none found change) (Nat.le_refl _)
  | some index =>
    obtain ⟨before, after, split, _, _, changed⟩ := index?_split found
    have exchanged : cache.modifyIndex column change =
        { cache with indices := before ++ change index :: after } := by
      rw [← changed change]
      rfl
    rw [exchanged]
    exact Adjusted.index split (adjusts index found)

theorem Adjusted.raised (cache : TableCache) :
    cache.Adjusted { cache with generation := cache.generation + 1 } :=
  .aside rfl rfl rfl rfl (Nat.le_refl _)

namespace Counted

variable {cache : TableCache} (counted : cache.Counted)

include counted

theorem replaceRow (row : Row) : cache.Adjusted (cache.replaceRow row) := by
  cases enabled : cache.enabled with
  | false =>
    rw [replaceRow_of_disabled enabled]
  | true =>
    apply Relation.ReflTransGen.single
    apply Adjusts.storeRow row enabled
    rw [counted.bytes]
    exact cache.rows.weightAt_le_total _ row.keys

theorem removeRow (keys : Keys) : cache.Adjusted (cache.removeRow keys) := by
  cases found : cache.peek? keys with
  | none =>
    rw [removeRow_of_absent found]
  | some row =>
    apply Relation.ReflTransGen.single
    apply Adjusts.takeRow found
    rw [← bytesAt_eq found, counted.bytes]
    exact cache.rows.weightAt_le_total _ keys

theorem insertRow (row : Row) : cache.Adjusted (cache.insertRow row).2 := by
  unfold TableCache.insertRow
  split
  · split
    · exact .refl
    · exact counted.replaceRow row
  · exact .refl

theorem forgetKeys (column : Nat) (value : Value) :
    cache.Adjusted (cache.forgetKeys column value) := by
  apply Adjusted.modifyIndex
  intro index found
  exact IndexCache.Counted.remove (counted.of_index? found) value

theorem mapIndices (change : IndexCache → IndexCache)
    (adjusts : ∀ index : IndexCache, index.Counted → index.Adjusted (change index)) :
    cache.Adjusted { cache with indices := cache.indices.map change } := by
  apply Adjusted.indices (List.nil_append _).symm
  apply List.forall₂_map_right_iff.mpr
  exact List.forall₂_same.mpr fun index membership => adjusts index (counted.keys index membership)

theorem trim : cache.Adjusted cache.trim :=
  counted.mapIndices IndexCache.trim fun _ indexCounted => indexCounted.trim

theorem storeReadKeys (generation column : Nat) (value : Value) (keys : List Keys) :
    cache.Adjusted (cache.storeReadKeys generation column value keys).2 := by
  unfold TableCache.storeReadKeys
  split
  · exact .refl
  · next index found =>
    split
    · have isCounted := counted.of_index? found
      have stored : cache.Adjusted (cache.modifyIndex column fun _ =>
          (index.insert cache.clock value keys).2) := by
        apply Adjusted.modifyIndex
        intro same isSame
        cases found.symm.trans isSame
        exact isCounted.insert cache.clock value keys
      exact stored.trans (Adjusted.aside rfl rfl rfl rfl (Nat.le_succ _))
    · exact .refl

theorem replaceKeys (generation column : Nat) (value : Value) (keys : List Keys) :
    cache.Adjusted (cache.replaceKeys generation column value keys) := by
  unfold TableCache.replaceKeys
  split
  · have stored : cache.Adjusted (cache.modifyIndex column fun index =>
        index.replace cache.clock value keys) := by
      apply Adjusted.modifyIndex
      intro index found
      have isCounted := counted.of_index? found
      exact isCounted.replace cache.clock value keys
    exact stored.trans (Adjusted.aside rfl rfl rfl rfl (Nat.le_succ _))
  · exact .refl

omit counted

theorem insertRows {cache : TableCache} (counted : cache.Counted) (rows : List Row) :
    cache.Adjusted (cache.insertRows rows).2 := by
  induction rows generalizing cache with
  | nil => exact .refl
  | cons row rows inductionHypothesis =>
    have first := counted.insertRow row
    exact first.trans (inductionHypothesis (first.counted counted))

theorem storeRead {cache : TableCache} (counted : cache.Counted) (generation : Nat)
    (rows : List Row) : cache.Adjusted (cache.storeRead generation rows).2 := by
  unfold TableCache.storeRead
  split
  · exact counted.insertRows rows
  · exact .refl

/-- What is done item by item consists of what is done for each. -/
private theorem foldl {α : Type} {step : TableCache → α → TableCache}
    (each : ∀ {cache : TableCache}, cache.Counted → ∀ item, cache.Adjusted (step cache item))
    {cache : TableCache} (counted : cache.Counted) (items : List α) :
    cache.Adjusted (items.foldl step cache) := by
  induction items generalizing cache with
  | nil => exact .refl
  | cons item items inductionHypothesis =>
    have first := each counted item
    exact first.trans (inductionHypothesis (first.counted counted))

theorem removeRows {cache : TableCache} (counted : cache.Counted) (removed : List Keys) :
    cache.Adjusted (removed.foldl TableCache.removeRow cache) :=
  foldl removeRow counted removed

theorem forgetAll {cache : TableCache} (counted : cache.Counted) (touched : List (Nat × Value)) :
    cache.Adjusted (cache.forgetAll touched) :=
  foldl (fun counted pair => counted.forgetKeys pair.1 pair.2) counted touched

theorem forget {cache : TableCache} (counted : cache.Counted) (before after : Option Row) :
    cache.Adjusted (cache.forget before after) := by
  unfold TableCache.forget
  split
  · exact .refl
  · split
    · exact .refl
    · exact counted.removeRow _

theorem applyChange {cache : TableCache} (counted : cache.Counted) (before after : Option Row) :
    cache.Adjusted (cache.applyChange before after).2 := by
  have raised := Adjusted.raised cache
  have forgotten := raised.trans ((raised.counted counted).forget before after)
  have stale : cache.Adjusted (cache.withoutStale before after) :=
    forgotten.trans ((Adjusted.counted forgotten counted).forgetAll _)
  rw [applyChange_eq]
  cases after with
  | none => exact stale
  | some new => exact stale.trans ((stale.counted counted).replaceRow new)

theorem invalidate {cache : TableCache} (counted : cache.Counted) (column : Nat) (value : Value) :
    cache.Adjusted (cache.invalidate column value).2 := by
  unfold TableCache.invalidate
  split
  · exact .refl
  · have raised := Adjusted.raised cache
    exact raised.trans ((raised.counted counted).forgetKeys column value)

theorem evictBefore {cache : TableCache} (counted : cache.Counted) (cutoff : Nat) :
    cache.Adjusted (cache.evictBefore cutoff).2 := by
  have removed := counted.removeRows (cache.staleKeys cutoff)
  have evicted := (removed.counted counted).mapIndices (fun index => (index.evictBefore cutoff).2)
    fun _ indexCounted => indexCounted.evictBefore cutoff
  rw [← evictBuckets_eq] at evicted
  exact removed.trans evicted

/-- Every act consists of single changes that keep the counters true. -/
theorem perform {cache : TableCache} (counted : cache.Counted) (act : CacheAct) :
    cache.Adjusted (cache.perform act) := by
  cases act with
  | insertRow row => exact counted.insertRow row
  | replaceRow row => exact counted.replaceRow row
  | removeRow keys => exact counted.removeRow keys
  | count hits misses => exact .aside rfl rfl rfl rfl (Nat.le_refl _)
  | storeRead generation rows => exact counted.storeRead generation rows
  | storeReadKeys generation column value keys =>
    exact counted.storeReadKeys generation column value keys
  | replaceKeys generation column value keys =>
    exact counted.replaceKeys generation column value keys
  | applyChange before after => exact counted.applyChange before after
  | invalidate column value => exact counted.invalidate column value
  | evictBefore cutoff => exact counted.evictBefore cutoff
  | trim => exact counted.trim
  | clear => exact .single (.clear cache)

end Counted

/-- A new cache has nothing, and counts nothing. -/
theorem counted_new (table : Table) (settings : CacheSettings) :
    (TableCache.new table settings).Counted where
  bytes := rfl
  keyed keys row found := by cases found
  keys index membership := by
    have isFresh : index.keyCount = 0 ∧ index.buckets = {} := by
      unfold TableCache.new TableCache.indicesFor at membership
      dsimp only at membership
      split at membership
      · split at membership
        · cases membership
        · obtain ⟨_, _, rfl⟩ := List.mem_map.mp membership
          exact ⟨rfl, rfl⟩
        · obtain ⟨_, _, rfl⟩ := List.mem_map.mp membership
          exact ⟨rfl, rfl⟩
      · cases membership
    rw [IndexCache.Counted, IndexCache.heldKeys, isFresh.1, isFresh.2]
    rfl
  idle disabled := by
    have isDisabled : (settings.useCache && table.useCache && table.hasPrimaryKey) = false := disabled
    refine ⟨rfl, ?_⟩
    show (if (settings.useCache && table.useCache && table.hasPrimaryKey) = true then
      indicesFor table settings.indexStrategy else []) = []
    rw [isDisabled]
    rfl

/-- What a cache counts is what it has. Every row is under its own keys, and a cache that is
not enabled has neither rows nor index caches and counts nothing. -/
structure Accounts (cache : TableCache) : Prop where
  bytes : cache.bytes = (cache.rows.list.map fun entry => entry.2.row.size).sum
  keyed : ∀ entry ∈ cache.rows.list, entry.2.row.keys = entry.1
  keyCounts : ∀ index ∈ cache.indices,
    index.keyCount = (index.buckets.list.map fun bucket => bucket.2.keys.length).sum
  idle : cache.enabled = false → cache.rows.list = [] ∧ cache.bytes = 0 ∧ cache.indices = []

theorem Counted.accounts {cache : TableCache} (counted : cache.Counted) : cache.Accounts where
  bytes := counted.bytes
  keyed entry membership := by
    have found := cache.rows.get?_eq_some_iff.mpr membership
    apply counted.keyed
    rw [peek?, found]
    rfl
  keyCounts := counted.keys
  idle disabled := by
    obtain ⟨noRows, noIndices⟩ := counted.idle disabled
    refine ⟨noRows, ?_, noIndices⟩
    rw [counted.bytes, heldBytes, Entries.total, noRows]
    rfl

end TableCache

namespace RowSource

variable {World : Type} {source : RowSource World}

private theorem keep_adjusted {origin : TableCache} (counted : origin.Counted) :
    CacheAct.Keep origin.Adjusted := by
  intro cache act adjusted
  exact adjusted.trans ((TableCache.Adjusted.counted adjusted counted).perform act)

/-- Every operation consists of single changes that keep the counters true. -/
theorem Detached.adjusted (detached : source.Detached) {state : TableCache × World}
    (counted : state.1.Counted) (operation : CacheOperation) :
    state.1.Adjusted (source.operate state operation).1 :=
  detached.operate_keeps (keep_adjusted counted) .refl operation

/-- After any operations, of which any may have failed halfway, the accounts of a cache are
true, and whatever is done next consists of changes that take off a counter no more than it
has. -/
theorem Detached.accounts_throughout (detached : source.Detached) (table : Table)
    (settings : CacheSettings) (threshold : Float) (world : World)
    (operations : List CacheOperation) :
    let origin := (TableCache.new table settings).withThreshold threshold
    let state := source.operateAll (origin, world) operations
    state.1.Accounts ∧ state.1.enabled = origin.enabled ∧
      ∀ operation, state.1.Adjusted (source.operate state operation).1 := by
  intro origin state
  have counted : origin.Counted :=
    (TableCache.counted_new table settings).of_same rfl rfl rfl rfl
  have adjusted : origin.Adjusted state.1 :=
    detached.operateAll_keeps (keep_adjusted counted) .refl operations
  have isCounted := TableCache.Adjusted.counted adjusted counted
  exact ⟨isCounted.accounts, adjusted.enabled, detached.adjusted isCounted⟩

end RowSource

/-- Rows in memory that are sometimes out of reach. The world says so for each call to come. -/
def unreliableRows (rows : List Row) : RowSource (List Bool) where
  rowsByKeys keys := attempt (rows.filter fun row => keys.contains row.keys)
  keysByValue column value :=
    attempt ((rows.filter fun row => row.at? column = some value).map Row.keys)
  rowsByValue column value := attempt (rows.filter fun row => row.at? column = some value)
where
  attempt {α : Type} (answer : α) : Loading (List Bool) α := fun (cache, failures) =>
    match failures with
    | true :: later => (.error (.reported .backend "out of reach"), cache, later)
    | _ => (.ok answer, cache, failures.tail)

theorem unreliableRows_detached (rows : List Row) : (unreliableRows rows).Detached := by
  have alone {α : Type} (answer : α) (cache : TableCache) (failures : List Bool) :
      (unreliableRows.attempt answer (cache, failures)).2.1 = cache := by
    unfold unreliableRows.attempt
    dsimp only
    split <;> rfl
  exact ⟨fun _ => alone _, fun _ _ => alone _, fun _ _ => alone _⟩

/-- Two items are looked up and then a third, which is out of reach at first. Then the third
gets another group. -/
def interruptedLookups : List CacheOperation :=
  [.getRowsByKeys [⟨[.int 1]⟩, ⟨[.int 2]⟩], .getRow ⟨[.int 3]⟩, .getRows 1 (.int 7),
    .getRow ⟨[.int 3]⟩, .act (.applyChange (groupedItem 3 8) (groupedItem 3 9))]

/-- The accounts at the interrupted look-ups: three items and the two keys of a group. -/
theorem accounts_throughout_interruptedLookups :
    let source := unreliableRows [groupedItem 1 7, groupedItem 2 7, groupedItem 3 8]
    let origin := (TableCache.new groupedItems {}).withThreshold 0.5
    let state := source.operateAll (origin, [false, true]) interruptedLookups
    source.Detached ∧ state.1.bytes = 336 ∧ state.1.indices.map IndexCache.keyCount = [2] ∧
      state.1.Accounts ∧ state.1.enabled = origin.enabled ∧
      ∀ operation, state.1.Adjusted (source.operate state operation).1 :=
  ⟨unreliableRows_detached _, by decide +kernel, by decide +kernel,
    (unreliableRows_detached _).accounts_throughout groupedItems {} 0.5 [false, true]
      interruptedLookups⟩

end RelationalAccess
