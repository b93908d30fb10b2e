import RelationalAccess.Proofs.Cache.History
import RelationalAccess.Proofs.Cache.Shown

/-!
What reads return through a cache that agrees with the rows of its table: just the rows
that were asked for, whether they are cached, loaded by their keys or loaded at once. Hits
and misses are counted as the cache stood before the read.
-/

namespace RelationalAccess

namespace TableCache

/-- The cache agrees with the rows that its table has had all along, and has counted so
many reads. -/
structure Answering (table : Table) (stored : List (List Value)) (hits misses : Nat)
    (cache : TableCache) (rows : List (List Value)) : Prop where
  mirrors : Mirrors table cache rows
  same : rows = stored
  hits : cache.hits = hits
  misses : cache.misses = misses

namespace Answering

variable {table : Table} {stored rows : List (List Value)} {hits misses : Nat} {cache : TableCache}

theorem recounted (answering : Answering table stored hits misses cache rows) {other : TableCache}
    (mirrors : Mirrors table other rows) (counts : cache.SameCounts other) :
    Answering table stored hits misses other rows :=
  ⟨mirrors, answering.same, counts.hits.trans answering.hits, counts.misses.trans answering.misses⟩

theorem count (answering : Answering table stored hits misses cache rows) (moreHits moreMisses : Nat) :
    Answering table stored (hits + moreHits) (misses + moreMisses)
      (cache.count moreHits moreMisses) rows where
  mirrors := answering.mirrors.count moreHits moreMisses
  same := answering.same
  hits := congrArg (· + moreHits) answering.hits
  misses := congrArg (· + moreMisses) answering.misses

theorem storeRead (answering : Answering table stored hits misses cache rows) (generation : Nat)
    {loaded : List Row} (has : ∀ row ∈ loaded, table.Has rows row) :
    Answering table stored hits misses (cache.storeRead generation loaded).2 rows :=
  answering.recounted (answering.mirrors.storeRead has) (cache.storeRead_sameCounts generation loaded)

end Answering

/-- The state in which a step of a read begins. -/
abbrev Standing {World : Type} (rows : World → List (List Value)) (cache : TableCache)
    (stored : List (List Value)) (state : TableCache × World) : Prop :=
  state.1 = cache ∧ rows state.2 = stored

private theorem standing_current {World : Type} {rows : World → List (List Value)}
    {cache : TableCache} {stored : List (List Value)} :
    Leads (Standing rows cache stored) (current : Loading World TableCache)
      (fun now state => Standing rows cache stored state ∧ now = cache) Never :=
  Leads.current fun _ holds => ⟨holds, holds.1⟩

section

variable {World : Type} {table : Table} {source : RowSource World}
  {rows : World → List (List Value)} {stored : List (List Value)} {hits misses : Nat}

/-- An honest source gives the rows that the table has under some keys. -/
private theorem gives_rowsByKeys (honest : source.Honest table rows) (chunk : List Keys) :
    RowSource.Gives (fun world => rows world = stored) (source.rowsByKeys chunk)
      (table.Covers stored chunk) := by
  intro condition
  refine (honest.rowsByKeys_leads (fun cache content => condition cache ∧ content = stored)
    chunk).weaken (fun _ => id) (fun loaded state holds => ⟨holds.1, ?_⟩) fun _ => id
  obtain ⟨⟨_, isStored⟩, isLoaded⟩ := holds
  rw [isStored] at isLoaded
  refine ⟨fun row => isLoaded.has, fun key inChunk isKey => ?_⟩
  obtain ⟨row, membership, rfl⟩ := List.mem_map.mp isKey
  refine isLoaded.keys.mem_iff.mpr (List.mem_map_of_mem (List.mem_filter.mpr ⟨membership, ?_⟩))
  simpa using inChunk

/-- A read by keys returns the rows of the table under the keys asked for, in their order. -/
theorem getRowsByKeys_answers (honest : source.Honest table rows) {cache : TableCache}
    (answering : Answering table stored hits misses cache stored)
    (identified : ∀ row ∈ stored, (table.keysOf row).hasNull = false) (keys : List Keys) :
    Leads (Standing rows cache stored) (getRowsByKeys source keys)
      (fun found state =>
        Answering table stored (hits + (askedKeys keys).countP cache.contains)
            (misses + (askedKeys keys).countP (!cache.contains ·)) state.1 (rows state.2) ∧
          found.map Row.keys =
            (askedKeys keys).filter (fun key => key ∈ stored.map table.keysOf) ∧
          ∀ row ∈ found, table.Has stored row)
      Never := by
  have current := answering.mirrors.toRowsCurrent
  refine (getRowsByKeys_shows current.kept identified keys
    fun chunk _ _ => gives_rowsByKeys honest chunk).weaken (fun _ => id) ?_ fun _ => id
  rintro found state ⟨⟨read, isStored⟩, named, shown⟩
  refine ⟨⟨?_, isStored, ?_, ?_⟩, ?_, fun row returned => current.has_of_shows (shown row returned)⟩
  · rw [isStored]
    exact answering.mirrors.of_extends read.extended read.indices
  · rw [read.hits, answering.hits]
  · rw [read.misses, answering.misses]
  · rw [named]
    exact List.filter_congr fun key _ => decide_eq_decide.mpr current.knows_iff

/-- A read has found the rows that have a value in a column, and is counted. -/
abbrev Answered (table : Table) (rows : World → List (List Value)) (stored : List (List Value))
    (column : Nat) (value : Value) (hits misses : Nat) (found : List Row)
    (state : TableCache × World) : Prop :=
  Answering table stored hits misses state.1 (rows state.2) ∧
    table.Loaded found (stored.filter fun row => row.getD column .null = value)

/-- What is returned for the rows that were read by a value are the rows that have it. -/
private theorem loaded_storeRead {cache : TableCache} (mirrors : Mirrors table cache stored)
    (distinct : table.DistinctKeys stored) {column : Nat} {value : Value} {loaded : List Row}
    (isLoaded : table.Loaded loaded (stored.filter fun row => row.getD column .null = value))
    (generation : Nat) :
    table.Loaded (cache.storeRead generation loaded).1
      (stored.filter fun row => row.getD column .null = value) := by
  refine distinct.loaded (mirrors.has_storeRead fun row => isLoaded.has) ?_
  rw [mirrors.keyed.storeRead_keys generation loaded]
  exact isLoaded.keys

/-- The rows that were read by a value are counted. -/
private theorem countReads_answers {cache : TableCache}
    (answering : Answering table stored hits misses cache stored) (moreHits moreMisses : Nat)
    {column : Nat} {value : Value} {loaded : List Row} :
    Leads
      (fun state => Standing rows cache stored state ∧
        table.Loaded loaded ((rows state.2).filter fun row => row.getD column .null = value))
      (countReads moreHits moreMisses : Loading World Unit)
      (fun _ =>
        Answered table rows stored column value (hits + moreHits) (misses + moreMisses) loaded)
      Never := by
  refine Leads.update _ fun state holds => ?_
  obtain ⟨⟨isCache, isStored⟩, isLoaded⟩ := holds
  refine ⟨?_, isStored ▸ isLoaded⟩
  rw [isCache, isStored]
  exact answering.count moreHits moreMisses

/-- The rows that were read by a value are stored, and as many are found. -/
private theorem storeRead_answers (distinct : table.DistinctKeys stored) (generation : Nat)
    {column : Nat} {value : Value} {loaded : List Row} :
    Leads (Answered table rows stored column value hits misses loaded)
      (update fun cache => cache.storeRead generation loaded : Loading World (List Row))
      (fun found state => Answered table rows stored column value hits misses found state ∧
        found.length = loaded.length)
      Never := by
  refine Leads.update _ fun state holds => ?_
  obtain ⟨counted, isLoaded⟩ := holds
  have mirrors : Mirrors table state.1 stored := counted.same ▸ counted.mirrors
  have named := mirrors.keyed.storeRead_keys generation loaded
  refine ⟨⟨?_, loaded_storeRead mirrors distinct isLoaded generation⟩, ?_⟩
  · exact counted.storeRead generation fun row membership => counted.same ▸ isLoaded.has membership
  · simpa using congrArg List.length named

private theorem getRowsDirectly_answers (honest : source.Honest table rows) {cache : TableCache}
    (answering : Answering table stored hits misses cache stored)
    (distinct : table.DistinctKeys stored) (column : Nat) (value : Value) :
    Leads (Standing rows cache stored) (getRowsDirectly source column value)
      (fun found => Answered table rows stored column value hits (misses + found.length) found)
      Never := by
  refine standing_current.bind fun now => Leads.given fun isNow => ?_
  subst isNow
  refine (honest.rowsByValue_leads (fun cache content => cache = now ∧ content = stored) column
    value).bind fun loaded => ?_
  refine (countReads_answers answering 0 loaded.length).bind fun _ => ?_
  refine (storeRead_answers distinct now.generation).weaken (fun _ => id) ?_ fun _ => id
  rintro found state ⟨answered, sameLength⟩
  rw [sameLength]
  exact answered

private theorem storeReadKeys_rows (cache : TableCache) (generation column : Nat) (value : Value)
    (keys : List Keys) : (cache.storeReadKeys generation column value keys).2.rows = cache.rows := by
  unfold storeReadKeys
  split
  · rfl
  · split
    · rfl
    · rfl

/-- The keys of a value are those of the rows that have it, and no row is cached to find them. -/
private theorem getKeys_answers (honest : source.Honest table rows) {cache : TableCache}
    (answering : Answering table stored hits misses cache stored) {column : Nat} {index : IndexCache}
    (isIndex : cache.index? column = some index) (value : Value) :
    Leads (Standing rows cache stored) (getKeys source index value)
      (fun keys state => Answering table stored hits misses state.1 (rows state.2) ∧
        state.1.rows = cache.rows ∧ keys.Perm (table.keysWith stored column value))
      Never := by
  obtain ⟨before, after, split, here, _⟩ := index?_split isIndex
  have isThere : index ∈ cache.indices := by simp [split]
  have mirrors := answering.mirrors
  unfold getKeys
  split
  · next keys bucket =>
    refine Leads.returns fun state holds => ?_
    obtain ⟨isCache, isStored⟩ := holds
    rw [isCache, isStored]
    have exact := mirrors.exact column value keys ⟨index, isThere, here, bucket⟩
    exact ⟨answering, rfl, mirrors.sameTable ▸ exact⟩
  · refine standing_current.bind fun now => Leads.given fun isNow => ?_
    subst isNow
    refine (honest.keysByValue_leads (fun cache content => cache = now ∧ content = stored)
      index.column value).bind fun keys => Leads.update _ fun state holds => ?_
    obtain ⟨⟨isCache, isStored⟩, named⟩ := holds
    rw [isStored, here] at named
    rw [isCache, isStored, here]
    refine ⟨answering.recounted (mirrors.storeReadKeys now.generation named)
      (now.storeReadKeys_sameCounts now.generation column value keys),
      now.storeReadKeys_rows now.generation column value keys, ?_⟩
    rcases now.storeReadKeys_cases now.generation column value keys with same | ⟨_, bucket⟩
    · rw [same]
      exact named
    · exact mirrors.sameTable ▸ mirrors.exact column value _ bucket

private theorem getRowsInBulk_answers (honest : source.Honest table rows) {cache : TableCache}
    (answering : Answering table stored hits misses cache stored)
    (distinct : table.DistinctKeys stored) (column : Nat) (value : Value) (moreHits moreMisses : Nat) :
    Leads (Standing rows cache stored) (getRowsInBulk source column value moreHits moreMisses)
      (Answered table rows stored column value (hits + moreHits) (misses + moreMisses)) Never := by
  refine standing_current.bind fun now => Leads.given fun isNow => ?_
  subst isNow
  refine (honest.rowsByValue_leads (fun cache content => cache = now ∧ content = stored) column
    value).bind fun loaded => ?_
  have replaces (found : List Row) : Leads
      (Answered table rows stored column value (hits + moreHits) (misses + moreMisses) found)
      (update fun cache => ((), cache.replaceKeys now.generation column value (found.map Row.keys)) :
        Loading World Unit)
      (fun _ => Answered table rows stored column value (hits + moreHits) (misses + moreMisses) found)
      Never := by
    refine Leads.update _ fun state holds => ?_
    obtain ⟨answeringNow, isLoaded⟩ := holds
    have named : (found.map Row.keys).Perm (table.keysWith (rows state.2) column value) := by
      rw [answeringNow.same]
      exact isLoaded.keys
    exact ⟨answeringNow.recounted (answeringNow.mirrors.replaceKeys now.generation named)
      (state.1.replaceKeys_sameCounts _ _ _ _), isLoaded⟩
  refine (countReads_answers answering moreHits moreMisses).bind fun _ => ?_
  refine (storeRead_answers distinct now.generation).bind fun found => Leads.given fun _ => ?_
  exact (replaces found).bind fun _ => Leads.returns fun _ holds => holds

end

section

variable {World : Type} {table : Table} {source : RowSource World}
  {rows : World → List (List Value)} {stored : List (List Value)}

/-- The keys of the rows that have a value are asked for as they are, and all rows are found. -/
private theorem asked_keysWith {column : Nat} {value : Value} {keys : List Keys}
    (distinct : table.DistinctKeys stored)
    (identified : ∀ row ∈ stored, (table.keysOf row).hasNull = false)
    (named : keys.Perm (table.keysWith stored column value)) :
    askedKeys keys = keys ∧ keys.filter (fun key => key ∈ stored.map table.keysOf) = keys := by
  have within : (stored.filter fun row => row.getD column .null = value).Sublist stored :=
    List.filter_sublist
  have isStored : ∀ key ∈ keys, key ∈ stored.map table.keysOf := by
    intro key membership
    exact (within.map table.keysOf).mem (named.mem_iff.mp membership)
  have distinctKeys : keys.Nodup := named.nodup_iff.mpr (distinct.sublist (within.map _))
  refine ⟨askedKeys_eq_self distinctKeys fun key membership => ?_, ?_⟩
  · obtain ⟨row, isRow, rfl⟩ := List.mem_map.mp (isStored key membership)
    exact identified row isRow
  · exact List.filter_eq_self.mpr fun key membership => decide_eq_true (isStored key membership)

private theorem getRowsIndexed_answers (honest : source.Honest table rows) {cache : TableCache}
    (mirrors : Mirrors table cache stored) (distinct : table.DistinctKeys stored)
    (identified : ∀ row ∈ stored, (table.keysOf row).hasNull = false) (column : Nat)
    {value : Value} {keys : List Keys} (named : keys.Perm (table.keysWith stored column value)) :
    Leads (Standing rows cache stored)
      (if isMostlyCached cache.bulkThreshold (keys.countP (!cache.contains ·)) keys.length then
        getRowsByKeys source keys
      else
        getRowsInBulk source column value (keys.length - keys.countP (!cache.contains ·))
          (keys.countP (!cache.contains ·)))
      (Answered table rows stored column value (cache.hits + keys.countP cache.contains)
        (cache.misses + keys.countP (!cache.contains ·)))
      Never := by
  have answering : Answering table stored cache.hits cache.misses cache stored :=
    ⟨mirrors, rfl, rfl, rfl⟩
  split
  · obtain ⟨asAsked, allStored⟩ := asked_keysWith distinct identified named
    have found := getRowsByKeys_answers honest answering identified keys
    rw [asAsked, allStored] at found
    refine found.weaken (fun _ => id) (fun found state holds => ⟨holds.1, ?_⟩) fun _ => id
    refine distinct.loaded holds.2.2 ?_
    rw [holds.2.1]
    exact named
  · have both := List.length_eq_countP_add_countP cache.contains (l := keys)
    have absent : keys.countP (fun key => decide ¬cache.contains key = true) =
        keys.countP (!cache.contains ·) := List.countP_congr fun key _ => by simp
    have hits : keys.length - keys.countP (!cache.contains ·) = keys.countP cache.contains := by
      omega
    rw [hits]
    exact getRowsInBulk_answers honest answering distinct column value _ _

private theorem countP_keys {column : Nat} {value : Value} {keys : List Keys}
    (named : keys.Perm (table.keysWith stored column value)) (wanted : Keys → Bool) :
    keys.countP wanted =
      (stored.filter fun row => row.getD column .null = value).countP fun row =>
        wanted (table.keysOf row) := by
  rw [named.countP_eq, Table.keysWith, List.countP_map]
  rfl

/-- What is known when the keys of a value are found: of the cache as it then is, as much is
cached as before. -/
private theorem current_answers {now : TableCache} {column : Nat} {value : Value} (keys : List Keys) :
    Leads
      (fun state => Answering table stored now.hits now.misses state.1 (rows state.2) ∧
        state.1.rows = now.rows ∧ keys.Perm (table.keysWith stored column value))
      (current : Loading World TableCache)
      (fun later state => Standing rows later stored state ∧
        Answering table stored now.hits now.misses later stored ∧
          later.contains = now.contains ∧ keys.Perm (table.keysWith stored column value))
      Never := by
  refine Leads.current fun state holds => ?_
  obtain ⟨counted, sameRows, named⟩ := holds
  have contained : state.1.contains = now.contains := by
    funext keys
    rw [contains, sameRows, contains]
  exact ⟨⟨rfl, counted.same⟩, counted.same ▸ counted, contained, named⟩

/-- What a read by a value leads to, whichever way it goes. -/
private theorem getRows_leads (honest : source.Honest table rows) {cache : TableCache}
    (mirrors : Mirrors table cache stored) (distinct : table.DistinctKeys stored)
    (identified : ∀ row ∈ stored, (table.keysOf row).hasNull = false) (column : Nat)
    {value : Value} (notNull : value ≠ .null) :
    let matching := stored.filter fun row => row.getD column .null = value
    Leads (Standing rows cache stored) (getRows source column value)
      (fun found state => ∃ hits misses,
        Answered table rows stored column value hits misses found state ∧
          ((cache.index? column).isSome = true →
            hits = cache.hits + matching.countP (fun row => cache.contains (table.keysOf row)) ∧
            misses = cache.misses +
              matching.countP (fun row => !cache.contains (table.keysOf row))))
      Never := by
  intro matching
  have answering : Answering table stored cache.hits cache.misses cache stored :=
    ⟨mirrors, rfl, rfl, rfl⟩
  have isValue : ¬ value.isNull = true := by
    rw [Value.isNull_iff]
    exact notNull
  unfold getRows
  rw [if_neg isValue]
  refine standing_current.bind fun now => Leads.given fun isNow => ?_
  subst isNow
  split
  · next noIndex =>
    refine (getRowsDirectly_answers honest answering distinct column value).weaken (fun _ => id)
      (fun found state holds => ⟨_, _, holds, fun hasIndex => ?_⟩) fun _ => id
    rw [noIndex] at hasIndex
    cases hasIndex
  · next index isIndex =>
    refine (getKeys_answers honest answering isIndex value).bind fun keys => ?_
    refine (current_answers keys).bind fun later => Leads.given fun holds => ?_
    obtain ⟨laterAnswering, contained, named⟩ := holds
    refine (getRowsIndexed_answers honest laterAnswering.mirrors distinct identified column
      named).weaken (fun _ => id) (fun found state holds => ⟨_, _, holds, fun _ => ?_⟩)
      fun _ => id
    rw [laterAnswering.hits, laterAnswering.misses, countP_keys named, countP_keys named, contained]
    exact ⟨rfl, rfl⟩

/-- A read by a value returns just the rows that have it, each once, and leaves the cache in
agreement with the table. Through an index cache the rows that were cached count as hits
and the others as misses. -/
theorem getRows_answers (honest : source.Honest table rows) {cache : TableCache} {world : World}
    (mirrors : Mirrors table cache (rows world)) (distinct : table.DistinctKeys (rows world))
    (identified : ∀ row ∈ rows world, (table.keysOf row).hasNull = false) (column : Nat)
    {value : Value} (notNull : value ≠ .null) :
    let matching := (rows world).filter fun row => row.getD column .null = value
    ∃ found cache' world', getRows source column value (cache, world) = (.ok found, cache', world') ∧
      rows world' = rows world ∧ table.Loaded found matching ∧
      Mirrors table cache' (rows world) ∧
      ((cache.index? column).isSome = true →
        cache'.hits = cache.hits + matching.countP (fun row => cache.contains (table.keysOf row)) ∧
        cache'.misses =
          cache.misses + matching.countP (fun row => !cache.contains (table.keysOf row))) := by
  intro matching
  have leads := getRows_leads honest mirrors distinct identified column notNull
  have standing : Standing rows cache (rows world) (cache, world) := ⟨rfl, rfl⟩
  obtain ⟨found, ⟨cache', world'⟩, answered, hits, misses, ⟨counted, isLoaded⟩, counts⟩ :=
    leads.succeeds standing
  refine ⟨found, cache', world', answered, counted.same, isLoaded, counted.same ▸ counted.mirrors, ?_⟩
  intro hasIndex
  exact ⟨counted.hits.trans (counts hasIndex).1, counted.misses.trans (counts hasIndex).2⟩

/-- Of two items of a group the one is cached and the other is not. -/
theorem getRows_answers_halfCached :
    let rows : List (List Value) := [[.int 1, .int 7], [.int 2, .int 7], [.int 3, .int 8]]
    let cache := ((TableCache.new groupedItems {}).storeRead 0 [groupedItem 1 7]).2
    Mirrors groupedItems cache rows ∧ groupedItems.DistinctKeys rows ∧
      (∀ row ∈ rows, (groupedItems.keysOf row).hasNull = false) ∧ Value.int 7 ≠ .null ∧
      ∃ found cache' rows',
        getRows (Backing.inMemory groupedItems).source 1 (.int 7) (cache, rows) =
          (.ok found, cache', rows') ∧
        (found.map Row.values).Perm [[.int 1, .int 7], [.int 2, .int 7]] ∧
        cache'.hits = 1 ∧ cache'.misses = 1 := by
  intro rows cache
  have mirrors : Mirrors groupedItems cache rows := by
    refine (Mirrors.new groupedItems {} rows).storeRead fun row membership => ?_
    rw [List.mem_singleton.mp membership]
    exact ⟨rfl, List.mem_cons_self⟩
  have distinct : groupedItems.DistinctKeys rows := by
    unfold Table.DistinctKeys
    decide +kernel
  have identified : ∀ row ∈ rows, (groupedItems.keysOf row).hasNull = false := by decide +kernel
  refine ⟨mirrors, distinct, identified, by decide, ?_⟩
  obtain ⟨found, cache', rows', answered, _, isLoaded, _, counts⟩ :=
    getRows_answers (Backing.inMemory groupedItems).honest mirrors distinct identified 1
      (by decide : Value.int 7 ≠ .null)
  exact ⟨found, cache', rows', answered, isLoaded.values, (counts rfl).1, (counts rfl).2⟩

end

end TableCache

end RelationalAccess
