import RelationalAccess.Proofs.Cache.History
import RelationalAccess.Proofs.Cache.Shown

/-!
What a read by keys asks of its source: each key that is not cached, once and in chunks of
a bounded size. What is loaded is cached, and one row is returned for each key that has one.
-/

namespace RelationalAccess

/-- A load by keys: the keys that a source was asked for, and its answer. -/
structure KeyLoad where
  asked : List Keys
  answer : Except Error (List Row)

namespace RowSource

variable {World : Type}

/-- A source, and a record of its loads by keys. -/
def recorded (source : RowSource World) : RowSource (World × List KeyLoad) where
  rowsByKeys keys := fun (cache, world, loads) =>
    let (answer, cache, world) := source.rowsByKeys keys (cache, world)
    (answer, cache, world, loads ++ [⟨keys, answer⟩])
  keysByValue column value := fun (cache, world, loads) =>
    let (answer, cache, world) := source.keysByValue column value (cache, world)
    (answer, cache, world, loads)
  rowsByValue column value := fun (cache, world, loads) =>
    let (answer, cache, world) := source.rowsByValue column value (cache, world)
    (answer, cache, world, loads)

/-- A source answers every load by keys with just the rows that have one of them, in any order,
and leaves the cache and the rows alone. -/
def AnswersKeys (source : RowSource World) (table : Table) (rows : World → List (List Value)) :
    Prop :=
  ∀ keys cache world, ∃ loaded world',
    source.rowsByKeys keys (cache, world) = (.ok loaded, cache, world') ∧ rows world' = rows world ∧
      table.Loaded loaded ((rows world).filter fun row => keys.contains (table.keysOf row))

end RowSource

namespace TableCache

/-- Of rows with distinct keys one alone is found under its keys. -/
private theorem find?_keys {rows : List Row} (distinct : (rows.map Row.keys).Nodup) {row : Row}
    (isRow : row ∈ rows) :
    (rows.find? fun other => other.keys = row.keys) = some row := by
  cases found : rows.find? fun other => other.keys = row.keys with
  | none => simpa using List.find?_eq_none.mp found row isRow
  | some other =>
    have same : other.keys = row.keys := by simpa using List.find?_some found
    exact congrArg some
      (List.inj_on_of_nodup_map distinct (List.mem_of_find?_eq_some found) isRow same)

/-- How far a read by keys has come: the chunks that were loaded, and the keys yet to be loaded. -/
structure Progress (table : Table) (stored : List (List Value)) (origin : TableCache)
    (keys : List Keys) (found : Entries Keys Row) (rest : List Keys) (now : TableCache)
    (loads : List KeyLoad) : Prop where
  gathered : Gathered table origin stored (askedKeys keys) rest found
  enabled : now.enabled = origin.enabled
  generation : now.generation = origin.generation
  hits : now.hits = origin.hits + ((askedKeys keys).filter origin.contains).length
  misses : now.misses = origin.misses + ((askedKeys keys).filter (!origin.contains ·)).length
  /-- What the source was asked for and what is yet to be loaded are the missing keys in order. -/
  requests : (loads.map KeyLoad.asked).flatten ++ rest = (askedKeys keys).filter (!origin.contains ·)
  sizes : ∀ load ∈ loads, load.asked ≠ [] ∧ load.asked.length ≤ chunkSize
  absent : ∀ key ∈ rest, now.peek? key = none
  cached : ∀ load ∈ loads, ∃ loaded, load.answer = .ok loaded ∧
    (now.enabled = true → ∀ row ∈ loaded, now.peek? row.keys = some row)

namespace Progress

variable {table : Table} {stored : List (List Value)} {origin now : TableCache} {keys : List Keys}
  {found : Entries Keys Row} {rest chunk : List Keys} {loads : List KeyLoad}

/-- When the reads are counted, all that is missing is yet to be loaded. -/
theorem counted (keyed : origin.RowsKeyed) (keys : List Keys) :
    Progress table stored origin keys
      (.putAll {} ((askedKeys keys).filterMap fun key => (origin.peek? key).map (key, ·)))
      ((askedKeys keys).filter (!origin.contains ·))
      (origin.count ((askedKeys keys).filterMap fun key => (origin.peek? key).map (key, ·)).length
        ((askedKeys keys).filter (!origin.contains ·)).length) [] where
  gathered := .cached keyed keys
  enabled := rfl
  generation := rfl
  hits := by
    have cachedCount : ((askedKeys keys).filterMap fun key => (origin.peek? key).map (key, ·)).length =
        ((askedKeys keys).filter origin.contains).length := by
      rw [List.length_filterMap_eq_countP, ← List.countP_eq_length_filter]
      exact List.countP_congr fun key _ => by simp [contains_eq]
    exact congrArg (origin.hits + ·) cachedCount
  misses := rfl
  requests := rfl
  sizes _ isLoad := by cases isLoad
  absent key isMissing := by
    have missing := (List.mem_filter.mp isMissing).2
    show origin.peek? key = none
    simpa [contains_eq] using missing
  cached _ isLoad := by cases isLoad

/-- One more chunk is loaded. -/
theorem load (progress : Progress table stored origin keys found (chunk ++ rest) now loads)
    (distinct : table.DistinctKeys stored) (notEmpty : chunk ≠ [])
    (short : chunk.length ≤ chunkSize) {loaded : List Row}
    (isLoaded : table.Loaded loaded (stored.filter fun row => chunk.contains (table.keysOf row))) :
    Progress table stored origin keys
      (found.putAll ((now.storeRead origin.generation loaded).1.map fun row => (row.keys, row)))
      rest (now.storeRead origin.generation loaded).2 (loads ++ [⟨chunk, .ok loaded⟩]) := by
  have inChunk : ∀ row ∈ loaded, row.keys ∈ chunk := by
    intro row isRow
    have wanted := (List.mem_filter.mp (isLoaded.mem isRow)).2
    rw [(isLoaded.has isRow).keys]
    simpa using wanted
  have distinctLoaded := distinct.nodup_loaded isLoaded
  have absentLoaded : ∀ row ∈ loaded, now.peek? row.keys = none := fun row isRow =>
    progress.absent row.keys (List.mem_append_left _ (inChunk row isRow))
  have inserted : now.storeRead origin.generation loaded = now.insertRows loaded :=
    if_pos progress.generation
  have peeked (enabled : now.enabled = true) (key : Keys) :
      (now.storeRead origin.generation loaded).2.peek? key =
        (now.peek? key).or (loaded.find? fun row => row.keys = key) :=
    inserted ▸ peek?_insertRows enabled loaded key
  have distinctMissing : (chunk ++ rest).Nodup := by
    have missing : ((loads.map KeyLoad.asked).flatten ++ (chunk ++ rest)).Nodup :=
      progress.requests ▸ (nodup_askedKeys keys).filter _
    exact (List.nodup_append.mp missing).2.1
  have same := now.storeRead_sameButRows origin.generation loaded
  have counts := now.storeRead_sameCounts origin.generation loaded
  refine
    { gathered := ?_
      enabled := same.enabled.trans progress.enabled
      generation := same.generation.trans progress.generation
      hits := counts.hits.trans progress.hits
      misses := counts.misses.trans progress.misses
      requests := ?_
      sizes := ?_
      absent := fun key isLater => ?_
      cached := fun load isLoad => ?_ }
  · rw [inserted, insertRows_of_absent absentLoaded distinctLoaded]
    refine progress.gathered.load (fun row isRow => ?_) fun key isKey isStored => ?_
    · obtain ⟨isAsked, wasAbsent⟩ :=
        progress.gathered.within row.keys (List.mem_append_left _ (inChunk row isRow))
      exact ⟨(mem_askedKeys.mp isAsked).2, .inr ⟨wasAbsent, isLoaded.has isRow⟩⟩
    · obtain ⟨values, isThere, rfl⟩ := List.mem_map.mp isStored
      refine isLoaded.keys.mem_iff.mpr (List.mem_map_of_mem (List.mem_filter.mpr ⟨isThere, ?_⟩))
      simpa using isKey
  · rw [← progress.requests]
    simp
  · intro load isLoad
    rcases List.mem_append.mp isLoad with earlier | now
    · exact progress.sizes load earlier
    · rw [List.mem_singleton.mp now]
      exact ⟨notEmpty, short⟩
  · have wasAbsent := progress.absent key (List.mem_append_right _ isLater)
    cases enabled : now.enabled with
    | false =>
      rw [inserted, insertRows_of_disabled enabled]
      exact wasAbsent
    | true =>
      have notLoaded : ∀ row ∈ loaded, row.keys ≠ key := fun row isRow same =>
        (List.nodup_append.mp distinctMissing).2.2 key (same ▸ inChunk row isRow) key isLater rfl
      rw [peeked enabled, wasAbsent, Option.none_or, List.find?_eq_none]
      simpa using notLoaded
  · rcases List.mem_append.mp isLoad with earlier | isNow
    · obtain ⟨before, isAnswer, cached⟩ := progress.cached load earlier
      refine ⟨before, isAnswer, fun enabled row isRow => ?_⟩
      have isEnabled := same.enabled.symm.trans enabled
      rw [peeked isEnabled, cached isEnabled row isRow]
      rfl
    · rw [List.mem_singleton.mp isNow]
      refine ⟨loaded, rfl, fun enabled row isRow => ?_⟩
      rw [peeked (same.enabled.symm.trans enabled), absentLoaded row isRow, Option.none_or]
      exact find?_keys distinctLoaded isRow

end Progress

section

variable {World : Type} {table : Table} {source : RowSource World}
  {rows : World → List (List Value)} {stored : List (List Value)} {origin : TableCache}
  {keys : List Keys}

/-- A state in which a read by keys has come so far. -/
abbrev HasCome (table : Table) (rows : World → List (List Value)) (stored : List (List Value))
    (origin : TableCache) (keys : List Keys) (found : Entries Keys Row) (rest : List Keys)
    (state : TableCache × World × List KeyLoad) : Prop :=
  Progress table stored origin keys found rest state.1 state.2.2 ∧ rows state.2.1 = stored

private theorem loadChunk_leads (answers : source.AnswersKeys table rows)
    (distinct : table.DistinctKeys stored) {chunk : List Keys} (notEmpty : chunk ≠ [])
    (short : chunk.length ≤ chunkSize) (rest : List Keys) (found : Entries Keys Row) :
    Leads (HasCome table rows stored origin keys found (chunk ++ rest))
      (loadChunk source.recorded origin.generation found chunk)
      (fun found => HasCome table rows stored origin keys found rest) Never := by
  rintro ⟨now, world, loads⟩ ⟨progress, isStored⟩
  obtain ⟨loaded, world', answered, same, isLoaded⟩ := answers chunk now world
  rw [isStored] at isLoaded
  have recorded : source.recorded.rowsByKeys chunk (now, world, loads) =
      (.ok loaded, now, world', loads ++ [⟨chunk, .ok loaded⟩]) := by
    simp only [RowSource.recorded, answered]
  rw [loadChunk, bind_apply, recorded]
  exact ⟨progress.load distinct notEmpty short isLoaded, same.trans isStored⟩

/-- The rows are as they were, and nothing has been asked for yet. -/
private def Unasked (rows : World → List (List Value)) (stored : List (List Value))
    (world : World × List KeyLoad) : Prop :=
  rows world.1 = stored ∧ world.2 = []

/-- A read by keys, with all that it asks its source for on record. -/
private theorem getRowsByKeys_leads (answers : source.AnswersKeys table rows)
    (distinct : table.DistinctKeys stored) (keyed : origin.RowsKeyed) (keys : List Keys) :
    Leads (fun state => state.1 = origin ∧ Unasked rows stored state.2)
      (getRowsByKeys source.recorded keys)
      (fun taken state => ∃ found, taken = take found keys ∧
        HasCome table rows stored origin keys found [] state) Never := by
  unfold getRowsByKeys
  refine Leads.current_eq.bind fun now => Leads.given fun isNow => ?_
  subst isNow
  refine (Leads.update (fun _ => HasCome table rows stored now keys
    (.putAll {} ((askedKeys keys).filterMap fun key => (now.peek? key).map (key, ·)))
    ((askedKeys keys).filter (!now.contains ·))) fun state holds => ?_).bind fun _ => ?_
  · obtain ⟨isCache, isStored, noLoads⟩ := holds
    have begun : Progress table stored now keys _ _ _ [] := .counted keyed keys
    rw [isCache]
    exact ⟨noLoads ▸ begun, isStored⟩
  -- what is yet to be loaded are the keys of the chunks to come
  have loop := Leads.foldlM
    (fun (rest : List (List Keys)) found (state : TableCache × World × List KeyLoad) =>
      HasCome table rows stored now keys found rest.flatten state ∧
        ∀ chunk ∈ rest, chunk ≠ [] ∧ chunk.length ≤ chunkSize)
    (fun chunk rest found => Leads.given fun sizes =>
      (loadChunk_leads answers distinct (sizes chunk List.mem_cons_self).1
        (sizes chunk List.mem_cons_self).2 rest.flatten found).weaken (fun _ => id)
        (fun _ _ holds => ⟨holds, fun other later => sizes other (List.mem_cons_of_mem _ later)⟩)
        fun _ => id)
    (chunks chunkSize ((askedKeys keys).filter (!now.contains ·)))
    (.putAll {} ((askedKeys keys).filterMap fun key => (now.peek? key).map (key, ·)))
  rw [flatten_chunks (by decide)] at loop
  refine (loop.weaken (fun state holds => ⟨holds, fun chunk isChunk =>
    ⟨ne_nil_of_mem_chunks isChunk, length_le_of_mem_chunks isChunk⟩⟩)
    (fun _ _ holds => holds) fun _ => id).bind fun found => Leads.returns fun state holds => ?_
  exact ⟨found, rfl, holds.1⟩

/-- A read by keys from a source that gives the rows of the keys it is asked for, through a
cache whose rows are rows of the table. It returns one row for each key without a null that has
one, at the first place where the key stands. The source is asked once for each such key that
was not cached, in chunks of one to a hundred keys. A key that was cached is a hit and one that
was not a miss, and all that was loaded is cached then, if the cache is enabled. -/
theorem getRowsByKeys_exact (answers : source.AnswersKeys table rows) {cache : TableCache}
    {world : World} (distinct : table.DistinctKeys (rows world))
    (current : ∀ key row, cache.peek? key = some row →
      row.keys = key ∧ table.Has (rows world) row) (keys : List Keys) :
    ∃ found cache' world' loads,
      getRowsByKeys source.recorded keys (cache, world, []) = (.ok found, cache', world', loads) ∧
      found.map Row.keys = (keys.filter fun key =>
        !key.hasNull && decide (key ∈ (rows world).map table.keysOf)).eraseDups ∧
      (∀ row ∈ found, table.Has (rows world) row) ∧
      (loads.map KeyLoad.asked).flatten =
        (keys.filter fun key => !key.hasNull && !cache.contains key).eraseDups ∧
      (∀ load ∈ loads, 1 ≤ load.asked.length ∧ load.asked.length ≤ 100) ∧
      cache'.hits =
        cache.hits + (keys.filter fun key => !key.hasNull && cache.contains key).eraseDups.length ∧
      cache'.misses =
        cache.misses + (keys.filter fun key => !key.hasNull && !cache.contains key).eraseDups.length ∧
      (cache.enabled = true → ∀ load ∈ loads, ∃ loaded, load.answer = .ok loaded ∧
        ∀ row ∈ loaded, cache'.peek? row.keys = some row) := by
  have keyed : cache.RowsKeyed := fun key row cached => (current key row cached).1
  have begins : (cache, world, ([] : List KeyLoad)).1 = cache ∧ Unasked rows (rows world) (world, []) :=
    ⟨rfl, rfl, rfl⟩
  obtain ⟨taken, ⟨cache', world', loads⟩, isResult, found, rfl, progress, same⟩ :=
    (getRowsByKeys_leads answers distinct keyed keys).succeeds begins
  obtain ⟨named, shown⟩ := progress.gathered.taken
  have has : ∀ row ∈ take found keys, table.Has (rows world) row := by
    intro row isTaken
    rcases shown row isTaken with cached | ⟨_, has⟩
    · exact (current row.keys row cached).2
    · exact has
  refine ⟨take found keys, cache', world', loads, isResult, ?_, has, ?_, fun load isLoad => ?_, ?_, ?_,
    fun enabled load isLoad => ?_⟩
  · rw [named, ← filter_askedKeys]
    refine List.filter_congr fun key _ => decide_eq_decide.mpr ⟨fun known => ?_, .inr⟩
    refine known.elim (fun cached => ?_) id
    obtain ⟨row, isCached⟩ := Option.isSome_iff_exists.mp cached
    obtain ⟨rfl, isRow⟩ := current key row isCached
    exact isRow.keys ▸ List.mem_map_of_mem isRow.stored
  · rw [← filter_askedKeys, ← progress.requests, List.append_nil]
  · exact ⟨List.length_pos_iff.mpr (progress.sizes load isLoad).1, (progress.sizes load isLoad).2⟩
  · rw [← filter_askedKeys]
    exact progress.hits
  · rw [← filter_askedKeys]
    exact progress.misses
  · obtain ⟨loaded, isAnswer, cached⟩ := progress.cached load isLoad
    exact ⟨loaded, isAnswer, cached (progress.enabled.trans enabled)⟩

/-- One of the items that are asked for is cached, some are asked for twice, one key has a null and
one has no item. -/
theorem getRowsByKeys_exact_repeatedKeys :
    let rows : List (List Value) := [[.int 1, .int 7], [.int 2, .int 7], [.int 3, .int 8]]
    let cache := ((TableCache.new groupedItems {}).storeRead 0 [groupedItem 1 7]).2
    let source := (Backing.inMemory groupedItems).source
    source.AnswersKeys groupedItems id ∧ groupedItems.DistinctKeys rows ∧
      (∀ key row, cache.peek? key = some row → row.keys = key ∧ groupedItems.Has rows row) ∧
      ∃ found cache' world' loads,
        getRowsByKeys source.recorded
            [⟨[.int 3]⟩, ⟨[.int 1]⟩, ⟨[.null]⟩, ⟨[.int 3]⟩, ⟨[.int 9]⟩, ⟨[.int 1]⟩] (cache, rows, []) =
          (.ok found, cache', world', loads) ∧
        found.map Row.keys = [⟨[.int 3]⟩, ⟨[.int 1]⟩] ∧
        (loads.map KeyLoad.asked).flatten = [⟨[.int 3]⟩, ⟨[.int 9]⟩] ∧
        cache'.hits = 1 ∧ cache'.misses = 2 := by
  intro rows cache source
  have answers : source.AnswersKeys groupedItems id := (Backing.inMemory groupedItems).honest.rowsByKeys
  have distinct : groupedItems.DistinctKeys rows := by
    unfold Table.DistinctKeys
    decide +kernel
  have current : ∀ key row, cache.peek? key = some row →
      row.keys = key ∧ groupedItems.Has rows row := by
    have mirrors : Mirrors groupedItems cache rows := by
      refine (Mirrors.new groupedItems {} rows).storeRead fun row membership => ?_
      rw [List.mem_singleton.mp membership]
      exact ⟨rfl, List.mem_cons_self⟩
    exact fun key row cached => ⟨mirrors.keyed key row cached, mirrors.current key row cached⟩
  obtain ⟨found, cache', world', loads, answered, named, _, requests, _, hits, misses, _⟩ :=
    getRowsByKeys_exact answers distinct current
      [⟨[.int 3]⟩, ⟨[.int 1]⟩, ⟨[.null]⟩, ⟨[.int 3]⟩, ⟨[.int 9]⟩, ⟨[.int 1]⟩]
  refine ⟨answers, distinct, current, found, cache', world', loads, answered, ?_, ?_, ?_, ?_⟩
  · rw [named]
    decide +kernel
  · rw [requests]
    decide +kernel
  · rw [hits]
    decide +kernel
  · rw [misses]
    decide +kernel

end

end TableCache

end RelationalAccess
