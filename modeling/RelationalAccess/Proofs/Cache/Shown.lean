import RelationalAccess.Proofs.Cache.Gathering
import RelationalAccess.Proofs.Cache.Growth
import RelationalAccess.Proofs.Cache.Mirror

/-!
What reads show through the cache of a table, whether or not it agrees with the rows of the
table: under every key the row that is cached there, or else the one that the table has.
Of the source only those answers are asked for that the read depends on.
-/

namespace RelationalAccess

/-- An action of a source that succeeds with a good answer, leaves the cache alone and the
world steady. -/
def RowSource.Gives {World α : Type} (steady : World → Prop) (action : Loading World α)
    (good : α → Prop) : Prop :=
  ∀ condition : TableCache → Prop,
    Leads (fun state => condition state.1 ∧ steady state.2) action
      (fun answer state => (condition state.1 ∧ steady state.2) ∧ good answer) Never

/-- Rows of the table, among them those that it has under some keys. -/
structure Table.Covers (table : Table) (stored : List (List Value)) (keys : List Keys)
    (loaded : List Row) : Prop where
  has : ∀ row ∈ loaded, table.Has stored row
  all : ∀ key ∈ keys, key ∈ stored.map table.keysOf → key ∈ loaded.map Row.keys

namespace TableCache

/-- One cache has counted as many reads as another. -/
structure SameCounts (cache other : TableCache) : Prop where
  hits : other.hits = cache.hits
  misses : other.misses = cache.misses

theorem SameCounts.trans {first second third : TableCache} (earlier : first.SameCounts second)
    (later : second.SameCounts third) : first.SameCounts third :=
  ⟨later.hits.trans earlier.hits, later.misses.trans earlier.misses⟩

theorem insertRow_sameCounts (cache : TableCache) (row : Row) :
    cache.SameCounts (cache.insertRow row).2 := by
  unfold insertRow
  split
  · split
    · exact ⟨rfl, rfl⟩
    · unfold replaceRow
      split
      · exact ⟨rfl, rfl⟩
      · exact ⟨rfl, rfl⟩
  · exact ⟨rfl, rfl⟩

theorem storeRead_sameCounts (cache : TableCache) (generation : Nat) (rows : List Row) :
    cache.SameCounts (cache.storeRead generation rows).2 := by
  unfold storeRead
  split
  · induction rows generalizing cache with
    | nil => exact ⟨rfl, rfl⟩
    | cons row rows inductionHypothesis =>
      have same : (cache.insertRow row).2.generation = generation :=
        (cache.insertRow_sameButRows row).generation.trans ‹_›
      exact (cache.insertRow_sameCounts row).trans (inductionHypothesis _ same)
  · exact ⟨rfl, rfl⟩

theorem storeReadKeys_sameCounts (cache : TableCache) (generation column : Nat) (value : Value)
    (keys : List Keys) :
    cache.SameCounts (cache.storeReadKeys generation column value keys).2 := by
  unfold storeReadKeys
  split
  · exact ⟨rfl, rfl⟩
  · split
    · exact ⟨rfl, rfl⟩
    · exact ⟨rfl, rfl⟩

theorem replaceKeys_sameCounts (cache : TableCache) (generation column : Nat) (value : Value)
    (keys : List Keys) : cache.SameCounts (cache.replaceKeys generation column value keys) := by
  unfold replaceKeys
  split
  · exact ⟨rfl, rfl⟩
  · exact ⟨rfl, rfl⟩

/-- A cache of a table that has every row under its own keys, and none where it is not
enabled. -/
structure Kept (table : Table) (cache : TableCache) : Prop where
  sameTable : cache.table = table
  idle : cache.enabled = false → ∀ keys, cache.peek? keys = none
  keyed : cache.RowsKeyed

/-- A row that is cached under its keys, or that the table has where none is. -/
def Shows (table : Table) (cache : TableCache) (stored : List (List Value)) (row : Row) : Prop :=
  cache.peek? row.keys = some row ∨ cache.peek? row.keys = none ∧ table.Has stored row

/-- Some row is shown under some keys. -/
def Knows (table : Table) (cache : TableCache) (stored : List (List Value)) (keys : Keys) : Prop :=
  (cache.peek? keys).isSome = true ∨ keys ∈ stored.map table.keysOf

instance (table : Table) (cache : TableCache) (stored : List (List Value)) (keys : Keys) :
    Decidable (Knows table cache stored keys) :=
  inferInstanceAs (Decidable (_ ∨ _))

section

variable {table : Table} {cache now : TableCache} {stored : List (List Value)}

theorem RowsCurrent.kept (current : RowsCurrent table cache stored) : Kept table cache :=
  ⟨current.sameTable, current.idle, current.keyed⟩

theorem Shows.known {row : Row} (shows : Shows table cache stored row) :
    Knows table cache stored row.keys := by
  rcases shows with cached | ⟨_, has⟩
  · exact .inl (by rw [cached]; rfl)
  · refine .inr (List.mem_map.mpr ⟨row.values, has.stored, has.keys.symm⟩)

/-- One row at most is shown under the same keys. -/
theorem Shows.unique (distinct : table.DistinctKeys stored) {first second : Row}
    (shows : Shows table cache stored first) (showsToo : Shows table cache stored second)
    (same : first.keys = second.keys) : first.values = second.values := by
  unfold Shows at shows showsToo
  rw [same] at shows
  rcases shows with cached | ⟨absent, has⟩
  · rcases showsToo with cachedToo | ⟨absent, _⟩
    · rw [Option.some.inj (cached.symm.trans cachedToo)]
    · rw [absent] at cached
      cases cached
  · rcases showsToo with cached | ⟨_, hasToo⟩
    · rw [absent] at cached
      cases cached
    · exact distinct.eq_of_keysOf has.stored hasToo.stored (has.keys.symm.trans (same.trans hasToo.keys))

/-- What is shown by a cache that agrees with the table are rows of the table. -/
theorem RowsCurrent.has_of_shows (current : RowsCurrent table cache stored) {row : Row}
    (shows : Shows table cache stored row) : table.Has stored row := by
  rcases shows with cached | ⟨_, has⟩
  · exact current.current row.keys row cached
  · exact has

theorem RowsCurrent.knows_iff (current : RowsCurrent table cache stored) {keys : Keys} :
    Knows table cache stored keys ↔ keys ∈ stored.map table.keysOf := by
  refine ⟨fun known => ?_, .inr⟩
  rcases known with cached | has
  · obtain ⟨row, found⟩ := Option.isSome_iff_exists.mp cached
    have has := current.current keys row found
    rw [← current.keyed keys row found, has.keys]
    exact List.mem_map_of_mem has.stored
  · exact has

/-- A cache to which only rows of the table were added still keeps every row under its keys. -/
theorem Kept.of_extends (kept : Kept table cache) (extended : cache.Extends (table.Has stored) now) :
    Kept table now where
  sameTable := extended.table.trans kept.sameTable
  idle off keys := by
    refine Option.eq_none_iff_forall_ne_some.mpr fun row found => ?_
    rcases extended.added keys row found with before | ⟨_, isOn, _⟩
    · rw [kept.idle (extended.enabled.symm.trans off) keys] at before
      cases before
    · rw [off] at isOn
      cases isOn
  keyed keys row found := by
    rcases extended.added keys row found with before | ⟨_, _, sameKeys, _⟩
    · exact kept.keyed keys row before
    · exact sameKeys

/-- Rows of the table can be added to a cache that agrees with it. -/
theorem Mirrors.of_extends (mirrors : Mirrors table cache stored)
    (extended : cache.Extends (table.Has stored) now) (indices : now.indices = cache.indices) :
    Mirrors table now stored where
  toRowsCurrent := by
    obtain ⟨sameTable, idle, keyed⟩ := mirrors.kept.of_extends extended
    refine ⟨sameTable, idle, keyed, fun keys row found => ?_⟩
    rcases extended.added keys row found with before | ⟨_, _, _, has⟩
    · exact mirrors.current keys row before
    · exact has
  exact column value keys bucket := by
    rw [extended.table]
    exact mirrors.exact column value keys ((hasBucket_congr indices).mp bucket)

/-- What is shown after rows of the table were added was shown before. -/
theorem Shows.of_extends (extended : cache.Extends (table.Has stored) now) {row : Row}
    (shows : Shows table now stored row) : Shows table cache stored row := by
  rcases shows with cached | ⟨absent, has⟩
  · rcases extended.added row.keys row cached with before | ⟨absent, _, _, has⟩
    · exact .inl before
    · exact .inr ⟨absent, has⟩
  · refine .inr ⟨?_, has⟩
    refine Option.eq_none_iff_forall_ne_some.mpr fun other before => ?_
    rw [extended.kept row.keys other before] at absent
    cases absent

private theorem cached_or_inserted (kept : Kept table cache) {rows : List Row} {row : Row}
    (returned : row ∈ (cache.insertRows rows).1) :
    cache.peek? row.keys = some row ∨ cache.peek? row.keys = none ∧ row ∈ rows := by
  induction rows generalizing cache with
  | nil => cases returned
  | cons first others inductionHypothesis =>
    cases enabled : cache.enabled with
    | false =>
      have alone : ∀ rows, (cache.insertRows rows).1 = rows := by
        intro rows
        induction rows with
        | nil => rfl
        | cons row rows inductionHypothesis => simp [insertRows, insertRow, enabled, inductionHypothesis]
      rw [alone] at returned
      exact .inr ⟨kept.idle enabled row.keys, returned⟩
    | true =>
      have looked (keys : Keys) := peek?_insertRow enabled first keys
      have returned : row ∈ (cache.insertRow first).1 ::
          ((cache.insertRow first).2.insertRows others).1 := returned
      rcases List.mem_cons.mp returned with now | later
      · cases found : cache.peek? first.keys with
        | none =>
          have isFirst : row = first := by simpa [insertRow, enabled, found] using now
          exact .inr ⟨isFirst ▸ found, isFirst ▸ List.mem_cons_self⟩
        | some present =>
          have isPresent : row = present := by simpa [insertRow, enabled, found] using now
          rw [isPresent, kept.keyed first.keys present found]
          exact .inl found
      · have same := cache.insertRow_sameButRows first
        have keptThen : Kept table (cache.insertRow first).2 := by
          refine ⟨same.table.trans kept.sameTable, fun off => ?_, kept.keyed.insertRows [first]⟩
          rw [same.enabled, enabled] at off
          cases off
        rcases inductionHypothesis keptThen later with cached | ⟨absent, isOther⟩
        · rw [looked, Option.or_eq_some_iff] at cached
          rcases cached with before | ⟨absent, isFirst⟩
          · exact .inl before
          · split at isFirst
            · exact .inr ⟨absent, Option.some.inj isFirst ▸ List.mem_cons_self⟩
            · cases isFirst
        · rw [looked, Option.or_eq_none_iff] at absent
          exact .inr ⟨absent.1, List.mem_cons_of_mem _ isOther⟩

/-- Of rows that were read those are returned that are shown. -/
theorem Kept.shows_storeRead (kept : Kept table cache) {generation : Nat} {loaded : List Row}
    (has : ∀ row ∈ loaded, table.Has stored row) :
    ∀ row ∈ (cache.storeRead generation loaded).1, Shows table cache stored row := by
  intro row returned
  unfold storeRead at returned
  split at returned
  · rcases cached_or_inserted kept returned with cached | ⟨absent, isLoaded⟩
    · exact .inl cached
    · exact .inr ⟨absent, has row isLoaded⟩
  · obtain ⟨other, isLoaded, rfl⟩ := List.mem_map.mp returned
    cases found : cache.peek? other.keys with
    | none => exact .inr ⟨found, has other isLoaded⟩
    | some present =>
      refine .inl ?_
      rw [Option.getD_some, kept.keyed other.keys present found]
      exact found

/-- What was found for the keys asked for: rows that are shown, and all of them but for keys
that are yet to be loaded. -/
structure Gathered (table : Table) (cache : TableCache) (stored : List (List Value))
    (asked rest : List Keys) (found : Entries Keys Row) : Prop where
  shown : ∀ key row, found.get? key = some row →
    row.keys = key ∧ key.hasNull = false ∧ Shows table cache stored row
  within : ∀ key ∈ rest, key ∈ asked ∧ cache.peek? key = none
  complete : ∀ key ∈ asked, Knows table cache stored key → found.get? key = none → key ∈ rest

namespace Gathered

variable {asked rest : List Keys} {found : Entries Keys Row}

/-- At first the cached rows are found, and the others are missing. -/
theorem cached (keyed : cache.RowsKeyed) (keys : List Keys) :
    Gathered table cache stored (askedKeys keys) ((askedKeys keys).filter (!cache.contains ·))
      (.putAll {} ((askedKeys keys).filterMap fun key => (cache.peek? key).map (key, ·))) := by
  refine ⟨?_, ?_, ?_⟩
  · intro key row isFound
    rcases Entries.get?_putAll isFound with put | nowhere
    · obtain ⟨other, isAsked, looked⟩ := List.mem_filterMap.mp put
      obtain ⟨present, peeked, same⟩ := Option.map_eq_some_iff.mp looked
      cases same
      have sameKeys := keyed key row peeked
      exact ⟨sameKeys, (mem_askedKeys.mp isAsked).2, .inl (sameKeys.symm ▸ peeked)⟩
    · cases nowhere
  · intro key isMissing
    obtain ⟨isAsked, absent⟩ := List.mem_filter.mp isMissing
    exact ⟨isAsked, by simpa [contains_eq] using absent⟩
  · intro key isAsked _ notFound
    refine List.mem_filter.mpr ⟨isAsked, ?_⟩
    cases peeked : cache.peek? key with
    | none => simp [contains_eq, peeked]
    | some row =>
      refine absurd ?_ (Entries.get?_putAll_eq_none.mp notFound).2
      refine List.mem_map.mpr ⟨(key, row), List.mem_filterMap.mpr ⟨key, isAsked, ?_⟩, rfl⟩
      rw [peeked]
      rfl

/-- The rows of some more keys are loaded. -/
theorem load {chunk : List Keys} (gathered : Gathered table cache stored asked (chunk ++ rest) found)
    {rows : List Row} (shown : ∀ row ∈ rows, row.keys.hasNull = false ∧ Shows table cache stored row)
    (all : ∀ key ∈ chunk, key ∈ stored.map table.keysOf → key ∈ rows.map Row.keys) :
    Gathered table cache stored asked rest
      (found.putAll (rows.map fun row => (row.keys, row))) := by
  have putKeys : (rows.map fun row => (row.keys, row)).map Prod.fst = rows.map Row.keys := by
    simp [Function.comp_def]
  refine ⟨?_, ?_, ?_⟩
  · intro key row isFound
    rcases Entries.get?_putAll isFound with put | before
    · obtain ⟨other, membership, same⟩ := List.mem_map.mp put
      cases same
      exact ⟨rfl, shown row membership⟩
    · exact gathered.shown key row before
  · intro key later
    exact gathered.within key (List.mem_append_right _ later)
  · intro key isAsked known notFound
    rw [Entries.get?_putAll_eq_none, putKeys] at notFound
    rcases List.mem_append.mp (gathered.complete key isAsked known notFound.1) with now | later
    · have isStored : key ∈ stored.map table.keysOf := by
        refine known.resolve_left fun cached => ?_
        rw [(gathered.within key (List.mem_append_left _ now)).2] at cached
        cases cached
      exact absurd (all key now isStored) notFound.2
    · exact later

/-- When all is loaded, the rows taken are those that are shown under the keys asked for, in
the order of the keys. -/
theorem taken {keys : List Keys} (gathered : Gathered table cache stored (askedKeys keys) [] found) :
    (take found keys).map Row.keys =
        (askedKeys keys).filter (fun key => Knows table cache stored key) ∧
      ∀ row ∈ take found keys, Shows table cache stored row := by
  have identified : ∀ key, key.hasNull = true → found.get? key = none := by
    intro key hasNull
    refine Option.eq_none_iff_forall_ne_some.mpr fun row isFound => ?_
    have := (gathered.shown key row isFound).2.1
    rw [hasNull] at this
    cases this
  rw [take_eq_asked keys identified]
  constructor
  · rw [List.map_filterMap, ← List.filterMap_eq_filter]
    refine List.filterMap_congr fun key isAsked => ?_
    cases looked : found.get? key with
    | none =>
      have unknown : ¬ Knows table cache stored key := fun known => by
        cases gathered.complete key isAsked known looked
      simp [Option.guard, unknown]
    | some row =>
      obtain ⟨sameKeys, _, shows⟩ := gathered.shown key row looked
      have known : Knows table cache stored key := sameKeys ▸ shows.known
      simp only [Option.guard, known, decide_true, if_true, Option.map_some, sameKeys]
  · intro row isTaken
    obtain ⟨key, _, looked⟩ := List.mem_filterMap.mp isTaken
    exact (gathered.shown key row looked).2.2

end Gathered

/-- What a read by keys leaves of a cache: rows of the table added, reads counted, and the
buckets as they were. -/
structure ReadByKeys (table : Table) (stored : List (List Value)) (cache : TableCache)
    (hits misses : Nat) (after : TableCache) : Prop where
  extended : cache.Extends (table.Has stored) after
  indices : after.indices = cache.indices
  hits : after.hits = cache.hits + hits
  misses : after.misses = cache.misses + misses

end

section

variable {World : Type} {table : Table} {source : RowSource World} {steady : World → Prop}
  {cache : TableCache} {stored : List (List Value)}

private theorem loadChunk_shows (kept : Kept table cache)
    (identified : ∀ row ∈ stored, (table.keysOf row).hasNull = false) (generation : Nat)
    {asked chunk : List Keys} (rest : List Keys) (found : Entries Keys Row) {hits misses : Nat}
    (gives : (∀ key ∈ chunk, key ∈ asked ∧ cache.peek? key = none) →
      RowSource.Gives steady (source.rowsByKeys chunk) (table.Covers stored chunk)) :
    Leads (fun state => (ReadByKeys table stored cache hits misses state.1 ∧ steady state.2) ∧
        Gathered table cache stored asked (chunk ++ rest) found)
      (loadChunk source generation found chunk)
      (fun found state => (ReadByKeys table stored cache hits misses state.1 ∧ steady state.2) ∧
        Gathered table cache stored asked rest found)
      Never := by
  refine Leads.given fun gathered => ?_
  have answered := gives fun key inChunk => gathered.within key (List.mem_append_left _ inChunk)
  refine (answered (ReadByKeys table stored cache hits misses)).bind fun loaded =>
    Leads.given fun covers => ?_
  refine (Leads.update (fun kept state =>
      (ReadByKeys table stored cache hits misses state.1 ∧ steady state.2) ∧
        Gathered table cache stored asked rest
          (found.putAll (kept.map fun row => (row.keys, row))))
    fun state holds => ?_).bind fun kept => Leads.returns fun _ holds => holds
  obtain ⟨readFrom, isSteady⟩ := holds
  have keptNow := kept.of_extends readFrom.extended
  have counts := state.1.storeRead_sameCounts generation loaded
  have sameKeys := keptNow.keyed.storeRead_keys generation loaded
  refine ⟨⟨⟨readFrom.extended.storeRead generation covers.has,
    (state.1.storeRead_sameButRows generation loaded).indices.trans readFrom.indices, counts.hits.trans readFrom.hits,
    counts.misses.trans readFrom.misses⟩, isSteady⟩, gathered.load ?_ ?_⟩
  · intro row returned
    constructor
    · have isKey : row.keys ∈ loaded.map Row.keys := sameKeys ▸ List.mem_map_of_mem returned
      obtain ⟨other, isLoaded, same⟩ := List.mem_map.mp isKey
      have has := covers.has other isLoaded
      rw [← same, has.keys]
      exact identified other.values has.stored
    · exact (keptNow.shows_storeRead covers.has row returned).of_extends readFrom.extended
  · intro key inChunk isStored
    rw [sameKeys]
    exact covers.all key inChunk isStored

/-- A read by keys returns what is shown under the keys asked for, in their order. -/
theorem getRowsByKeys_shows (kept : Kept table cache)
    (identified : ∀ row ∈ stored, (table.keysOf row).hasNull = false) (keys : List Keys)
    (gives : ∀ chunk, chunk ≠ [] →
      (∀ key ∈ chunk, key ∈ askedKeys keys ∧ cache.peek? key = none) →
        RowSource.Gives steady (source.rowsByKeys chunk) (table.Covers stored chunk)) :
    Leads (fun state => state.1 = cache ∧ steady state.2) (getRowsByKeys source keys)
      (fun found state =>
        (ReadByKeys table stored cache ((askedKeys keys).countP cache.contains)
            ((askedKeys keys).countP (!cache.contains ·)) state.1 ∧ steady state.2) ∧
          found.map Row.keys = (askedKeys keys).filter (fun key => Knows table cache stored key) ∧
          ∀ row ∈ found, Shows table cache stored row)
      Never := by
  have cachedCount : ((askedKeys keys).filterMap fun key =>
      (cache.peek? key).map (key, ·)).length = (askedKeys keys).countP cache.contains := by
    rw [List.length_filterMap_eq_countP]
    refine List.countP_congr fun key _ => ?_
    simp [contains_eq]
  have missingCount : ((askedKeys keys).filter (!cache.contains ·)).length =
      (askedKeys keys).countP (!cache.contains ·) := List.countP_eq_length_filter.symm
  unfold getRowsByKeys
  refine Leads.current_eq.bind fun now => Leads.given fun isNow => ?_
  subst isNow
  dsimp only
  rw [cachedCount, missingCount]
  refine (Leads.update (fun _ state => ReadByKeys table stored now
      ((askedKeys keys).countP now.contains) ((askedKeys keys).countP (!now.contains ·)) state.1 ∧
        steady state.2) fun state holds => ?_).bind fun _ => ?_
  · obtain ⟨isCache, isSteady⟩ := holds
    rw [isCache]
    exact ⟨⟨(Extends.refl _ now).sameRows rfl rfl rfl, rfl, rfl, rfl⟩, isSteady⟩
  -- the keys that are still to be loaded are those of the chunks to come
  have loop := Leads.foldlM
    (fun (rest : List (List Keys)) found (state : TableCache × World) =>
      ((ReadByKeys table stored now ((askedKeys keys).countP now.contains)
          ((askedKeys keys).countP (!now.contains ·)) state.1 ∧ steady state.2) ∧
        Gathered table now stored (askedKeys keys) rest.flatten found) ∧ ∀ chunk ∈ rest, chunk ≠ [])
    (fun chunk rest found => Leads.given fun notEmpty =>
      (loadChunk_shows kept identified now.generation rest.flatten found
        (gives chunk (notEmpty chunk List.mem_cons_self))).weaken (fun _ => id)
        (fun _ _ holds => ⟨holds, fun other later => notEmpty other (List.mem_cons_of_mem _ later)⟩)
        fun _ => id)
    (chunks chunkSize ((askedKeys keys).filter (!now.contains ·)))
    (.putAll {} ((askedKeys keys).filterMap fun key => (now.peek? key).map (key, ·)))
  rw [flatten_chunks (by decide)] at loop
  have gathered : Gathered table now stored _ _ _ := .cached kept.keyed keys
  refine (loop.weaken (fun state holds => ⟨⟨holds, gathered⟩, fun _ => ne_nil_of_mem_chunks⟩)
    (fun _ _ holds => holds) fun _ => id).bind fun found => Leads.returns fun state holds => ?_
  exact ⟨holds.1.1, holds.1.2.taken⟩

private theorem loadChunk_without (generation : Nat) (found : Entries Keys Row) {chunk : List Keys}
    {lost : Keys}
    (loads : Leads (fun state => steady state.2) (source.rowsByKeys chunk)
      (fun _ state => steady state.2 ∧ lost ∉ chunk) (fun _ => True)) :
    Leads (fun state => steady state.2) (loadChunk source generation found chunk)
      (fun _ state => steady state.2 ∧ lost ∉ chunk) (fun _ => True) :=
  loads.bind fun _ => (Leads.update (fun _ state => steady state.2 ∧ lost ∉ chunk)
    fun _ => id).bind fun _ => Leads.returns fun _ => id

/-- A read by keys fails if no chunk can be loaded that has a certain key among those asked
for, one that is not cached. -/
theorem getRowsByKeys_fails {keys : List Keys} {lost : Keys} (asked : lost ∈ askedKeys keys)
    (absent : cache.peek? lost = none)
    (loads : ∀ chunk, chunk ≠ [] → (∀ key ∈ chunk, key ∈ askedKeys keys) →
      Leads (fun state => steady state.2) (source.rowsByKeys chunk)
        (fun _ state => steady state.2 ∧ lost ∉ chunk) (fun _ => True)) :
    Leads (fun state => state.1 = cache ∧ steady state.2) (getRowsByKeys source keys)
      (fun _ => Never) (fun _ => True) := by
  have missing : (chunks chunkSize ((askedKeys keys).filter (!cache.contains ·))).flatten =
      (askedKeys keys).filter (!cache.contains ·) := flatten_chunks (by decide) _
  have isMissing : lost ∈ (askedKeys keys).filter (!cache.contains ·) := by
    refine List.mem_filter.mpr ⟨asked, ?_⟩
    simpa [contains_eq] using absent
  unfold getRowsByKeys
  refine Leads.current_eq.bind fun now => Leads.given fun isNow => ?_
  subst isNow
  refine (Leads.update (fun _ state => steady state.2) fun state holds => holds.2).bind fun _ => ?_
  -- as long as the loop goes on, the chunk with the key is still to come
  have loop := Leads.foldlM
    (fun (rest : List (List Keys)) (_ : Entries Keys Row) (state : TableCache × World) =>
      steady state.2 ∧ lost ∈ rest.flatten ∧
        ∀ chunk ∈ rest, chunk ≠ [] ∧ ∀ key ∈ chunk, key ∈ askedKeys keys)
    (fun chunk rest found => Leads.given fun still => by
      obtain ⟨notEmpty, inside⟩ := still.2 chunk List.mem_cons_self
      refine (loadChunk_without now.generation found (loads chunk notEmpty inside)).weaken
        (fun _ => id) (fun _ _ holds => ⟨holds.1, ?_, fun other isLater => ?_⟩) fun _ => id
      · exact (List.mem_append.mp still.1).resolve_left holds.2
      · exact still.2 other (List.mem_cons_of_mem _ isLater))
    (chunks chunkSize ((askedKeys keys).filter (!now.contains ·)))
    (.putAll {} ((askedKeys keys).filterMap fun key => (now.peek? key).map (key, ·)))
  refine (loop.weaken (fun _ isSteady => ⟨isSteady, missing.symm ▸ isMissing, fun chunk isChunk =>
    ⟨ne_nil_of_mem_chunks isChunk, fun key inChunk => ?_⟩⟩) (fun _ _ holds => holds)
      fun _ => id).bind fun _ => Leads.given fun nowhere => absurd nowhere.1 List.not_mem_nil
  have among : key ∈ (askedKeys keys).filter (!now.contains ·) :=
    missing ▸ List.mem_flatten_of_mem isChunk inChunk
  exact List.mem_of_mem_filter among

end

end TableCache

end RelationalAccess
