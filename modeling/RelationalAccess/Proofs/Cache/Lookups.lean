import RelationalAccess.Proofs.Cache.Shown

/-!
What a look-up by a value shows: of the rows that match, however the source tells which
these are, those that the cache shows under their keys. This holds on every route, as long
as a bucket for the value has the keys of the rows that match.
-/

namespace RelationalAccess

namespace TableCache

section

variable {World : Type} {table : Table} {source : RowSource World} {steady : World → Prop}
  {cache : TableCache} {stored matching : List (List Value)} {column : Nat} {value : Value}

/-- Rows that are shown under the keys of those that match, each once. -/
abbrev ShowsAll (table : Table) (cache : TableCache) (stored matching : List (List Value))
    (found : List Row) : Prop :=
  (found.map Row.keys).Perm (matching.map table.keysOf) ∧ ∀ row ∈ found, Shows table cache stored row

theorem ShowsAll.of_extends {now : TableCache} (extended : cache.Extends (table.Has stored) now)
    {found : List Row} (shown : ShowsAll table now stored matching found) :
    ShowsAll table cache stored matching found :=
  ⟨shown.1, fun row returned => (shown.2 row returned).of_extends extended⟩

/-- What is returned for all rows that match is what is shown under their keys. -/
theorem Kept.showsAll_storeRead (kept : Kept table cache) (within : matching.Sublist stored)
    {loaded : List Row} (isLoaded : table.Loaded loaded matching) (generation : Nat) :
    ShowsAll table cache stored matching (cache.storeRead generation loaded).1 := by
  refine ⟨?_, kept.shows_storeRead fun row membership => ?_⟩
  · rw [kept.keyed.storeRead_keys generation loaded]
    exact isLoaded.keys
  · exact ⟨isLoaded.table row membership, within.mem (isLoaded.mem membership)⟩

private theorem current_grown :
    Leads (cache.Grown steady (table.Has stored)) (current : Loading World TableCache)
      (fun _ => cache.Grown steady (table.Has stored)) Never :=
  Leads.current fun _ holds => holds

private theorem countReads_grown (hits misses : Nat) :
    Leads (cache.Grown steady (table.Has stored)) (countReads hits misses : Loading World Unit)
      (fun _ => cache.Grown steady (table.Has stored)) Never :=
  Leads.update _ fun _ holds => ⟨holds.1.sameRows rfl rfl rfl, holds.2⟩

private theorem replaceKeys_grown (generation : Nat) (keys : List Keys) :
    Leads (cache.Grown steady (table.Has stored))
      (update fun cache => ((), cache.replaceKeys generation column value keys) : Loading World Unit)
      (fun _ => cache.Grown steady (table.Has stored)) Never :=
  Leads.update _ fun _ holds => ⟨holds.1.replaceKeys _ _ _ _, holds.2⟩

private theorem storeRead_shows (kept : Kept table cache) (within : matching.Sublist stored)
    (generation : Nat) {loaded : List Row} (isLoaded : table.Loaded loaded matching) :
    Leads (cache.Grown steady (table.Has stored))
      (update fun cache => cache.storeRead generation loaded : Loading World (List Row))
      (fun found state => cache.Grown steady (table.Has stored) state ∧
        ShowsAll table cache stored matching found)
      Never := by
  refine Leads.update _ fun state holds => ?_
  obtain ⟨extended, isSteady⟩ := holds
  have has : ∀ row ∈ loaded, table.Has stored row := fun row membership =>
    ⟨isLoaded.table row membership, within.mem (isLoaded.mem membership)⟩
  have shown := (kept.of_extends extended).showsAll_storeRead within isLoaded generation
  exact ⟨⟨extended.storeRead generation has, isSteady⟩, shown.of_extends extended⟩

variable (kept : Kept table cache) (within : matching.Sublist stored)
  (byValue : RowSource.Gives steady (source.rowsByValue column value)
    fun loaded => table.Loaded loaded matching)

include kept within byValue

private theorem getRowsDirectly_shows :
    Leads (cache.Grown steady (table.Has stored)) (getRowsDirectly source column value)
      (fun found state => steady state.2 ∧ ShowsAll table cache stored matching found) Never := by
  refine current_grown.bind fun now => ?_
  refine (byValue (cache.Extends (table.Has stored))).bind fun loaded => Leads.given fun isLoaded => ?_
  refine (countReads_grown _ _).bind fun _ => ?_
  exact (storeRead_shows kept within _ isLoaded).weaken (fun _ => id)
    (fun _ _ holds => ⟨holds.1.2, holds.2⟩) fun _ => id

private theorem getRowsInBulk_shows (hits misses : Nat) :
    Leads (cache.Grown steady (table.Has stored)) (getRowsInBulk source column value hits misses)
      (fun found state => steady state.2 ∧ ShowsAll table cache stored matching found) Never := by
  refine current_grown.bind fun now => ?_
  refine (byValue (cache.Extends (table.Has stored))).bind fun loaded => Leads.given fun isLoaded => ?_
  refine (countReads_grown _ _).bind fun _ => ?_
  refine (storeRead_shows kept within _ isLoaded).bind fun found => Leads.given fun shown => ?_
  exact (replaceKeys_grown _ _).bind fun _ => Leads.returns fun _ holds => ⟨holds.2, shown⟩

omit kept within byValue

/-- The keys of a value that has no bucket are those of the rows that match. -/
private theorem getKeys_named (stored : List (List Value)) {index : IndexCache}
    (isIndex : cache.index? column = some index) (absent : index.get? value = none)
    (keysByValue : RowSource.Gives steady (source.keysByValue column value)
      fun keys => keys.Perm (matching.map table.keysOf)) :
    Leads (fun state => state.1 = cache ∧ steady state.2) (getKeys source index value)
      (fun keys state => cache.Grown steady (table.Has stored) state ∧
        keys.Perm (matching.map table.keysOf))
      Never := by
  obtain ⟨_, _, _, here, _⟩ := index?_split isIndex
  unfold getKeys
  rw [absent]
  refine Leads.current_eq.bind fun now => Leads.given fun _ => ?_
  rw [here]
  refine (keysByValue (· = cache)).bind fun keys => Leads.given fun named =>
    Leads.update _ fun state holds => ?_
  obtain ⟨isCache, isSteady⟩ := holds
  rw [isCache]
  refine ⟨⟨(Extends.refl _ cache).storeReadKeys _ _ _ _, isSteady⟩, ?_⟩
  have kept : (cache.storeReadKeys now.generation column value keys).1 = keys := by
    simp [storeReadKeys, isIndex, IndexCache.insert, absent, apply_ite]
  rw [kept]
  exact named

variable (distinct : table.DistinctKeys stored)
  (identified : ∀ row ∈ stored, (table.keysOf row).hasNull = false)

/-- The keys that answer a look-up by a value: those of the bucket for it, if so few of their
rows are missing that it is gone by, and else those of the rows that match. -/
def answering (cache : TableCache) (column : Nat) (value : Value) (matching : List Keys) :
    List Keys :=
  match (cache.index? column).bind (·.get? value) with
  | none => matching
  | some keys =>
    if isMostlyCached cache.bulkThreshold (keys.countP (!cache.contains ·)) keys.length then keys
    else matching

section

variable {keys others : List Keys} {index : IndexCache}

theorem answering_of_noIndex (isIndex : cache.index? column = none) :
    cache.answering column value others = others := by
  simp [answering, isIndex]

theorem answering_of_noBucket (isIndex : cache.index? column = some index)
    (absent : index.get? value = none) : cache.answering column value others = others := by
  simp [answering, isIndex, absent]

theorem answering_of_bucket (isIndex : cache.index? column = some index)
    (bucket : index.get? value = some keys) :
    cache.answering column value others =
      if isMostlyCached cache.bulkThreshold (keys.countP (!cache.contains ·)) keys.length then keys
      else others := by
  simp [answering, isIndex, bucket]

end

theorem answering_cases (cache : TableCache) (column : Nat) (value : Value) (matching : List Keys) :
    cache.answering column value matching = matching ∨
      ∃ keys, cache.HasBucket column value keys ∧
        cache.answering column value matching = keys := by
  cases isIndex : cache.index? column with
  | none => exact .inl (answering_of_noIndex isIndex)
  | some index =>
    obtain ⟨before, after, split, here, _⟩ := index?_split isIndex
    have isThere : index ∈ cache.indices := by simp [split]
    cases bucket : index.get? value with
    | none => exact .inl (answering_of_noBucket isIndex bucket)
    | some keys =>
      rw [answering_of_bucket isIndex bucket]
      split
      · exact .inr ⟨keys, ⟨index, isThere, here, bucket⟩, rfl⟩
      · exact .inl rfl

/-- If the bucket for a value has the keys of the rows that match, so have the keys that answer. -/
theorem answering_perm {matching : List Keys}
    (buckets : ∀ keys, cache.HasBucket column value keys → keys.Perm matching) :
    (cache.answering column value matching).Perm matching := by
  rcases cache.answering_cases column value matching with same | ⟨keys, isBucket, same⟩
  · rw [same]
  · rw [same]
    exact buckets keys isBucket

/-- Rows that are shown under some of the keys asked for: under each that is known, once. -/
abbrev ShowsUnder (table : Table) (cache : TableCache) (stored : List (List Value))
    (keys : List Keys) (found : List Row) : Prop :=
  (found.map Row.keys).Perm ((askedKeys keys).filter fun key => Knows table cache stored key) ∧
    ∀ row ∈ found, Shows table cache stored row

include kept identified in
private theorem getRowsByKeys_showsUnder {now : TableCache}
    (extended : cache.Extends (table.Has stored) now) {keys : List Keys}
    (byKeys : ∀ chunk, chunk ≠ [] → (∀ key ∈ chunk, key ∈ keys) →
      RowSource.Gives steady (source.rowsByKeys chunk) (table.Covers stored chunk)) :
    Leads (fun state => state.1 = now ∧ steady state.2) (getRowsByKeys source keys)
      (fun found state => steady state.2 ∧ ShowsUnder table now stored keys found) Never := by
  refine (getRowsByKeys_shows (kept.of_extends extended) identified keys
    fun chunk notEmpty inside => byKeys chunk notEmpty fun key inChunk =>
      (mem_askedKeys.mp (inside key inChunk).1).1).weaken (fun _ => id) ?_ fun _ => id
  intro found state holds
  exact ⟨holds.1.2, .of_eq holds.2.1, holds.2.2⟩

include distinct identified

/-- Keys of rows that match are asked for as they are, and all of them are known. -/
theorem known_of_named (within : matching.Sublist stored) {keys : List Keys}
    (named : keys.Perm (matching.map table.keysOf)) :
    ((askedKeys keys).filter fun key => Knows table cache stored key) = keys := by
  have isStored : ∀ key ∈ keys, key ∈ stored.map table.keysOf := fun key membership =>
    (within.map table.keysOf).mem (named.mem_iff.mp membership)
  have distinctKeys : keys.Nodup := named.nodup_iff.mpr (distinct.sublist (within.map _))
  have asAsked : askedKeys keys = keys := askedKeys_eq_self distinctKeys fun key membership => by
    obtain ⟨row, isRow, rfl⟩ := List.mem_map.mp (isStored key membership)
    exact identified row isRow
  rw [asAsked]
  exact List.filter_eq_self.mpr fun key membership => decide_eq_true (.inr (isStored key membership))

theorem showsUnder_iff (within : matching.Sublist stored) {keys : List Keys}
    (named : keys.Perm (matching.map table.keysOf)) {found : List Row} :
    ShowsUnder table cache stored keys found ↔ ShowsAll table cache stored matching found := by
  unfold ShowsUnder ShowsAll
  rw [known_of_named distinct identified within named]
  exact and_congr_left fun _ => ⟨fun same => same.trans named, fun same => same.trans named.symm⟩

include kept within

/-- Keys of rows that match lead to these rows, with whatever was added to the cache. -/
private theorem getRowsByKeys_showsAll {keys : List Keys} (named : keys.Perm (matching.map table.keysOf))
    (byKeys : ∀ chunk, chunk ≠ [] → (∀ key ∈ chunk, key ∈ keys) →
      RowSource.Gives steady (source.rowsByKeys chunk) (table.Covers stored chunk)) :
    Leads (cache.Grown steady (table.Has stored)) (getRowsByKeys source keys)
      (fun found state => steady state.2 ∧ ShowsAll table cache stored matching found) Never := by
  intro state holds
  have found := getRowsByKeys_showsUnder kept identified holds.1 byKeys state
    ⟨rfl, holds.2⟩
  revert found
  rcases getRowsByKeys source keys state with ⟨_ | rows, last⟩
  · exact id
  · intro found
    have shown := (showsUnder_iff distinct identified within named).mp found.2
    exact ⟨found.1, shown.of_extends holds.1⟩

/-- A look-up by a value shows the rows under the keys that answer it, on whichever route it
finds them. -/
theorem getRows_showsUnder (notNull : value.isNull = false)
    (byValue : RowSource.Gives steady (source.rowsByValue column value)
      fun loaded => table.Loaded loaded matching)
    (keysByValue : RowSource.Gives steady (source.keysByValue column value)
      fun keys => keys.Perm (matching.map table.keysOf))
    (byKeys : ∀ chunk, chunk ≠ [] → (∀ key ∈ chunk, key ∈ matching.map table.keysOf ∨
        ∃ keys, cache.HasBucket column value keys ∧ key ∈ keys) →
      RowSource.Gives steady (source.rowsByKeys chunk) (table.Covers stored chunk)) :
    Leads (fun state => state.1 = cache ∧ steady state.2) (getRows source column value)
      (fun found state => steady state.2 ∧ ShowsUnder table cache stored
        (cache.answering column value (matching.map table.keysOf)) found) Never := by
  have all {found : List Row} (shown : ShowsAll table cache stored matching found) :
      ShowsUnder table cache stored (matching.map table.keysOf) found :=
    (showsUnder_iff distinct identified within (.refl _)).mpr shown
  have unchanged : ∀ state : TableCache × World, state.1 = cache ∧ steady state.2 →
      cache.Grown steady (table.Has stored) state := by
    rintro ⟨_, world⟩ ⟨rfl, isSteady⟩
    exact ⟨.refl _ _, isSteady⟩
  unfold getRows
  rw [if_neg (by simp [notNull])]
  refine Leads.current_eq.bind fun now => Leads.given fun isNow => ?_
  subst isNow
  cases isIndex : now.index? column with
  | none =>
    rw [answering_of_noIndex isIndex]
    exact (getRowsDirectly_shows kept within byValue).weaken unchanged
      (fun _ _ holds => ⟨holds.1, all holds.2⟩) fun _ => id
  | some index =>
    dsimp only
    cases bucket : index.get? value with
    | none =>
      rw [answering_of_noBucket isIndex bucket]
      refine (getKeys_named stored isIndex bucket keysByValue).bind fun keys =>
        Leads.given fun named => ?_
      refine current_grown.bind fun later => ?_
      split
      · exact (getRowsByKeys_showsAll kept within distinct identified named
          fun chunk notEmpty inside => byKeys chunk notEmpty fun key inChunk =>
            .inl (named.mem_iff.mp (inside key inChunk))).weaken (fun _ => id)
          (fun _ _ holds => ⟨holds.1, all holds.2⟩) fun _ => id
      · exact (getRowsInBulk_shows kept within byValue _ _).weaken (fun _ => id)
          (fun _ _ holds => ⟨holds.1, all holds.2⟩) fun _ => id
    | some keys =>
      obtain ⟨before, after, split, here, _⟩ := index?_split isIndex
      have isBucket : now.HasBucket column value keys :=
        ⟨index, by simp [split], here, bucket⟩
      have gone : Leads (fun state => state.1 = now ∧ steady state.2) (getKeys source index value)
          (fun found state => (state.1 = now ∧ steady state.2) ∧ found = keys) Never := by
        unfold getKeys
        rw [bucket]
        exact Leads.returns fun _ holds => ⟨holds, rfl⟩
      rw [answering_of_bucket isIndex bucket]
      refine gone.bind fun found => Leads.given fun isFound => ?_
      subst isFound
      refine Leads.current_eq.bind fun later => Leads.given fun isLater => ?_
      subst isLater
      split
      · exact getRowsByKeys_showsUnder kept identified (.refl _ _)
          fun chunk notEmpty inside => byKeys chunk notEmpty fun key inChunk =>
            .inr ⟨found, isBucket, inside key inChunk⟩
      · exact (getRowsInBulk_shows kept within byValue _ _).weaken unchanged
          (fun _ _ holds => ⟨holds.1, all holds.2⟩) fun _ => id

/-- A look-up by a value shows all rows that match, if a bucket for the value has their keys. -/
theorem getRows_shows (notNull : value.isNull = false)
    (byValue : RowSource.Gives steady (source.rowsByValue column value)
      fun loaded => table.Loaded loaded matching)
    (keysByValue : RowSource.Gives steady (source.keysByValue column value)
      fun keys => keys.Perm (matching.map table.keysOf))
    (byKeys : ∀ chunk, chunk ≠ [] → (∀ key ∈ chunk, key ∈ matching.map table.keysOf) →
      RowSource.Gives steady (source.rowsByKeys chunk) (table.Covers stored chunk))
    (buckets : ∀ keys, cache.HasBucket column value keys → keys.Perm (matching.map table.keysOf)) :
    Leads (fun state => state.1 = cache ∧ steady state.2) (getRows source column value)
      (fun found state => steady state.2 ∧ ShowsAll table cache stored matching found) Never := by
  have named := answering_perm buckets
  refine (getRows_showsUnder kept within distinct identified notNull byValue keysByValue
    fun chunk notEmpty inside => byKeys chunk notEmpty fun key inChunk => ?_).weaken (fun _ => id)
      (fun found state holds => ?_) fun _ => id
  · rcases inside key inChunk with isMatch | bucket
    · exact isMatch
    · obtain ⟨keys, isBucket, inBucket⟩ := bucket
      exact (buckets keys isBucket).mem_iff.mp inBucket
  · exact ⟨holds.1, (showsUnder_iff distinct identified within named).mp holds.2⟩

end

end TableCache

/-- Lists of rows have the same rows: under the same keys the same values, in any order. -/
def SameRows (found other : List Row) : Prop :=
  (found.map fun row => (row.keys, row.values)).Perm (other.map fun row => (row.keys, row.values))

theorem Table.Loaded.sameRows {table : Table} {found other : List Row} {stored : List (List Value)}
    (loaded : table.Loaded found stored) (loadedToo : table.Loaded other stored) :
    SameRows found other := by
  have images {rows : List Row} (loaded : table.Loaded rows stored) :
      (rows.map fun row => (row.keys, row.values)).Perm
        (stored.map fun values => (table.keysOf values, values)) := by
    have same : (rows.map fun row => (row.keys, row.values)) =
        (rows.map Row.values).map fun values => (table.keysOf values, values) := by
      rw [List.map_map]
      refine List.map_congr_left fun row isRow => ?_
      rw [Row.keys, loaded.table row isRow]
      rfl
    rw [same]
    exact loaded.values.map _
  exact (images loaded).trans (images loadedToo).symm

/-- Rows that are shown under some keys and under others are the same if the keys that a row is
shown under are among these exactly if they are among those. -/
theorem TableCache.ShowsUnder.sameRows_iff {table : Table} {cache : TableCache}
    {stored : List (List Value)} (distinct : table.DistinctKeys stored) {keys others : List Keys}
    {found other : List Row} (shown : ShowsUnder table cache stored keys found)
    (shownToo : ShowsUnder table cache stored others other) :
    SameRows found other ↔ ∀ key, key.hasNull = false → Knows table cache stored key →
      (key ∈ keys ↔ key ∈ others) := by
  have mem_iff {asked : List Keys} {rows : List Row} (shown : ShowsUnder table cache stored asked rows)
      (key : Keys) : key ∈ rows.map Row.keys ↔
        (key ∈ asked ∧ key.hasNull = false) ∧ Knows table cache stored key := by
    rw [shown.1.mem_iff, List.mem_filter, mem_askedKeys, decide_eq_true_iff]
  have nodup {asked : List Keys} {rows : List Row} (shown : ShowsUnder table cache stored asked rows) :
      (rows.map fun row => (row.keys, row.values)).Nodup := by
    apply List.Nodup.of_map Prod.fst
    rw [List.map_map]
    exact shown.1.nodup_iff.mpr ((nodup_askedKeys asked).filter _)
  constructor
  · intro same key notNull known
    have sameKeys : (found.map Row.keys).Perm (other.map Row.keys) := by
      have mapped := List.Perm.map Prod.fst same
      rwa [List.map_map, List.map_map] at mapped
    have either := sameKeys.mem_iff (a := key)
    rw [mem_iff shown, mem_iff shownToo] at either
    simpa [notNull, known] using either
  · intro same
    have within {asked asked' : List Keys} {rows rows' : List Row}
        (shown : ShowsUnder table cache stored asked rows)
        (shown' : ShowsUnder table cache stored asked' rows')
        (among : ∀ key, key.hasNull = false → Knows table cache stored key → key ∈ asked → key ∈ asked')
        {image : Keys × List Value} (isImage : image ∈ rows.map fun row => (row.keys, row.values)) :
        image ∈ rows'.map fun row => (row.keys, row.values) := by
      obtain ⟨row, isRow, rfl⟩ := List.mem_map.mp isImage
      obtain ⟨⟨isAsked, notNull⟩, known⟩ := (mem_iff shown row.keys).mp (List.mem_map_of_mem isRow)
      obtain ⟨row', isRow', sameKeys⟩ := List.mem_map.mp
        ((mem_iff shown' row.keys).mpr ⟨⟨among row.keys notNull known isAsked, notNull⟩, known⟩)
      have sameValues := (shown'.2 row' isRow').unique distinct (shown.2 row isRow) sameKeys
      rw [← sameKeys, ← sameValues]
      exact List.mem_map_of_mem isRow'
    apply (List.perm_ext_iff_of_nodup (nodup shown) (nodup shownToo)).mpr
    intro image
    constructor
    · exact within shown shownToo fun key notNull known => (same key notNull known).mp
    · exact within shownToo shown fun key notNull known => (same key notNull known).mpr

end RelationalAccess
