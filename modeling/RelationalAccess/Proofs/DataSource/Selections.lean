import Mathlib.Data.List.Perm.Subperm
import RelationalAccess.DataSource.Selection
import RelationalAccess.Proofs.DataSource.Engine
import RelationalAccess.Proofs.Transaction.Runs

/-!
The rows of a selection, taken from the cache by the keys that were found, against the rows
of its statement alone. Whichever of them are cached, and in however many chunks the others
are loaded, both are the same rows in the same order, or neither can be had.
-/

namespace RelationalAccess

/-- The rows of the statement of a selection, each made of what the backend returns. -/
def Selection.direct {World : Type} (backend : Backend World) (selection : Selection) :
    Session World (List Row) := do
  let statement ← selection.statement
  DataSource.readRows selection.table (← DataSource.onBackend (backend.query statement))

/-- A backend that has some rows of a table answers to a selection consistently. The statement
of the selection returns some of them, each once, and that for the keys returns the key
columns of these, in the same order. By keys that were returned it finds the rows that have
them, in any order. No two rows have the same keys. -/
structure Backend.Consistent {World : Type} (backend : Backend World) (steady : World → Prop)
    (dialect : Dialect) (selection : Selection) (held selected : List (List Value)) : Prop where
  full : ∀ query, selection.query .all = .ok query →
    backend.Replies steady dialect query (· = selected)
  keys : ∀ query, selection.query .keys = .ok query →
    backend.Replies steady dialect query
      (· = selected.map fun raw => (selection.table.keysOf raw).values)
  byKeys : ∀ keys, keys ≠ [] →
    (∀ key ∈ keys, ∃ raw ∈ selected, selection.table.readKeys? dialect raw = some key) →
      backend.Replies steady dialect (.byKeys selection.table keys) fun loaded =>
        loaded.Perm (held.filter fun raw =>
          (selection.table.readKeys? dialect raw).any fun key => key ∈ keys)
  within : selected.Subperm held
  distinct : (held.filterMap (selection.table.readKeys? dialect)).Nodup

namespace Selection

/-- A selection has a statement. -/
def Stated (dialect : Dialect) (selection : Selection) : Prop :=
  ∃ query statement, selection.query .all = .ok query ∧ query.statement dialect = .ok statement

/-- The rows of a selection can be had: a statement asks for them, and all of them can be read. -/
structure Available (dialect : Dialect) (selection : Selection) (selected : List (List Value)) :
    Prop where
  stated : selection.Stated dialect
  readable : ∀ raw ∈ selected, ∃ values,
    DataSource.ReadsAs dialect selection.table.columns raw values

/-- Rows are made of those that are returned for a selection, one of each, in their order. -/
structure Made (dialect : Dialect) (selection : Selection) (selected : List (List Value))
    (rows : List Row) : Prop where
  stated : selection.Stated dialect
  sameTable : ∀ row ∈ rows, row.table = selection.table
  reads : selected.Forall₂ (DataSource.ReadsAs dialect selection.table.columns)
    (rows.map Row.values)

section

variable {dialect : Dialect} {selection : Selection} {selected : List (List Value)}
  {rows others : List Row}

/-- A selection has a statement exactly if its query has one, for rows or for keys. -/
theorem stated_iff (dialect : Dialect) {projection : Projection}
    (keyed : projection = .keys → selection.table.hasPrimaryKey = true) {query : Query}
    (isQuery : selection.query projection = .ok query) :
    selection.Stated dialect ↔ ∃ statement, query.statement dialect = .ok statement := by
  rcases selection.query_cases with ⟨refusal, refused⟩ | ⟨filter, order, asked⟩
  · cases (refused projection).symm.trans isQuery
  have statement_iff {projection : Projection}
      (keyed : projection = .keys → selection.table.hasPrimaryKey = true) {query : Query}
      (isQuery : selection.query projection = .ok query) :
      (∃ statement, query.statement dialect = .ok statement) ↔
        ∃ pieces, ({ table := selection.table, projection := .all, filter := some filter } :
          Query).filterPieces dialect = .ok pieces := by
    obtain rfl := Except.ok.inj ((asked projection).symm.trans isQuery)
    exact Query.statement_iff.trans (and_iff_right keyed)
  rw [statement_iff keyed isQuery, ← statement_iff (fun impossible => by cases impossible) (asked .all)]
  constructor
  · rintro ⟨query, statement, isAll, isStatement⟩
    obtain rfl := Except.ok.inj ((asked .all).symm.trans isAll)
    exact ⟨statement, isStatement⟩
  · rintro ⟨statement, isStatement⟩
    exact ⟨_, statement, asked .all, isStatement⟩

theorem not_stated {projection : Projection} {refusal : Error}
    (refused : selection.query projection = .error refusal) : ¬ selection.Stated dialect := by
  rintro ⟨query, statement, isQuery, _⟩
  rcases selection.query_cases with ⟨_, always⟩ | ⟨filter, order, asked⟩
  · cases (always .all).symm.trans isQuery
  · cases (asked projection).symm.trans refused

theorem Made.available (made : selection.Made dialect selected rows) :
    selection.Available dialect selected where
  stated := made.stated
  readable raw membership := by
    obtain ⟨values, _, isRead⟩ := counterpart_right made.reads membership
    exact ⟨values, isRead⟩

/-- What is made of the same rows are rows of the same values. -/
theorem Made.unique (made : selection.Made dialect selected rows)
    (madeToo : selection.Made dialect selected others) :
    rows.map (fun row => (row.table, row.values)) = others.map fun row => (row.table, row.values) := by
  have sameValues := List.right_unique_forall₂' DataSource.ReadsAs.unique made.reads madeToo.reads
  have alone {rows : List Row} (sameTable : ∀ row ∈ rows, row.table = selection.table) :
      rows.map (fun row => (row.table, row.values)) =
        (rows.map Row.values).map (selection.table, ·) := by
    rw [List.map_map]
    exact List.map_congr_left fun row membership => by rw [sameTable row membership]; rfl
  rw [alone made.sameTable, alone madeToo.sameTable, sameValues]

end

end Selection

namespace Selection

variable {World : Type} {backend : Backend World} {steady : World → Prop} {origin : DataSource}
  {selection : Selection} {held selected : List (List Value)}

/-- The statement of a selection alone loads the rows of its query. -/
theorem direct_eq (backend : Backend World) (selection : Selection) :
    selection.direct backend = (do DataSource.loadRows backend (← selection.query .all)) := by
  unfold direct statement
  rcases selection.query_cases with ⟨refusal, refused⟩ | ⟨filter, order, asked⟩
  · rw [refused]
    rfl
  · rw [asked, lift_ok_bind, lift_ok_bind, DataSource.loadRows, DataSource.run]
    simp only [bind_assoc]

section

variable (consistent : backend.Consistent steady origin.dialect selection held selected)
include consistent

/-- The query of a selection loads rows that are made of what it returns, if they can be had. -/
theorem loads_made :
    Leads (DataSource.Still steady origin)
      (do DataSource.loadRows backend (← selection.query .all) : Session World (List Row))
      (fun rows _ => selection.Made origin.dialect selected rows)
      (fun _ => ¬ selection.Available origin.dialect selected) := by
  refine Leads.attempt (fun refusal refused _ _ available => ?_) fun query isQuery => ?_
  · exact not_stated refused available.stated
  have stated_iff := selection.stated_iff origin.dialect (fun impossible => by cases impossible) isQuery
  refine (DataSource.run_replies (consistent.full query isQuery).stated
    fun unstated _ _ available => ?_).bind fun result => Leads.given fun ⟨isSelected, isStated⟩ => ?_
  · obtain ⟨statement, isStatement⟩ := stated_iff.mp available.stated
    exact unstated statement isStatement
  · subst isSelected
    rw [← (Selection.query_eq isQuery).1]
    refine (DataSource.readRows_reads fun raw membership unreadable _ _ available => ?_).weaken
      (fun _ => id) (fun rows _ holds => ⟨stated_iff.mpr isStated, holds.2.1, holds.2.2⟩)
        fun _ => id
    obtain ⟨values, isRead⟩ := available.readable raw membership
    exact unreadable values isRead

/-- The rows that the statement of a selection alone finds. -/
theorem direct_made :
    Leads (DataSource.Still steady origin) (selection.direct backend)
      (fun rows _ => selection.Made origin.dialect selected rows)
      (fun _ => ¬ selection.Available origin.dialect selected) := by
  rw [direct_eq]
  exact loads_made consistent

/-- The keys of a selection are read of what its statement returns, one of each row. -/
theorem keys_reads {place : Nat} (shaped : selection.table.Shaped place)
    (keyed : selection.table.hasPrimaryKey = true) :
    Leads (DataSource.Still steady origin) (selection.keys backend)
      (fun keys state => DataSource.Still steady origin state ∧
        selected.Forall₂ (fun raw key => selection.table.readKeys? origin.dialect raw = some key)
            keys ∧
          selection.Stated origin.dialect)
      (fun _ => ¬ selection.Available origin.dialect selected) := by
  refine Leads.attempt (fun refusal refused _ _ available => ?_) fun query isQuery => ?_
  · exact not_stated refused available.stated
  have stated_iff := selection.stated_iff origin.dialect (fun _ => keyed) isQuery
  refine (DataSource.run_replies (consistent.keys query isQuery).stated
    fun unstated _ _ available => ?_).bind fun result => Leads.given fun ⟨isSelected, isStated⟩ => ?_
  · obtain ⟨statement, isStatement⟩ := stated_iff.mp available.stated
    exact unstated statement isStatement
  · subst isSelected
    rw [← (Selection.query_eq isQuery).1]
    refine (DataSource.readKeys_reads fun raw membership unreadable _ _ available => ?_).weaken
      (fun _ => id) (fun rows _ holds => ⟨holds.1, ?_, stated_iff.mpr isStated⟩) fun _ => id
    · obtain ⟨returned, isReturned, rfl⟩ := List.mem_map.mp membership
      obtain ⟨values, isRead⟩ := available.readable returned isReturned
      have isKey := Table.readKeys?_of_readRow? shaped (Table.readRow?_eq_some.mpr isRead)
      exact unreadable _ (Table.readKeys?_eq_some.mp isKey)
    · exact (List.forall₂_map_left_iff.mp holds.2).imp fun _ _ => Table.readKeys?_eq_some.mpr

end

/-- The rows of the table that can be read have distinct keys. -/
theorem content_of_consistent
    (consistent : backend.Consistent steady origin.dialect selection held selected) {place : Nat}
    (shaped : selection.table.Shaped place) :
    selection.table.Content origin.dialect
      (held.filterMap (selection.table.readRow? origin.dialect)) where
  read row membership := by
    obtain ⟨raw, _, isRead⟩ := List.mem_filterMap.mp membership
    exact ⟨raw, Table.readRow?_eq_some.mp isRead⟩
  distinct _ := by
    rw [Table.DistinctKeys, List.map_filterMap, List.Nodup, List.pairwise_filterMap]
    refine (List.pairwise_filterMap.mp consistent.distinct).imp fun apart key isKey key' isKey' => ?_
    obtain ⟨values, isRead, rfl⟩ := Option.map_eq_some_iff.mp isKey
    obtain ⟨values', isRead', rfl⟩ := Option.map_eq_some_iff.mp isKey'
    exact apart _ (Table.readKeys?_of_readRow? shaped isRead) _
      (Table.readKeys?_of_readRow? shaped isRead')

section

variable {place : Nat} (shaped : selection.table.Shaped place)
  (typed : DataSource.Written origin.dialect selection.table)
  (consistent : backend.Consistent steady origin.dialect selection held selected)
include shaped typed consistent

/-- By some keys of selected rows those are loaded that the backend has, unless one of these
cannot be read. -/
private theorem loads_byKeys {keys : List Keys} (notEmpty : keys ≠ [])
    (isSelected : ∀ key ∈ keys, ∃ raw ∈ selected,
      selection.table.readKeys? origin.dialect raw = some key) :
    Leads (DataSource.Still steady origin)
      (DataSource.loadRows backend (.byKeys selection.table keys))
      (fun rows state => DataSource.Still steady origin state ∧
        (∀ row ∈ rows, row.table = selection.table) ∧
          ∃ loaded : List (List Value),
            loaded.Forall₂ (DataSource.ReadsAs origin.dialect selection.table.columns)
              (rows.map Row.values) ∧
            ∀ raw, raw ∈ loaded ↔ raw ∈ held ∧
              ∃ key ∈ keys, selection.table.readKeys? origin.dialect raw = some key)
      (fun _ => ¬ selection.Available origin.dialect selected) := by
  have hasStatement := DataSource.byKeys_hasStatement typed notEmpty fun key isKey => by
    obtain ⟨raw, _, isRead⟩ := isSelected key isKey
    exact shaped.readsKeys (Table.readKeys?_eq_some.mp isRead)
  obtain ⟨statement, isStatement⟩ := hasStatement
  refine (DataSource.run_replies (consistent.byKeys keys notEmpty isSelected) fun unstated =>
    absurd isStatement (unstated statement)).bind fun loaded => Leads.given fun found => ?_
  have isLoaded (raw : List Value) : raw ∈ loaded ↔ raw ∈ held ∧
      ∃ key ∈ keys, selection.table.readKeys? origin.dialect raw = some key := by
    rw [found.mem_iff, List.mem_filter, Option.any_eq_true]
    simp only [decide_eq_true_eq, and_comm]
  refine (DataSource.readRows_reads fun raw membership unreadable _ _ available => ?_).weaken
    (fun _ => id) (fun rows _ holds => ⟨holds.1, holds.2.1, loaded, holds.2.2, isLoaded⟩) fun _ => id
  -- a row that has the keys of a selected one is that one
  obtain ⟨isHeld, key, isKey, hasKey⟩ := (isLoaded raw).mp membership
  obtain ⟨other, isOther, hasKeyToo⟩ := isSelected key isKey
  have same := eq_of_picked consistent.distinct isHeld 
    (List.Subperm.subset consistent.within isOther) hasKey hasKeyToo
  obtain ⟨values, isRead⟩ := available.readable other isOther
  exact unreadable values (same ▸ isRead)

/-- If the rows of a selection can be had, the source of the table gives them by their keys. -/
private theorem gives_byKeys (available : selection.Available origin.dialect selected)
    {keys : List Keys} (notEmpty : keys ≠ [])
    (isSelected : ∀ key ∈ keys, ∃ raw ∈ selected,
      selection.table.readKeys? origin.dialect raw = some key) :
    RowSource.Gives (DataSource.Still steady origin)
      ((DataSource.rowSource backend selection.table).rowsByKeys keys)
      (selection.table.Covers (held.filterMap (selection.table.readRow? origin.dialect)) keys) := by
  intro condition
  refine (DataSource.beside_leads (loads_byKeys shaped typed consistent notEmpty isSelected)).weaken
    (fun _ => id) ?_ fun _ holds => holds.2 available
  rintro rows state ⟨kept, still, sameTable, loaded, reads, isLoaded⟩
  refine ⟨⟨kept, still⟩, fun row membership => ⟨sameTable row membership, ?_⟩,
    fun key isKey isThere => ?_⟩
  · obtain ⟨raw, fromLoaded, isRead⟩ := counterpart_left reads (List.mem_map_of_mem membership)
    exact List.mem_filterMap.mpr
      ⟨raw, ((isLoaded raw).mp fromLoaded).1, Table.readRow?_eq_some.mpr isRead⟩
  · obtain ⟨values, isStored, rfl⟩ := List.mem_map.mp isThere
    obtain ⟨raw, isHeld, isRead⟩ := List.mem_filterMap.mp isStored
    have hasKey := Table.readKeys?_of_readRow? shaped isRead
    have fromLoaded := (isLoaded raw).mpr ⟨isHeld, _, isKey, hasKey⟩
    obtain ⟨_, isMade, isReadToo⟩ := counterpart_right reads fromLoaded
    obtain ⟨row, membership, rfl⟩ := List.mem_map.mp isMade
    refine List.mem_map.mpr ⟨row, membership, ?_⟩
    rw [Row.keys, sameTable row membership,
      DataSource.ReadsAs.unique isReadToo (Table.readRow?_eq_some.mp isRead)]

end

/-- The keys that are read of selected rows are asked for as they are. -/
private theorem keys_asked {place : Nat} (shaped : selection.table.Shaped place)
    (consistent : backend.Consistent steady origin.dialect selection held selected) {keys : List Keys}
    (reads : selected.Forall₂ (fun raw key => selection.table.readKeys? origin.dialect raw = some key)
      keys) : TableCache.askedKeys keys = keys := by
  refine TableCache.askedKeys_eq_self ?_ fun key isKey => ?_
  · obtain ⟨among, reordered, within⟩ := consistent.within
    rw [← filterMap_eq_of_picks reads, ← (reordered.filterMap _).nodup_iff]
    exact consistent.distinct.sublist (within.filterMap _)
  · obtain ⟨raw, _, isRead⟩ := counterpart_left reads isKey
    exact (shaped.readsKeys (Table.readKeys?_eq_some.mp isRead)).not_hasNull

section

variable {place : Nat} (shaped : selection.table.Shaped place)
  (typed : DataSource.Written origin.dialect selection.table)
  (consistent : backend.Consistent steady origin.dialect selection held selected)
  {cache : TableCache}
  (current : TableCache.RowsCurrent selection.table cache
    (held.filterMap (selection.table.readRow? origin.dialect)))
  {keys : List Keys}
  (reads : selected.Forall₂ (fun raw key => selection.table.readKeys? origin.dialect raw = some key)
    keys)
include shaped typed consistent current reads

/-- The keys of the selected rows lead to these rows through a cache that agrees with the table,
if the rows can be had. -/
private theorem getRowsByKeys_made (keyed : selection.table.hasPrimaryKey = true)
    (available : selection.Available origin.dialect selected) :
    Leads (fun state => state.1 = cache ∧ DataSource.Still steady origin state.2)
      (TableCache.getRowsByKeys (DataSource.rowSource backend selection.table) keys)
      (fun rows _ => selection.Made origin.dialect selected rows) Never := by
  have content := content_of_consistent consistent shaped
  have asked := keys_asked shaped consistent reads
  have isSelected : ∀ key ∈ keys, ∃ raw ∈ selected,
      selection.table.readKeys? origin.dialect raw = some key := fun key => counterpart_left reads
  have shown := TableCache.getRowsByKeys_shows current.kept
    (fun row membership => (content.readsKeys shaped membership).not_hasNull) keys
    fun chunk notEmpty inside => gives_byKeys shaped typed consistent available notEmpty
      fun key inChunk => isSelected key (asked ▸ (inside key inChunk).1)
  refine shown.weaken (fun _ => id) ?_ fun _ => id
  rintro rows state ⟨_, sameKeys, shown⟩
  have has : ∀ row ∈ rows, selection.table.Has _ row := fun row membership =>
    current.has_of_shows (shown row membership)
  obtain ⟨values, each⟩ := exists_counterparts available.readable
  have isStored : ∀ row ∈ values, row ∈ held.filterMap (selection.table.readRow? origin.dialect) := by
    intro row membership
    obtain ⟨raw, isSelected, isRead⟩ := counterpart_left each membership
    exact List.mem_filterMap.mpr ⟨raw, List.Subperm.subset consistent.within isSelected,
      Table.readRow?_eq_some.mpr isRead⟩
  have keysOfValues : values.map selection.table.keysOf = keys := by
    rw [← filterMap_eq_of_picks reads]
    refine (filterMap_eq_of_picks ?_).symm
    refine List.forall₂_map_right_iff.mpr (each.imp fun raw row isRead => ?_)
    exact Table.readKeys?_of_readRow? shaped (Table.readRow?_eq_some.mpr isRead)
  have keysOfRows : (rows.map Row.values).map selection.table.keysOf = keys := by
    have known : ∀ key ∈ keys, TableCache.Knows selection.table cache _ key := fun key isKey =>
      .inr (List.map_subset _ isStored (keysOfValues ▸ isKey))
    have named : rows.map (selection.table.keysOf ∘ Row.values) = rows.map Row.keys :=
      List.map_congr_left fun row membership => (has row membership).keys.symm
    rw [List.map_map, named, sameKeys, asked]
    exact List.filter_eq_self.mpr fun key isKey => decide_eq_true (known key isKey)
  have same : rows.map Row.values = values := by
    refine eq_of_map_eq (keysOfRows.trans keysOfValues.symm) fun row isMade row' isValue => ?_
    obtain ⟨made, membership, rfl⟩ := List.mem_map.mp isMade
    exact (content.distinct keyed).eq_of_keysOf (has made membership).stored (isStored row' isValue)
  exact ⟨available.stated, fun row membership => (has row membership).sameTable, same ▸ each⟩

/-- If one of the selected rows cannot be read, they cannot be had by their keys either. -/
private theorem getRowsByKeys_refuses {raw : List Value} (isSelected : raw ∈ selected)
    (unreadable : ∀ values, ¬ DataSource.ReadsAs origin.dialect selection.table.columns raw values) :
    Leads (fun state => state.1 = cache ∧ DataSource.Still steady origin state.2)
      (TableCache.getRowsByKeys (DataSource.rowSource backend selection.table) keys)
      (fun _ => Never) (fun _ => True) := by
  obtain ⟨lost, isKey, hasKey⟩ := counterpart_right reads isSelected
  have asked := keys_asked shaped consistent reads
  have isHeld := List.Subperm.subset consistent.within isSelected
  refine TableCache.getRowsByKeys_fails (asked.symm ▸ isKey) ?_ fun chunk notEmpty inside => ?_
  · refine Option.eq_none_iff_forall_ne_some.mpr fun row cached => ?_
    have has := current.current lost row cached
    obtain ⟨other, isOther, isRead⟩ := List.mem_filterMap.mp has.stored
    have hasKeyToo := Table.readKeys?_of_readRow? shaped isRead
    rw [← has.keys, current.keyed lost row cached] at hasKeyToo
    have same := eq_of_picked consistent.distinct isHeld isOther hasKey hasKeyToo
    exact unreadable row.values (same ▸ Table.readRow?_eq_some.mp isRead)
  · have loads := loads_byKeys shaped typed consistent notEmpty fun key inChunk =>
      counterpart_left reads (asked ▸ inside key inChunk)
    have besides := @DataSource.beside_leads _ _ _ (fun _ => True) _ _ _ loads
    refine besides.weaken (fun _ still => ⟨trivial, still⟩) ?_ fun _ _ => trivial
    rintro rows state ⟨_, still, _, loaded, isRead, isLoaded⟩
    refine ⟨still, fun inChunk => ?_⟩
    have fromLoaded := (isLoaded raw).mpr ⟨isHeld, lost, inChunk, hasKey⟩
    obtain ⟨values, _, isValue⟩ := counterpart_right isRead fromLoaded
    exact unreadable values isValue

end

/-- The rows of a selection are made of what its statement returns, if they can be had, through
a cache that agrees with the table or without one. -/
theorem rows_made {place : Nat} (shaped : selection.table.Shaped place)
    (typed : DataSource.Written origin.dialect selection.table)
    (consistent : backend.Consistent steady origin.dialect selection held selected)
    {cache : TableCache} (isCached : origin.cache.table? selection.table.id = some cache)
    (current : TableCache.RowsCurrent selection.table cache
      (held.filterMap (selection.table.readRow? origin.dialect))) :
    Leads (DataSource.Still steady origin) (selection.rows backend)
      (fun rows _ => selection.Made origin.dialect selected rows)
      (fun _ => ¬ selection.Available origin.dialect selected) := by
  refine DataSource.current_still.bind fun source => Leads.given fun ⟨_, sameCache⟩ => ?_
  dsimp only
  rw [sameCache, isCached]
  split
  · next served =>
    have keyed : selection.table.hasPrimaryKey = true := (Bool.and_eq_true_iff.mp served).1
    refine (keys_reads consistent shaped keyed).bind fun keys => Leads.given fun ⟨reads, stated⟩ => ?_
    by_cases readable : ∀ raw ∈ selected, ∃ values,
        DataSource.ReadsAs origin.dialect selection.table.columns raw values
    · have made := getRowsByKeys_made shaped typed consistent current reads keyed ⟨stated, readable⟩
      exact DataSource.throughCache_leads isCached (made.weaken (fun _ => id) (fun _ _ => id)
        fun _ impossible => impossible.elim)
    · have unavailable : ¬ selection.Available origin.dialect selected :=
        fun available => readable available.readable
      push Not at readable
      obtain ⟨raw, isSelected, unreadable⟩ := readable
      have refuses := getRowsByKeys_refuses shaped typed consistent current reads isSelected unreadable
      exact DataSource.throughCache_leads isCached (refuses.weaken (fun _ => id)
        (fun _ _ impossible => impossible.elim) fun _ _ => unavailable)
  · exact loads_made consistent

/-- A selection of a built database finds the same rows in the same order through the cache of
its table as its statement does alone, or neither finds any. It does not matter which of the
rows are cached, as long as the cached ones are rows of the table. -/
theorem rows_eq_direct {draft : DatabaseDraft} (built : draft.build = .ok origin.cache.database)
    (isTable : origin.cache.database.tables[selection.table.id]? = some selection.table)
    {cache : TableCache} (isCached : origin.cache.table? selection.table.id = some cache)
    (current : TableCache.RowsCurrent selection.table cache
      (held.filterMap (selection.table.readRow? origin.dialect)))
    (consistent : backend.Consistent steady origin.dialect selection held selected)
    {world : World} (isSteady : steady world) :
    let contents (result : Except Error (List Row)) :=
      result.toOption.map fun rows => rows.map fun row => (row.table, row.values)
    contents (selection.rows backend (origin, world)).1 =
      contents (selection.direct backend (origin, world)).1 := by
  intro contents
  have accepted := DatabaseDraft.accepted_of_build built
  obtain ⟨_, _, _, shaped⟩ := accepted.table isTable
  have typed : DataSource.Written origin.dialect selection.table := fun column onTable =>
    accepted.typed (List.mem_of_getElem? isTable) onTable origin.dialect.engine_isConcrete
  have still : DataSource.Still steady origin (origin, world) := .refl isSteady
  have throughCache := rows_made shaped typed consistent isCached current (origin, world) still
  have alone := direct_made consistent (origin, world) still
  revert throughCache alone
  rcases selection.rows backend (origin, world) with ⟨refusal | rows, _⟩
  · rcases selection.direct backend (origin, world) with ⟨_ | others, _⟩
    · exact fun _ _ => rfl
    · exact fun unavailable made => (unavailable made.available).elim
  · rcases selection.direct backend (origin, world) with ⟨_ | others, _⟩
    · exact fun made unavailable => (unavailable made.available).elim
    · exact fun made madeToo => congrArg some (made.unique madeToo)

end Selection

/-- A backend that has the replies to some statements ready. -/
def Backend.replying {World : Type} (backend : Backend World)
    (replies : List (Statement × List (List Value))) : Backend World :=
  { backend with
    query := fun statement world =>
      match replies.lookup statement with
      | some result => (.ok result, world)
      | none => backend.query statement world }

theorem Backend.replying_of_ne {World : Type} {backend : Backend World}
    {replies : List (Statement × List (List Value))} {statement : Statement}
    (apart : ∀ reply ∈ replies, statement ≠ reply.1) (world : World) :
    (backend.replying replies).query statement world = backend.query statement world := by
  have unprepared : replies.lookup statement = none :=
    List.lookup_eq_none_iff.mpr fun reply isReply => by simpa using apart reply isReply
  simp only [replying, unprepared]

/-- The two items with the largest first amounts. -/
def largestItems : Selection :=
  { table := measuredItems, order := [{ key := .field "a", descending := true }], limit := some 2 }

/-- An engine that has three items and sorts them. -/
def sortingEngine : Backend EngineRows :=
  (measuredDatabase.engine .sqlite).replying
    [({ text := "SELECT \"id\", \"a\", \"b\" FROM \"items\" ORDER BY \"a\" DESC LIMIT 2" },
        [measured 2 30 5, measured 3 20 7]),
      ({ text := "SELECT \"id\" FROM \"items\" ORDER BY \"a\" DESC LIMIT 2" }, [[.int 2], [.int 3]])]

/-- The items that the engine has. -/
def threeItems : List (List Value) := [measured 1 10 20, measured 2 30 5, measured 3 20 7]

def HasThreeItems (world : EngineRows) : Prop := world.committed 0 = threeItems

namespace Selection

private theorem consistent_largestItems :
    sortingEngine.Consistent HasThreeItems .sqlite largestItems threeItems
      [measured 2 30 5, measured 3 20 7] where
  full query isQuery statement isStatement world isThere := by
    obtain rfl := Except.ok.inj isQuery
    obtain rfl := Except.ok.inj isStatement
    exact ⟨_, world, rfl, isThere, rfl⟩
  keys query isQuery statement isStatement world isThere := by
    obtain rfl := Except.ok.inj isQuery
    obtain rfl := Except.ok.inj isStatement
    exact ⟨_, world, rfl, isThere, rfl⟩
  byKeys keys notEmpty isSelected statement isStatement world isThere := by
    have isTable : measuredItems ∈ measuredDatabase.tables := List.mem_singleton_self _
    have built : measuredDraft.build = .ok measuredDatabase := rfl
    obtain ⟨_, _, _, shaped⟩ := (DatabaseDraft.accepted_of_build built).table
      (rfl : measuredDatabase.tables[0]? = some measuredItems)
    have reads : ∀ key ∈ keys, measuredItems.ReadsKeys .sqlite key := fun key isKey => by
      obtain ⟨raw, _, isRead⟩ := isSelected key isKey
      exact shaped.readsKeys (Table.readKeys?_eq_some.mp isRead)
    replace isThere : world.committed measuredItems.id = threeItems := isThere
    have widths : ∀ row ∈ world.committed measuredItems.id, row.length = 3 := by
      rw [isThere]
      decide
    have answered := Database.engine_readKeys ⟨by decide, by decide⟩ isTable (by decide) widths notEmpty
      reads isStatement
    rw [isThere] at answered
    refine ⟨threeItems.filter fun row => measuredItems.keysOf row ∈ keys, world, ?_, isThere, ?_⟩
    -- the statements that are prepared could not be read by the engine
    · refine (Backend.replying_of_ne ?_ world).trans answered
      rintro reply isReply rfl
      rcases List.mem_pair.mp isReply with rfl | rfl
      · cases answered
      · cases answered
    · refine .of_eq (List.filter_congr fun row membership => ?_)
      have hasKeys : measuredItems.readKeys? .sqlite row = some (measuredItems.keysOf row) := by
        revert row
        decide
      show _ = (measuredItems.readKeys? .sqlite row).any fun key => key ∈ keys
      rw [hasKeys]
      rfl
  within := (List.sublist_cons_self _ _).subperm
  distinct := by decide

/-- One of the largest items is cached, and the other is loaded by its key. -/
theorem rows_eq_direct_largestItems :
    let cache := ((TableCache.new measuredItems measuredDatabase.settings).storeRead 0
      [{ identity := 0, table := measuredItems, values := measured 3 20 7 }]).2
    let origin : DataSource :=
      { dialect := .sqlite, cache := (DatabaseCache.new measuredDatabase).setTable 0 cache }
    let world : EngineRows := { committed := fun position => if position = 0 then threeItems else [] }
    cache.enabled = true ∧ cache.contains ⟨[.int 3]⟩ = true ∧ cache.contains ⟨[.int 2]⟩ = false ∧
      ((largestItems.rows sortingEngine (origin, world)).1.toOption.map fun rows =>
          rows.map fun row => (row.table, row.values)) =
        some [(measuredItems, measured 2 30 5), (measuredItems, measured 3 20 7)] := by
  intro cache origin world
  have allRead : threeItems.filterMap (measuredItems.readRow? .sqlite) = threeItems := by decide
  have current : TableCache.RowsCurrent measuredItems cache
      (threeItems.filterMap (measuredItems.readRow? .sqlite)) := by
    rw [allRead]
    apply TableCache.Mirrors.toRowsCurrent
    refine (TableCache.Mirrors.new measuredItems _ threeItems).storeRead fun row membership => ?_
    obtain rfl := List.mem_singleton.mp membership
    exact ⟨rfl, by decide⟩
  refine ⟨rfl, rfl, rfl, ?_⟩
  have built : measuredDraft.build = .ok origin.cache.database := rfl
  have isThere : HasThreeItems world := rfl
  exact rows_eq_direct built rfl rfl current consistent_largestItems isThere

end Selection

end RelationalAccess
