import Mathlib.Data.List.Perm.Basic
import RelationalAccess.Proofs.Cache.Following
import RelationalAccess.Proofs.DataSource.Forms

/-!
Look-ups in front of a backend that matches rows by bound forms. What such a backend returns
for a value depends on its bound form alone. So does what a look-up shows, but for the bucket
that it goes by, which is one of the value as it was given.
-/

namespace RelationalAccess

theorem Table.Shaped.readsAs_keys {table : Table} {place : Nat} (shaped : table.Shaped place)
    {dialect : Dialect} {raw : List Value} {keys : Keys}
    (isRead : table.readKeys? dialect raw = some keys)
    (width : keys.values.length = table.primaryKeys.length) :
    DataSource.ReadsAs dialect table.keyColumns (table.keysOf raw).values keys.values := by
  refine ⟨Table.readKeys?_eq_some.mp isRead, width.trans ?_⟩
  rw [keyColumns, columnsAt, List.length_filterMap_eq_countP]
  refine (List.countP_eq_length.mpr fun key isKey => ?_).symm
  simp [shaped.insideKeys key isKey]

namespace DataSource

variable {World : Type} {backend : Backend World} {contents : World → Store} {store : Store}
  {origin : DataSource} {table : Table} {place : Nat} (shaped : table.Shaped place)
  (answers : backend.MatchesForms contents origin.dialect table)
  (inForm : table.InForm origin.dialect (store table.id))

include answers inForm

section

variable {position : Nat} {column : Column} {value bound : Value}
  (found : table.columns[position]? = some column) (notNull : value ≠ .null)
  (written : origin.dialect.write column value = .ok bound)

include found notNull written

/-- A query by a value is replied to with rows that are read as those with its bound form. -/
theorem replies_rowsWithForm :
    backend.Replies (contents · = store) origin.dialect (.byValue table .all position value)
      fun result => ∃ values, result.Forall₂ (ReadsAs origin.dialect table.columns) values ∧
        values.Perm ((Table.withForm (store table.id) position bound).filterMap
          (table.readRow? origin.dialect)) := by
  intro statement isStatement world isStore
  obtain ⟨result, after, answered, steady, isResult⟩ := answers.rowsByValue store inForm position column
    value bound found notNull written statement isStatement world isStore
  have readable : ∀ raw ∈ result, ∃ values, table.readRow? origin.dialect raw = some values := by
    intro raw isReturned
    exact inForm.readable (List.mem_of_mem_filter (isResult.mem_iff.mp isReturned))
  obtain ⟨values, each⟩ := exists_counterparts readable
  refine ⟨result, after, answered, steady, values, ?_, ?_⟩
  · exact each.imp fun _ _ => Table.readRow?_eq_some.mp
  · rw [← filterMap_eq_of_picks each]
    exact isResult.filterMap _

include shaped in
/-- A query by a value for the keys is replied to with what is read as those of the rows with its
bound form. -/
theorem replies_keysWithForm (keyed : table.hasPrimaryKey = true) :
    backend.Replies (contents · = store) origin.dialect (.byValue table .keys position value)
      fun result => ∃ values, result.Forall₂ (ReadsAs origin.dialect table.keyColumns) values ∧
        (values.map Keys.mk).Perm
          (table.keysWithForm origin.dialect (store table.id) position bound) := by
  intro statement isStatement world isStore
  obtain ⟨result, after, answered, steady, isResult⟩ := answers.keysByValue store inForm keyed position
    column value bound found notNull written statement isStatement world isStore
  have readable : ∀ raw ∈ Table.withForm (store table.id) position bound, ∃ keys,
      table.readKeys? origin.dialect raw = some keys ∧
        ReadsAs origin.dialect table.keyColumns (table.keysOf raw).values keys.values := by
    intro raw isRaw
    obtain ⟨values, isRow⟩ := inForm.readable (List.mem_of_mem_filter isRaw)
    have isRead := Table.readKeys?_of_readRow? shaped isRow
    exact ⟨_, isRead, shaped.readsAs_keys isRead (by simp [Table.keysOf])⟩
  obtain ⟨keys, each⟩ := exists_counterparts readable
  have reads : List.Forall₂ (ReadsAs origin.dialect table.keyColumns)
      ((Table.withForm (store table.id) position bound).map fun raw => (table.keysOf raw).values)
      (keys.map Keys.values) := by
    rw [List.forall₂_map_left_iff, List.forall₂_map_right_iff]
    exact each.imp fun _ _ => And.right
  obtain ⟨values, isRead, isKeys⟩ := List.perm_comp_forall₂ isResult reads
  refine ⟨result, after, answered, steady, values, isRead, ?_⟩
  rw [Table.keysWithForm, filterMap_eq_of_picks (each.imp fun _ _ => And.left)]
  have named := isKeys.map Keys.mk
  rwa [Keys.map_mk_values] at named

theorem gives_rowsWithForm :
    RowSource.Gives (Still (contents · = store) origin)
      ((rowSource backend table).rowsByValue position value)
      fun loaded => table.Loaded loaded ((Table.withForm (store table.id) position bound).filterMap
        (table.readRow? origin.dialect)) :=
  rowsByValue_gives ⟨Query.byValue_statement (fun impossible => by cases impossible) found
    ⟨bound, written⟩, replies_rowsWithForm answers inForm found notNull written⟩

include shaped in
theorem gives_keysWithForm (keyed : table.hasPrimaryKey = true) :
    RowSource.Gives (Still (contents · = store) origin)
      ((rowSource backend table).keysByValue position value)
      fun keys => keys.Perm (table.keysWithForm origin.dialect (store table.id) position bound) := by
  intro condition
  have loads : Leads (Still (contents · = store) origin)
      (loadKeys backend (.byValue table .keys position value)) _ Never :=
    loadKeys_finds ⟨Query.byValue_statement (fun _ => keyed) found ⟨bound, written⟩,
      replies_keysWithForm shaped answers inForm found notNull written keyed⟩
  refine (beside_leads loads).weaken (fun _ => id) ?_ fun _ holds => holds.2
  intro keys state holds
  obtain ⟨kept, still, named⟩ := holds
  rw [Keys.map_mk_values] at named
  exact ⟨⟨kept, still⟩, named⟩

end

include shaped

/-- The source of a table gives the rows of keys that can be written. -/
theorem gives_rowsOfKeys {keys : List Keys} (notEmpty : keys ≠ [])
    (writes : ∀ key ∈ keys, table.WritesKeys origin.dialect key) :
    RowSource.Gives (Still (contents · = store) origin) ((rowSource backend table).rowsByKeys keys)
      (table.Covers ((store table.id).filterMap (table.readRow? origin.dialect)) keys) := by
  refine rowsByKeys_gives ⟨Table.WritesKeys.statement notEmpty writes, ?_⟩
  intro statement isStatement world isStore
  obtain ⟨result, after, answered, steady, isResult⟩ :=
    answers.rowsByKeys store inForm keys notEmpty writes statement isStatement world isStore
  have stored : ∀ raw ∈ result, raw ∈ store table.id := by
    intro raw isReturned
    exact List.mem_of_mem_filter (isResult.mem_iff.mp isReturned)
  obtain ⟨values, each⟩ := exists_counterparts fun raw isReturned =>
    inForm.readable (stored raw isReturned)
  refine ⟨result, after, answered, steady, values, each.imp fun _ _ => Table.readRow?_eq_some.mp, ?_, ?_⟩
  · intro row isRow
    obtain ⟨raw, isReturned, isRead⟩ := counterpart_left each isRow
    exact List.mem_filterMap.mpr ⟨raw, stored raw isReturned, isRead⟩
  · intro key isKey isThere
    obtain ⟨row, isRow, rfl⟩ := List.mem_map.mp isThere
    obtain ⟨raw, isRaw, isRead⟩ := List.mem_filterMap.mp isRow
    obtain ⟨other, isReadToo, binds⟩ := inForm.bound raw isRaw
    obtain rfl := Option.some.inj (isRead.symm.trans isReadToo)
    have isReturned : raw ∈ result := by
      rw [isResult.mem_iff, List.mem_filter, decide_eq_true_iff, ← binds.boundKeys shaped]
      exact ⟨isRaw, List.mem_map_of_mem isKey⟩
    obtain ⟨loaded, isLoaded, isReadLoaded⟩ := counterpart_right each isReturned
    obtain rfl := Option.some.inj (isRead.symm.trans isReadLoaded)
    exact List.mem_map_of_mem isLoaded

variable {cache : TableCache} (kept : TableCache.Kept table cache)
  (isCached : origin.cache.table? table.id = some cache)
include kept isCached

/-- A look-up by a key shows the row under it, unless there is a null in the key. -/
theorem getRow_showsUnder {key : Keys}
    (writes : key.hasNull = false → table.WritesKeys origin.dialect key) :
    Leads (Still (contents · = store) origin)
      (throughCache table (TableCache.getRow (rowSource backend table) key))
      (fun found _ => TableCache.ShowsUnder table cache
        ((store table.id).filterMap (table.readRow? origin.dialect)) [key] found.toList)
      (fun _ => False) := by
  have content := inForm.content shaped
  refine throughCache_leads isCached ?_
  refine (TableCache.getRowsByKeys_shows kept
    (fun row isRow => (content.readsKeys shaped isRow).not_hasNull) [key]
    fun chunk notEmpty inside => gives_rowsOfKeys shaped answers inForm notEmpty ?_).bind
      fun rows => Leads.returns fun state holds => ?_
  · intro other inChunk
    obtain ⟨isKey, notNull⟩ := TableCache.mem_askedKeys.mp (inside other inChunk).1
    obtain rfl := List.mem_singleton.mp isKey
    exact writes notNull
  · obtain ⟨_, sameKeys, shown⟩ := holds
    have atMostOne : rows.length ≤ 1 := by
      have asked : (TableCache.askedKeys [key]).length ≤ 1 := by
        cases hasNull : key.hasNull with
        | true => simp [TableCache.askedKeys, hasNull]
        | false => simp [TableCache.askedKeys, hasNull, List.eraseDups_cons]
      rw [← List.length_map Row.keys, sameKeys]
      exact Nat.le_trans (List.length_filter_le _ _) asked
    rw [toList_head? atMostOne]
    exact ⟨.of_eq sameKeys, shown⟩

/-- A look-up by a value shows the rows under the keys that answer it: those that the rows with
its bound form are read to have, unless there is a bucket that it goes by. -/
theorem getRows_showsUnder (keyed : table.hasPrimaryKey = true) {position : Nat} {column : Column}
    {value bound : Value} (found : table.columns[position]? = some column) (notNull : value ≠ .null)
    (written : origin.dialect.write column value = .ok bound)
    (buckets : ∀ keys, cache.HasBucket position value keys →
      ∀ key ∈ keys, table.WritesKeys origin.dialect key) :
    Leads (Still (contents · = store) origin)
      (throughCache table (TableCache.getRows (rowSource backend table) position value))
      (fun found _ => TableCache.ShowsUnder table cache
        ((store table.id).filterMap (table.readRow? origin.dialect))
        (cache.answering position value
          (table.keysWithForm origin.dialect (store table.id) position bound)) found)
      (fun _ => False) := by
  have content := inForm.content shaped
  have within : (Table.withForm (store table.id) position bound).Sublist (store table.id) :=
    List.filter_sublist
  have keysOf := inForm.keysOf_withForm shaped position bound
  have isKeysOf := gives_keysWithForm shaped answers inForm found notNull written keyed
  rw [← keysOf] at isKeysOf ⊢
  apply throughCache_leads isCached
  have identified : ∀ row ∈ (store table.id).filterMap (table.readRow? origin.dialect),
      (table.keysOf row).hasNull = false := by
    intro row isRow
    exact (content.readsKeys shaped isRow).not_hasNull
  have isPresent : value.isNull = false :=
    Bool.eq_false_iff.mpr fun isNull => notNull ((Value.isNull_iff value).mp isNull)
  refine (TableCache.getRows_showsUnder kept (within.filterMap _) (content.distinct keyed) identified
    isPresent (gives_rowsWithForm answers inForm found notNull written) isKeysOf
    fun chunk notEmpty inside => ?_).weaken (fun _ => id) (fun _ _ holds => holds.2) fun _ => id
  refine gives_rowsOfKeys shaped answers inForm notEmpty fun key inChunk => ?_
  rcases inside key inChunk with isMatch | ⟨keys, isBucket, isKey⟩
  · rw [keysOf] at isMatch
    exact inForm.writesKeys shaped ((Table.keysWithForm_sublist _ _ _ _ _).mem isMatch)
  · exact buckets keys isBucket key isKey

omit shaped answers inForm kept isCached

theorem requireTable_finds {steady : World → Prop} {name : String}
    (isTable : origin.database.requireTable name = .ok table) {failed : DataSource × World → Prop} :
    Leads (Still steady origin) (requireTable name : Session World Table)
      (fun found state => Still steady origin state ∧ found = table) failed := by
  refine current_still.bind fun source => Leads.given fun ⟨_, sameCache⟩ => ?_
  rw [DataSource.database, sameCache, ← DataSource.database, isTable]
  exact Leads.returns fun _ still => ⟨still, rfl⟩

variable {name : String} (isTable : origin.database.requireTable name = .ok table)

include shaped answers inForm kept isCached isTable

theorem get_showsUnder (keyed : table.hasPrimaryKey = true) {key : Keys}
    (whole : key.length = table.primaryKeys.length)
    (writes : key.hasNull = false → table.WritesKeys origin.dialect key) :
    Leads (Still (contents · = store) origin) (get backend name key)
      (fun found _ => TableCache.ShowsUnder table cache
        ((store table.id).filterMap (table.readRow? origin.dialect)) [key] found.toList)
      (fun _ => False) := by
  refine (requireTable_finds isTable).bind fun other => Leads.given fun isOther => ?_
  rw [isOther, if_pos ⟨keyed, whole⟩]
  exact getRow_showsUnder shaped answers inForm kept isCached writes

variable {columnName : String} {position : Nat} (isColumn : table.columnIndex? columnName = some position)
  {column : Column} {value bound : Value} (found : table.columns[position]? = some column)
  (notNull : value ≠ .null) (written : origin.dialect.write column value = .ok bound)

include isColumn found notNull written

theorem getRowsBy_showsUnder (keyed : table.hasPrimaryKey = true)
    (buckets : ∀ keys, cache.HasBucket position value keys →
      ∀ key ∈ keys, table.WritesKeys origin.dialect key) :
    Leads (Still (contents · = store) origin) (getRowsBy backend name columnName value)
      (fun found _ => TableCache.ShowsUnder table cache
        ((store table.id).filterMap (table.readRow? origin.dialect))
        (cache.answering position value
          (table.keysWithForm origin.dialect (store table.id) position bound)) found)
      (fun _ => False) := by
  refine (requireTable_finds isTable).bind fun other => Leads.given fun isOther => ?_
  rw [isOther, isColumn]
  dsimp only
  rw [if_pos keyed]
  exact getRows_showsUnder shaped answers inForm kept isCached keyed found notNull written buckets

omit shaped kept isCached in
/-- Without a primary key the rows are loaded. -/
theorem getRowsBy_loads (keyless : table.hasPrimaryKey = false) :
    Leads (Still (contents · = store) origin) (getRowsBy backend name columnName value)
      (fun found _ => table.Loaded found ((Table.withForm (store table.id) position bound).filterMap
        (table.readRow? origin.dialect)))
      (fun _ => False) := by
  refine (requireTable_finds isTable).bind fun other => Leads.given fun isOther => ?_
  rw [isOther, isColumn]
  dsimp only
  rw [if_neg (by simp [keyless])]
  refine (loadRows_finds ⟨Query.byValue_statement (fun impossible => by cases impossible) found
    ⟨bound, written⟩, replies_rowsWithForm answers inForm found notNull written⟩).weaken (fun _ => id) ?_
      fun _ => id
  intro rows state holds
  exact ⟨holds.2.1, holds.2.2⟩

end DataSource

end RelationalAccess
