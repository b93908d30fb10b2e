import RelationalAccess.Proofs.DataSource.Engine

/-!
Backends that tell stored rows from each other by the form in which a value is bound. What is
read of the rows that they store can be written again, and is bound to what is stored.
-/

namespace RelationalAccess

/-- Keys that can be written for the key columns of a table, with no null among them. -/
def Table.WritesKeys (dialect : Dialect) (table : Table) (keys : Keys) : Prop :=
  table.primaryKeys.Forall₂
    (fun position value => ∃ column, table.columns[position]? = some column ∧ value ≠ .null ∧
      ∃ bound, dialect.write column value = .ok bound)
    keys.values

/-- The stored rows of a table have the forms in which values are bound: what each of them is
read as is bound to it. No two have the same primary key. -/
structure Table.InForm (dialect : Dialect) (table : Table) (raws : List (List Value)) : Prop where
  bound : ∀ raw ∈ raws, ∃ values, table.readRow? dialect raw = some values ∧
    table.Binds dialect values raw
  distinct : table.hasPrimaryKey = true → table.DistinctKeys raws

/-- The stored rows that have a bound form in a column. -/
def Table.withForm (raws : List (List Value)) (position : Nat) (bound : Value) : List (List Value) :=
  raws.filter fun raw => raw.getD position .null = bound

/-- The keys that are read of the stored rows that have a bound form in a column. -/
def Table.keysWithForm (dialect : Dialect) (table : Table) (raws : List (List Value)) (position : Nat)
    (bound : Value) : List Keys :=
  (Table.withForm raws position bound).filterMap (table.readKeys? dialect)

theorem Table.keysWithForm_sublist (dialect : Dialect) (table : Table) (raws : List (List Value))
    (position : Nat) (bound : Value) :
    (table.keysWithForm dialect raws position bound).Sublist (raws.filterMap (table.readKeys? dialect)) :=
  List.filter_sublist.filterMap _

/-- A backend leaves what is stored when it is queried. Where the rows of a table have the forms
in which values are bound, it answers a query by a value with those that have the bound form of
the value, and a query by keys with those that have one of these in its bound form. -/
structure Backend.MatchesForms {World : Type} (backend : Backend World) (contents : World → Store)
    (dialect : Dialect) (table : Table) : Prop where
  unmoved : ∀ statement world, contents (backend.query statement world).2 = contents world
  rowsByValue : ∀ store : Store, table.InForm dialect (store table.id) →
    ∀ position column value bound, table.columns[position]? = some column → value ≠ .null →
      dialect.write column value = .ok bound →
        backend.Replies (contents · = store) dialect (.byValue table .all position value)
          fun result => result.Perm (Table.withForm (store table.id) position bound)
  keysByValue : ∀ store : Store, table.InForm dialect (store table.id) →
    table.hasPrimaryKey = true →
    ∀ position column value bound, table.columns[position]? = some column → value ≠ .null →
      dialect.write column value = .ok bound →
        backend.Replies (contents · = store) dialect (.byValue table .keys position value)
          fun result => result.Perm
            ((Table.withForm (store table.id) position bound).map fun raw => (table.keysOf raw).values)
  rowsByKeys : ∀ store : Store, table.InForm dialect (store table.id) →
    ∀ keys, keys ≠ [] → (∀ key ∈ keys, table.WritesKeys dialect key) →
      backend.Replies (contents · = store) dialect (.byKeys table keys)
        fun result => result.Perm ((store table.id).filter fun raw =>
          table.keysOf raw ∈ keys.map (table.boundKeys dialect))

section

variable {dialect : Dialect} {table : Table}

theorem Table.WritesKeys.not_hasNull {keys : Keys} (writes : table.WritesKeys dialect keys) :
    keys.hasNull = false := by
  refine List.any_eq_false.mpr fun value membership => ?_
  obtain ⟨_, _, _, _, notNull, _⟩ := counterpart_left writes membership
  rw [Value.isNull_iff]
  exact notNull

/-- A query of keys that can be written has a statement. -/
theorem Table.WritesKeys.statement {keys : List Keys} (notEmpty : keys ≠ [])
    (writes : ∀ key ∈ keys, table.WritesKeys dialect key) :
    ∃ statement, (Query.byKeys table keys).statement dialect = .ok statement := by
  refine Query.byKeys_statement notEmpty fun key isKey pair isPair => ?_
  obtain ⟨column, found, _, written⟩ := (List.forall₂_iff_zip.mp (writes key isKey)).2 isPair
  exact ⟨column, found, written⟩

/-- A query for keys that has a statement is of a table with a primary key. -/
theorem Query.keyed_of_statement {position : Nat} {value : Value} {statement : Statement}
    (isStatement : (byValue table .keys position value).statement dialect = .ok statement) :
    table.hasPrimaryKey = true := by
  obtain ⟨_, arePieces, _⟩ := ok_of_bind isStatement
  obtain ⟨_, projected, _⟩ := ok_of_bind arePieces
  replace projected : (if table.hasPrimaryKey then _ else _) = Except.ok _ := projected
  split at projected
  · assumption
  · cases projected

variable {place : Nat} (shaped : table.Shaped place)
include shaped

theorem Table.Shaped.insideKeys : ∀ key ∈ table.primaryKeys, key < table.columns.length := by
  intro key isKey
  obtain ⟨_, found, _⟩ := (shaped.keys key).mp isKey
  exact (List.getElem?_eq_some_iff.mp found).1

/-- The keys of a row are bound to those of the stored row that it is bound to. -/
theorem Table.Binds.boundKeys {values raw : List Value} (binds : table.Binds dialect values raw) :
    table.boundKeys dialect (table.keysOf values) = table.keysOf raw := by
  rw [Table.boundKeys, Table.keysOf, Table.keysOf, Keys.mk.injEq, List.zipWith_map_right,
    List.zipWith_self]
  refine List.map_congr_left fun key isKey => ?_
  obtain ⟨column, found, _⟩ := (shaped.keys key).mp isKey
  exact Table.boundForm_eq found (binds.bound key column found)

variable {raws : List (List Value)} (inForm : table.InForm dialect raws)
include inForm

omit shaped in
theorem Table.InForm.readable {raw : List Value} (isRaw : raw ∈ raws) :
    ∃ values, table.readRow? dialect raw = some values :=
  (inForm.bound raw isRaw).imp fun _ => And.left

/-- The rows with a bound form are read to have the keys that are read of them. -/
theorem Table.InForm.keysOf_withForm (position : Nat) (bound : Value) :
    ((Table.withForm raws position bound).filterMap (table.readRow? dialect)).map table.keysOf =
      table.keysWithForm dialect raws position bound := by
  have readable : ∀ raw ∈ Table.withForm raws position bound, ∃ values,
      table.readRow? dialect raw = some values := by
    intro raw isRaw
    exact inForm.readable (List.mem_of_mem_filter isRaw)
  obtain ⟨rows, each⟩ := exists_counterparts readable
  rw [filterMap_eq_of_picks each]
  refine (filterMap_eq_of_picks (List.forall₂_map_right_iff.mpr ?_)).symm
  exact each.imp fun _ _ isRead => Table.readKeys?_of_readRow? shaped isRead

/-- Rows that are read of stored ones have values that are read for the columns, and keys of
their own. -/
theorem Table.InForm.content : table.Content dialect (raws.filterMap (table.readRow? dialect)) where
  read row membership := by
    obtain ⟨raw, _, isRead⟩ := List.mem_filterMap.mp membership
    exact ⟨raw, Table.readRow?_eq_some.mp isRead⟩
  distinct keyed := by
    obtain ⟨rows, each⟩ := exists_counterparts inForm.bound
    rw [filterMap_eq_of_picks (each.imp fun _ _ => And.left)]
    refine List.Nodup.of_map (table.boundKeys dialect) ?_
    have same : (rows.map table.keysOf).map (table.boundKeys dialect) = raws.map table.keysOf := by
      rw [List.map_map, ← List.forall₂_eq_eq_eq, List.forall₂_map_left_iff, List.forall₂_map_right_iff]
      exact each.flip.imp fun _ _ holds => holds.2.boundKeys shaped
    rw [same]
    exact inForm.distinct keyed

/-- The keys that are read of a stored row can be written. -/
theorem Table.InForm.writesKeys {key : Keys} (isKey : key ∈ raws.filterMap (table.readKeys? dialect)) :
    table.WritesKeys dialect key := by
  obtain ⟨raw, isRaw, isRead⟩ := List.mem_filterMap.mp isKey
  obtain ⟨values, isRow, binds⟩ := inForm.bound raw isRaw
  obtain rfl := Option.some.inj ((Table.readKeys?_of_readRow? shaped isRow).symm.trans isRead)
  have reads : table.ReadsKeys dialect (table.keysOf values) :=
    shaped.readsKeys (Table.readKeys?_eq_some.mp isRead)
  unfold Table.WritesKeys
  unfold Table.ReadsKeys at reads
  rw [Table.keysOf, List.forall₂_map_right_iff, List.forall₂_same] at reads ⊢
  intro position isKey
  obtain ⟨column, found, isValue⟩ := reads position isKey
  exact ⟨column, found, isValue.notNull, _, binds.bound position column found⟩

end

/-- An engine matches the rows of its tables by bound forms. -/
theorem Database.engine_matchesForms {database : Database} (named : database.Named) (dialect : Dialect)
    {table : Table} (isTable : table ∈ database.tables)
    (inside : ∀ key ∈ table.primaryKeys, key < table.columns.length) :
    (database.engine dialect).MatchesForms EngineRows.committed dialect table := by
  have widths : ∀ store : Store, table.InForm dialect (store table.id) →
      ∀ world : EngineRows, world.committed = store →
        ∀ row ∈ world.committed table.id, row.length = table.columns.length := by
    intro store inForm world isStore row membership
    obtain ⟨_, _, binds⟩ := inForm.bound row (isStore ▸ membership)
    exact binds.storedWidth
  constructor
  · intro statement world
    simp only [Database.engine]
    split
    · rfl
    · split
      · rfl
      · rfl
  · intro store inForm position column value bound found notNull written statement isStatement world
      isStore
    have answered := engine_rowsByValue named isTable (widths store inForm world isStore) notNull
      (Filter.ofValues_writable found ⟨bound, written⟩) isStatement
    rw [Table.boundForm_eq found written, isStore] at answered
    exact ⟨_, world, answered, isStore, .refl _⟩
  · intro store inForm keyed position column value bound found notNull written statement isStatement world
      isStore
    have answered := engine_keysByValue named isTable (widths store inForm world isStore) keyed inside
      notNull (Filter.ofValues_writable found ⟨bound, written⟩) isStatement
    rw [Table.boundForm_eq found written, isStore] at answered
    exact ⟨_, world, answered, isStore, .refl _⟩
  · intro store inForm keys notEmpty writes statement isStatement world isStore
    have writable : (Filter.ofKeys table keys).Writable dialect table :=
      Filter.ofKeys_writable fun key isKey pair isPair => by
        obtain ⟨column, found, _, written⟩ := (List.forall₂_iff_zip.mp (writes key isKey)).2 isPair
        exact ⟨column, found, written⟩
    have answered := engine_byKeys named isTable (widths store inForm world isStore) notEmpty
      (fun key isKey => (writes key isKey).length_eq.symm)
      (fun key isKey => (writes key isKey).not_hasNull) writable isStatement
    rw [isStore] at answered
    exact ⟨_, world, answered, isStore, .refl _⟩

end RelationalAccess
