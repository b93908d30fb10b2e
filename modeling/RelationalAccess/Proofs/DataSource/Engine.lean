import RelationalAccess.Proofs.DataSource.Matching

/-!
An engine that has the rows of a database and answers queries by reading their text. It
tells the values in its columns from others as they are bound. What the statements of a
transaction make of the rows is given to it beforehand.
-/

namespace RelationalAccess

/-- The value of a row in the column of a name. -/
def Table.cell (table : Table) (row : List Value) (name : String) : Value :=
  (table.columns.findIdx? (·.name == name)).elim .null (row.getD · .null)

/-- What a query that was read returns of the rows of its table. -/
def ReadQuery.answer (table : Table) (rows : List (List Value)) (read : ReadQuery) :
    List (List Value) :=
  (rows.filter fun row => decide (∀ condition ∈ read.condition,
    condition.truthBy (fun _ => Test.truth .plain (table.cell row)) = .holds)).map fun row =>
      (read.columns.getD []).map (table.cell row)

/-- The rows of an engine: those that are committed, those that the open transaction sees, and
those that the statements to come leave. -/
structure EngineRows where
  committed : Store
  working : Store := committed
  coming : List Store := []

/-- An engine that reads queries of a database. -/
def Database.engine (database : Database) (dialect : Dialect) : Backend EngineRows where
  query statement world :=
    match ReadQuery.ofTokens? (statement.tokens dialect) with
    | none => (.error (.reported .backend "syntax error"), world)
    | some read =>
      match database.table? read.table with
      | none => (.error (.unknownTable database.name read.table), world)
      | some table => (.ok (read.answer table (world.committed table.id)), world)
  start world := (.ok 0, { world with working := world.committed })
  execute _ _ world :=
    match world.coming with
    | [] => (.error (.reported .backend "no more rows"), world)
    | rows :: coming => (.ok ⟨1, none⟩, { world with working := rows, coming })
  commit _ world := (.ok (), { world with committed := world.working })
  rollback _ world := (.ok (), world)

/-- The tables of a database can be told apart by their names, and so can their columns. -/
structure Database.Named (database : Database) : Prop where
  tables : (database.tables.map (·.name)).Nodup
  columns : ∀ table ∈ database.tables, (table.columns.map (·.name)).Nodup

section

variable {database : Database} {dialect : Dialect} {table : Table} {row : List Value}

theorem Database.Named.table?_eq (named : database.Named) (isTable : table ∈ database.tables) :
    database.table? table.name = some table := by
  have found : (database.tables.find? (·.name == table.name)).isSome = true :=
    List.find?_isSome.mpr ⟨table, isTable, by simp⟩
  obtain ⟨other, isFound⟩ := Option.isSome_iff_exists.mp found
  have sameName : other.name = table.name := by simpa using List.find?_some isFound
  rw [Database.table?, isFound,
    List.inj_on_of_nodup_map named.tables (List.mem_of_find?_eq_some isFound) isTable sameName]

theorem Table.cell_name (distinct : (table.columns.map (·.name)).Nodup) {position : Nat}
    {column : Column} (found : table.columns[position]? = some column) :
    table.cell row column.name = row.getD position .null := by
  obtain ⟨inside, isColumn⟩ := List.getElem?_eq_some_iff.mp found
  have isFirst : table.columns.findIdx? (·.name == column.name) = some position := by
    refine List.findIdx?_eq_some_iff_getElem.mpr ⟨inside, by simp [isColumn], fun earlier before => ?_⟩
    have apart := List.pairwise_iff_getElem.mp distinct earlier position
      (by simpa using Nat.lt_trans before inside) (by simpa using inside) before
    simpa [isColumn] using apart
  rw [cell, isFirst]
  rfl

/-- A row that is as wide as its table is made up of its cells. -/
theorem Table.rowOf_cell (distinct : (table.columns.map (·.name)).Nodup)
    (width : row.length = table.columns.length) : table.rowOf (table.cell row) = row := by
  refine List.ext_getElem (by simp [rowOf, width]) fun position inside insideRow => ?_
  have found := List.getElem?_eq_getElem (width ▸ insideRow : position < table.columns.length)
  simp only [rowOf, List.getElem_map]
  rw [cell_name distinct found, List.getD_eq_getElem _ _ insideRow]

/-- The key columns of a row are those of its keys. -/
theorem Table.keyCells (distinct : (table.columns.map (·.name)).Nodup)
    (inside : ∀ key ∈ table.primaryKeys, key < table.columns.length) :
    ((table.columnsAt table.primaryKeys).map (·.name)).map (table.cell row) =
      (table.keysOf row).values := by
  rw [columnsAt, keysOf, List.map_map, List.map_filterMap, ← List.filterMap_eq_map]
  refine List.filterMap_congr fun key isKey => ?_
  have found := List.getElem?_eq_getElem (inside key isKey)
  rw [found, Option.map_some, Function.comp_apply, Function.comp_apply, cell_name distinct found]

variable (named : database.Named) (isTable : table ∈ database.tables) {world : EngineRows}
  (widths : ∀ row ∈ world.committed table.id, row.length = table.columns.length)

include named isTable

/-- A query whose filter has members is answered with the rows on which the filter holds. -/
theorem Database.engine_query {projection : Projection}
    (keyed : projection = .keys → table.hasPrimaryKey = true) {filter : Filter}
    (members : filter.isEmpty = false) (writable : filter.Writable dialect table) {statement : Statement}
    (isStatement : ({ table, projection, filter := some filter } : Query).statement dialect =
      .ok statement) :
    (database.engine dialect).query statement world =
      (.ok (((world.committed table.id).filter fun row =>
          filter.storedTruth dialect table .plain (table.cell row) = .holds).map fun row =>
            ((projection.columns? table).getD []).map (table.cell row)), world) := by
  obtain ⟨other, isOther, isRead⟩ := Query.readsAs_filter keyed members writable
  obtain rfl := Except.ok.inj (isStatement.symm.trans isOther)
  simp only [Database.engine, isRead, named.table?_eq isTable, ReadQuery.answer]
  congr 3
  refine List.filter_congr fun row _ => decide_eq_decide.mpr ?_
  exact Query.selects_filter writable (projection.columns? table) .plain (table.cell row)

include widths

private theorem Database.map_cells {rows : List (List Value)}
    (within : ∀ row ∈ rows, row ∈ world.committed table.id) :
    rows.map (fun row => (table.columns.map (·.name)).map (table.cell row)) = rows := by
  refine (List.map_congr_left fun row membership => ?_).trans (List.map_id rows)
  rw [List.map_map]
  exact Table.rowOf_cell (named.columns table isTable) (widths row (within row membership))

private theorem Database.filter_byValue {position : Nat} {value : Value} (notNull : value ≠ .null)
    (writable : (Filter.ofValues [position] [value]).Writable dialect table) :
    (world.committed table.id).filter (fun row =>
        (Filter.ofValues [position] [value]).storedTruth dialect table .plain (table.cell row) = .holds) =
      (world.committed table.id).filter fun row =>
        row.getD position .null = table.boundForm dialect position value := by
  refine List.filter_congr fun row membership => decide_eq_decide.mpr ?_
  rw [Filter.storedTruth_ofValue notNull writable fun _ => rfl,
    Table.rowOf_cell (named.columns table isTable) (widths row membership)]

/-- A query by a value is answered with the rows that have its bound form. -/
theorem Database.engine_rowsByValue {position : Nat} {value : Value} (notNull : value ≠ .null)
    (writable : (Filter.ofValues [position] [value]).Writable dialect table) {statement : Statement}
    (isStatement : (Query.byValue table .all position value).statement dialect = .ok statement) :
    (database.engine dialect).query statement world =
      (.ok ((world.committed table.id).filter fun row =>
          row.getD position .null = table.boundForm dialect position value), world) := by
  have all : Projection.all = .keys → table.hasPrimaryKey = true := nofun
  rw [engine_query named isTable all rfl writable isStatement,
    filter_byValue named isTable widths notNull writable]
  exact congrArg (fun rows => (Except.ok rows, world))
    (map_cells named isTable widths fun row => List.mem_of_mem_filter)

/-- A query by a value for the keys is answered with those of the rows that have its bound form. -/
theorem Database.engine_keysByValue (keyed : table.hasPrimaryKey = true)
    (inside : ∀ key ∈ table.primaryKeys, key < table.columns.length) {position : Nat} {value : Value}
    (notNull : value ≠ .null) (writable : (Filter.ofValues [position] [value]).Writable dialect table)
    {statement : Statement}
    (isStatement : (Query.byValue table .keys position value).statement dialect = .ok statement) :
    (database.engine dialect).query statement world =
      (.ok (((world.committed table.id).filter fun row =>
          row.getD position .null = table.boundForm dialect position value).map fun row =>
            (table.keysOf row).values), world) := by
  rw [engine_query named isTable (fun _ => keyed) rfl writable isStatement,
    filter_byValue named isTable widths notNull writable]
  exact congrArg (fun rows => (Except.ok rows, world)) (List.map_congr_left fun row _ =>
    Table.keyCells (named.columns table isTable) inside)

/-- A query by keys is answered with the rows that have one of them in its bound form. -/
theorem Database.engine_byKeys {keys : List Keys} (notEmpty : keys ≠ [])
    (whole : ∀ key ∈ keys, key.values.length = table.primaryKeys.length)
    (present : ∀ key ∈ keys, key.hasNull = false)
    (writable : (Filter.ofKeys table keys).Writable dialect table) {statement : Statement}
    (isStatement : (Query.byKeys table keys).statement dialect = .ok statement) :
    (database.engine dialect).query statement world =
      (.ok ((world.committed table.id).filter fun row =>
        table.keysOf row ∈ keys.map (table.boundKeys dialect)), world) := by
  have members : (Filter.ofKeys table keys).isEmpty = false := by
    cases keys with
    | nil => exact absurd rfl notEmpty
    | cons => rfl
  have all : Projection.all = .keys → table.hasPrimaryKey = true := nofun
  have selected : (world.committed table.id).filter (fun row =>
        (Filter.ofKeys table keys).storedTruth dialect table .plain (table.cell row) = .holds) =
      (world.committed table.id).filter fun row =>
        table.keysOf row ∈ keys.map (table.boundKeys dialect) := by
    refine List.filter_congr fun row membership => decide_eq_decide.mpr ?_
    rw [Filter.storedTruth_ofKeys whole present writable fun _ _ _ => rfl,
      Table.rowOf_cell (named.columns table isTable) (widths row membership)]
  rw [engine_query named isTable all members writable isStatement, selected]
  exact congrArg (fun rows => (Except.ok rows, world))
    (map_cells named isTable widths fun row => List.mem_of_mem_filter)

end

/-- All columns of a table are for integers. -/
def Table.Counts (table : Table) : Prop := ∀ column ∈ table.columns, column.host = .int64

instance (table : Table) : Decidable table.Counts :=
  inferInstanceAs (Decidable (∀ column ∈ table.columns, column.host = .int64))

section

variable {column : Column} {value raw : Value} (counts : column.host = .int64)
include counts

/-- What is read for a column of integers is an integer, or null where that may be. -/
theorem Column.int_of_read (isRead : Dialect.sqlite.read column raw = .ok value) :
    (∃ number, value = .int number) ∨ value = .null := by
  have isRead := Dialect.toHost_of_read isRead
  unfold Column.toHost at isRead
  rw [counts] at isRead
  cases raw with
  | null =>
    dsimp only at isRead
    split at isRead <;> cases isRead
    exact .inr rfl
  | int number => exact .inl ⟨number, (Except.ok.inj isRead).symm⟩
  | bool flag => exact .inl ⟨_, (Except.ok.inj isRead).symm⟩
  | _ => simp at isRead

/-- What was read for a column of integers is read again as itself. -/
theorem Column.read_again (isRead : Dialect.sqlite.read column raw = .ok value) :
    Dialect.sqlite.read column value = .ok value := by
  rcases column.int_of_read counts isRead with ⟨number, rfl⟩ | rfl
  · simp only [Dialect.read, toHost, counts]
    rfl
  · simp only [Dialect.read, toHost, Dialect.nullable_of_read_null isRead]
    rfl

/-- An integer is written as itself. -/
theorem Column.write_int (reads : column.Reads .sqlite value) :
    Dialect.sqlite.write column value = .ok value := by
  obtain ⟨notNull, raw, isRead⟩ := reads
  rcases column.int_of_read counts isRead with ⟨number, rfl⟩ | rfl
  · simp only [Dialect.write, checkWritten, counts]
    rfl
  · exact absurd rfl notNull

end

namespace Table

variable {table : Table} (counts : table.Counts) {row : List Value}
include counts

theorem Counts.boundForm_eq {position : Nat} {column : Column} {value : Value}
    (found : table.columns[position]? = some column) (reads : column.Reads .sqlite value) :
    table.boundForm .sqlite position value = value := by
  have written := column.write_int (counts column (List.mem_of_getElem? found)) reads
  have bound := write_eq_boundForm found ⟨_, written⟩
  exact Except.ok.inj (bound.symm.trans written)

theorem Counts.boundKeys_eq {keys : Keys} (reads : table.ReadsKeys .sqlite keys) :
    table.boundKeys .sqlite keys = keys := by
  obtain ⟨values⟩ := keys
  rw [boundKeys, Keys.mk.injEq]
  unfold ReadsKeys at reads
  dsimp only at reads ⊢
  generalize table.primaryKeys = positions at reads ⊢
  induction reads with
  | nil => rfl
  | cons first _ inductionHypothesis =>
    obtain ⟨column, found, isRead⟩ := first
    rw [List.zipWith_cons_cons, counts.boundForm_eq found isRead, inductionHypothesis]

/-- A row of integers is read again as itself. -/
theorem Counts.readsAs (isRow : ∃ raw, DataSource.ReadsAs .sqlite table.columns raw row) :
    DataSource.ReadsAs .sqlite table.columns row row := by
  obtain ⟨raw, isRead, width⟩ := isRow
  refine ⟨mapM_eq_ok_iff.mpr ?_, width⟩
  refine List.forall₂_iff_get.mpr ⟨by simp [width], fun position inside insideRow => ?_⟩
  have found := List.getElem?_eq_getElem (width ▸ insideRow : position < table.columns.length)
  obtain ⟨_, _, isValue⟩ := DataSource.read_getD isRead width found
  have again := Column.read_again (counts _ (List.mem_of_getElem? found)) isValue
  rw [List.getD_eq_getElem _ _ insideRow] at again
  simpa using again

/-- The keys of a row of integers are read again as themselves. -/
theorem Counts.readsAs_keys (inside : ∀ key ∈ table.primaryKeys, key < table.columns.length)
    (isRow : ∃ raw, DataSource.ReadsAs .sqlite table.columns raw row) :
    DataSource.ReadsAs .sqlite table.keyColumns (table.keysOf row).values (table.keysOf row).values := by
  have reads := counts.readsAs isRow
  refine ⟨DataSource.read_columnsAt reads.read reads.width inside, ?_⟩
  have allThere : table.primaryKeys.countP (fun key => (table.columns[key]?).isSome) =
      table.primaryKeys.length := List.countP_eq_length.mpr fun key isKey => by simp [inside key isKey]
  rw [keyColumns, columnsAt, List.length_filterMap_eq_countP, allThere, keysOf, List.length_map]

end Table

/-- An engine that has integers only answers a query by keys that are read with the rows that
have one of them. -/
theorem Database.engine_readKeys {database : Database} (named : database.Named) {table : Table}
    (isTable : table ∈ database.tables) (counts : table.Counts) {world : EngineRows}
    (widths : ∀ row ∈ world.committed table.id, row.length = table.columns.length)
    {keys : List Keys} (notEmpty : keys ≠ []) (reads : ∀ key ∈ keys, table.ReadsKeys .sqlite key)
    {statement : Statement} (isStatement : (Query.byKeys table keys).statement .sqlite = .ok statement) :
    (database.engine .sqlite).query statement world =
      (.ok ((world.committed table.id).filter fun row => table.keysOf row ∈ keys), world) := by
  have writable : (Filter.ofKeys table keys).Writable .sqlite table :=
    Filter.ofKeys_writable fun key isKey pair isPair => by
      obtain ⟨column, found, isRead⟩ := (List.forall₂_iff_zip.mp (reads key isKey)).2 isPair
      exact ⟨column, found, _, column.write_int (counts column (List.mem_of_getElem? found)) isRead⟩
  have same : keys.map (table.boundKeys .sqlite) = keys :=
    (List.map_congr_left fun key isKey => counts.boundKeys_eq (reads key isKey)).trans (List.map_id _)
  have answered := engine_byKeys named isTable widths notEmpty
    (fun key isKey => (reads key isKey).length_eq.symm) (fun key isKey => (reads key isKey).not_hasNull)
    writable isStatement
  rwa [same] at answered

/-- An engine that has integers only matches rows by the values that are read for them. -/
theorem Database.engine_matchesValues {database : Database} (named : database.Named) {table : Table}
    (isTable : table ∈ database.tables) (counts : table.Counts)
    (inside : ∀ key ∈ table.primaryKeys, key < table.columns.length) {store : Store}
    (content : table.Content .sqlite (store table.id)) :
    (database.engine .sqlite).MatchesValues EngineRows.committed store .sqlite table := by
  have readsAs : ∀ rows : List (List Value), (∀ row ∈ rows, row ∈ store table.id) →
      rows.Forall₂ (DataSource.ReadsAs .sqlite table.columns) rows := fun rows within =>
    List.forall₂_same.mpr fun row membership => counts.readsAs (content.read row (within row membership))
  have widths : ∀ world : EngineRows, world.committed = store →
      ∀ row ∈ world.committed table.id, row.length = table.columns.length := by
    rintro world rfl row membership
    obtain ⟨_, isRow⟩ := content.read row membership
    exact isRow.width
  have writable : ∀ {position column value}, table.columns[position]? = some column →
      column.Reads .sqlite value → (Filter.ofValues [position] [value]).Writable .sqlite table :=
    fun {_ column _} found reads => Filter.ofValues_writable found
      ⟨_, column.write_int (counts column (List.mem_of_getElem? found)) reads⟩
  refine ⟨fun position column value found reads statement isStatement world isStore => ?_,
    fun keyed position column value found reads statement isStatement world isStore => ?_,
    fun keys notEmpty reads statement isStatement world isStore => ?_⟩
  · have answered := engine_rowsByValue named isTable (widths world isStore) reads.notNull
      (writable found reads) isStatement
    rw [counts.boundForm_eq found reads, isStore] at answered
    exact ⟨_, world, answered, isStore, _, readsAs _ fun _ => List.mem_of_mem_filter, .refl _⟩
  · have answered := engine_keysByValue named isTable (widths world isStore) keyed inside
      reads.notNull (writable found reads) isStatement
    rw [counts.boundForm_eq found reads, isStore] at answered
    refine ⟨_, world, answered, isStore, _, List.forall₂_same.mpr fun keys isKeys => ?_, .refl _⟩
    obtain ⟨row, membership, rfl⟩ := List.mem_map.mp isKeys
    exact counts.readsAs_keys inside (content.read row (List.mem_of_mem_filter membership))
  · have answered := engine_readKeys named isTable counts (widths world isStore) notEmpty reads isStatement
    rw [isStore] at answered
    exact ⟨_, world, answered, isStore, _, readsAs _ fun _ => List.mem_of_mem_filter, .refl _⟩

end RelationalAccess
