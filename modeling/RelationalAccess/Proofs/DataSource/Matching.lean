import RelationalAccess.Proofs.DataSource.Ledger
import RelationalAccess.Proofs.DataSource.Loads
import RelationalAccess.Proofs.Sql.Conversion

/-!
Backends that match rows by the values that are read for them, and the caches of a data
source in front of such a backend. What a read asks of the backend it can ask: the values
of rows and of their keys can all be written.
-/

namespace RelationalAccess

/-- A value that is read for a column, and is not null. -/
structure Column.Reads (dialect : Dialect) (column : Column) (value : Value) : Prop where
  notNull : value ≠ .null
  read : ∃ raw, dialect.read column raw = .ok value

/-- Keys whose values are read for the key columns of a table. -/
def Table.ReadsKeys (dialect : Dialect) (table : Table) (keys : Keys) : Prop :=
  table.primaryKeys.Forall₂
    (fun position value => ∃ column, table.columns[position]? = some column ∧
      column.Reads dialect value)
    keys.values

namespace Table

/-- The values that a returned row is read as, if it can be read. -/
def readRow? (dialect : Dialect) (table : Table) (raw : List Value) : Option (List Value) :=
  (DataSource.readValues dialect table.columns raw).toOption.filter fun values =>
    values.length = table.columns.length

/-- The keys that a returned row is read to have, if they can be read. -/
def readKeys? (dialect : Dialect) (table : Table) (raw : List Value) : Option Keys :=
  (DataSource.readValues dialect table.keyColumns (table.keysOf raw).values).toOption.map Keys.mk

end Table

/-- The rows of a table have values that are read for its columns, and no two have the same
primary key. -/
structure Table.Content (dialect : Dialect) (table : Table) (rows : List (List Value)) : Prop where
  read : ∀ row ∈ rows, ∃ raw, DataSource.ReadsAs dialect table.columns raw row
  distinct : table.hasPrimaryKey = true → table.DistinctKeys rows

/-- A query for some columns, if it has a statement, is answered with rows that are read as the
wanted ones, in any order, as long as the backend has some content, and the content stays. -/
def Backend.Answers {World : Type} (backend : Backend World) (contents : World → Store)
    (store : Store) (dialect : Dialect) (query : Query) (columns : List Column)
    (wanted : List (List Value)) : Prop :=
  backend.Replies (contents · = store) dialect query fun result =>
    ∃ values, result.Forall₂ (DataSource.ReadsAs dialect columns) values ∧ values.Perm wanted

/-- A backend that tells the rows of a table from each other by the values that are read for
them, where it is asked for values that are read. -/
structure Backend.MatchesValues {World : Type} (backend : Backend World) (contents : World → Store)
    (store : Store) (dialect : Dialect) (table : Table) : Prop where
  rowsByValue : ∀ position column value, table.columns[position]? = some column →
    column.Reads dialect value →
      backend.Answers contents store dialect (.byValue table .all position value) table.columns
        ((store table.id).filter fun row => row.getD position .null = value)
  keysByValue : table.hasPrimaryKey = true → ∀ position column value,
    table.columns[position]? = some column → column.Reads dialect value →
      backend.Answers contents store dialect (.byValue table .keys position value) table.keyColumns
        (((store table.id).filter fun row => row.getD position .null = value).map fun row =>
          (table.keysOf row).values)
  rowsByKeys : ∀ keys, keys ≠ [] → (∀ key ∈ keys, table.ReadsKeys dialect key) →
    backend.Answers contents store dialect (.byKeys table keys) table.columns
      ((store table.id).filter fun row => table.keysOf row ∈ keys)

section

variable {dialect : Dialect} {column other : Column} {value : Value}

/-- What is read for a column is read for every column of the same host type. -/
theorem Column.Reads.of_host (reads : column.Reads dialect value) (same : other.host = column.host) :
    other.Reads dialect value := by
  obtain ⟨notNull, raw, isRead⟩ := reads
  refine ⟨notNull, raw, ?_⟩
  have isHost := Dialect.toHost_of_host same notNull (Dialect.toHost_of_read isRead)
  rw [Dialect.read, isHost]
  rfl

theorem Column.Reads.written (reads : column.Reads dialect value)
    (typed : column.Typed dialect.engine) : ∃ bound, dialect.write column value = .ok bound :=
  have ⟨_, isRead⟩ := reads.read
  Dialect.write_succeeds typed (Dialect.isLabel_of_read isRead rfl)

variable {table : Table} {rows : List (List Value)}

theorem Table.ReadsKeys.not_hasNull {keys : Keys} (reads : table.ReadsKeys dialect keys) :
    keys.hasNull = false := by
  refine List.any_eq_false.mpr fun value membership => ?_
  obtain ⟨_, _, _, _, isRead⟩ := counterpart_left reads membership
  rw [Value.isNull_iff]
  exact isRead.notNull

/-- A value of a row that is not null is read for its column. -/
theorem Table.Content.reads (content : table.Content dialect rows) {row : List Value}
    (membership : row ∈ rows) {position : Nat} (found : table.columns[position]? = some column)
    (notNull : row.getD position .null ≠ .null) : column.Reads dialect (row.getD position .null) := by
  obtain ⟨raw, isRow⟩ := content.read row membership
  obtain ⟨returned, _, isRead⟩ := DataSource.read_getD isRow.read isRow.width found
  exact ⟨notNull, returned, isRead⟩

/-- What is read as the keys of a row is read for the key columns, none of which is nullable. -/
theorem Table.Shaped.readsKeys {place : Nat} (shaped : table.Shaped place) {raw : List Value}
    {keys : Keys} (isRead : DataSource.readValues dialect table.keyColumns (table.keysOf raw).values =
      .ok keys.values) : table.ReadsKeys dialect keys := by
  obtain ⟨values⟩ := keys
  have isKey := fun position => (shaped.keys position).mp
  replace isRead := mapM_eq_ok_iff.mp isRead
  unfold keyColumns columnsAt keysOf at isRead
  unfold ReadsKeys
  generalize table.primaryKeys = positions at isKey isRead ⊢
  dsimp only at isRead ⊢
  induction positions generalizing values with
  | nil =>
    rw [List.forall₂_nil_left_iff.mp isRead]
    exact .nil
  | cons position others inductionHypothesis =>
    obtain ⟨column, found, isKeyColumn⟩ := isKey position List.mem_cons_self
    rw [List.filterMap_cons_some found, List.map_cons, List.zip_cons_cons,
      List.forall₂_cons_left_iff] at isRead
    obtain ⟨value, rest, isValue, later, rfl⟩ := isRead
    refine .cons ⟨column, found, fun isNull => ?_, _, isValue⟩
      (inductionHypothesis rest (fun position isOther => isKey position (.tail _ isOther)) later)
    have notNullable := shaped.keysNotNull column (List.mem_of_getElem? found) isKeyColumn
    rw [Dialect.nullable_of_read_null (isNull ▸ isValue)] at notNullable
    cases notNullable

/-- The keys of a row are read for the key columns. -/
theorem Table.Content.readsKeys (content : table.Content dialect rows) {place : Nat}
    (shaped : table.Shaped place) {row : List Value} (membership : row ∈ rows) :
    table.ReadsKeys dialect (table.keysOf row) := by
  obtain ⟨raw, isRow⟩ := content.read row membership
  refine shaped.readsKeys (DataSource.read_columnsAt isRow.read isRow.width fun key isKey => ?_)
  obtain ⟨_, found, _⟩ := (shaped.keys key).mp isKey
  exact (List.getElem?_eq_some_iff.mp found).1

end

section

variable {dialect : Dialect} {table : Table} {raw values : List Value}

theorem Table.readRow?_eq_some :
    table.readRow? dialect raw = some values ↔ DataSource.ReadsAs dialect table.columns raw values := by
  rw [readRow?, Option.filter_eq_some_iff]
  constructor
  · rintro ⟨read, width⟩
    refine ⟨?_, of_decide_eq_true width⟩
    cases isRead : DataSource.readValues dialect table.columns raw with
    | error refusal =>
      rw [isRead] at read
      cases read
    | ok found =>
      rw [isRead] at read
      exact congrArg Except.ok (Option.some.inj read)
  · rintro ⟨read, width⟩
    rw [read]
    exact ⟨rfl, decide_eq_true width⟩

theorem Table.readKeys?_eq_some {keys : Keys} :
    table.readKeys? dialect raw = some keys ↔
      DataSource.readValues dialect table.keyColumns (table.keysOf raw).values = .ok keys.values := by
  rw [readKeys?, Option.map_eq_some_iff]
  cases DataSource.readValues dialect table.keyColumns (table.keysOf raw).values with
  | error refusal => simp [Except.toOption]
  | ok found =>
    obtain ⟨values⟩ := keys
    simp [Except.toOption]

/-- A row that can be read has the keys that are read of it. -/
theorem Table.readKeys?_of_readRow? {place : Nat} (shaped : table.Shaped place)
    (read : table.readRow? dialect raw = some values) :
    table.readKeys? dialect raw = some (table.keysOf values) := by
  have isRow := readRow?_eq_some.mp read
  refine readKeys?_eq_some.mpr (DataSource.read_columnsAt isRow.read isRow.width fun key isKey => ?_)
  obtain ⟨_, found, _⟩ := (shaped.keys key).mp isKey
  exact (List.getElem?_eq_some_iff.mp found).1

end

namespace DataSource

variable {World : Type} {backend : Backend World} {contents : World → Store} {store : Store}
  {origin : DataSource} {table : Table}

/-- What a query that has a statement is answered. -/
theorem finds_of_answers {query : Query} {columns : List Column} {wanted : List (List Value)}
    (answers : backend.Answers contents store origin.dialect query columns wanted)
    (hasStatement : ∃ statement, query.statement origin.dialect = .ok statement) :
    backend.Finds (contents · = store) origin.dialect query columns (List.Perm · wanted) :=
  ⟨hasStatement, answers⟩

/-- The columns of a table can be written on the engine of a dialect. -/
abbrev Written (dialect : Dialect) (table : Table) : Prop :=
  ∀ column ∈ table.columns, column.Typed dialect.engine

/-- A query of keys that are read has a statement. -/
theorem byKeys_hasStatement {dialect : Dialect} (typed : Written dialect table) {keys : List Keys}
    (notEmpty : keys ≠ []) (reads : ∀ key ∈ keys, table.ReadsKeys dialect key) :
    ∃ statement, (Query.byKeys table keys).statement dialect = .ok statement := by
  refine Query.byKeys_statement notEmpty fun key isKey pair isPair => ?_
  obtain ⟨column, found, isRead⟩ := (List.forall₂_iff_zip.mp (reads key isKey)).2 isPair
  exact ⟨column, found, isRead.written (typed column (List.mem_of_getElem? found))⟩

section

variable (typed : Written origin.dialect table)
  (answers : backend.MatchesValues contents store origin.dialect table)
include typed answers

/-- The source of a table gives the rows that have some keys. -/
theorem gives_rowsByKeys {keys : List Keys} (notEmpty : keys ≠ [])
    (reads : ∀ key ∈ keys, table.ReadsKeys origin.dialect key) :
    RowSource.Gives (Still (contents · = store) origin) ((rowSource backend table).rowsByKeys keys)
      (table.Covers (store table.id) keys) := by
  refine rowsByKeys_gives ⟨byKeys_hasStatement typed notEmpty reads,
    fun statement isStatement world isStore => ?_⟩
  obtain ⟨result, after, answered, steady, values, isRead, found⟩ :=
    answers.rowsByKeys keys notEmpty reads statement isStatement world isStore
  refine ⟨result, after, answered, steady, values, isRead, fun row membership => ?_,
    fun key isKey isThere => ?_⟩
  · exact (List.mem_filter.mp (found.mem_iff.mp membership)).1
  · obtain ⟨row, membership, rfl⟩ := List.mem_map.mp isThere
    refine List.mem_map_of_mem (found.mem_iff.mpr (List.mem_filter.mpr ⟨membership, ?_⟩))
    exact decide_eq_true isKey

variable {position : Nat} {column : Column} {value : Value}
  (found : table.columns[position]? = some column) (reads : column.Reads origin.dialect value)
include found reads

omit answers in
private theorem byValue_hasStatement {projection : Projection}
    (keyed : projection = .keys → table.hasPrimaryKey = true) :
    ∃ statement, (Query.byValue table projection position value).statement origin.dialect =
      .ok statement :=
  Query.byValue_statement keyed found (reads.written (typed column (List.mem_of_getElem? found)))

/-- The source of a table gives the rows that have a value. -/
theorem gives_rowsByValue :
    RowSource.Gives (Still (contents · = store) origin)
      ((rowSource backend table).rowsByValue position value)
      fun loaded => table.Loaded loaded
        ((store table.id).filter fun row => row.getD position .null = value) :=
  rowsByValue_gives (finds_of_answers (answers.rowsByValue position column value found reads)
    (byValue_hasStatement typed found reads fun impossible => by cases impossible))

/-- The source of a table gives the keys of the rows that have a value. -/
theorem gives_keysByValue (keyed : table.hasPrimaryKey = true) :
    RowSource.Gives (Still (contents · = store) origin)
      ((rowSource backend table).keysByValue position value)
      fun keys => keys.Perm (table.keysWith (store table.id) position value) :=
  keysByValue_gives (finds_of_answers (answers.keysByValue keyed position column value found reads)
    (byValue_hasStatement typed found reads fun _ => keyed))

end

end DataSource

end RelationalAccess
