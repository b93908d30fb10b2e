import RelationalAccess.Proofs.Schema.Coherence
import RelationalAccess.Proofs.Sql.Conversion

/-!
The form in which MySQL is given identifiers. It has no type for them, so they are bound as octets
or as texts, whichever the type of the column holds; but only three names of each kind are known
where values are bound, while the types that columns get have more.
-/

namespace RelationalAccess

/-- The types by whose names the form of an identifier is known where it is bound. -/
def Dialect.uuidTypes : List String := octetTypes ++ textTypes

open Dialect

namespace ColumnType

/-- The types of MySQL that hold characters. -/
def characterNames : List String := ["char", "varchar", "tinytext", "text", "mediumtext", "longtext"]

/-- The types that MariaDB has and MySQL has not. -/
def mariaDbNames : List String := ["uuid", "inet6", "inet4"]

/-- The declaration that a column has its type for an engine from, if it has any: the one for this
engine, the common one or one for another engine, the first of these that carries over. -/
def source? (declared : List ColumnType) (target : Engine) : Option ColumnType :=
  (target :: .common :: Engine.concrete).findSome? fun engine =>
    (declaredFor? declared engine).filter fun type => (type.carryOver? target).isSome

variable {declared : List ColumnType} {host : HostType} {target : Engine} {type found : ColumnType}

/-- A search for a type ends at the first declaration that carries over. -/
theorem findSome?_carryOver? (engines : List Engine) :
    engines.findSome? (fun engine => (declaredFor? declared engine).bind (·.carryOver? target)) =
      (engines.findSome? fun engine => (declaredFor? declared engine).filter
        fun type => (type.carryOver? target).isSome).bind (·.carryOver? target) := by
  induction engines with
  | nil => rfl
  | cons engine others inductionHypothesis =>
    rw [List.findSome?_cons, List.findSome?_cons]
    cases declaredFor? declared engine with
    | none => exact inductionHypothesis
    | some type =>
      cases carried : type.carryOver? target with
      | none => simpa [Option.filter, carried] using inductionHypothesis
      | some found => simp [Option.filter, carried]

/-- A column has its type from a declaration, or else from its host type. -/
theorem resolve?_eq_source : resolve? declared host target =
    ((source? declared target).bind (·.carryOver? target)).or (infer? host target) := by
  have own : (declaredFor? declared target).bind (·.carryOver? target) =
      declaredFor? declared target := by
    cases isDeclared : declaredFor? declared target with
    | none => rfl
    | some type => exact if_pos (engine_of_declaredFor? isDeclared)
  rw [source?, ← findSome?_carryOver?, List.findSome?_cons, List.findSome?_cons, own]
  simp only [resolve?, Option.orElse_eq_orElse, Option.orElse_eq_or]
  cases declaredFor? declared target with
  | some type => rfl
  | none =>
    cases (declaredFor? declared .common).bind (·.carryOver? target) with
    | some type => rfl
    | none => rfl

theorem source?_carries (isSource : source? declared target = some type) :
    ∃ found, type.carryOver? target = some found := by
  obtain ⟨_, _, isDeclared⟩ := List.exists_of_findSome?_eq_some isSource
  exact Option.isSome_iff_exists.mp (Option.filter_eq_some_iff.mp isDeclared).2

/-- The names that MySQL has instead of those it lacks. -/
theorem toMySqlFamily?_names (carried : type.toMySqlFamily? .mySql = some found) :
    type.name ∈ mariaDbNames ∧ found.name ∈ ["binary", "varchar"] ∨
      type.name ∈ ["bool", "boolean", "integer", "real"] ∧
        found.name ∈ ["bit", "bigint", "int", "double"] ∨
      type.name ∈ sharedNames ∧ found.name = type.name := by
  simp only [toMySqlFamily?, reduceCtorEq, if_false] at carried
  split_ifs at carried with isUuid isSix isFour isTruth isWhole fromSqlite isReal isShared
  all_goals obtain rfl := Option.some.inj carried
  · exact .inl ⟨by simp [mariaDbNames, isUuid], by decide⟩
  · exact .inl ⟨by simp [mariaDbNames, isSix], by decide⟩
  · exact .inl ⟨by simp [mariaDbNames, isFour], by decide⟩
  · exact .inr (.inl ⟨by rcases isTruth with name | name <;> simp [name], by decide⟩)
  · exact .inr (.inl ⟨by simp [isWhole], by decide⟩)
  · exact .inr (.inl ⟨by simp [isWhole], by simp⟩)
  · exact .inr (.inl ⟨by simp [isReal.1], by decide⟩)
  · exact .inr (.inr ⟨isShared, rfl⟩)

/-- A declared type that is carried over to MySQL has one of the known names if it had one before,
or if it is one of those that only MariaDB has. -/
theorem mem_carryOver?_iff (carried : type.carryOver? .mySql = some found) :
    found.name ∈ uuidTypes ↔
      type.name ∈ uuidTypes ∨ type.engine ≠ .mySql ∧ type.name ∈ mariaDbNames := by
  unfold carryOver? at carried
  split at carried
  · next own =>
    obtain rfl := Option.some.inj carried
    simp [own]
  · next foreign =>
    rw [and_iff_right foreign]
    rcases toMySqlFamily?_names carried with ⟨lacking, known⟩ | ⟨plain, unknown⟩ | ⟨shared, same⟩
    · exact iff_of_true
        ((by decide : ∀ name ∈ ["binary", "varchar"], name ∈ uuidTypes) _ known) (.inr lacking)
    · refine iff_of_false
        ((by decide : ∀ name ∈ ["bit", "bigint", "int", "double"], name ∉ uuidTypes) _ unknown) ?_
      exact (by decide : ∀ name ∈ ["bool", "boolean", "integer", "real"],
        ¬ (name ∈ uuidTypes ∨ name ∈ mariaDbNames)) _ plain
    · rw [same]
      have notMariaDb := (by decide : ∀ name ∈ sharedNames, name ∉ mariaDbNames) _ shared
      exact (or_iff_left notMariaDb).symm

end ColumnType

/-- All identifiers are bound on MySQL in the form that the type of the column is for: as octets
for a binary type, as texts for a character type, and never as they are. -/
def Column.BindsUuids (column : Column) : Prop :=
  ∀ uuid : Uuid, ∃ type bound, column.type? .mySql = some type ∧
    mySql.write column (.uuid uuid) = .ok bound ∧
    (bound = .bytes uuid.octets ∨ bound = .text uuid.text) ∧
    (bound = .bytes uuid.octets ↔ type.name ∈ ColumnType.octetNames) ∧
    (bound = .text uuid.text ↔ type.name ∈ ColumnType.characterNames)

namespace Column

variable {column : Column} {type : ColumnType}

theorem mySql_write_uuid (isType : column.type? .mySql = some type) (uuid : Uuid) :
    mySql.write column (.uuid uuid) = .ok (writeMySql type (.uuid uuid)) := by
  rw [write, checkWritten_of_ne_text (by simp)]
  simp only [requireType, isType]
  rfl

/-- Where the type of a column is known by its name, its identifiers are bound in its form. -/
theorem bindsUuids_iff_known (isType : column.type? .mySql = some type) :
    column.BindsUuids ↔ type.name ∈ uuidTypes := by
  have octetsHeld : ∀ name ∈ octetTypes,
      name ∈ ColumnType.octetNames ∧ name ∉ ColumnType.characterNames := by decide
  have textHeld : ∀ name ∈ textTypes,
      name ∉ octetTypes ∧ name ∉ ColumnType.octetNames ∧ name ∈ ColumnType.characterNames := by
    decide
  refine ⟨fun binds => ?_, fun known uuid => ?_⟩
  · obtain ⟨_, bound, _, written, form, _⟩ := binds ⟨List.replicate 16 0, rfl⟩
    obtain rfl := Except.ok.inj ((mySql_write_uuid isType _).symm.trans written)
    by_contra unknown
    obtain ⟨notOctets, notText⟩ := not_or.mp (mt List.mem_append.mpr unknown)
    simp [writeMySql, notOctets, notText] at form
  · refine ⟨type, _, isType, mySql_write_uuid isType uuid, ?_⟩
    rw [writeMySql]
    rcases List.mem_append.mp known with octets | text
    · obtain ⟨isBinary, notText⟩ := octetsHeld _ octets
      simp [octets, isBinary, notText]
    · obtain ⟨notOctets, notBinary, isText⟩ := textHeld _ text
      simp [notOctets, text, notBinary, isText]

end Column

namespace DatabaseDraft

variable {draft : DatabaseDraft} {database : Database}

/-- In a built database the identifiers of a column are bound on MySQL in the form of its type if
and only if the type follows from the host type, or else comes from a declaration by one of the
six known names, or by the name of a type that only MariaDB has, unless that was declared for
MySQL itself. -/
theorem bindsUuids_iff (built : draft.build = .ok database) {table : Table}
    (onDatabase : table ∈ database.tables) {column : Column} (onTable : column ∈ table.columns)
    (isUuid : column.host = .uuid) :
    column.BindsUuids ↔ ∀ type ∈ ColumnType.source? column.declared .mySql,
      type.name ∈ uuidTypes ∨ type.engine ≠ .mySql ∧ type.name ∈ ColumnType.mariaDbNames := by
  obtain ⟨found, isType, resolved, _⟩ :=
    (accepted_of_build built).typed onDatabase onTable (show .mySql ∈ Engine.concrete by decide)
  rw [Column.bindsUuids_iff_known isType]
  rw [ColumnType.resolve?_eq_source, isUuid] at resolved
  cases isSource : ColumnType.source? column.declared .mySql with
  | none =>
    rw [isSource] at resolved
    obtain rfl := Option.some.inj resolved
    exact iff_of_true (by decide) nofun
  | some type =>
    obtain ⟨carriedType, carried⟩ := ColumnType.source?_carries isSource
    rw [isSource, Option.bind_some, carried] at resolved
    obtain rfl := Option.some.inj resolved
    rw [ColumnType.mem_carryOver?_iff carried]
    simp

/-- Visits by devices to pages, each with an identifier. -/
def visitsDraft : DatabaseDraft :=
  { name := "app"
    tables :=
      [{ name := "visits"
         columns :=
           [{ name := "id", host := .uuid, primaryKey := true },
            { name := "device", host := .uuid, declarations := [(.mySql, "char(36)")] },
            { name := "page", host := .uuid, declarations := [(.common, "uuid")] }] }] }

theorem bindsUuids_iff_visits :
    ∃ database table, visitsDraft.build = .ok database ∧ table ∈ database.tables ∧
      table.columns.length = 3 ∧ ∀ column ∈ table.columns, column.BindsUuids := by
  obtain ⟨database, table, built, onDatabase, count, each⟩ : ∃ database table,
      visitsDraft.build = .ok database ∧ table ∈ database.tables ∧ table.columns.length = 3 ∧
        ∀ column ∈ table.columns, column.host = .uuid ∧
          ∀ type ∈ ColumnType.source? column.declared .mySql,
            type.name ∈ uuidTypes ∨ type.engine ≠ .mySql ∧ type.name ∈ ColumnType.mariaDbNames :=
    ⟨_, _, rfl, List.mem_singleton_self _, rfl, by decide⟩
  refine ⟨database, table, built, onDatabase, count, fun column onTable => ?_⟩
  obtain ⟨isUuid, sourced⟩ := each column onTable
  exact (bindsUuids_iff built onDatabase onTable isUuid).mpr sourced

/-- Sessions with a token, whose type is declared for octets. -/
def sessionsDraft : DatabaseDraft :=
  { name := "app"
    tables :=
      [{ name := "sessions"
         columns :=
           [{ name := "id", host := .int64, primaryKey := true },
            { name := "token", host := .uuid, declarations := [(.common, "tinyblob")] }] }] }

/-- The token has a binary type on MySQL, but identifiers are bound for it as they are; SQLite is
given octets. -/
theorem sessions_not_bindsUuids :
    ∃ database table column type, sessionsDraft.build = .ok database ∧
      table ∈ database.tables ∧ column ∈ table.columns ∧ column.host = .uuid ∧
      column.type? .mySql = some type ∧ type.name ∈ ColumnType.octetNames ∧
      (∀ uuid, mySql.write column (.uuid uuid) = .ok (.uuid uuid) ∧
        sqlite.write column (.uuid uuid) = .ok (.bytes uuid.octets)) ∧
      ¬ column.BindsUuids := by
  obtain ⟨database, table, column, type, built, onDatabase, onTable, isUuid, isType, isBinary,
      unknown, written⟩ : ∃ database table column type, sessionsDraft.build = .ok database ∧
        table ∈ database.tables ∧ column ∈ table.columns ∧ column.host = .uuid ∧
        column.type? .mySql = some type ∧ type.name ∈ ColumnType.octetNames ∧
        type.name ∉ uuidTypes ∧
        ∀ uuid, mySql.write column (.uuid uuid) = .ok (.uuid uuid) ∧
          sqlite.write column (.uuid uuid) = .ok (.bytes uuid.octets) :=
    ⟨_, _, _, _, rfl, List.mem_singleton_self _, List.mem_cons_of_mem _ List.mem_cons_self, rfl, rfl,
      by decide, by decide, fun _ => ⟨rfl, rfl⟩⟩
  exact ⟨database, table, column, type, built, onDatabase, onTable, isUuid, isType, isBinary,
    written, mt (Column.bindsUuids_iff_known isType).mp unknown⟩

end DatabaseDraft

end RelationalAccess
