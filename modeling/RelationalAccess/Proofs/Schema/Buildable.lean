import Mathlib.Data.List.Nodup
import RelationalAccess.Proofs.Lists
import RelationalAccess.Proofs.Schema.Shape
import RelationalAccess.Proofs.Text.Readers

/-!
Which drafts can be built, and what is reported of those that cannot. Checking goes through
tables, then foreign keys and types, then settings; together the checks refuse exactly the drafts
that lack one of the things a database needs. Where the tables are in order by themselves, what is
reported is one fault for each foreign key that joins nothing and one for each column and engine
without a type.
-/

namespace RelationalAccess

/-! ### Types -/

/-- A host type from which the type of a column follows. -/
def HostType.Known : HostType → Prop
  | .other _ => False
  | _ => True

instance : DecidablePred HostType.Known
  | .other _ => .isFalse id
  | .bool | .int16 | .int32 | .int64 | .float32 | .float64 | .string | .bytes | .uuid | .dateTime
  | .date | .address | .labelled _ => .isTrue trivial

namespace ColumnType

/-- A type declared for one engine says what the type is for another. -/
def CarriesOver (type : ColumnType) (target : Engine) : Prop :=
  type.engine = target ∨
    match target with
    | .sqlite => type.name ∈ wholeNames ++ realNames ++ textNames ++ octetNames
    | .mySql | .mariaDb =>
      type.name ∈ ["uuid", "inet6", "inet4", "bool", "boolean", "integer"] ++ sharedNames
    | .common => False

instance (type : ColumnType) (target : Engine) : Decidable (type.CarriesOver target) :=
  match target with
  | .sqlite | .mySql | .mariaDb | .common => inferInstanceAs (Decidable (_ ∨ _))

/-- A column has a type for an engine: the first one declared for some engine carries over, or
else one follows from the host type. -/
def Resolves (declared : List ColumnType) (host : HostType) (target : Engine) : Prop :=
  (∃ type ∈ declared, declaredFor? declared type.engine = some type ∧ type.CarriesOver target) ∨
    host.Known

instance (declared : List ColumnType) (host : HostType) (target : Engine) :
    Decidable (Resolves declared host target) :=
  inferInstanceAs (Decidable (_ ∨ _))

theorem isSome_toSqlite?_iff {type : ColumnType} : type.toSqlite?.isSome = true ↔
    type.name ∈ wholeNames ++ realNames ++ textNames ++ octetNames := by
  simp only [toSqlite?, List.mem_append]
  split_ifs <;> simp_all

theorem isSome_toMySqlFamily?_iff {type : ColumnType} {target : Engine} :
    (type.toMySqlFamily? target).isSome = true ↔
      type.name ∈ ["uuid", "inet6", "inet4", "bool", "boolean", "integer"] ++ sharedNames := by
  have isShared : "real" ∈ sharedNames := by decide
  simp only [toMySqlFamily?, List.mem_append, List.mem_cons, List.not_mem_nil, or_false]
  split_ifs <;> grind

theorem isSome_carryOver?_iff {type : ColumnType} {target : Engine} :
    (type.carryOver? target).isSome = true ↔ type.CarriesOver target := by
  unfold carryOver? CarriesOver
  by_cases same : type.engine = target
  · simp [same]
  · rw [if_neg same, or_iff_right same]
    cases target with
    | common => simp
    | sqlite => exact isSome_toSqlite?_iff
    | mySql => exact isSome_toMySqlFamily?_iff
    | mariaDb => exact isSome_toMySqlFamily?_iff

theorem isSome_infer?_iff {host : HostType} {target : Engine}
    (isConcrete : target ∈ Engine.concrete) :
    (infer? host target).isSome = true ↔ host.Known := by
  simp only [Engine.concrete, List.mem_cons, List.not_mem_nil, or_false] at isConcrete
  rcases isConcrete with rfl | rfl | rfl <;> cases host <;>
    simp [infer?, inferMySqlFamily?, inferSqliteName?, HostType.Known]

theorem mem_of_declaredFor? {declared : List ColumnType} {source : Engine} {type : ColumnType}
    (found : declaredFor? declared source = some type) :
    type ∈ declared ∧ type.engine = source :=
  ⟨List.mem_of_find?_eq_some found, by simpa using List.find?_some found⟩

theorem isSome_resolve?_iff {declared : List ColumnType} {host : HostType} {target : Engine}
    (isConcrete : target ∈ Engine.concrete) :
    (resolve? declared host target).isSome = true ↔ Resolves declared host target := by
  simp only [resolve?, Option.orElse_eq_orElse, Option.orElse_eq_or, Option.isSome_or,
    Bool.or_eq_true, List.findSome?_isSome_iff, isSome_infer?_iff isConcrete]
  constructor
  · have carried {source : Engine}
        (isCarried : ((declaredFor? declared source).bind (·.carryOver? target)).isSome = true) :
        Resolves declared host target := by
      obtain ⟨found, isCarried⟩ := Option.isSome_iff_exists.mp isCarried
      obtain ⟨type, isFirst, carries⟩ := Option.bind_eq_some_iff.mp isCarried
      obtain ⟨isDeclared, rfl⟩ := mem_of_declaredFor? isFirst
      exact .inl ⟨type, isDeclared, isFirst,
        isSome_carryOver?_iff.mp (Option.isSome_iff_exists.mpr ⟨found, carries⟩)⟩
    rintro (own | common | ⟨source, _, another⟩ | known)
    · obtain ⟨type, isFirst⟩ := Option.isSome_iff_exists.mp own
      obtain ⟨isDeclared, rfl⟩ := mem_of_declaredFor? isFirst
      exact .inl ⟨type, isDeclared, isFirst, .inl rfl⟩
    · exact carried common
    · exact carried another
    · exact .inr known
  · rintro (⟨type, isDeclared, isFirst, carries⟩ | known)
    · have isCarried : ((declaredFor? declared type.engine).bind (·.carryOver? target)).isSome =
          true := by
        rw [isFirst]
        exact isSome_carryOver?_iff.mpr carries
      by_cases isCommon : type.engine = .common
      · exact .inr (.inl (isCommon ▸ isCarried))
      · refine .inr (.inr (.inl ⟨type.engine, ?_, isCarried⟩))
        cases isEngine : type.engine with
        | common => exact absurd isEngine isCommon
        | mySql => decide
        | mariaDb => decide
        | sqlite => decide
    · exact .inr (.inr (.inr known))

end ColumnType

theorem CacheSettings.fault?_eq_none_iff {settings : CacheSettings} : settings.fault? = none ↔
    (∀ limit ∈ settings.limits, 0 < limit.value) ∧ settings.indexCache ≠ some (.atMost 0) := by
  unfold fault?
  cases found : settings.limits.find? (·.value == 0) with
  | some limit =>
    have isZero : limit.value = 0 := by simpa using List.find?_some found
    have isLimit := List.mem_of_find?_eq_some found
    simp only [reduceCtorEq, false_iff, not_and_or]
    exact .inl fun above => Nat.ne_of_gt (above limit isLimit) isZero
  | none =>
    have above : ∀ limit ∈ settings.limits, 0 < limit.value := by
      simpa [Nat.pos_iff_ne_zero] using found
    rw [and_iff_right above]
    simp

/-! ### Drafts -/

/-- A name that may stand unquoted: a letter or an underscore, and then letters, digits and
underscores. -/
def IsIdentifier (name : String) : Prop :=
  ∃ first others, name.toList = first :: others ∧
    ('A' ≤ first ∧ first ≤ 'Z' ∨ 'a' ≤ first ∧ first ≤ 'z' ∨ first = '_') ∧
    ∀ char ∈ others, 'A' ≤ char ∧ char ≤ 'Z' ∨ 'a' ≤ char ∧ char ≤ 'z' ∨
      '0' ≤ char ∧ char ≤ '9' ∨ char = '_'

theorem isIdentifier_iff {name : String} : Draft.isIdentifier name = true ↔ IsIdentifier name := by
  unfold Draft.isIdentifier IsIdentifier
  cases name.toList with
  | nil => simp
  | cons first others =>
    simp only [Draft.isIdentifierStart, Draft.isIdentifierChar, Bool.and_eq_true, Bool.or_eq_true,
      List.all_eq_true, isAlpha_iff, isAlphanum_iff, beq_iff_eq, or_assoc, List.cons.injEq]
    constructor
    · rintro ⟨start, further⟩
      exact ⟨first, others, ⟨rfl, rfl⟩, start, further⟩
    · rintro ⟨_, _, ⟨rfl, rfl⟩, start, further⟩
      exact ⟨start, further⟩

/-- A column is in order by itself. -/
structure ColumnDraft.WellFormed (column : ColumnDraft) : Prop where
  named : IsIdentifier column.name
  types : ∀ declaration ∈ column.declarations,
    ∃ type, ColumnType.parse declaration.1 declaration.2 = .ok type
  keyNotNull : column.primaryKey = true → column.nullable = false

/-- A table is in order by itself. -/
structure TableDraft.WellFormed (table : TableDraft) : Prop where
  named : IsIdentifier table.name
  columnNames : (table.columns.map (·.name)).Nodup
  columns : ∀ column ∈ table.columns, column.WellFormed
  indices : ∀ index ∈ table.indices, ∀ name ∈ index.columns, ∃ column ∈ table.columns,
    column.name = name

/-- The tables of a database are each in order by itself, under a name of its own. -/
structure DatabaseDraft.WellFormed (draft : DatabaseDraft) : Prop where
  tableNames : (draft.tables.map (·.name)).Nodup
  tables : ∀ table ∈ draft.tables, table.WellFormed

/-- A name stands for a column of a table, as its own or as that of its property. -/
def TableDraft.Has (table : TableDraft) (name : String) : Prop :=
  ∃ column ∈ table.columns, column.name = name ∨ column.propertyName = name

instance (table : TableDraft) (name : String) : Decidable (table.Has name) :=
  inferInstanceAs (Decidable (∃ column ∈ table.columns, _ ∨ _))

namespace ColumnDraft

theorem typeFaults_eq_nil_iff {column : ColumnDraft} {table model : String} :
    column.typeFaults table model = [] ↔ ∀ declaration ∈ column.declarations,
      ∃ type, ColumnType.parse declaration.1 declaration.2 = .ok type := by
  rw [typeFaults, List.filterMap_eq_nil_iff]
  refine forall₂_congr fun declaration _ => ?_
  cases isRead : ColumnType.parse declaration.1 declaration.2 <;> simp [isRead]

theorem bodyFaults_eq_nil_iff {column : ColumnDraft} (table model : String) :
    Draft.isIdentifier column.name = true ∧ column.bodyFaults table model = [] ↔
      column.WellFormed := by
  rw [bodyFaults, List.append_eq_nil_iff, typeFaults_eq_nil_iff, isIdentifier_iff]
  have keyNotNull : (if column.primaryKey && column.nullable then
      [SchemaFault.nullableKey table column.name] else []) = [] ↔
        (column.primaryKey = true → column.nullable = false) := by
    cases column.primaryKey <;> cases column.nullable <;> simp
  rw [keyNotNull]
  exact ⟨fun ⟨named, types, notNull⟩ => ⟨named, types, notNull⟩,
    fun wellFormed => ⟨wellFormed.named, wellFormed.types, wellFormed.keyNotNull⟩⟩

end ColumnDraft

namespace TableDraft

theorem faults_eq_nil_iff {table : TableDraft} : table.faults = [] ↔ table.WellFormed := by
  have named : (if Draft.isIdentifier table.name then ([] : List SchemaFault)
      else [.invalidTableName table.name]) = [] ↔ IsIdentifier table.name := by
    rw [← isIdentifier_iff]
    split <;> simp_all
  have indexed : table.indices.flatMap table.indexFaults = [] ↔ ∀ index ∈ table.indices,
      ∀ name ∈ index.columns, ∃ column ∈ table.columns, column.name = name := by
    simp [indexFaults, List.filter_eq_nil_iff]
  rw [faults, List.append_eq_nil_iff, List.append_eq_nil_iff, named, columnFaults_eq_nil_iff,
    indexed]
  have columns : (∀ column ∈ table.columns, Draft.isIdentifier column.name = true ∧
      column.name ∉ [] ∧ column.bodyFaults table.name table.modelName = []) ↔
        ∀ column ∈ table.columns, column.WellFormed := by
    refine forall₂_congr fun column _ => ?_
    rw [← ColumnDraft.bodyFaults_eq_nil_iff table.name table.modelName]
    simp
  rw [columns]
  exact ⟨fun ⟨⟨named, distinct, each⟩, indices⟩ => ⟨named, distinct, each, indices⟩,
    fun wellFormed => ⟨⟨wellFormed.named, wellFormed.columnNames, wellFormed.columns⟩,
      wellFormed.indices⟩⟩

end TableDraft

namespace DatabaseDraft

theorem faults_eq_nil_iff {draft : DatabaseDraft} : draft.faults = [] ↔ draft.WellFormed := by
  rw [faults, tableFaults_eq_nil_iff]
  simp only [List.not_mem_nil, not_false_eq_true, true_and, TableDraft.faults_eq_nil_iff]
  exact ⟨fun ⟨distinct, each⟩ => ⟨distinct, each⟩, fun wellFormed =>
    ⟨wellFormed.tableNames, wellFormed.tables⟩⟩

end DatabaseDraft

/-! ### Foreign keys and types -/

namespace Table

/-- A name stands for the same column as tables grow. -/
theorem AllGrown.columnIndex? {old new : List Table} (grown : AllGrown old new) (place : Nat)
    (name : String) :
    new[place]?.bind (·.columnIndex? name) = old[place]?.bind (·.columnIndex? name) := by
  have same : new.map (·.columnIndex? name) = old.map (·.columnIndex? name) :=
    grown.map_eq fun isGrown => isGrown.columnIndex? name
  have joined := congrArg (fun columns : List (Option Nat) => columns[place]?.bind (·)) same
  simpa only [List.getElem?_map, Option.bind_map, Function.comp_def] using joined

/-- The types that are missing are those of the columns as they were declared. -/
theorem Grown.resolutionFaults {old new : Table} (grown : old.Grown new) :
    new.resolutionFaults = old.resolutionFaults := by
  have ofBare (table : Table) : table.resolutionFaults =
      (table.columns.map Column.bare).flatMap (Column.resolutionFaults table.name table.model) := by
    rw [List.flatMap_map]
    rfl
  rw [ofBare, ofBare, grown.columns, grown.name, grown.model]

theorem AllGrown.resolutionFaults {old new : List Table} (grown : AllGrown old new) :
    new.flatMap Table.resolutionFaults = old.flatMap Table.resolutionFaults := by
  rw [List.flatMap_def, List.flatMap_def, grown.map_eq Grown.resolutionFaults]

end Table

namespace Linking

open Table

/-- The fault of a foreign key that a table at a position declares, if it has any. -/
def fault? (tables : List Table) (declared : Nat × String × ForeignKeyDraft) : Option SchemaFault :=
  match ends? tables declared.1 declared.2.1 declared.2.2 with
  | .ok _ => none
  | .error fault => some fault

variable {old new declared : List Table}

/-- What a foreign key joins does not change as tables grow. -/
theorem ends?_of_grown (grown : AllGrown old new) (referring : Nat) (table : String)
    (key : ForeignKeyDraft) : ends? new referring table key = ends? old referring table key := by
  have named (tables : List Table) : tables.findIdx? (·.name == key.table) =
      (tables.map (·.name)).findIdx? (· == key.table) := by
    rw [List.findIdx?_map]
    rfl
  unfold ends?
  rw [named new, named old, grown.names]
  simp only [grown.columnIndex?]

theorem fault?_of_grown (grown : AllGrown old new) (key : Nat × String × ForeignKeyDraft) :
    fault? new key = fault? old key := by
  rw [fault?, fault?, ends?_of_grown grown]

/-- A foreign key adds its fault to those there are, and otherwise only adds to tables. -/
theorem step_faults {progress : Progress} (indexed : ∀ table ∈ progress.tables, table.KeyIndexed)
    (referring : Nat) (table : String) (key : ForeignKeyDraft) :
    (step progress referring table key).faults =
        progress.faults ++ (fault? progress.tables (referring, table, key)).toList ∧
      AllGrown progress.tables (step progress referring table key).tables := by
  rcases step_cases progress referring table key with
    ⟨linked, relation, isLinked, stepped⟩ | ⟨fault, found, stepped⟩
  · obtain ⟨ends, found⟩ := ends?_of_link isLinked
    rw [stepped, fault?, found]
    exact ⟨(List.append_nil _).symm, (link_linked indexed isLinked).grown⟩
  · rw [stepped, fault?, found]
    exact ⟨rfl, .refl _⟩

/-- Whatever foreign keys are linked, the faults are those that each of them has by itself. -/
theorem linkAll_faults (indexed : ∀ table ∈ declared, table.KeyIndexed) (drafts : List TableDraft) :
    (linkAll declared drafts).faults = (foreignKeys drafts).filterMap (fault? declared) ∧
      AllGrown declared (linkAll declared drafts).tables := by
  apply linkAll_steps (motive := fun keys progress =>
    progress.faults = keys.filterMap (fault? declared) ∧ AllGrown declared progress.tables)
  · exact ⟨rfl, .refl _⟩
  · rintro keys progress key ⟨faults, grown⟩
    obtain ⟨added, grownOn⟩ := step_faults (grown.keyIndexed indexed) key.1 key.2.1 key.2.2
    refine ⟨?_, grown.trans grownOn⟩
    rw [added, fault?_of_grown grown, faults, List.filterMap_append]
    cases isFault : fault? declared key <;> simp [isFault]

end Linking

namespace TableDraft

variable {draft : TableDraft}

theorem columnIndex?_isSome_iff (place : Nat) (name : String) :
    ((draft.table place).columnIndex? name).isSome = true ↔ draft.Has name := by
  have named (key : Column → String) (declaredKey : ColumnDraft → String)
      (same : ∀ position (column : ColumnDraft),
        key (column.column place position) = declaredKey column) :
      ((draft.table place).columns.findIdx? (key · == name)).isSome = true ↔
        ∃ column ∈ draft.columns, declaredKey column = name := by
    simp only [List.findIdx?_isSome, List.any_eq_true, TableDraft.table, List.mem_mapIdx, beq_iff_eq]
    constructor
    · rintro ⟨_, ⟨position, inside, rfl⟩, isNamed⟩
      exact ⟨_, List.getElem_mem inside, (same _ _).symm.trans isNamed⟩
    · rintro ⟨column, membership, isNamed⟩
      obtain ⟨position, inside, rfl⟩ := List.mem_iff_getElem.mp membership
      exact ⟨_, ⟨position, inside, rfl⟩, (same _ _).trans isNamed⟩
  rw [Table.columnIndex?, Option.orElse_eq_orElse, Option.orElse_eq_or, Option.isSome_or,
    Bool.or_eq_true, named (·.name) (·.name) fun _ _ => rfl,
    named (·.property) (·.propertyName) fun _ _ => rfl, Has]
  simp only [and_or_left, exists_or]

theorem columnIndex?_eq_none (place : Nat) {name : String} (hasNot : ¬ draft.Has name) :
    (draft.table place).columnIndex? name = none := by
  rw [← Option.not_isSome_iff_eq_none, columnIndex?_isSome_iff]
  exact hasNot

theorem columnIndex?_eq_some (place : Nat) {name : String} (has : draft.Has name) :
    ∃ column, (draft.table place).columnIndex? name = some column :=
  Option.isSome_iff_exists.mp ((columnIndex?_isSome_iff place name).mpr has)

end TableDraft

namespace DatabaseDraft

variable {draft : DatabaseDraft}

/-- What a foreign key of a table joins is there: the column that refers, and the table and the
column that it refers to. -/
def Joinable (draft : DatabaseDraft) (table : TableDraft) (key : ForeignKeyDraft) : Prop :=
  table.Has key.column ∧ ∃ other ∈ draft.tables, other.name = key.table ∧ other.Has key.references

instance (draft : DatabaseDraft) (table : TableDraft) (key : ForeignKeyDraft) :
    Decidable (draft.Joinable table key) :=
  inferInstanceAs (Decidable (_ ∧ ∃ other ∈ draft.tables, _ ∧ _))

/-- What is reported of a foreign key that joins nothing: the first of its ends that is missing. -/
def keyFault (draft : DatabaseDraft) (table : TableDraft) (key : ForeignKeyDraft) : SchemaFault :=
  let constraint := Linking.constraintName table.name key
  if ∀ other ∈ draft.tables, other.name ≠ key.table then
    .unknownReferencedTable constraint table.name key.column key.table
  else if table.Has key.column then .unknownReferencedColumn constraint key.table key.references
  else .unknownReferencingColumn constraint table.name key.column

/-- A table is found by its name, which no other has. -/
theorem findIdx?_declaredTables (distinct : (draft.tables.map (·.name)).Nodup) {other : TableDraft}
    (membership : other ∈ draft.tables) :
    ∃ position, draft.declaredTables.findIdx? (·.name == other.name) = some position ∧
      draft.declaredTables[position]? = some (other.table position) := by
  obtain ⟨position, found⟩ := List.mem_iff_getElem?.mp membership
  have isThere : draft.declaredTables[position]? = some (other.table position) := by
    rw [declaredTables_getElem?, found]
    rfl
  exact ⟨position, findIdx?_eq_of_distinct (draft.map_name_declaredTables ▸ distinct) isThere,
    isThere⟩

/-- A foreign key is at fault where what it joins is not there. -/
theorem fault?_eq (wellFormed : draft.WellFormed) {position : Nat} {table : TableDraft}
    (found : draft.tables[position]? = some table) (key : ForeignKeyDraft) :
    Linking.fault? draft.declaredTables (position, table.name, key) =
      if draft.Joinable table key then none else some (draft.keyFault table key) := by
  have isReferring : draft.declaredTables[position]? = some (table.table position) := by
    rw [declaredTables_getElem?, found]
    rfl
  unfold Linking.fault? Linking.ends? keyFault Joinable
  by_cases absent : ∀ other ∈ draft.tables, other.name ≠ key.table
  · have notFound : draft.declaredTables.findIdx? (·.name == key.table) = none := by
      rw [List.findIdx?_eq_none_iff]
      intro declared isDeclared
      obtain ⟨other, membership, sameName⟩ : ∃ other ∈ draft.tables, other.name = declared.name := by
        rw [← List.mem_map, ← map_name_declaredTables]
        exact List.mem_map_of_mem isDeclared
      rw [beq_eq_false_iff_ne, ← sameName]
      exact absent other membership
    have unjoined : ¬ (table.Has key.column ∧
        ∃ other ∈ draft.tables, other.name = key.table ∧ other.Has key.references) :=
      fun ⟨_, other, membership, isNamed, _⟩ => absent other membership isNamed
    simp only [notFound, if_neg unjoined, if_pos absent]
  · rw [if_neg absent]
    push Not at absent
    obtain ⟨other, membership, isNamed⟩ := absent
    obtain ⟨referred, isFound, isReferred⟩ := findIdx?_declaredTables wellFormed.tableNames membership
    rw [isNamed] at isFound
    have referredHas : (∃ other ∈ draft.tables, other.name = key.table ∧ other.Has key.references) ↔
        other.Has key.references := by
      constructor
      · rintro ⟨another, isTable, sameName, has⟩
        rwa [List.inj_on_of_nodup_map wellFormed.tableNames membership isTable
          (isNamed.trans sameName.symm)]
      · exact fun has => ⟨other, membership, isNamed, has⟩
    simp only [isFound, isReferring, isReferred, Option.bind_some, referredHas]
    by_cases hasColumn : table.Has key.column
    · obtain ⟨_, isColumn⟩ := TableDraft.columnIndex?_eq_some position hasColumn
      by_cases hasReferred : other.Has key.references
      · obtain ⟨_, isReferredColumn⟩ := TableDraft.columnIndex?_eq_some referred hasReferred
        simp [isColumn, isReferredColumn, hasColumn, hasReferred]
      · have notThere := TableDraft.columnIndex?_eq_none referred hasReferred
        simp [isColumn, notThere, hasColumn, hasReferred]
    · have notThere := TableDraft.columnIndex?_eq_none position hasColumn
      simp [notThere, hasColumn]

/-- One fault for each foreign key that joins nothing. -/
def keyFaults (draft : DatabaseDraft) : List SchemaFault :=
  draft.tables.flatMap fun table =>
    (table.foreignKeys.filter fun key => ¬ draft.Joinable table key).map (draft.keyFault table)

/-- One fault for each column and each engine for which it has no type. -/
def resolutionFaults (draft : DatabaseDraft) : List SchemaFault :=
  draft.tables.flatMap fun table => table.columns.flatMap fun column =>
    (Engine.concrete.filter fun engine =>
        ¬ ColumnType.Resolves column.declaredTypes column.host engine).map fun engine =>
      .unresolvableType engine table.name column.name table.modelName column.propertyName column.host

theorem filterMap_fault?_eq (wellFormed : draft.WellFormed) :
    (Linking.foreignKeys draft.tables).filterMap (Linking.fault? draft.declaredTables) =
      draft.keyFaults := by
  rw [Linking.foreignKeys, List.filterMap_flatMap, keyFaults]
  conv_rhs => rw [← List.zipIdx_map_fst 0 draft.tables, List.flatMap_map]
  refine List.flatMap_congr fun placed membership => ?_
  have found := List.mem_zipIdx_iff_getElem?.mp membership
  rw [List.filterMap_map, ← filterMap_unless]
  exact List.filterMap_congr fun key _ => fault?_eq wellFormed found key

end DatabaseDraft

namespace ColumnDraft

theorem resolutionFaults_column (table position : Nat) (name model : String) (draft : ColumnDraft) :
    (draft.column table position).resolutionFaults name model =
      (Engine.concrete.filter fun engine =>
          ¬ ColumnType.Resolves draft.declaredTypes draft.host engine).map fun engine =>
        .unresolvableType engine name draft.name model draft.propertyName draft.host := by
  rw [← filterMap_unless]
  refine List.filterMap_congr fun engine isConcrete => ?_
  have resolves : (∃ type, ColumnType.resolve? draft.declaredTypes draft.host engine = some type) ↔
      ColumnType.Resolves draft.declaredTypes draft.host engine :=
    Option.isSome_iff_exists.symm.trans (ColumnType.isSome_resolve?_iff isConcrete)
  dsimp only [column]
  cases isResolved : ColumnType.resolve? draft.declaredTypes draft.host engine with
  | some type => rw [if_pos (resolves.mp ⟨type, isResolved⟩)]
  | none =>
    rw [if_neg fun resolved => ?_]
    simpa [isResolved] using resolves.mpr resolved

end ColumnDraft

namespace DatabaseDraft

variable {draft : DatabaseDraft}

theorem resolutionFaults_declaredTables (draft : DatabaseDraft) :
    draft.declaredTables.flatMap Table.resolutionFaults = draft.resolutionFaults :=
  flatMap_mapIdx fun position table _ => flatMap_mapIdx fun place column _ =>
    column.resolutionFaults_column position place table.name table.modelName

/-- The faults that are reported of tables which are in order by themselves. -/
theorem linked_faults (wellFormed : draft.WellFormed) :
    draft.linked.faults ++ draft.linked.tables.flatMap Table.resolutionFaults =
      draft.keyFaults ++ draft.resolutionFaults := by
  obtain ⟨faults, grown⟩ := Linking.linkAll_faults
    (indexed_of_declared (faults_eq_nil_iff.mpr wellFormed)) draft.tables
  rw [linked, faults, filterMap_fault?_eq wellFormed, grown.resolutionFaults,
    resolutionFaults_declaredTables]

/-- What is wrong with a draft whose tables are each in order by itself: the foreign keys that join
nothing, and behind them the columns without a type. -/
def furtherFaults (draft : DatabaseDraft) : List SchemaFault :=
  draft.keyFaults ++ draft.resolutionFaults

theorem furtherFaults_eq_nil_iff {draft : DatabaseDraft} : draft.furtherFaults = [] ↔
    (∀ table ∈ draft.tables, ∀ key ∈ table.foreignKeys, draft.Joinable table key) ∧
      ∀ table ∈ draft.tables, ∀ column ∈ table.columns, ∀ engine ∈ Engine.concrete,
        ColumnType.Resolves column.declaredTypes column.host engine := by
  simp [furtherFaults, keyFaults, resolutionFaults, List.filter_eq_nil_iff]

/-- A draft that lacks nothing that a database needs. -/
structure Buildable (draft : DatabaseDraft) : Prop where
  wellFormed : draft.WellFormed
  foreignKeys : ∀ table ∈ draft.tables, ∀ key ∈ table.foreignKeys, draft.Joinable table key
  types : ∀ table ∈ draft.tables, ∀ column ∈ table.columns, ∀ engine ∈ Engine.concrete,
    ColumnType.Resolves column.declaredTypes column.host engine
  limits : ∀ limit ∈ draft.settings.limits, 0 < limit.value
  indexCache : draft.settings.indexCache ≠ some (.atMost 0)

theorem exists_build_iff {draft : DatabaseDraft} : (∃ database, draft.build = .ok database) ↔
    draft.WellFormed ∧ draft.furtherFaults = [] ∧ draft.settings.fault? = none := by
  constructor
  · rintro ⟨database, built⟩
    have accepted := accepted_of_build built
    have wellFormed := faults_eq_nil_iff.mp accepted.drafts
    refine ⟨wellFormed, ?_, accepted.settings⟩
    rw [furtherFaults, ← linked_faults wellFormed, accepted.links, List.nil_append]
    exact List.flatMap_eq_nil_iff.mpr accepted.types
  · rintro ⟨wellFormed, further, settings⟩
    have linked := (linked_faults wellFormed).trans further
    unfold DatabaseDraft.linked at linked
    simp [build, faults_eq_nil_iff.mpr wellFormed, linked, settings]

theorem build_eq_report {draft : DatabaseDraft} (wellFormed : draft.WellFormed)
    (faulty : draft.furtherFaults ≠ []) : draft.build = .error (report draft.furtherFaults) := by
  have linked : _ = draft.furtherFaults := linked_faults wellFormed
  unfold DatabaseDraft.linked at linked
  simp [build, faults_eq_nil_iff.mpr wellFormed, linked, faulty]

/-- Loans to readers, with the foreign keys of loans left open. -/
def loansDraft (foreignKeys : List ForeignKeyDraft) : DatabaseDraft :=
  { name := "library"
    tables :=
      [{ name := "readers"
         columns := [{ name := "id", host := .int64, primaryKey := true },
           { name := "card", host := .other "Card", declarations := [(.sqlite, "text")] }] },
       { name := "loans"
         columns := [{ name := "reader", host := .int64 }, { name := "book", host := .int64 }]
         foreignKeys }] }

/-- A loan refers to its reader by some column of readers. -/
def readerKey (references : String) : ForeignKeyDraft :=
  { column := "reader", table := "readers", references, name := "reader", inverse := "loans" }

def bookKey : ForeignKeyDraft :=
  { column := "book", table := "books", references := "id", name := "book", inverse := "loans" }

end DatabaseDraft

end RelationalAccess
