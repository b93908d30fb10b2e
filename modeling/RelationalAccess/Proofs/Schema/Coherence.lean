import RelationalAccess.Proofs.Lists
import RelationalAccess.Proofs.Schema.Parts
import RelationalAccess.Proofs.Schema.Shape

/-!
What holds of every built database: its tables are in shape, its relations are those that
the drafts declare, every side of a relation is listed on exactly the index that it names,
and every column has a type for each engine that a database can run on.
-/

namespace RelationalAccess

namespace ColumnType

@[simp] theorem named_engine (engine : Engine) (name : String) :
    (named engine name).engine = engine := rfl

@[simp] theorem withLength_engine (type : ColumnType) (length : Nat) :
    (type.withLength length).engine = type.engine := rfl

@[simp] theorem forEngine_engine (type : ColumnType) (engine : Engine) :
    (type.forEngine engine).engine = engine := rfl

theorem engine_of_declaredFor? {declared : List ColumnType} {engine : Engine} {type : ColumnType}
    (found : declaredFor? declared engine = some type) : type.engine = engine := by
  simpa using List.find?_some found

variable {type found : ColumnType} {target : Engine}

theorem engine_of_toSqlite? (carried : type.toSqlite? = some found) : found.engine = .sqlite := by
  unfold toSqlite? at carried
  grind [named_engine]

theorem engine_of_toMySqlFamily? (carried : type.toMySqlFamily? target = some found) :
    found.engine = target := by
  unfold toMySqlFamily? at carried
  grind [named_engine, withLength_engine, forEngine_engine]

theorem engine_of_carryOver? (carried : type.carryOver? target = some found) :
    found.engine = target := by
  unfold carryOver? at carried
  split at carried
  · next same => exact Option.some.inj carried ▸ same
  · split at carried
    · exact engine_of_toSqlite? carried
    · exact engine_of_toMySqlFamily? carried
    · exact engine_of_toMySqlFamily? carried
    · cases carried

theorem engine_of_infer? {host : HostType} (inferred : infer? host target = some found) :
    found.engine = target := by
  unfold infer? at inferred
  split at inferred
  · obtain ⟨name, _, rfl⟩ := Option.map_eq_some_iff.mp inferred
    rfl
  · unfold inferMySqlFamily? at inferred
    grind [named_engine, withLength_engine]
  · unfold inferMySqlFamily? at inferred
    grind [named_engine, withLength_engine]
  · cases inferred

/-- A type resolved for an engine is one of that engine, wherever it comes from. -/
theorem engine_of_resolve? {declared : List ColumnType} {host : HostType}
    (resolved : resolve? declared host target = some found) : found.engine = target := by
  have carriedFor {source : Engine}
      (carried : (declaredFor? declared source).bind (·.carryOver? target) = some found) :
      found.engine = target := by
    obtain ⟨type, _, isCarried⟩ := Option.bind_eq_some_iff.mp carried
    exact engine_of_carryOver? isCarried
  simp only [resolve?, Option.orElse_eq_orElse, Option.orElse_eq_or, Option.or_eq_some_iff] at resolved
  rcases resolved with own | ⟨_, common | ⟨_, another | ⟨_, inferred⟩⟩⟩
  · exact engine_of_declaredFor? own
  · exact carriedFor common
  · obtain ⟨source, _, carried⟩ := List.exists_of_findSome?_eq_some another
    exact carriedFor carried
  · exact engine_of_infer? inferred

end ColumnType

/-- A column has its type for an engine from its declarations. -/
def Column.Typed (column : Column) (engine : Engine) : Prop :=
  ∃ type, column.type? engine = some type ∧
    ColumnType.resolve? column.declared column.host engine = some type ∧ type.engine = engine

namespace Column

variable {column : Column}

/-- Where every engine has a type, the resolved types are found by their engines. -/
theorem typed_of_resolved {table model : String} (faultless : column.resolutionFaults table model = [])
    {engine : Engine} (isConcrete : engine ∈ Engine.concrete) : column.resolve.Typed engine := by
  have resolves : ∀ source ∈ Engine.concrete, ∃ type,
      ColumnType.resolve? column.declared column.host source = some type := by
    intro source membership
    have noFault := List.filterMap_eq_nil_iff.mp faultless source membership
    cases found : ColumnType.resolve? column.declared column.host source with
    | some type => exact ⟨type, rfl⟩
    | none => simp [found] at noFault
  obtain ⟨forMariaDb, mariaDb⟩ := resolves .mariaDb (by decide)
  obtain ⟨forMySql, mySql⟩ := resolves .mySql (by decide)
  obtain ⟨forSqlite, sqlite⟩ := resolves .sqlite (by decide)
  have mariaDbEngine := ColumnType.engine_of_resolve? mariaDb
  have mySqlEngine := ColumnType.engine_of_resolve? mySql
  have sqliteEngine := ColumnType.engine_of_resolve? sqlite
  have resolved : column.resolve.resolved = [forMariaDb, forMySql, forSqlite] := by
    simp [Column.resolve, resolvedTypes, Engine.concrete, mariaDb, mySql, sqlite]
  simp only [Engine.concrete, List.mem_cons, List.not_mem_nil, or_false] at isConcrete
  rcases isConcrete with rfl | rfl | rfl
  · exact ⟨forMariaDb, by simp [type?, ColumnType.declaredFor?, *], mariaDb, mariaDbEngine⟩
  · exact ⟨forMySql, by simp [type?, ColumnType.declaredFor?, *], mySql, mySqlEngine⟩
  · exact ⟨forSqlite, by simp [type?, ColumnType.declaredFor?, *], sqlite, sqliteEngine⟩

end Column

namespace DatabaseDraft

variable {draft : DatabaseDraft} {database : Database}

theorem Accepted.typed (accepted : draft.Accepted database) {table : Table}
    (membership : table ∈ database.tables) {column : Column} (onTable : column ∈ table.columns)
    {engine : Engine} (isConcrete : engine ∈ Engine.concrete) : column.Typed engine := by
  rw [accepted.result] at membership
  obtain ⟨linked, isLinked, rfl⟩ := List.mem_map.mp membership
  obtain ⟨unresolved, wasThere, rfl⟩ := List.mem_map.mp onTable
  have faultless := List.flatMap_eq_nil_iff.mp (accepted.types linked isLinked) unresolved wasThere
  exact Column.typed_of_resolved faultless isConcrete

/-- Every foreign key of an accepted draft has its relation. -/
theorem Accepted.joins (accepted : draft.Accepted database) :
    List.Forall₂ (Linking.Joins database.tables) (Linking.foreignKeys draft.tables)
      database.relations := by
  rw [accepted.result]
  exact accepted.sound.joins.imp fun _ _ => .of_grown (.map _ .resolve)

theorem Accepted.listed (accepted : draft.Accepted database) : database.Listed where
  numbered := by
    rw [accepted.result]
    exact accepted.sound.numbered
  listed position place table index found isThere := by
    rw [accepted.result] at found ⊢
    obtain ⟨linked, wasThere, rfl⟩ := Option.map_eq_some_iff.mp (List.getElem?_map ▸ found)
    have isThere : linked.indices[place]? = some index := isThere
    rw [← accepted.sound.parts, Linking.partsAt, wasThere, Option.map_some, Option.getD_some,
      Table.partsAt, isThere, Option.map_some, Option.getD_some]
  isThere part isPart := by
    obtain ⟨relation, membership, isItsPart⟩ := List.mem_flatMap.mp isPart
    obtain ⟨_, _, joins⟩ := counterpart_left accepted.joins membership
    obtain ⟨side, rfl⟩ := Relation.mem_parts.mp isItsPart
    cases side with
    | foreignKey => exact joins.foreignKey.isThere
    | candidateKey => exact joins.candidateKey.isThere

/-- What holds of a database built from a draft: tables, columns, indices and relations name
each other by position, and every name leads where the draft says. -/
structure Coherent (draft : DatabaseDraft) (database : Database) : Prop where
  tableCount : database.tables.length = draft.tables.length
  tables : ∀ (position : Nat) (table : Table), database.tables[position]? = some table →
    table.Shaped position ∧
      ∃ declared : TableDraft, draft.tables[position]? = some declared ∧ declared.Describes table
  tableNames : (database.tables.map (·.name)).Nodup
  types : ∀ table ∈ database.tables, ∀ column ∈ table.columns, ∀ engine ∈ Engine.concrete,
    column.Typed engine
  relations : List.Forall₂ (Linking.Joins database.tables) (Linking.foreignKeys draft.tables)
    database.relations
  numbered : Relation.AllNumbered database.relations
  /-- A side of a relation is listed on the index that its part names, once, and nowhere else. -/
  listed : ∀ (position place : Nat) (table : Table) (index : Index),
    database.tables[position]? = some table → table.indices[place]? = some index →
      index.parts.Nodup ∧ ∀ number side, (number, side) ∈ index.parts ↔
        ∃ relation, database.relations[number]? = some relation ∧
          (relation.part side).table = position ∧ (relation.part side).index = place
  otherSide : ∀ part ∈ database.parts, ∃ other ∈ database.parts, other.side = part.side.other ∧
    database.otherSide? part = some other ∧ database.otherSide? other = some part
  relationParts : ∀ position, (database.relationParts position).Nodup ∧
    ∀ part, part ∈ database.relationParts position ↔
      part ∈ database.parts ∧ part.table = position

/-- Every database that a draft is built to is coherent. -/
theorem build_coherent (built : draft.build = .ok database) : draft.Coherent database := by
  have accepted := accepted_of_build built
  have isListed := accepted.listed
  refine
    { tableCount := accepted.grown.length.trans (by simp [declaredTables])
      tables := fun position table found => ?_
      tableNames := ?_
      types := fun table membership column onTable engine => accepted.typed membership onTable
      relations := accepted.joins
      numbered := isListed.numbered
      listed := fun position place table index found isThere => ?_
      otherSide := fun part => isListed.otherSide?
      relationParts := fun position => ⟨isListed.relationParts_nodup position, fun part =>
        isListed.mem_relationParts⟩ }
  · obtain ⟨declared, isDeclared, describes, shaped⟩ := accepted.table found
    exact ⟨shaped, declared, isDeclared, describes⟩
  · rw [accepted.grown.names, map_name_declaredTables]
    exact (tableFaults_eq_nil_iff.mp accepted.drafts).1
  · rw [isListed.listed position place table index found isThere]
    exact ⟨Linking.partsThrough_nodup isListed.numbered position place, fun number side =>
      Linking.mem_partsThrough isListed.numbered⟩

/-- Articles of a catalogue, each perhaps a part of another and of one shelf, where the
shelf has an index of its own already and is referred to twice. -/
def catalogueDraft : DatabaseDraft :=
  { name := "catalogue"
    tables :=
      [{ name := "shelves"
         columns := [{ name := "room", host := .string, primaryKey := true },
           { name := "number", host := .int32, primaryKey := true },
           { name := "label", host := .string }] },
       { name := "articles"
         columns := [{ name := "id", host := .uuid, primaryKey := true },
           { name := "whole", host := .uuid, nullable := true },
           { name := "shelf", host := .string, declarations := [(.common, "varchar(40)")] }]
         indices := [{ name := "on_shelf", columns := ["shelf"] }]
         foreignKeys :=
           [{ column := "whole", table := "articles", references := "id", name := "whole"
              inverse := "parts" },
            { column := "shelf", table := "shelves", references := "label", name := "shelf"
              inverse := "articles" },
            { column := "shelf", table := "shelves", references := "label", name := "place"
              inverse := "contents" }] }] }

theorem build_coherent_catalogue :
    ∃ database, catalogueDraft.build = .ok database ∧ database.relations.length = 3 ∧
      catalogueDraft.Coherent database := by
  refine ⟨_, rfl, rfl, build_coherent rfl⟩

end DatabaseDraft

end RelationalAccess
