import RelationalAccess.DataSource.Selection
import RelationalAccess.Proofs.Cache.Growth
import RelationalAccess.Proofs.Cache.Tables
import RelationalAccess.Proofs.DataSource.Ledger

/-!
What the reads of a data source leave: the same rows stored, and caches to which only
rows were added that stand for committed ones.
-/

namespace RelationalAccess

/-- A selection asks for its rows and for their keys alike, or for neither. -/
theorem Selection.query_cases (selection : Selection) :
    (∃ refusal, ∀ projection, selection.query projection = .error refusal) ∨
      ∃ filter order, ∀ projection, selection.query projection = .ok
        { table := selection.table, projection, filter := some filter, order
          limit := selection.limit, offset := selection.offset } := by
  unfold query
  cases selection.lowered with
  | error refusal => exact .inl ⟨refusal, fun _ => rfl⟩
  | ok filter =>
    cases OrderTerm.lowerAll selection.table selection.order with
    | error refusal => exact .inl ⟨refusal, fun _ => rfl⟩
    | ok order => exact .inr ⟨filter, order, fun _ => rfl⟩

/-- A query of a selection is one of its table. -/
theorem Selection.query_eq {selection : Selection} {projection : Projection} {query : Query}
    (isQuery : selection.query projection = .ok query) :
    selection.table = query.table ∧ query.projection = projection := by
  rcases selection.query_cases with ⟨refusal, refused⟩ | ⟨filter, order, asked⟩
  · rw [refused] at isQuery
    cases isQuery
  · rw [asked] at isQuery
    cases isQuery
    exact ⟨rfl, rfl⟩

namespace DataSource

variable {World : Type}

/-- Neither the caches of a data source nor what is stored have changed. -/
structure Unmoved (ledger : Ledger World) (origin state : DataSource × World) : Prop where
  dialect : state.1.dialect = origin.1.dialect
  cache : state.1.cache = origin.1.cache
  stored : ledger.Same origin.2 state.2

/-- What is stored has not changed, and to the caches only rows were added that stand for
committed ones. -/
structure Grown (ledger : Ledger World) (origin state : DataSource × World) : Prop where
  dialect : state.1.dialect = origin.1.dialect
  database : state.1.cache.database = origin.1.cache.database
  stored : ledger.Same origin.2 state.2
  caches : ∀ position, state.1.cache.caches position = origin.1.cache.caches position
  kept : ∀ position keys row, origin.1.cache.cached? position keys = some row →
    state.1.cache.cached? position keys = some row
  added : ∀ position keys row, state.1.cache.cached? position keys = some row →
    origin.1.cache.cached? position keys = some row ∨
      (origin.1.cache.cached? position keys = none ∧ state.1.cache.caches position = true ∧
        row.keys = keys ∧ row.table.id = position ∧
        origin.1.cache.database.tables[position]? = some row.table ∧
        ledger.Holds origin.1.dialect origin.2 row)

/-- A table is the one of the database at its place. -/
def Owns (origin : DataSource) (table : Table) : Prop :=
  origin.cache.database.tables[table.id]? = some table

/-- Nothing is cached in a data source that has been opened. -/
theorem cache_of_opened {database : Database} {engine : Engine} {source : DataSource}
    (opened : ofDatabase database engine = .ok source) : source.cache = DatabaseCache.new database := by
  unfold ofDatabase at opened
  cases found : Dialect.ofEngine engine with
  | error refusal =>
    rw [found] at opened
    cases opened
  | ok dialect =>
    rw [found] at opened
    cases opened
    rfl

section

variable {ledger : Ledger World} {origin : DataSource × World}

theorem Unmoved.refl (ledger : Ledger World) (origin : DataSource × World) :
    Unmoved ledger origin origin :=
  ⟨rfl, rfl, .refl _ _⟩

theorem Unmoved.grown {state : DataSource × World} (unmoved : Unmoved ledger origin state) :
    Grown ledger origin state where
  dialect := unmoved.dialect
  database := by rw [unmoved.cache]
  stored := unmoved.stored
  caches _ := by rw [unmoved.cache]
  kept _ _ _ cached := by rwa [unmoved.cache]
  added _ _ _ cached := .inl (by rwa [unmoved.cache] at cached)

theorem Grown.tidy {state : DataSource × World} (grown : Grown ledger origin state)
    (tidy : origin.1.cache.Tidy) : state.1.cache.Tidy := by
  intro position keys row cached
  rcases grown.added position keys row cached with before | ⟨_, isCached, _⟩
  · rw [grown.caches]
    exact tidy position keys row before
  · exact isCached

theorem current_apply (state : DataSource × World) : current state = (.ok state.1, state) := rfl

theorem onBackend_apply {α : Type} (action : Action World α) (state : DataSource × World) :
    onBackend action state = ((action state.2).1, state.1, (action state.2).2) :=
  rfl

theorem makeRow_apply (table : Table) (values : List Value) (state : DataSource × World) :
    makeRow table values state =
      (Row.ofValues state.1.nextRow table values,
        { state.1 with nextRow := state.1.nextRow + 1 }, state.2) := by
  unfold makeRow
  rw [bind_apply, current_apply]
  dsimp only
  rw [bind_apply, modify_apply]
  exact lift_apply _ _

private theorem current_leads {failed : DataSource × World → Prop} :
    Leads (Unmoved ledger origin) (current : Session World DataSource)
      (fun source state => (Unmoved ledger origin state ∧ source.cache = origin.1.cache) ∧
        source.dialect = origin.1.dialect) failed :=
  fun _ unmoved => ⟨⟨unmoved, unmoved.cache⟩, unmoved.dialect⟩

variable {backend : Backend World}

/-- What the rows of an answer are read as is bound to the forms of committed rows. -/
def Answers (ledger : Ledger World) (origin : DataSource × World) (query : Query)
    (result : List (List Value)) : Prop :=
  query.projection = .all → Owns origin.1 query.table → ∀ raw ∈ result, ∀ values,
    readValues origin.1.dialect query.table.columns raw = .ok values →
    values.length = query.table.columns.length →
      ∃ stored ∈ ledger.committed origin.2 query.table.id,
        query.table.Binds origin.1.dialect values stored

private theorem run_leads
    (serves : backend.Serves ledger origin.1.cache.database origin.1.dialect) (query : Query) :
    Leads (Unmoved ledger origin) (run backend query)
      (fun result state => Unmoved ledger origin state ∧ Answers ledger origin query result)
      (Unmoved ledger origin) := by
  refine current_leads.bind fun source => Leads.given fun dialect => Leads.given fun _ => ?_
  rw [dialect]
  refine (Leads.lift fun _ => id).bind fun statement => Leads.given fun isStatement => ?_
  rintro ⟨source, world⟩ unmoved
  have same := unmoved.stored.trans (serves.unmoved statement world)
  have answered := serves.stored query statement world
  rw [onBackend_apply]
  revert same answered
  rcases backend.query statement world with ⟨_ | result, after⟩
  · exact fun same _ => ⟨unmoved.dialect, unmoved.cache, same⟩
  · intro same answered
    refine ⟨⟨unmoved.dialect, unmoved.cache, same⟩, fun all owned raw membership values read width => ?_⟩
    have stored := answered after result all owned isStatement rfl raw membership values read width
    rwa [unmoved.stored.committed] at stored

/-- A row of a table that stands for a committed one. -/
def Stands (ledger : Ledger World) (origin : DataSource × World) (table : Table) (row : Row) : Prop :=
  row.table = table ∧ ledger.Holds origin.1.dialect origin.2 row

private theorem readRow_leads {query : Query} {result : List (List Value)}
    (answers : Answers ledger origin query result) (all : query.projection = .all)
    (owned : Owns origin.1 query.table) {raw : List Value} (membership : raw ∈ result) :
    Leads (Unmoved ledger origin)
      (do makeRow query.table (← readValues (← current).dialect query.table.columns raw) :
        Session World Row)
      (fun row state => Unmoved ledger origin state ∧ Stands ledger origin query.table row)
      (Unmoved ledger origin) := by
  refine current_leads.bind fun source => Leads.given fun dialect => Leads.given fun _ => ?_
  rw [dialect]
  refine (Leads.lift fun _ => id).bind fun values => Leads.given fun isRead => ?_
  intro state unmoved
  rw [makeRow_apply, Row.ofValues]
  have after : Unmoved ledger origin ({ state.1 with nextRow := state.1.nextRow + 1 }, state.2) :=
    ⟨unmoved.dialect, unmoved.cache, unmoved.stored⟩
  by_cases width : values.length = query.table.columns.length
  · rw [if_pos width]
    exact ⟨after, rfl, answers all owned raw membership values isRead width⟩
  · rw [if_neg width]
    exact after

/-- The rows that a query of all columns finds stand for committed ones. -/
theorem loadRows_leads
    (serves : backend.Serves ledger origin.1.cache.database origin.1.dialect) {query : Query}
    (all : query.projection = .all) (owned : Owns origin.1 query.table) :
    Leads (Unmoved ledger origin) (loadRows backend query)
      (fun rows state => Unmoved ledger origin state ∧
        ∀ row ∈ rows, Stands ledger origin query.table row)
      (Unmoved ledger origin) := by
  refine (run_leads serves query).bind fun result => Leads.given fun answers => ?_
  apply Leads.mapM
  intro raw membership
  exact readRow_leads answers all owned membership

theorem loadKeys_unmoved
    (serves : backend.Serves ledger origin.1.cache.database origin.1.dialect) (query : Query) :
    Preserves (Unmoved ledger origin) (loadKeys backend query) := by
  refine (run_leads serves query).bind fun result => Leads.given fun _ => ?_
  have read : Leads (Unmoved ledger origin) (readKeys query.table result)
      (fun keys state => Unmoved ledger origin state ∧ ∀ key ∈ keys, True)
      (Unmoved ledger origin) := by
    apply Leads.mapM
    intro raw _
    refine current_leads.bind fun source => Leads.given fun _ => Leads.given fun _ => ?_
    refine (Leads.lift fun _ => id).bind fun values => Leads.given fun _ => ?_
    exact Leads.returns fun _ unmoved => ⟨unmoved, trivial⟩
  exact read.weaken (fun _ => id) (fun _ _ holds => holds.1) fun _ => id

private theorem beside_apply {α : Type} (action : Session World α)
    (state : TableCache × DataSource × World) :
    beside action state = ((action state.2).1, state.1, (action state.2).2) :=
  rfl

/-- An action beside a cache does nothing to it. -/
theorem beside_leads {α : Type} {action : Session World α} {condition : TableCache → Prop}
    {before failed : DataSource × World → Prop} {after : α → DataSource × World → Prop}
    (leads : Leads before action after failed) :
    Leads (fun state => condition state.1 ∧ before state.2) (beside action)
      (fun result state => condition state.1 ∧ after result state.2)
      (fun state => condition state.1 ∧ failed state.2) := by
  rintro ⟨cache, state⟩ ⟨holds, starts⟩
  have reached := leads state starts
  revert reached
  rw [beside_apply]
  rcases action state with ⟨_ | result, last⟩
  · exact fun reached => ⟨holds, reached⟩
  · exact fun reached => ⟨holds, reached⟩

/-- Rows loaded beside a cache stand for committed ones. -/
private theorem beside_loadRows_leads
    (serves : backend.Serves ledger origin.1.cache.database origin.1.dialect) {query : Query}
    (all : query.projection = .all) (owned : Owns origin.1 query.table)
    (condition : TableCache → Prop) :
    Leads (TableCache.Holding condition (Unmoved ledger origin)) (beside (loadRows backend query))
      (fun rows state => TableCache.Holding condition (Unmoved ledger origin) state ∧
        ∀ row ∈ rows, Stands ledger origin query.table row)
      (TableCache.Holding condition (Unmoved ledger origin)) := by
  refine (beside_leads (loadRows_leads serves all owned)).weaken (fun _ => id) ?_ fun _ => id
  rintro rows state ⟨holds, unmoved, stands⟩
  exact ⟨⟨holds, unmoved⟩, stands⟩

/-- The rows of a table that its source returns stand for committed ones. -/
theorem rowSource_steady
    (serves : backend.Serves ledger origin.1.cache.database origin.1.dialect) {table : Table}
    (owned : Owns origin.1 table) :
    (rowSource backend table).Steady (Unmoved ledger origin) (Stands ledger origin table) where
  rowsByKeys condition _ := beside_loadRows_leads serves rfl owned condition
  keysByValue _ _ _ _ := (beside_leads (loadKeys_unmoved serves _)).weaken (fun _ => id)
    (fun _ _ holds => ⟨holds, trivial⟩) fun _ => id
  rowsByValue condition _ _ _ := (beside_loadRows_leads serves rfl owned condition).weaken
    (fun _ => id) (fun _ _ holds => ⟨holds.1, holds.2, trivial⟩) fun _ => id

private theorem Unmoved.setTable {state : DataSource × World} (unmoved : Unmoved ledger origin state)
    {table : Table} (owned : Owns origin.1 table) {cache replaced : TableCache}
    (found : origin.1.cache.table? table.id = some cache)
    (extended : cache.Extends (Stands ledger origin table) replaced) :
    Grown ledger origin
      ({ state.1 with cache := state.1.cache.setTable table.id replaced }, state.2) := by
  have enabled := extended.enabled
  rw [unmoved.cache]
  have here (keys : Keys) : origin.1.cache.cached? table.id keys = cache.peek? keys := by
    rw [DatabaseCache.cached?, found]
    rfl
  refine ⟨unmoved.dialect, rfl, unmoved.stored, ?_, ?_, ?_⟩
  · exact DatabaseCache.caches_setTable found enabled
  · intro position keys row cached
    rw [DatabaseCache.cached?_setTable found]
    by_cases same : position = table.id
    · subst same
      rw [if_pos rfl]
      exact extended.kept keys row ((here keys).symm.trans cached)
    · rw [if_neg same]
      exact cached
  · intro position keys row cached
    rw [DatabaseCache.cached?_setTable found] at cached
    by_cases same : position = table.id
    · subst same
      rw [if_pos rfl] at cached
      rw [here, DatabaseCache.caches_setTable found enabled]
      rcases extended.added keys row cached with before | ⟨absent, isCached, rowKeys, rowTable, holds⟩
      · exact .inl before
      · refine .inr ⟨absent, ?_, rowKeys, congrArg Table.id rowTable, rowTable ▸ owned, holds⟩
        rw [DatabaseCache.caches, found]
        exact enabled.symm.trans isCached
    · rw [if_neg same] at cached
      exact .inl cached

/-- A read through the cache of a table that only adds rows to it. -/
private theorem throughCache_grown {α : Type} {table : Table} {read : Loading (DataSource × World) α}
    (owned : Owns origin.1 table)
    (reads : ∀ cache : TableCache,
      Preserves (cache.Grown (Unmoved ledger origin) (Stands ledger origin table)) read) :
    Leads (Unmoved ledger origin) (throughCache table read) (fun _ => Grown ledger origin)
      (Grown ledger origin) := by
  rintro ⟨source, world⟩ unmoved
  unfold throughCache
  dsimp only
  cases found : source.cache.table? table.id with
  | none => exact unmoved.grown
  | some cache =>
    have reached : cache.Grown (Unmoved ledger origin) (Stands ledger origin table)
        (read (cache, source, world)).2 :=
      Leads.final (reads cache) ⟨.refl _ cache, unmoved⟩
    have wasThere : origin.1.cache.table? table.id = some cache := unmoved.cache ▸ found
    dsimp only
    revert reached
    rcases read (cache, source, world) with ⟨_ | result, replaced, last⟩
    · exact fun reached => reached.2.setTable owned wasThere reached.1
    · exact fun reached => reached.2.setTable owned wasThere reached.1

end

/-- What the queries of a data source keep, and what its reads through caches lead to then. -/
structure Reading (backend : Backend World) (origin : DataSource)
    (still after : DataSource × World → Prop) : Prop where
  sameCache : ∀ state, still state → state.1.cache = origin.cache
  moves : ∀ state, still state → after state
  keys : ∀ query, Preserves still (loadKeys backend query)
  direct : ∀ query, query.projection = .all → Owns origin query.table →
    Leads still (loadRows backend query) (fun _ => still) still
  cached : ∀ {α : Type} {table : Table} {read : Loading (DataSource × World) α},
    Owns origin table → (rowSource backend table).Upholds read →
      Leads still (throughCache table read) (fun _ => after) after
  matching : ∀ {table : Table}, Owns origin table → ∀ columns values,
    Leads still (throughCache table (loadMatching backend table columns values)) (fun _ => after)
      after

namespace Reading

variable {backend : Backend World} {origin : DataSource} {still after : DataSource × World → Prop}
  (reading : Reading backend origin still after)
include reading

private theorem current_leads :
    Leads still (current : Session World DataSource)
      (fun source state => still state ∧ source.cache = origin.cache) after :=
  fun state holds => ⟨holds, reading.sameCache state holds⟩

private theorem requireTable_leads (placed : Table.AllPlaced origin.cache.database.tables)
    (name : String) :
    Leads still (requireTable name : Session World Table)
      (fun table state => still state ∧ Owns origin table) after := by
  refine reading.current_leads.bind fun source => Leads.given fun sameCache => ?_
  refine (Leads.lift reading.moves).weaken (fun _ => id) ?_ fun _ => id
  rintro table state ⟨holds, found⟩
  refine ⟨holds, ?_⟩
  rw [DataSource.database, sameCache] at found
  exact placed.owns (Database.mem_of_requireTable found)

private theorem loadRows_leads {query : Query} (all : query.projection = .all)
    (owned : Owns origin query.table) :
    Leads still (DataSource.loadRows backend query) (fun _ => after) after :=
  (reading.direct query all owned).weaken (fun _ => id) (fun _ => reading.moves) reading.moves

/-- A selection of a table of the database. -/
theorem rows {selection : Selection} (owned : Owns origin selection.table) :
    Leads still (selection.rows backend) (fun _ => after) after := by
  refine reading.current_leads.bind fun source => Leads.given fun _ => ?_
  dsimp only
  split
  · have keys : Preserves still (selection.keys backend) :=
      Preserves.lift.bind fun query => reading.keys query
    refine (keys.weaken (fun _ => id) (fun _ _ => id) reading.moves).bind fun keys => ?_
    exact reading.cached owned (TableCache.getRowsByKeys_upholds _ keys)
  · refine (Leads.lift reading.moves).bind fun query => Leads.given fun isQuery => ?_
    obtain ⟨sameTable, all⟩ := Selection.query_eq isQuery
    exact reading.loadRows_leads all (sameTable ▸ owned)

variable (placed : Table.AllPlaced origin.cache.database.tables)
include placed

theorem get (name : String) (keys : Keys) :
    Leads still (get backend name keys) (fun _ => after) after := by
  refine (reading.requireTable_leads placed name).bind fun table => Leads.given fun owned => ?_
  split
  · exact reading.cached owned (TableCache.getRow_upholds _ keys)
  · exact Leads.throws reading.moves

theorem getRowsBy (name column : String) (value : Value) :
    Leads still (getRowsBy backend name column value) (fun _ => after) after := by
  refine (reading.requireTable_leads placed name).bind fun table => Leads.given fun owned => ?_
  split
  · exact Leads.throws reading.moves
  · next position _ =>
    split
    · exact reading.cached owned (TableCache.getRows_upholds _ position value)
    · exact reading.loadRows_leads rfl owned

theorem related (row : Row) (relation : String) :
    Leads still (related backend row relation) (fun _ => after) after := by
  refine reading.current_leads.bind fun source => Leads.given fun sameCache => ?_
  dsimp only
  split
  · exact Leads.throws reading.moves
  · next part other columns found =>
    have owned : Owns origin other := by
      obtain ⟨_, _, found⟩ := Option.bind_eq_some_iff.mp found
      obtain ⟨_, _, found⟩ := Option.bind_eq_some_iff.mp found
      obtain ⟨table, isThere, found⟩ := Option.bind_eq_some_iff.mp found
      cases found
      rw [DataSource.database, sameCache] at isThere
      exact placed.owns (List.mem_of_getElem? isThere)
    split
    · exact Leads.returns reading.moves
    · split
      · refine (reading.cached owned (TableCache.getRow_upholds _ _)).bind fun found => ?_
        exact Leads.returns fun _ => id
      · split
        · exact reading.cached owned (TableCache.getRows_upholds _ _ _)
        · exact reading.matching owned _ _

end Reading

section

variable {ledger : Ledger World} {origin : DataSource × World}

/-- An action that leaves what is stored, and adds to the caches only rows that stand for
committed ones. -/
def Adds {α : Type} (ledger : Ledger World) (origin : DataSource × World) (action : Session World α) :
    Prop :=
  Leads (Unmoved ledger origin) action (fun _ => Grown ledger origin) (Grown ledger origin)

/-- Reads leave what is stored, and add to the caches only rows that stand for committed ones. -/
theorem reading_adds {backend : Backend World} (origin : DataSource × World)
    (serves : backend.Serves ledger origin.1.cache.database origin.1.dialect) :
    Reading backend origin.1 (Unmoved ledger origin) (Grown ledger origin) where
  sameCache _ unmoved := unmoved.cache
  moves _ := Unmoved.grown
  keys := loadKeys_unmoved serves
  direct _ all owned := (loadRows_leads serves all owned).weaken (fun _ => id)
    (fun _ _ holds => holds.1) fun _ => id
  cached owned upholds := throughCache_grown owned fun cache =>
    upholds (TableCache.extends_upheld _ cache) (rowSource_steady serves owned)
  matching owned columns values := throughCache_grown owned fun cache => by
    refine TableCache.current_upheld.bind fun now => ?_
    refine (beside_loadRows_leads serves rfl owned _).bind fun rows => Leads.given fun stand => ?_
    exact TableCache.storeRead_upheld (TableCache.extends_upheld _ cache) _ stand

end

end DataSource

end RelationalAccess
