import RelationalAccess.Proofs.Cache.Lookups
import RelationalAccess.Proofs.DataSource.Reads
import RelationalAccess.Proofs.Lists

/-!
What a data source loads where its backend answers: the rows and keys that the answer is
read as, and nothing changed but the identities given out. Reads through the cache of a
table are brought back to reads of that cache alone.
-/

namespace RelationalAccess

theorem Keys.map_mk_values (keys : List Keys) : (keys.map Keys.values).map Keys.mk = keys := by
  rw [List.map_map]
  exact List.map_id keys

namespace DataSource

variable {World : Type}

/-- A returned row is read as some values, one for each column. -/
structure ReadsAs (dialect : Dialect) (columns : List Column) (raw values : List Value) : Prop where
  read : readValues dialect columns raw = .ok values
  width : values.length = columns.length

/-- A data source with its caches as they were, in a steady world. -/
structure Still (steady : World → Prop) (origin : DataSource) (state : DataSource × World) : Prop where
  dialect : state.1.dialect = origin.dialect
  cache : state.1.cache = origin.cache
  world : steady state.2

end DataSource

/-- A query that has a statement is replied to in every steady world, with something good. -/
def Backend.Replies {World : Type} (backend : Backend World) (steady : World → Prop)
    (dialect : Dialect) (query : Query) (good : List (List Value) → Prop) : Prop :=
  ∀ statement, query.statement dialect = .ok statement → ∀ world, steady world →
    ∃ result after, backend.query statement world = (.ok result, after) ∧ steady after ∧ good result

/-- A query has a statement, and what it returns for some columns is read as values of which
something holds. -/
def Backend.Finds {World : Type} (backend : Backend World) (steady : World → Prop)
    (dialect : Dialect) (query : Query) (columns : List Column)
    (good : List (List Value) → Prop) : Prop :=
  (∃ statement, query.statement dialect = .ok statement) ∧
    backend.Replies steady dialect query fun result =>
      ∃ values, result.Forall₂ (DataSource.ReadsAs dialect columns) values ∧ good values

/-- A query that is replied to has a statement. -/
theorem Backend.Replies.stated {World : Type} {backend : Backend World} {steady : World → Prop}
    {dialect : Dialect} {query : Query} {good : List (List Value) → Prop}
    (replies : backend.Replies steady dialect query good) :
    backend.Replies steady dialect query fun result =>
      good result ∧ ∃ statement, query.statement dialect = .ok statement := by
  intro statement isStatement world isSteady
  obtain ⟨result, after, answered, steadyThen, isGood⟩ := replies statement isStatement world isSteady
  exact ⟨result, after, answered, steadyThen, isGood, statement, isStatement⟩

namespace DataSource

variable {World : Type} {backend : Backend World} {steady : World → Prop} {origin : DataSource}
  {good : List (List Value) → Prop}

theorem Still.refl {world : World} (isSteady : steady world) :
    Still steady origin (origin, world) :=
  ⟨rfl, rfl, isSteady⟩

theorem current_still {failed : DataSource × World → Prop} :
    Leads (Still steady origin) (current : Session World DataSource)
      (fun source state => Still steady origin state ∧
        source.dialect = origin.dialect ∧ source.cache = origin.cache) failed :=
  fun _ still => ⟨still, still.dialect, still.cache⟩

/-- A query that is replied to returns the reply. It fails only where it has no statement. -/
theorem run_replies {query : Query} (replies : backend.Replies steady origin.dialect query good)
    {failed : DataSource × World → Prop}
    (unstated : (∀ statement, query.statement origin.dialect ≠ .ok statement) →
      ∀ state, Still steady origin state → failed state) :
    Leads (Still steady origin) (run backend query)
      (fun result state => Still steady origin state ∧ good result) failed := by
  refine current_still.bind fun source => Leads.given fun ⟨dialect, _⟩ => ?_
  rw [dialect]
  refine Leads.attempt (fun refusal refused state => unstated (fun _ isStatement => ?_) state)
    fun statement isStatement => ?_
  · cases refused.symm.trans isStatement
  rintro ⟨source, world⟩ still
  obtain ⟨result, after, answered, isSteady, isGood⟩ :=
    replies statement isStatement world still.world
  rw [onBackend_apply]
  dsimp only
  rw [answered]
  exact ⟨⟨still.dialect, still.cache, isSteady⟩, isGood⟩

/-- Rows are made of what was returned, in its order, with the values that it is read as. It
fails only where something is returned that cannot be read. -/
theorem readRows_reads {table : Table} {result : List (List Value)} {failed : DataSource × World → Prop}
    (unreadable : ∀ raw ∈ result, (∀ values, ¬ ReadsAs origin.dialect table.columns raw values) →
      ∀ state, Still steady origin state → failed state) :
    Leads (Still steady origin) (readRows table result)
      (fun rows state => Still steady origin state ∧ (∀ row ∈ rows, row.table = table) ∧
        result.Forall₂ (ReadsAs origin.dialect table.columns) (rows.map Row.values))
      failed := by
  have each : Leads (Still steady origin) (readRows table result)
      (fun rows state => Still steady origin state ∧ result.Forall₂ (fun raw row =>
        row.table = table ∧ ReadsAs origin.dialect table.columns raw row.values) rows) failed := by
    refine Leads.mapM_each fun raw membership => ?_
    have unreadable := unreadable raw membership
    refine current_still.bind fun source => Leads.given fun ⟨dialect, _⟩ => ?_
    rw [dialect]
    refine Leads.attempt (fun refusal refused state => unreadable (fun values reads => ?_) state)
      fun values read => ?_
    · cases refused.symm.trans reads.read
    rintro ⟨source, world⟩ still
    rw [makeRow_apply, Row.ofValues]
    by_cases width : values.length = table.columns.length
    · rw [if_pos width]
      exact ⟨⟨still.dialect, still.cache, still.world⟩, rfl, read, width⟩
    · rw [if_neg width]
      refine unreadable (fun other reads => width ?_) _ ⟨still.dialect, still.cache, still.world⟩
      rw [Except.ok.inj (read.symm.trans reads.read)]
      exact reads.width
  refine each.weaken (fun _ => id) (fun rows state holds => ⟨holds.1, fun row membership => ?_, ?_⟩)
    fun _ => id
  · obtain ⟨_, _, sameTable, _⟩ := counterpart_left holds.2 membership
    exact sameTable
  · exact List.forall₂_map_right_iff.mpr (holds.2.imp fun _ _ read => read.2)

/-- What is read as something is read as nothing else. -/
theorem ReadsAs.unique {dialect : Dialect} {columns : List Column} :
    Relator.RightUnique (ReadsAs dialect columns) := fun _ _ _ reads readsToo =>
  Except.ok.inj (reads.read.symm.trans readsToo.read)

theorem readRows_leads {table : Table} {result values : List (List Value)}
    (reads : result.Forall₂ (ReadsAs origin.dialect table.columns) values) :
    Leads (Still steady origin) (readRows table result)
      (fun rows state => Still steady origin state ∧
        (∀ row ∈ rows, row.table = table) ∧ rows.map Row.values = values)
      Never := by
  refine (readRows_reads fun raw membership unreadable => ?_).weaken (fun _ => id)
    (fun rows state holds => ⟨holds.1, holds.2.1, ?_⟩) fun _ => id
  · obtain ⟨values, _, isRead⟩ := counterpart_right reads membership
    exact absurd isRead (unreadable values)
  · exact List.right_unique_forall₂' ReadsAs.unique holds.2.2 reads

/-- Keys are read from what was returned, in its order. It fails only where something is
returned that cannot be read. -/
theorem readKeys_reads {table : Table} {result : List (List Value)} {failed : DataSource × World → Prop}
    (unreadable : ∀ raw ∈ result,
      (∀ values, readValues origin.dialect table.keyColumns raw ≠ .ok values) →
        ∀ state, Still steady origin state → failed state) :
    Leads (Still steady origin) (readKeys table result)
      (fun keys state => Still steady origin state ∧ result.Forall₂ (fun raw key =>
        readValues origin.dialect table.keyColumns raw = .ok key.values) keys)
      failed := by
  refine Leads.mapM_each fun raw membership => ?_
  have unreadable := unreadable raw membership
  refine current_still.bind fun source => Leads.given fun ⟨dialect, _⟩ => ?_
  rw [dialect]
  refine Leads.attempt (fun refusal refused state => unreadable (fun values reads => ?_) state)
    fun values read => Leads.returns fun _ still => ⟨still, read⟩
  cases refused.symm.trans reads

theorem readKeys_leads {table : Table} {result values : List (List Value)}
    (reads : result.Forall₂ (ReadsAs origin.dialect table.keyColumns) values) :
    Leads (Still steady origin) (readKeys table result)
      (fun keys state => Still steady origin state ∧ keys.map Keys.values = values) Never := by
  refine (readKeys_reads fun raw membership unreadable => ?_).weaken (fun _ => id)
    (fun keys state holds => ⟨holds.1, ?_⟩) fun _ => id
  · obtain ⟨values, _, isRead⟩ := counterpart_right reads membership
    exact absurd isRead.read (unreadable values)
  · have each : result.Forall₂ (fun raw values =>
        readValues origin.dialect table.keyColumns raw = .ok values) (keys.map Keys.values) :=
      List.forall₂_map_right_iff.mpr holds.2
    exact List.right_unique_forall₂' (fun _ _ _ read other => Except.ok.inj (read.symm.trans other))
      each (reads.imp fun _ _ isRead => isRead.read)

/-- The rows that a query of all columns is replied to with. It fails only where it has no
statement. -/
theorem loadRows_replies {query : Query} {failed : DataSource × World → Prop}
    (replies : backend.Replies steady origin.dialect query fun result =>
      ∃ values, result.Forall₂ (ReadsAs origin.dialect query.table.columns) values ∧ good values)
    (unstated : (∀ statement, query.statement origin.dialect ≠ .ok statement) →
      ∀ state, Still steady origin state → failed state) :
    Leads (Still steady origin) (loadRows backend query)
      (fun rows state => Still steady origin state ∧
        (∀ row ∈ rows, row.table = query.table) ∧ good (rows.map Row.values))
      failed := by
  refine (run_replies replies unstated).bind fun result => Leads.given fun ⟨values, reads, isGood⟩ => ?_
  refine (readRows_leads reads).weaken (fun _ => id) ?_ fun _ impossible => impossible.elim
  intro rows state holds
  obtain ⟨still, sameTable, inOrder⟩ := holds
  exact ⟨still, sameTable, inOrder ▸ isGood⟩

/-- The keys that a query of the key columns is replied to with. It fails only where it has no
statement. -/
theorem loadKeys_replies {query : Query} {failed : DataSource × World → Prop}
    (replies : backend.Replies steady origin.dialect query fun result =>
      ∃ values, result.Forall₂ (ReadsAs origin.dialect query.table.keyColumns) values ∧ good values)
    (unstated : (∀ statement, query.statement origin.dialect ≠ .ok statement) →
      ∀ state, Still steady origin state → failed state) :
    Leads (Still steady origin) (loadKeys backend query)
      (fun keys state => Still steady origin state ∧ good (keys.map Keys.values)) failed := by
  refine (run_replies replies unstated).bind fun result => Leads.given fun ⟨values, reads, isGood⟩ => ?_
  refine (readKeys_leads reads).weaken (fun _ => id) ?_ fun _ impossible => impossible.elim
  intro keys state holds
  obtain ⟨still, inOrder⟩ := holds
  exact ⟨still, inOrder ▸ isGood⟩

/-- The rows that a query of all columns finds. -/
theorem loadRows_finds {query : Query}
    (finds : backend.Finds steady origin.dialect query query.table.columns good) :
    Leads (Still steady origin) (loadRows backend query)
      (fun rows state => Still steady origin state ∧
        (∀ row ∈ rows, row.table = query.table) ∧ good (rows.map Row.values))
      Never :=
  loadRows_replies finds.2 fun unstated => absurd finds.1.choose_spec (unstated _)

/-- The keys that a query of the key columns finds. -/
theorem loadKeys_finds {query : Query}
    (finds : backend.Finds steady origin.dialect query query.table.keyColumns good) :
    Leads (Still steady origin) (loadKeys backend query)
      (fun keys state => Still steady origin state ∧ good (keys.map Keys.values)) Never :=
  loadKeys_replies finds.2 fun unstated => absurd finds.1.choose_spec (unstated _)

section

variable (unmoved : ∀ statement world, steady world → steady (backend.query statement world).2)
include unmoved

private theorem run_still (query : Query) : Preserves (Still steady origin) (run backend query) := by
  refine current_still.bind fun source => Leads.given fun _ => ?_
  refine (Leads.lift fun _ => id).bind fun statement => Leads.given fun _ => ?_
  intro state still
  have after := unmoved statement state.2 still.world
  rw [onBackend_apply]
  revert after
  rcases backend.query statement state.2 with ⟨_ | result, last⟩
  · exact fun after => ⟨still.dialect, still.cache, after⟩
  · exact fun after => ⟨still.dialect, still.cache, after⟩

/-- A query that fails leaves everything as it was, too. -/
theorem loadRows_still (query : Query) : Preserves (Still steady origin) (loadRows backend query) := by
  refine (run_still unmoved query).bind fun result => ?_
  exact (readRows_reads fun _ _ _ _ => id).weaken (fun _ => id) (fun _ _ holds => holds.1) fun _ => id

theorem loadKeys_still (query : Query) : Preserves (Still steady origin) (loadKeys backend query) := by
  refine (run_still unmoved query).bind fun result => ?_
  exact (readKeys_reads fun _ _ _ _ => id).weaken (fun _ => id) (fun _ _ holds => holds.1) fun _ => id

end

section

variable {table : Table} {stored matching : List (List Value)} {column : Nat} {value : Value}

/-- The source of a table gives the rows of some keys if their query finds them. -/
theorem rowsByKeys_gives {keys : List Keys}
    (finds : backend.Finds steady origin.dialect (.byKeys table keys) table.columns fun values =>
      (∀ row ∈ values, row ∈ stored) ∧
        ∀ key ∈ keys, key ∈ stored.map table.keysOf → key ∈ values.map table.keysOf) :
    RowSource.Gives (Still steady origin) ((rowSource backend table).rowsByKeys keys)
      (table.Covers stored keys) := by
  intro condition
  refine (beside_leads (loadRows_finds finds)).weaken (fun _ => id) ?_ fun _ holds => holds.2
  rintro rows state ⟨kept, still, sameTable, isStored, all⟩
  refine ⟨⟨kept, still⟩, fun row membership => ?_, fun key isKey isThere => ?_⟩
  · exact ⟨sameTable row membership, isStored row.values (List.mem_map_of_mem membership)⟩
  · obtain ⟨values, isRead, sameKeys⟩ := List.mem_map.mp (all key isKey isThere)
    obtain ⟨row, membership, rfl⟩ := List.mem_map.mp isRead
    refine List.mem_map.mpr ⟨row, membership, ?_⟩
    rw [Row.keys, sameTable row membership]
    exact sameKeys

/-- The source of a table gives the rows that match if their query finds them. -/
theorem rowsByValue_gives
    (finds : backend.Finds steady origin.dialect (.byValue table .all column value) table.columns
      fun values => values.Perm matching) :
    RowSource.Gives (Still steady origin) ((rowSource backend table).rowsByValue column value)
      fun loaded => table.Loaded loaded matching := by
  intro condition
  refine (beside_leads (loadRows_finds finds)).weaken (fun _ => id) ?_ fun _ holds => holds.2
  rintro rows state ⟨kept, still, sameTable, all⟩
  exact ⟨⟨kept, still⟩, sameTable, all⟩

/-- The source of a table gives the keys of the rows that match if their query finds them. -/
theorem keysByValue_gives
    (finds : backend.Finds steady origin.dialect (.byValue table .keys column value)
      table.keyColumns fun values => values.Perm (matching.map fun row => (table.keysOf row).values)) :
    RowSource.Gives (Still steady origin) ((rowSource backend table).keysByValue column value)
      fun keys => keys.Perm (matching.map table.keysOf) := by
  intro condition
  refine (beside_leads (loadKeys_finds finds)).weaken (fun _ => id) ?_ fun _ holds => holds.2
  rintro keys state ⟨kept, still, all⟩
  refine ⟨⟨kept, still⟩, ?_⟩
  have named := all.map Keys.mk
  rw [Keys.map_mk_values, List.map_map] at named
  exact named

end

/-- What a read leads to through the cache of a table. -/
theorem throughCache_leads {α : Type} {table : Table} {cache : TableCache}
    (found : origin.cache.table? table.id = some cache) {read : Loading (DataSource × World) α}
    {answer : α → Prop} {refused : Prop}
    (leads : Leads (fun state => state.1 = cache ∧ Still steady origin state.2) read
      (fun result _ => answer result) (fun _ => refused)) :
    Leads (Still steady origin) (throughCache table read) (fun result _ => answer result)
      (fun _ => refused) := by
  rintro ⟨source, world⟩ still
  have reached := leads (cache, source, world) ⟨rfl, still⟩
  revert reached
  unfold throughCache
  dsimp only
  rw [still.cache, found]
  dsimp only
  rcases read (cache, source, world) with ⟨_ | result, _, _, _⟩
  · exact id
  · exact id

end DataSource

end RelationalAccess
