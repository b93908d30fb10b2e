import RelationalAccess.Proofs.DataSource.Engine

/-!
Rows followed along a relation and back. A row that refers is among those that the referred
row leads to exactly if that row is among those that it leads to itself, whether the rows
are looked up by their keys, through an index cache or by a query alone.
-/

namespace RelationalAccess

/-- The rows that have a value in a column; none has a null. -/
def Table.rowsWith (rows : List (List Value)) (column : Nat) (value : Value) : List (List Value) :=
  rows.filter fun row => value ≠ .null ∧ row.getD column .null = value

theorem Table.rowsWith_of_ne_null {value : Value} (notNull : value ≠ .null)
    (rows : List (List Value)) (column : Nat) :
    Table.rowsWith rows column value = rows.filter fun row => row.getD column .null = value := by
  simp [Table.rowsWith, notNull]

theorem Table.mem_rowsWith {rows : List (List Value)} {column : Nat} {value : Value}
    {row : List Value} :
    row ∈ Table.rowsWith rows column value ↔
      row ∈ rows ∧ value ≠ .null ∧ row.getD column .null = value := by
  rw [Table.rowsWith, List.mem_filter, decide_eq_true_iff]

/-- The column that a part of a relation goes through, which is one alone. -/
def Table.partColumn (table : Table) (part : RelationPart) : Nat :=
  (DataSource.partColumns table part).headD 0

namespace TableCache

/-- The cache of a table that is not used: it is not enabled and has nothing in it. -/
structure Off (table : Table) (cache : TableCache) : Prop where
  sameTable : cache.table = table
  disabled : cache.enabled = false
  noRows : ∀ keys, cache.peek? keys = none
  noIndices : cache.indices = []

/-- A cache agrees with the rows of its table, or is not used, as that of a table without a
primary key never is. -/
def Serves (table : Table) (cache : TableCache) (rows : List (List Value)) : Prop :=
  (table.hasPrimaryKey = true ∧ Mirrors table cache rows) ∨ Off table cache

variable {table : Table} {cache : TableCache} {rows : List (List Value)}

theorem Serves.mirrors (serves : Serves table cache rows) : Mirrors table cache rows := by
  rcases serves with ⟨_, mirrors⟩ | off
  · exact mirrors
  · refine .ofNothing off.sameTable off.noRows ?_ rows
    rintro column value keys ⟨index, membership, _⟩
    rw [off.noIndices] at membership
    cases membership

theorem Serves.off (serves : Serves table cache rows) (keyless : table.hasPrimaryKey = false) :
    Off table cache := by
  rcases serves with ⟨keyed, _⟩ | off
  · rw [keyless] at keyed
    cases keyed
  · exact off

/-- Rows that were read are returned as they are. -/
theorem Off.storeRead (off : Off table cache) (generation : Nat) (loaded : List Row) :
    (cache.storeRead generation loaded).1 = loaded := by
  unfold TableCache.storeRead
  split
  · induction loaded with
    | nil => rfl
    | cons row rows inductionHypothesis => simp [insertRows, insertRow, off.disabled, inductionHypothesis]
  · simp [off.noRows]

/-- The cache that a table is given at first serves whatever the table has. -/
theorem Serves.new (table : Table) (settings : CacheSettings) (rows : List (List Value)) :
    Serves table (TableCache.new table settings) rows := by
  cases keyed : table.hasPrimaryKey with
  | true => exact .inl ⟨keyed, .new table settings rows⟩
  | false =>
    refine .inr ⟨rfl, ?_, fun _ => rfl, ?_⟩
    · simp [TableCache.new, keyed]
    · simp [TableCache.new, keyed]

end TableCache

namespace DataSource

variable {World : Type} {backend : Backend World} {contents : World → Store} {origin : DataSource}
  {world : World} {table : Table}

/-- A table of a database as a data source has it: in front of a backend that matches values
there are the rows of the table and a cache that serves them. -/
structure Reaches (backend : Backend World) (contents : World → Store) (origin : DataSource)
    (world : World) (table : Table) : Prop where
  answers : backend.MatchesValues contents (contents world) origin.dialect table
  content : table.Content origin.dialect (contents world table.id)
  cached : ∃ cache, origin.cache.table? table.id = some cache ∧
    cache.Serves table (contents world table.id)

variable (contents) in
/-- A read through the cache of a table comes to its answer. -/
private theorem throughCache_succeeds {α : Type} {cache : TableCache}
    (found : origin.cache.table? table.id = some cache) {read : Loading (DataSource × World) α}
    {answer : α → Prop}
    (leads : Leads
      (fun state => state.1 = cache ∧ Still (contents · = contents world) origin state.2) read
      (fun result _ => answer result) Never) :
    ∃ result state, throughCache table read (origin, world) = (.ok result, state) ∧ answer result :=
  (throughCache_leads found leads).succeeds (.refl rfl)

section

variable {place : Nat} (shaped : table.Shaped place) (typed : Written origin.dialect table)
  (reaches : Reaches backend contents origin world table)
  {position : Nat} {column : Column} {value : Value} (found : table.columns[position]? = some column)
  (reads : column.Reads origin.dialect value)

include shaped typed reaches found reads

/-- Rows are found through the index cache of a column, or without one. -/
private theorem getRows_finds (keyed : table.hasPrimaryKey = true) :
    ∃ rows state,
      throughCache table (TableCache.getRows (rowSource backend table) position value)
        (origin, world) = (.ok rows, state) ∧
      table.Loaded rows (Table.rowsWith (contents world table.id) position value) := by
  obtain ⟨answers, content, cache, isCache, serves⟩ := reaches
  have mirrors := serves.mirrors
  have distinct := content.distinct keyed
  rw [Table.rowsWith_of_ne_null reads.notNull]
  refine throughCache_succeeds contents isCache
    ((TableCache.getRows_shows mirrors.kept List.filter_sublist distinct
      (fun row membership => (content.readsKeys shaped membership).not_hasNull)
      (by simpa [← Value.isNull_iff] using reads.notNull) (gives_rowsByValue typed answers found reads)
      (gives_keysByValue typed answers found reads keyed) (fun chunk notEmpty inside => ?_)
      fun keys bucket => mirrors.sameTable ▸ mirrors.exact position value keys bucket).weaken
        (fun _ => id) ?_ fun _ => id)
  · refine gives_rowsByKeys typed answers notEmpty fun key inChunk => ?_
    obtain ⟨row, matching, rfl⟩ := List.mem_map.mp (inside key inChunk)
    exact content.readsKeys shaped (List.mem_of_mem_filter matching)
  · rintro rows state ⟨_, named, shown⟩
    exact distinct.loaded (fun row returned => mirrors.has_of_shows (shown row returned)) named

/-- The row that has a value as its key is found through the rows that are cached. -/
private theorem getRow_finds (isKey : [position] = table.primaryKeys) :
    ∃ row state,
      throughCache table (TableCache.getRow (rowSource backend table) ⟨[value]⟩)
        (origin, world) = (.ok row, state) ∧
      table.Loaded row.toList (Table.rowsWith (contents world table.id) position value) := by
  obtain ⟨answers, content, cache, isCache, serves⟩ := reaches
  have mirrors := serves.mirrors
  have keyed : table.hasPrimaryKey = true := by simp [Table.hasPrimaryKey, ← isKey]
  have distinct := content.distinct keyed
  have readsKey : table.ReadsKeys origin.dialect ⟨[value]⟩ := by
    rw [Table.ReadsKeys, ← isKey]
    exact .cons ⟨column, found, reads⟩ .nil
  have keysOf (row : List Value) : table.keysOf row = ⟨[row.getD position .null]⟩ := by
    rw [Table.keysOf, ← isKey]
    rfl
  have asked : TableCache.askedKeys [⟨[value]⟩] = [⟨[value]⟩] :=
    TableCache.askedKeys_eq_self (List.nodup_singleton _) (by simpa using readsKey.not_hasNull)
  rw [Table.rowsWith_of_ne_null reads.notNull]
  refine throughCache_succeeds contents isCache ?_
  refine (TableCache.getRowsByKeys_shows mirrors.kept
    (fun row membership => (content.readsKeys shaped membership).not_hasNull) [⟨[value]⟩]
    fun chunk notEmpty inside => gives_rowsByKeys typed answers notEmpty fun key inChunk => ?_).bind
      fun rows => Leads.returns fun state holds => ?_
  · have isAsked := (inside key inChunk).1
    rw [asked, List.mem_singleton] at isAsked
    exact isAsked ▸ readsKey
  · obtain ⟨_, named, shown⟩ := holds
    rw [asked] at named
    have short : rows.length ≤ 1 := by
      rw [← List.length_map Row.keys, named]
      exact List.length_filter_le _ _
    rw [toList_head? short]
    refine distinct.loaded (fun row returned => mirrors.has_of_shows (shown row returned)) ?_
    have nodup : (table.keysWith (contents world table.id) position value).Nodup :=
      distinct.sublist (List.filter_sublist.map _)
    rw [named, List.perm_ext_iff_of_nodup ((List.nodup_singleton _).filter _) nodup]
    intro key
    rw [List.mem_filter, List.mem_singleton, decide_eq_true_iff, mirrors.knows_iff, Table.keysWith,
      List.mem_map, List.mem_map]
    constructor
    · rintro ⟨rfl, row, membership, sameKeys⟩
      rw [keysOf, Keys.mk.injEq, List.cons.injEq] at sameKeys
      exact ⟨row, List.mem_filter.mpr ⟨membership, decide_eq_true sameKeys.1⟩, by rw [keysOf, sameKeys.1]⟩
    · rintro ⟨row, matching, rfl⟩
      obtain ⟨membership, has⟩ := List.mem_filter.mp matching
      exact ⟨by rw [keysOf, of_decide_eq_true has], row, membership, rfl⟩

omit shaped in
/-- Rows of a table without a primary key are found by a query alone. -/
private theorem loadMatching_finds (keyless : table.hasPrimaryKey = false) :
    ∃ rows state,
      throughCache table (loadMatching backend table [position] [value]) (origin, world) =
        (.ok rows, state) ∧
      table.Loaded rows (Table.rowsWith (contents world table.id) position value) := by
  obtain ⟨answers, content, cache, isCache, serves⟩ := reaches
  have off := serves.off keyless
  rw [Table.rowsWith_of_ne_null reads.notNull]
  refine throughCache_succeeds contents isCache ?_
  unfold loadMatching
  refine Leads.current_eq.bind fun now => Leads.given fun _ => ?_
  refine (gives_rowsByValue typed answers found reads (· = cache)).bind fun loaded =>
    Leads.given fun isLoaded => Leads.update _ fun state holds => ?_
  rw [holds.1, off.storeRead]
  exact isLoaded

end

/-- From a row the rows of the other side are found by the value in its column, on the route
that suits the other table. -/
private theorem related_finds {place : Nat} (shaped : table.Shaped place)
    (typed : Written origin.dialect table) (reaches : Reaches backend contents origin world table)
    {row : Row} {name : String} {part other : RelationPart} {mine position : Nat} {column : Column}
    (isPart : origin.cache.database.relationPart? row.table.id name = some part)
    (isOther : origin.cache.database.otherSide? part = some other)
    (isTable : origin.cache.database.tables[other.table]? = some table)
    (isMine : partColumns row.table part = [mine]) (isTheirs : partColumns table other = [position])
    (found : table.columns[position]? = some column)
    (reads : row.values.getD mine .null ≠ .null →
      column.Reads origin.dialect (row.values.getD mine .null)) :
    ∃ rows state, related backend row name (origin, world) = (.ok rows, state) ∧
      table.Loaded rows
        (Table.rowsWith (contents world table.id) position (row.values.getD mine .null)) := by
  have value : (row.at? mine).getD .null = row.values.getD mine .null :=
    (List.getD_eq_getElem?_getD ..).symm
  unfold related
  rw [bind_apply, current_apply]
  simp only [database, isPart, isOther, isTable, isMine, isTheirs, Option.bind_eq_bind,
    Option.bind_some, Option.pure_def, List.map_cons, List.map_nil, value]
  generalize row.values.getD mine .null = given at reads
  by_cases isNull : given = .null
  · rw [if_pos (by simp [isNull]), isNull]
    exact ⟨[], _, rfl, by simp, by simp [Table.rowsWith]⟩
  · have reads := reads isNull
    rw [if_neg (by simpa using isNull)]
    split
    · next serves =>
      obtain ⟨found, state, isFound, isLoaded⟩ := getRow_finds shaped typed reaches found reads serves.2
      rw [bind_apply, isFound]
      exact ⟨found.toList, state, rfl, isLoaded⟩
    · cases keyed : table.hasPrimaryKey with
      | true => exact getRows_finds shaped typed reaches found reads keyed
      | false => exact loadMatching_finds typed reaches found reads keyed

end DataSource

namespace Database

variable {database : Database}

/-- The other side of a side of a relation is that of the relation. -/
theorem Listed.otherSide?_part (isListed : database.Listed) {relation : Relation}
    (isRelation : relation ∈ database.relations) (side : Side) :
    database.otherSide? (relation.part side) = some (relation.part side.other) := by
  obtain ⟨position, found⟩ := List.mem_iff_getElem?.mp isRelation
  have isNumbered := isListed.numbered position relation found
  rw [Database.otherSide?, isNumbered.number, isNumbered.side, found, Option.map_some]

end Database

/-- A side of a relation of a built database goes through one column of its table. -/
theorem DatabaseDraft.Accepted.partColumns_eq {draft : DatabaseDraft} {database : Database}
    (accepted : draft.Accepted database) {relation : Relation}
    (isRelation : relation ∈ database.relations) {side : Side} {table : Table}
    (isTable : database.tables[(relation.part side).table]? = some table) :
    DataSource.partColumns table (relation.part side) = [table.partColumn (relation.part side)] ∧
      ∃ column, table.columns[table.partColumn (relation.part side)]? = some column := by
  obtain ⟨declared, _, joins⟩ := counterpart_left accepted.joins isRelation
  have through : ∃ name, Linking.Through database.tables (relation.part side) name := by
    cases side with
    | foreignKey => exact ⟨_, joins.foreignKey⟩
    | candidateKey => exact ⟨_, joins.candidateKey⟩
  obtain ⟨name, owner, position, index, isOwner, isNamed, onTable, onColumn⟩ := through
  obtain rfl := Option.some.inj (isTable.symm.trans isOwner)
  have columns : DataSource.partColumns table (relation.part side) = [position] := by
    rw [DataSource.partColumns, onTable, Option.map_some, onColumn, Option.getD_some]
  have isPosition : table.partColumn (relation.part side) = position := by
    rw [Table.partColumn, columns, List.headD_cons]
  rw [isPosition]
  exact ⟨columns, _, List.getElem?_eq_getElem (Table.lt_of_columnIndex? isNamed)⟩

namespace DataSource

variable {World : Type} {backend : Backend World} {contents : World → Store} {origin : DataSource}
  {world : World} {draft : DatabaseDraft} {relation : Relation}

/-- From a side of a relation of a built database a row leads to all rows that have its value
on the other side. -/
theorem related_follows (built : draft.build = .ok origin.cache.database)
    (isRelation : relation ∈ origin.cache.database.relations) (side : Side)
    (named : origin.cache.database.relationPart? (relation.part side).table (relation.part side).name =
      some (relation.part side))
    {near far : Table} (isNear : origin.cache.database.tables[(relation.part side).table]? = some near)
    (isFar : origin.cache.database.tables[(relation.part side.other).table]? = some far)
    (sameHost : (near.columns[near.partColumn (relation.part side)]?).map Column.host =
      (far.columns[far.partColumn (relation.part side.other)]?).map Column.host)
    (content : near.Content origin.dialect (contents world near.id))
    (reaches : Reaches backend contents origin world far)
    {row : Row} (has : near.Has (contents world near.id) row) :
    ∃ rows state, related backend row (relation.part side).name (origin, world) = (.ok rows, state) ∧
      far.Loaded rows (Table.rowsWith (contents world far.id)
        (far.partColumn (relation.part side.other))
        (row.values.getD (near.partColumn (relation.part side)) .null)) := by
  have accepted := DatabaseDraft.accepted_of_build built
  obtain ⟨isMine, mine, isMineThere⟩ := accepted.partColumns_eq isRelation isNear
  obtain ⟨isTheirs, theirs, isTheirsThere⟩ := accepted.partColumns_eq isRelation isFar
  obtain ⟨_, _, _, shapedNear⟩ := accepted.table isNear
  obtain ⟨_, _, _, shapedFar⟩ := accepted.table isFar
  have hosts : theirs.host = mine.host := by
    rw [isMineThere, isTheirsThere, Option.map_some, Option.map_some] at sameHost
    exact (Option.some.inj sameHost).symm
  have typed : Written origin.dialect far := fun column onTable =>
    accepted.typed (List.mem_of_getElem? isFar) onTable origin.dialect.engine_isConcrete
  refine related_finds shapedFar typed reaches ?_ (accepted.listed.otherSide?_part isRelation side)
    isFar (has.sameTable ▸ isMine) isTheirs isTheirsThere fun notNull => ?_
  · rw [has.sameTable, shapedNear.id]
    exact named
  · exact (content.reads has.stored isMineThere notNull).of_host hosts

/-- A relation of a built database, both names of which lead to its own sides, is followed
alike from both. A row that refers is found from the other end exactly if the row there is
found from it, and that is so exactly if the value by which it refers is not null and equals
the one that is referred to. Each row that is found is found as often as its table has it. -/
theorem related_both_ways (built : draft.build = .ok origin.cache.database)
    (isRelation : relation ∈ origin.cache.database.relations)
    (forth : origin.cache.database.relationPart? relation.foreignKey.table relation.foreignKey.name =
      some relation.foreignKey)
    (back : origin.cache.database.relationPart? relation.candidateKey.table
      relation.candidateKey.name = some relation.candidateKey)
    {child parent : Table}
    (isChild : origin.cache.database.tables[relation.foreignKey.table]? = some child)
    (isParent : origin.cache.database.tables[relation.candidateKey.table]? = some parent)
    (sameHost : (child.columns[child.partColumn relation.foreignKey]?).map Column.host =
      (parent.columns[parent.partColumn relation.candidateKey]?).map Column.host)
    (reachesChild : Reaches backend contents origin world child)
    (reachesParent : Reaches backend contents origin world parent)
    {referring referred : Row} (hasReferring : child.Has (contents world child.id) referring)
    (hasReferred : parent.Has (contents world parent.id) referred) :
    ∃ parents children stateForth stateBack,
      related backend referring relation.foreignKey.name (origin, world) = (.ok parents, stateForth) ∧
      related backend referred relation.candidateKey.name (origin, world) =
        (.ok children, stateBack) ∧
      let foreign := referring.values.getD (child.partColumn relation.foreignKey) .null
      let key := referred.values.getD (parent.partColumn relation.candidateKey) .null
      parent.Loaded parents (Table.rowsWith (contents world parent.id)
        (parent.partColumn relation.candidateKey) foreign) ∧
      child.Loaded children (Table.rowsWith (contents world child.id)
        (child.partColumn relation.foreignKey) key) ∧
      (referring.values ∈ children.map Row.values ↔ referred.values ∈ parents.map Row.values) ∧
      (referred.values ∈ parents.map Row.values ↔ foreign ≠ .null ∧ foreign = key) := by
  obtain ⟨parents, stateForth, isForth, isParents⟩ := related_follows built isRelation .foreignKey
    forth isChild isParent sameHost reachesChild.content reachesParent hasReferring
  obtain ⟨children, stateBack, isBack, isChildren⟩ := related_follows built isRelation .candidateKey
    back isParent isChild sameHost.symm reachesParent.content reachesChild hasReferred
  refine ⟨parents, children, stateForth, stateBack, isForth, isBack, ?_⟩
  intro foreign key
  have fromChild : referred.values ∈ parents.map Row.values ↔ foreign ≠ .null ∧ foreign = key := by
    rw [isParents.values.mem_iff, Table.mem_rowsWith, eq_comm (a := foreign)]
    exact and_iff_right hasReferred.stored
  have fromParent : referring.values ∈ children.map Row.values ↔ key ≠ .null ∧ foreign = key := by
    rw [isChildren.values.mem_iff, Table.mem_rowsWith]
    exact and_iff_right hasReferring.stored
  refine ⟨isParents, isChildren, ?_, fromChild⟩
  rw [fromChild, fromParent]
  exact and_congr_left fun same => by rw [same]

end DataSource

/-- Members who may belong to a group, as they are declared. They have no primary key. -/
def rosterDraft : DatabaseDraft :=
  { name := "roster"
    tables :=
      [{ name := "groups", columns := [{ name := "id", host := .int64, primaryKey := true }] },
       { name := "members"
         columns := [{ name := "group_id", host := .int64, nullable := true },
           { name := "age", host := .int64 }]
         foreignKeys :=
           [{ column := "group_id", table := "groups", references := "id", name := "group"
              inverse := "members" }] }] }

/-- A column of the roster, as it is built. -/
def rosterColumn (table position : Nat) (name : String) : Column :=
  { table, position, name, declared := [], nullable := decide (name = "group_id")
    autoIncrement := false, primaryKey := decide (name = "id"), foreignKey := decide (name = "group_id")
    property := name, host := .int64, defaultValue := none
    resolved := [.named .mariaDb "bigint", .named .mySql "bigint", .named .sqlite "integer"] }

def rosterGroups : Table :=
  { id := 0, name := "groups", model := "groups", columns := [rosterColumn 0 0 "id"]
    primaryKeys := [0]
    indices := [{ name := "pk_groups", table := 0, columns := [0], kind := .primaryKey
                  parts := [(0, .candidateKey)] }]
    useCache := true }

def rosterMembers : Table :=
  { id := 1, name := "members", model := "members"
    columns := [rosterColumn 1 0 "group_id", rosterColumn 1 1 "age"], primaryKeys := []
    indices := [{ name := "fk_members_group_id", table := 1, columns := [0], kind := .foreignKey
                  parts := [(0, .foreignKey)] }]
    useCache := true }

/-- The relation of members to their groups. -/
def rosterRelation : Relation :=
  { id := 0, constraint := "fk_members_group_id"
    foreignKey := { relation := 0, side := .foreignKey, table := 1, index := 0, name := "group" }
    candidateKey := { relation := 0, side := .candidateKey, table := 0, index := 0, name := "members" } }

/-- The database that the draft declares. -/
def rosterDatabase : Database :=
  { name := "roster", modelType := "roster", tables := [rosterGroups, rosterMembers]
    relations := [rosterRelation], settings := CacheSettings.withDefaults {} }

/-- Two groups, two members of the first who are not told apart, and one who is in none. -/
def rosterRows : Store
  | 0 => [[.int 1], [.int 2]]
  | 1 => [[.int 1, .int 30], [.int 1, .int 30], [.null, .int 41]]
  | _ => []

namespace DataSource

/-- A data source opened at an engine that has integers only, with nothing cached yet. -/
theorem reaches_engine {database : Database} (named : database.Named) {table : Table}
    (isTable : table ∈ database.tables) (counts : table.Counts)
    (inside : ∀ key ∈ table.primaryKeys, key < table.columns.length)
    (found : database.tables[table.id]? = some table) {store : Store}
    (content : table.Content .sqlite (store table.id)) :
    Reaches (database.engine .sqlite) EngineRows.committed
      { dialect := .sqlite, cache := .new database } { committed := store } table := by
  refine ⟨Database.engine_matchesValues named isTable counts inside content, content, ?_⟩
  exact ⟨TableCache.new table database.settings, DatabaseCache.table?_new found, .new table _ _⟩

private theorem reaches_roster {table : Table} (isTable : table ∈ rosterDatabase.tables)
    (content : table.Content .sqlite (rosterRows table.id)) :
    Reaches (rosterDatabase.engine .sqlite) EngineRows.committed
      { dialect := .sqlite, cache := .new rosterDatabase } { committed := rosterRows } table := by
  have named : rosterDatabase.Named := ⟨by decide, by decide⟩
  have each : ∀ table ∈ rosterDatabase.tables, table.Counts ∧
      (∀ key ∈ table.primaryKeys, key < table.columns.length) ∧
      rosterDatabase.tables[table.id]? = some table := by
    simp only [rosterDatabase, List.forall_mem_cons]
    exact ⟨⟨by decide, by decide, rfl⟩, ⟨by decide, by decide, rfl⟩, nofun⟩
  obtain ⟨counts, inside, found⟩ := each table isTable
  exact reaches_engine named isTable counts inside found content

/-- From a member the group is looked up by its key, and from the group its members by a query:
both of them, though they have the same values. -/
theorem related_both_ways_roster :
    let origin : DataSource := { dialect := .sqlite, cache := .new rosterDatabase }
    let world : EngineRows := { committed := rosterRows }
    let member : Row := { identity := 0, table := rosterMembers, values := [.int 1, .int 30] }
    let group : Row := { identity := 1, table := rosterGroups, values := [.int 1] }
    ∃ groups members stateForth stateBack,
      related (rosterDatabase.engine .sqlite) member "group" (origin, world) =
        (.ok groups, stateForth) ∧
      related (rosterDatabase.engine .sqlite) group "members" (origin, world) =
        (.ok members, stateBack) ∧
      groups.map Row.values = [[.int 1]] ∧
      members.map Row.values = [[.int 1, .int 30], [.int 1, .int 30]] := by
  intro origin world member group
  have built : rosterDraft.build = .ok origin.cache.database := rfl
  have contentGroups : rosterGroups.Content .sqlite (rosterRows 0) := by
    refine ⟨?_, fun _ => by unfold Table.DistinctKeys; decide⟩
    simp only [rosterRows, List.forall_mem_cons]
    exact ⟨⟨[.int 1], rfl, rfl⟩, ⟨[.int 2], rfl, rfl⟩, nofun⟩
  have contentMembers : rosterMembers.Content .sqlite (rosterRows 1) := by
    refine ⟨?_, nofun⟩
    simp only [rosterRows, List.forall_mem_cons]
    exact ⟨⟨[.int 1, .int 30], rfl, rfl⟩, ⟨[.int 1, .int 30], rfl, rfl⟩,
      ⟨[.null, .int 41], rfl, rfl⟩, nofun⟩
  have hasMember : rosterMembers.Has (world.committed 1) member := ⟨rfl, by decide⟩
  have hasGroup : rosterGroups.Has (world.committed 0) group := ⟨rfl, by decide⟩
  have isRelation : rosterRelation ∈ origin.cache.database.relations := List.mem_cons_self
  obtain ⟨groups, members, stateForth, stateBack, isForth, isBack, isGroups, isMembers, _⟩ :=
    related_both_ways built isRelation rfl rfl rfl rfl rfl
      (reaches_roster (List.mem_cons_of_mem _ List.mem_cons_self) contentMembers)
      (reaches_roster List.mem_cons_self contentGroups) hasMember hasGroup
  have both : (members.map Row.values).Perm (List.replicate 2 [.int 1, .int 30]) := isMembers.values
  exact ⟨groups, members, stateForth, stateBack, isForth, isBack,
    List.perm_singleton.mp isGroups.values, List.perm_replicate.mp both⟩

end DataSource

end RelationalAccess
