import Mathlib.Data.List.Count
import Mathlib.Data.List.Nodup
import RelationalAccess.Proofs.DataSource.Navigation
import RelationalAccess.Proofs.Schema.Candidates

/-!
Whether a row that refers to another leads to one alone. It does where the reference goes
through the index of a candidate key, on which no two rows agree, and just there relations are
what they should be.
-/

namespace RelationalAccess

namespace Table

/-- No two rows agree on a primary key or on an index that is declared unique, but for nulls. -/
def KeepsCandidates (table : Table) (rows : List (List Value)) : Prop :=
  ∀ index ∈ table.indices, index.IsCandidate →
    ((rows.map fun row => index.columns.map (row.getD · .null)).filter fun values =>
      .null ∉ values).Nodup

instance (table : Table) (rows : List (List Value)) : Decidable (table.KeepsCandidates rows) :=
  inferInstanceAs (Decidable (∀ index ∈ table.indices, _ → List.Nodup _))

/-- One row at most has a value in a column that is a candidate key. -/
theorem KeepsCandidates.length_rowsWith_le_one {table : Table} {rows : List (List Value)}
    (keeps : table.KeepsCandidates rows) {index : Index} (isIndex : index ∈ table.indices)
    (isCandidate : index.IsCandidate) {column : Nat} (onColumn : index.columns = [column])
    (value : Value) : (rowsWith rows column value).length ≤ 1 := by
  by_cases isNull : value = .null
  · simp [rowsWith, isNull]
  · have distinct := keeps index isIndex isCandidate
    simp only [onColumn, List.map_singleton] at distinct
    have atMost := List.nodup_iff_count_le_one.mp distinct [value]
    rw [List.count_filter (by simpa using Ne.symm isNull), List.count, List.countP_map] at atMost
    rw [rowsWith_of_ne_null isNull, ← List.countP_eq_length_filter]
    apply le_of_eq_of_le (List.countP_congr _) atMost
    intro row _
    simp

end Table

namespace Database

open DataSource

/-- Wherever a relation is followed from a row that refers, it leads to one row at most, as long
as the other table keeps its candidate keys. -/
def LeadsToOne (database : Database) (relation : Relation) : Prop :=
  ∀ {World : Type} {backend : Backend World} {contents : World → Store} {origin : DataSource}
    {world : World} {child parent : Table} {referring : Row},
    origin.cache.database = database →
    database.relationPart? relation.foreignKey.table relation.foreignKey.name =
      some relation.foreignKey →
    database.tables[relation.foreignKey.table]? = some child →
    database.tables[relation.candidateKey.table]? = some parent →
    (child.columns[child.partColumn relation.foreignKey]?).map Column.host =
      (parent.columns[parent.partColumn relation.candidateKey]?).map Column.host →
    child.Content origin.dialect (contents world child.id) →
    Reaches backend contents origin world parent →
    parent.KeepsCandidates (contents world parent.id) →
    child.Has (contents world child.id) referring →
      ∃ parents state,
        related backend referring relation.foreignKey.name (origin, world) = (.ok parents, state) ∧
          parents.length ≤ 1

/-- What a relation of a database refers to is a candidate key, and so it leads to one row. -/
structure RefersToCandidate (database : Database) (relation : Relation) : Prop where
  candidate : ∃ parent index, database.tables[relation.candidateKey.table]? = some parent ∧
    parent.indices[relation.candidateKey.index]? = some index ∧ index.IsCandidate
  one : database.LeadsToOne relation

end Database

namespace DatabaseDraft

open Database DataSource

variable {draft : DatabaseDraft} {database : Database} {relation : Relation}

theorem Accepted.on_partColumn (accepted : draft.Accepted database)
    (isRelation : relation ∈ database.relations) {parent : Table}
    (isParent : database.tables[relation.candidateKey.table]? = some parent) :
    Linking.On database.tables relation.candidateKey relation.candidateKey.table
      (parent.partColumn relation.candidateKey) := by
  have isThere : database.tables[(relation.part .candidateKey).table]? = some parent := isParent
  obtain ⟨columns, _⟩ := accepted.partColumns_eq isRelation isThere
  refine ⟨rfl, ?_⟩
  rw [isParent, Option.bind_some]
  unfold partColumns at columns
  cases found : parent.indices[relation.candidateKey.index]? with
  | none => simp [Relation.part, found] at columns
  | some index => simpa [Relation.part, found] using columns

theorem leadsToOne_of_candidate (built : draft.build = .ok database)
    (isRelation : relation ∈ database.relations)
    (candidate : ∃ parent index, database.tables[relation.candidateKey.table]? = some parent ∧
      parent.indices[relation.candidateKey.index]? = some index ∧ index.IsCandidate) :
    database.LeadsToOne relation := by
  intro World backend contents origin world child parent referring isDatabase named isChild
    isParent sameHost content reaches keeps has
  subst isDatabase
  have accepted := accepted_of_build built
  obtain ⟨parents, state, isForth, isParents⟩ := related_follows built isRelation .foreignKey named
    isChild isParent sameHost content reaches has
  refine ⟨parents, state, isForth, ?_⟩
  obtain ⟨again, index, isAgain, isIndex, isCandidate⟩ := candidate
  obtain rfl := Option.some.inj (isParent.symm.trans isAgain)
  have isOn := accepted.on_partColumn isRelation isParent
  have onColumn : index.columns = [parent.partColumn relation.candidateKey] := by
    simpa [isParent, isIndex] using isOn.2
  have sameLength := isParents.values.length_eq
  rw [List.length_map] at sameLength
  rw [sameLength]
  exact keeps.length_rowsWith_le_one (List.mem_of_getElem? isIndex) isCandidate onColumn _

/-- A relation of a built database refers to a candidate key if and only if it refers to the whole
primary key, or to a column on which the first declared index is unique, or to a column without
a declared index that some relation referred to before any referred from it. -/
theorem refersToCandidate_iff (built : draft.build = .ok database)
    (isRelation : relation ∈ database.relations) {parent : Table}
    (isParent : database.tables[relation.candidateKey.table]? = some parent) :
    database.RefersToCandidate relation ↔
      let place := relation.candidateKey.table
      let column := parent.partColumn relation.candidateKey
      parent.primaryKeys = [column] ∨ draft.declaredKind? place column = some .unique ∨
        draft.declaredKind? place column = none ∧
          Linking.ReferredFirst database.tables database.relations place column := by
  have accepted := accepted_of_build built
  obtain ⟨index, isIndex, onColumn, isCandidate⟩ :=
    accepted.isCandidate_iff isRelation isParent (accepted.on_partColumn isRelation isParent)
  rw [← isCandidate]
  constructor
  · rintro ⟨⟨again, other, isAgain, isOther, candidate⟩, _⟩
    obtain rfl := Option.some.inj (isParent.symm.trans isAgain)
    obtain rfl := Option.some.inj (isIndex.symm.trans isOther)
    exact candidate
  · intro candidate
    have there : ∃ parent index, database.tables[relation.candidateKey.table]? = some parent ∧
        parent.indices[relation.candidateKey.index]? = some index ∧ index.IsCandidate :=
      ⟨parent, index, isParent, isIndex, candidate⟩
    exact ⟨there, leadsToOne_of_candidate built isRelation there⟩

end DatabaseDraft

/-- Orders that refer to the numbers and to the labels of shelves. The numbers have an index,
but not a unique one; the labels have none. -/
def shelvesDraft : DatabaseDraft :=
  { name := "store"
    tables :=
      [{ name := "shelves"
         columns := [{ name := "id", host := .int64, primaryKey := true },
           { name := "number", host := .int64 }, { name := "label", host := .int64 }]
         indices := [{ name := "ix_number", columns := ["number"] }] },
       { name := "orders"
         columns := [{ name := "shelf_number", host := .int64 }, { name := "shelf_label", host := .int64 }]
         foreignKeys :=
           [{ column := "shelf_number", table := "shelves", references := "number"
              name := "numbered", inverse := "orders_by_number" },
            { column := "shelf_label", table := "shelves", references := "label"
              name := "labelled", inverse := "orders_by_label" }] }] }

def integerColumn (table position : Nat) (name : String) : Column :=
  { table, position, name, declared := [], nullable := false, autoIncrement := false
    primaryKey := decide (name = "id"), foreignKey := decide (table = 1), property := name
    host := .int64, defaultValue := none
    resolved := [.named .mariaDb "bigint", .named .mySql "bigint", .named .sqlite "integer"] }

def shelves : Table :=
  { id := 0, name := "shelves", model := "shelves"
    columns := [integerColumn 0 0 "id", integerColumn 0 1 "number", integerColumn 0 2 "label"]
    primaryKeys := [0]
    indices :=
      [{ name := "pk_shelves", table := 0, columns := [0], kind := .primaryKey },
       { name := "ix_number", table := 0, columns := [1], kind := .plain
         parts := [(0, .candidateKey)] },
       { name := "uq_shelves_label", table := 0, columns := [2], kind := .unique
         parts := [(1, .candidateKey)] }]
    useCache := true }

def orders : Table :=
  { id := 1, name := "orders", model := "orders"
    columns := [integerColumn 1 0 "shelf_number", integerColumn 1 1 "shelf_label"], primaryKeys := []
    indices :=
      [{ name := "fk_orders_shelf_number", table := 1, columns := [0], kind := .foreignKey
         parts := [(0, .foreignKey)] },
       { name := "fk_orders_shelf_label", table := 1, columns := [1], kind := .foreignKey
         parts := [(1, .foreignKey)] }]
    useCache := true }

/-- The relation of orders to the shelves with their number. -/
def numbered : Relation :=
  { id := 0, constraint := "fk_orders_shelf_number"
    foreignKey := { relation := 0, side := .foreignKey, table := 1, index := 0, name := "numbered" }
    candidateKey :=
      { relation := 0, side := .candidateKey, table := 0, index := 1, name := "orders_by_number" } }

/-- The relation of orders to the shelf with their label. -/
def labelled : Relation :=
  { id := 1, constraint := "fk_orders_shelf_label"
    foreignKey := { relation := 1, side := .foreignKey, table := 1, index := 1, name := "labelled" }
    candidateKey :=
      { relation := 1, side := .candidateKey, table := 0, index := 2, name := "orders_by_label" } }

/-- The database that the draft declares. -/
def shelvesDatabase : Database :=
  { name := "store", modelType := "store", tables := [shelves, orders]
    relations := [numbered, labelled], settings := CacheSettings.withDefaults {} }

/-- Two shelves with one number, and an order that refers to it. -/
def shelvesRows : Store
  | 0 => [[.int 1, .int 7, .int 3], [.int 2, .int 7, .int 4]]
  | 1 => [[.int 7, .int 3]]
  | _ => []

namespace DatabaseDraft

open DataSource

/-- The numbers of shelves are referred to through the plain index that is declared on them, so
an order leads to both of the shelves with its number. -/
theorem numbered_not_refersToCandidate :
    let origin : DataSource := { dialect := .sqlite, cache := .new shelvesDatabase }
    let world : EngineRows := { committed := shelvesRows }
    let order : Row := { identity := 0, table := orders, values := [.int 7, .int 3] }
    shelvesDraft.build = .ok shelvesDatabase ∧
      numbered ∈ shelvesDatabase.relations ∧
      shelves.indices[numbered.candidateKey.index]?.map (·.kind) = some .plain ∧
      shelves.KeepsCandidates (shelvesRows 0) ∧
      (∃ found state,
        DataSource.related (shelvesDatabase.engine .sqlite) order "numbered" (origin, world) =
          (.ok found, state) ∧
        (found.map Row.values).Perm
          [[.int 1, .int 7, .int 3], [.int 2, .int 7, .int 4]]) ∧
      ¬ shelvesDatabase.RefersToCandidate numbered := by
  intro origin world order
  have built : shelvesDraft.build = .ok shelvesDatabase := rfl
  have isRelation : numbered ∈ shelvesDatabase.relations := List.mem_cons_self
  have contentShelves : shelves.Content .sqlite (shelvesRows 0) := by
    refine ⟨?_, fun _ => by unfold Table.DistinctKeys; decide⟩
    simp only [shelvesRows, List.forall_mem_cons]
    exact ⟨⟨[.int 1, .int 7, .int 3], rfl, rfl⟩, ⟨[.int 2, .int 7, .int 4], rfl, rfl⟩, nofun⟩
  have contentOrders : orders.Content .sqlite (shelvesRows 1) := by
    refine ⟨?_, nofun⟩
    simp only [shelvesRows, List.forall_mem_cons]
    exact ⟨⟨[.int 7, .int 3], rfl, rfl⟩, nofun⟩
  have hasOrder : orders.Has (world.committed 1) order := ⟨rfl, by decide⟩
  have reaches : Reaches (shelvesDatabase.engine .sqlite) EngineRows.committed origin world shelves :=
    reaches_engine ⟨by decide, by decide⟩ List.mem_cons_self (by decide) (by decide) rfl contentShelves
  obtain ⟨found, state, isFound, isShown⟩ := related_follows built isRelation .foreignKey rfl rfl rfl
    rfl contentOrders reaches hasOrder
  refine ⟨built, isRelation, rfl, by decide, ⟨found, state, isFound, isShown.values⟩, ?_⟩
  rintro ⟨⟨parent, index, isParent, isIndex, candidate⟩, _⟩
  obtain rfl : shelves = parent := Option.some.inj isParent
  obtain rfl := Option.some.inj isIndex
  exact absurd candidate (by decide)

/-- Labels are a candidate key, as nothing led from them or was declared on them before. -/
theorem refersToCandidate_iff_shelves :
    shelvesDraft.build = .ok shelvesDatabase ∧
      labelled ∈ shelvesDatabase.relations ∧ numbered ∈ shelvesDatabase.relations ∧
      shelvesDatabase.tables[labelled.candidateKey.table]? = some shelves ∧
      shelvesDatabase.tables[numbered.candidateKey.table]? = some shelves ∧
      shelvesDatabase.RefersToCandidate labelled ∧ ¬ shelvesDatabase.RefersToCandidate numbered := by
  have built : shelvesDraft.build = .ok shelvesDatabase := rfl
  have isLabelled : labelled ∈ shelvesDatabase.relations := List.mem_cons_of_mem _ List.mem_cons_self
  have isNumbered : numbered ∈ shelvesDatabase.relations := List.mem_cons_self
  refine ⟨built, isLabelled, isNumbered, rfl, rfl, ?_, fun refers => ?_⟩
  · apply (refersToCandidate_iff built isLabelled rfl).mpr
    exact .inr (.inr ⟨rfl, [numbered], labelled, [], rfl, by decide, by decide⟩)
  · rcases (refersToCandidate_iff built isNumbered rfl).mp refers with isKey | isUnique | ⟨isNone, _⟩
    · exact absurd isKey (by decide)
    · exact absurd isUnique (by decide)
    · exact absurd isNone (by decide)

end DatabaseDraft

end RelationalAccess
