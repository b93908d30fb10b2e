import RelationalAccess.Proofs.Transaction.Steps

/-!
Runs of transactions, one after another, and of reads at one data source, in any
order. The cached rows are the committed ones throughout a run, and would be if the
open transaction committed, if and only if every event of the run is sound.
-/

namespace RelationalAccess

namespace Stage

variable {World : Type} {backend : Backend World} {ledger : Ledger World} {database : Database}

private theorem cached?_new (database : Database) (position : Nat) (keys : Keys) :
    (DatabaseCache.new database).cached? position keys = none := by
  unfold DatabaseCache.cached? DatabaseCache.table? DatabaseCache.new
  rw [List.getElem?_map]
  cases database.tables[position]? with
  | none => rfl
  | some table => rfl

/-- The rows cached by a data source are the committed ones throughout a run, and would be
after each event if the open transaction committed then, if and only if every event of the
run is sound. -/
theorem agrees_throughout_iff {draft : DatabaseDraft} (built : draft.build = .ok database)
    (numbersKeys : ∀ table ∈ database.tables, table.NumbersKeys) {engine : Engine}
    {source : DataSource} (opened : DataSource.ofDatabase database engine = .ok source)
    (serves : backend.Serves ledger database source.dialect) {world : World}
    (fits : (ledger.committed world).Fits database) {events : List SessionEvent}
    (owned : ∀ event ∈ events, event.Owned database)
    (exact : Throughout backend (Exact backend ledger) { source, world } events) :
    (∀ done, done <+: events → (run backend { source, world } done).Agrees ledger) ↔
      Throughout backend (Sound backend ledger) { source, world } events := by
  have isNew := DataSource.cache_of_opened opened
  have nothing (position : Nat) (keys : Keys) : source.cache.cached? position keys = none := by
    rw [isNew]
    exact cached?_new database position keys
  have settled : Settled ledger database source.dialect { source, world } := by
    refine ⟨congrArg DatabaseCache.database isNew, rfl, ?_, fits, ?_⟩
    · intro position keys row cached
      cases (nothing position keys).symm.trans cached
    · rintro _ ⟨⟩
  have agrees : Agrees ledger { source, world } := by
    refine ⟨fun position keys row cached => ?_, ?_⟩
    · cases (nothing position keys).symm.trans cached
    · rintro _ ⟨⟩
  have placed := DatabaseDraft.build_placed built
  have allowed := RelationalAccess.Throughout.and_forall exact owned
  refine forall_prefix_iff ?_ ?_ settled agrees allowed
  · rintro stage event settledNow agreesNow ⟨exactNow, ownedNow⟩
    exact (perform_steps settledNow agreesNow placed numbersKeys serves ownedNow exactNow).2
  · rintro stage event settledNow agreesNow ⟨exactNow, ownedNow⟩ _
    exact (perform_steps settledNow agreesNow placed numbersKeys serves ownedNow exactNow).1

end Stage

/-- The rows of one table, and what the statements to come make of them. -/
structure Rehearsal where
  committed : List (List Value) := []
  working : List (List Value) := []
  coming : List (List (List Value))

namespace Rehearsal

def unrehearsed : Error := .reported .backend "not rehearsed"

/-- A backend whose statements make of the rows what was rehearsed. It answers no query. -/
def backend : Backend Rehearsal where
  query _ := throw unrehearsed
  start world := (.ok 0, { world with working := world.committed })
  execute _ _ world :=
    match world.coming with
    | [] => (.error unrehearsed, world)
    | rows :: coming => (.ok ⟨1, none⟩, { world with working := rows, coming })
  commit _ world := (.ok (), { world with committed := world.working })
  rollback _ := return

def ledger : Ledger Rehearsal where
  committed world position := if position = 0 then world.committed else []
  working world position := if position = 0 then world.working else []

private theorem serves (database : Database) (dialect : Dialect) :
    backend.Serves ledger database dialect := by
  refine ⟨fun _ world => .refl _ world, ?_⟩
  intro _ _ _ _ _ _ _ _ answered
  cases answered

/-- A statement is carried out exactly if the rows that come next are those that it says. -/
private theorem carries {world : Rehearsal} {rows : List (List Value)}
    {later : List (List (List Value))} (coming : world.coming = rows :: later) {handle : Nat}
    {statement : Statement} {effect : Execution → List (List Value) → List (List Value) → Prop}
    (holds : effect ⟨1, none⟩ world.working rows) :
    ledger.Carries 0 effect world (backend.execute handle statement world) := by
  obtain ⟨committed, working, _⟩ := world
  obtain rfl := coming
  refine ⟨rfl, fun other elsewhere => ?_, holds⟩
  show (if other = 0 then rows else []) = if other = 0 then working else []
  rw [if_neg elsewhere, if_neg elsewhere]

end Rehearsal

/-- Items of two amounts, as they are declared. -/
def measuredDraft : DatabaseDraft :=
  { name := "warehouse"
    tables :=
      [{ name := "items"
         columns :=
           [{ name := "id", host := .int64, primaryKey := true }, { name := "a", host := .int64 },
             { name := "b", host := .int64 }] }] }

/-- A column of the items, as it is built. -/
def measuredColumn (position : Nat) (name : String) : Column :=
  { table := 0, position, name, declared := [], nullable := false, autoIncrement := false
    primaryKey := decide (position = 0), property := name, host := .int64, defaultValue := none
    resolved := [.named .mariaDb "bigint", .named .mySql "bigint", .named .sqlite "integer"] }

/-- The table of the items, as it is built. -/
def measuredItems : Table :=
  { id := 0, name := "items", model := "items"
    columns := [measuredColumn 0 "id", measuredColumn 1 "a", measuredColumn 2 "b"]
    primaryKeys := [0]
    indices := [{ name := "pk_items", table := 0, columns := [0], kind := .primaryKey }]
    useCache := true }

/-- The database that the draft declares. -/
def measuredDatabase : Database :=
  { name := "warehouse", modelType := "warehouse", tables := [measuredItems], relations := []
    settings := CacheSettings.withDefaults {} }

/-- The values of an item, which are also the ones stored for it. -/
def measured (id a b : Int64) : List Value := [.int id, .int a, .int b]

private theorem column_of_measuredItems {position : Nat} {column : Column}
    (found : measuredItems.columns[position]? = some column) :
    position < 3 ∧ ∃ name, column = measuredColumn position name := by
  match position, found with
  | 0, rfl | 1, rfl | 2, rfl => exact ⟨by decide, _, rfl⟩

private theorem measured_inserts (id a b : Int64) :
    measuredItems.Inserts .sqlite (measured id a b) ⟨1, none⟩ (measured id a b) := by
  constructor
  · rfl
  · intro position column found _
    obtain ⟨inside, name, rfl⟩ := column_of_measuredItems found
    match position, inside with
    | 0, _ | 1, _ | 2, _ => rfl
  · intro position column found numbered
    obtain ⟨_, name, rfl⟩ := column_of_measuredItems found
    cases numbered

/-- The only item gets another value in one column. -/
private theorem measured_updated {id a b : Int64} {position : Nat} (value : Int64)
    {keys : Keys} (named : measuredItems.names .sqlite keys (measured id a b) = true) :
    measuredItems.Updated .sqlite keys [(position, .int value)] ⟨1, none⟩ [measured id a b]
      [(measured id a b).set position (.int value)] := by
  have overwrites : measuredItems.Overwrites .sqlite [(position, .int value)] (measured id a b)
      ((measured id a b).set position (.int value)) := by
    constructor
    · exact List.length_set
    · intro change isChange column found
      obtain rfl := List.mem_singleton.mp isChange
      obtain ⟨inside, name, rfl⟩ := column_of_measuredItems found
      match position, inside with
      | 0, _ | 1, _ | 2, _ => rfl
    · intro other apart
      have elsewhere : position ≠ other := by
        rintro rfl
        exact apart (List.mem_singleton_self _)
      simp [elsewhere]
  constructor
  · refine .cons ?_ .nil
    rw [if_pos named]
    exact overwrites
  · exact List.nodup_singleton _
  · intro missed
    cases missed
  · intro _
    exact ⟨_, List.mem_singleton_self _, named⟩

/-- The item that an insertion returns. -/
def measuredItem : Row := { identity := 0, table := measuredItems, values := measured 1 10 20 }

/-- An item is inserted, and then both of its amounts are updated, each time from the row
that the insertion returned. -/
def twiceUpdated : List SessionEvent :=
  [.begin,
    .insert (.steady ⟨⟨0, 0, by decide⟩, 0⟩) measuredItems
      [("id", .int 1), ("a", .int 10), ("b", .int 20)],
    .update measuredItem [("a", .int 11)], .update measuredItem [("b", .int 21)], .commit]

/-- Before the item is inserted. -/
def beforeTwiceUpdated : Stage Rehearsal :=
  { source := { dialect := .sqlite, cache := DatabaseCache.new measuredDatabase }
    world := { coming := [[measured 1 10 20], [measured 1 11 20], [measured 1 11 21]] } }

private theorem twiceUpdated_exact :
    Stage.Throughout Rehearsal.backend (Stage.Exact Rehearsal.backend Rehearsal.ledger)
      beforeTwiceUpdated twiceUpdated := by
  refine ⟨⟨rfl, rfl⟩, ?_, ?_, ?_, ?_, trivial⟩
  · intro draft filled isSet isFilled _ _ _ _ _ _
    cases isSet
    cases isFilled
    refine Rehearsal.carries rfl ⟨measured 1 10 20, rfl, measured_inserts 1 10 20, ?_⟩
    rintro _ other ⟨⟩
  · intro draft isSet _ _ _ _ _ _
    cases isSet
    exact Rehearsal.carries rfl (measured_updated 11 (by decide +kernel))
  · intro draft isSet _ _ _ _ _ _
    cases isSet
    exact Rehearsal.carries rfl (measured_updated 21 (by decide +kernel))
  · intro _ _ _ _
    rfl

/-- The insertion returned the item that both updates start from. After the commit it is
cached with the amount that it had before its first update. -/
theorem twiceUpdated_not_agrees :
    let inserted := Stage.run Rehearsal.backend beforeTwiceUpdated (twiceUpdated.take 2)
    let last := Stage.run Rehearsal.backend beforeTwiceUpdated twiceUpdated
    measuredDraft.build = .ok measuredDatabase ∧
      Stage.Throughout Rehearsal.backend (Stage.Exact Rehearsal.backend Rehearsal.ledger)
        beforeTwiceUpdated twiceUpdated ∧
      inserted.pending =
        some [{ kind := .insert, table := 0, before := none, after := some measuredItem }] ∧
      last.transaction.map Transaction.state = some .committed ∧
      ¬ last.source.cache.Agrees last.source.dialect (Rehearsal.ledger.committed last.world) := by
  intro inserted last
  refine ⟨rfl, twiceUpdated_exact, rfl, rfl, fun agrees => ?_⟩
  have stale : (last.source.cache.cached? 0 ⟨[.int 1]⟩).map Row.values = some (measured 1 10 21) := by
    decide +kernel
  obtain ⟨row, cached, values⟩ := Option.map_eq_some_iff.mp stale
  obtain ⟨_, _, owned, stored, membership, binds⟩ := agrees 0 _ row cached
  obtain rfl : stored = measured 1 11 21 := List.mem_singleton.mp membership
  rw [show row.table = measuredItems from (Option.some.inj owned).symm, values] at binds
  cases binds.bound 1 (measuredColumn 1 "a") rfl

/-- The equivalence at the run of the item that is updated twice, where both sides fail. -/
theorem agrees_throughout_iff_twiceUpdated :
    measuredDraft.build = .ok measuredDatabase ∧
      (∀ table ∈ measuredDatabase.tables, table.NumbersKeys) ∧
      DataSource.ofDatabase measuredDatabase .sqlite = .ok beforeTwiceUpdated.source ∧
      Rehearsal.backend.Serves Rehearsal.ledger measuredDatabase .sqlite ∧
      (Rehearsal.ledger.committed beforeTwiceUpdated.world).Fits measuredDatabase ∧
      (∀ event ∈ twiceUpdated, event.Owned measuredDatabase) ∧
      Stage.Throughout Rehearsal.backend (Stage.Exact Rehearsal.backend Rehearsal.ledger)
        beforeTwiceUpdated twiceUpdated ∧
      ((∀ done, done <+: twiceUpdated →
          (Stage.run Rehearsal.backend beforeTwiceUpdated done).Agrees Rehearsal.ledger) ↔
        Stage.Throughout Rehearsal.backend (Stage.Sound Rehearsal.backend Rehearsal.ledger)
          beforeTwiceUpdated twiceUpdated) := by
  have built : measuredDraft.build = .ok measuredDatabase := rfl
  have numbersKeys : ∀ table ∈ measuredDatabase.tables, table.NumbersKeys := by
    intro table isTable position column found numbered
    obtain rfl := List.mem_singleton.mp isTable
    obtain ⟨_, name, rfl⟩ := column_of_measuredItems found
    cases numbered
  have opened : DataSource.ofDatabase measuredDatabase .sqlite = .ok beforeTwiceUpdated.source := rfl
  have serves := Rehearsal.serves measuredDatabase .sqlite
  have fits : (Rehearsal.ledger.committed beforeTwiceUpdated.world).Fits measuredDatabase := by
    intro position table _
    have nothing : Rehearsal.ledger.committed beforeTwiceUpdated.world position = [] := ite_self []
    rw [nothing]
    exact ⟨nofun, fun _ => List.nodup_nil⟩
  have owned : ∀ event ∈ twiceUpdated, event.Owned measuredDatabase := by
    simp only [twiceUpdated, List.forall_mem_cons, List.not_mem_nil, false_implies, implies_true]
    exact ⟨trivial, rfl, ⟨rfl, rfl⟩, ⟨rfl, rfl⟩, trivial, trivial⟩
  exact ⟨built, numbersKeys, opened, serves, fits, owned, twiceUpdated_exact,
    Stage.agrees_throughout_iff built numbersKeys opened serves fits owned twiceUpdated_exact⟩

end RelationalAccess
