import RelationalAccess.Proofs.Transaction.BucketRuns

/-!
Look-ups by values that are bound alike, and by keys that are. A backend that matches rows by
bound forms cannot tell them from each other. The cache can: it has a bucket for each value, and
the rows are cached under the keys that they are read to have.
-/

namespace RelationalAccess

/-- Keys of a table whose parts can be written, and are bound alike. -/
structure Table.BoundAlike (dialect : Dialect) (table : Table) (keys others : Keys) : Prop where
  whole : keys.length = table.primaryKeys.length
  wholeToo : others.length = table.primaryKeys.length
  alike : ∀ (part position : Nat) (column : Column) (value other : Value),
    table.primaryKeys[part]? = some position → table.columns[position]? = some column →
      keys.values[part]? = some value → others.values[part]? = some other →
        ∃ bound, dialect.write column value = .ok bound ∧ dialect.write column other = .ok bound

theorem Table.BoundAlike.symm {dialect : Dialect} {table : Table} {keys others : Keys}
    (alike : table.BoundAlike dialect keys others) : table.BoundAlike dialect others keys where
  whole := alike.wholeToo
  wholeToo := alike.whole
  alike part position column value other isPosition found isValue isOther := by
    obtain ⟨bound, written, writtenToo⟩ :=
      alike.alike part position column other value isPosition found isOther isValue
    exact ⟨bound, writtenToo, written⟩

theorem Table.BoundAlike.writesKeys {dialect : Dialect} {table : Table} {place : Nat}
    (shaped : table.Shaped place) {keys others : Keys} (alike : table.BoundAlike dialect keys others)
    (notNull : keys.hasNull = false) : table.WritesKeys dialect keys := by
  refine List.forall₂_iff_get.mpr ⟨alike.whole.symm, fun part inside insideKeys => ?_⟩
  have isPosition : table.primaryKeys[part]? = some (table.primaryKeys.get ⟨part, inside⟩) :=
    List.getElem?_eq_getElem inside
  have isValue : keys.values[part]? = some (keys.values.get ⟨part, insideKeys⟩) :=
    List.getElem?_eq_getElem insideKeys
  obtain ⟨other, isOther⟩ : ∃ other, others.values[part]? = some other := by
    have insideOthers : part < others.values.length := by
      rw [show others.values.length = table.primaryKeys.length from alike.wholeToo]
      exact inside
    exact ⟨_, List.getElem?_eq_getElem insideOthers⟩
  obtain ⟨column, found, _⟩ := (shaped.keys _).mp (List.getElem_mem inside)
  obtain ⟨bound, written, _⟩ := alike.alike part _ column _ other isPosition found isValue isOther
  refine ⟨column, found, fun isNull => ?_, bound, written⟩
  have some := List.any_eq_false.mp notNull _ (List.getElem_mem insideKeys)
  exact some ((Value.isNull_iff _).mpr isNull)

namespace Stage

variable {World : Type} {backend : Backend World} {contents : World → Store} {database : Database}
  {dialect : Dialect} {table : Table} {stage : Stage World}

/-- Under a key a row is shown: one that is cached, or else one that is stored. -/
def Shows (contents : World → Store) (stage : Stage World) (table : Table) (key : Keys) : Prop :=
  key.hasNull = false ∧ ∃ cache, stage.source.cache.table? table.id = some cache ∧
    TableCache.Knows table cache
      ((contents stage.world table.id).filterMap (table.readRow? stage.source.dialect)) key

/-- A look-up by a value goes by a key: one in the bucket for the value, if the bucket is gone by,
and else one of the rows with the bound form of the value. -/
def GoesBy (contents : World → Store) (stage : Stage World) (table : Table) (position : Nat)
    (value : Value) (key : Keys) : Prop :=
  ∃ cache, stage.source.cache.table? table.id = some cache ∧
    key ∈ cache.answering position value
      (table.keysWithForm stage.source.dialect (contents stage.world table.id) position
        (table.boundForm stage.source.dialect position value))

section

variable {cache : TableCache} (isCached : stage.source.cache.table? table.id = some cache)
include isCached

private theorem shows_iff (key : Keys) : stage.Shows contents table key ↔ key.hasNull = false ∧
    TableCache.Knows table cache
      ((contents stage.world table.id).filterMap (table.readRow? stage.source.dialect)) key := by
  constructor
  · rintro ⟨notNull, _, isSame, known⟩
    obtain rfl := Option.some.inj (isCached.symm.trans isSame)
    exact ⟨notNull, known⟩
  · rintro ⟨notNull, known⟩
    exact ⟨notNull, cache, isCached, known⟩

private theorem goesBy_iff {position : Nat} {value bound : Value}
    (isBound : table.boundForm stage.source.dialect position value = bound) (key : Keys) :
    stage.GoesBy contents table position value key ↔ key ∈ cache.answering position value
      (table.keysWithForm stage.source.dialect (contents stage.world table.id) position bound) := by
  subst isBound
  constructor
  · rintro ⟨_, isSame, answers⟩
    obtain rfl := Option.some.inj (isCached.symm.trans isSame)
    exact answers
  · intro answers
    exact ⟨cache, isCached, answers⟩

end

theorem ready_of_opened {engine : Engine} {source : DataSource}
    (opened : DataSource.ofDatabase database engine = .ok source)
    (found : database.tables[table.id]? = some table) (world : World) :
    Ready database source.dialect table { source, world } := by
  have isNew := DataSource.cache_of_opened opened
  refine ⟨congrArg DatabaseCache.database isNew, rfl, by rintro _ ⟨⟩,
    TableCache.new table database.settings, ?_, .new table _, ?_⟩
  · dsimp only
    rw [isNew]
    exact DatabaseCache.table?_new found
  · intro position value keys bucket
    exact absurd bucket (TableCache.not_hasBucket_new table _ position value keys)

theorem namesRightly_of_opened {engine : Engine} {source : DataSource}
    (opened : DataSource.ofDatabase database engine = .ok source)
    (found : database.tables[table.id]? = some table) (position : Nat) (value : Value) (world : World) :
    NamesRightly contents table position value { source, world } := by
  have isNew := DataSource.cache_of_opened opened
  rintro keys ⟨cache, isCached, bucket⟩
  dsimp only at isCached
  rw [isNew, DatabaseCache.table?_new found] at isCached
  obtain rfl := Option.some.inj isCached
  exact absurd bucket (TableCache.not_hasBucket_new table _ position value keys)

section

variable {place : Nat} (shaped : table.Shaped place) {name : String}
  (isTable : database.requireTable name = .ok table)
  (answers : backend.MatchesForms contents dialect table)
  (inForm : table.InForm dialect (contents stage.world table.id))
  (ready : stage.Ready database dialect table)
include shaped isTable answers inForm ready

theorem getRowsBy_alike {columnName : String} {position : Nat} {column : Column}
    {value other bound : Value} (isColumn : table.columnIndex? columnName = some position)
    (found : table.columns[position]? = some column) (notNull : value ≠ .null)
    (notNullToo : other ≠ .null) (written : dialect.write column value = .ok bound)
    (writtenToo : dialect.write column other = .ok bound) :
    ∃ rows others last lastToo,
      DataSource.getRowsBy backend name columnName value (stage.source, stage.world) = (.ok rows, last) ∧
      DataSource.getRowsBy backend name columnName other (stage.source, stage.world) =
        (.ok others, lastToo) ∧
      (SameRows rows others ↔ (table.hasPrimaryKey = true → ∀ key, stage.Shows contents table key →
        (stage.GoesBy contents table position value key ↔
          stage.GoesBy contents table position other key))) ∧
      (stage.NamesRightly contents table position value →
        stage.NamesRightly contents table position other → SameRows rows others) := by
  obtain rfl := ready.sameDialect
  obtain ⟨cache, isCached, kept, buckets⟩ := ready.cached
  have isThere : stage.source.database.requireTable name = .ok table := by
    rw [DataSource.database, ready.sameDatabase]
    exact isTable
  have still : DataSource.Still (contents · = contents stage.world) stage.source
      (stage.source, stage.world) := .refl rfl
  have isBound := Table.boundForm_eq found written
  have isBoundToo := Table.boundForm_eq found writtenToo
  cases keyed : table.hasPrimaryKey with
  | false =>
    obtain ⟨rows, last, isFound, loaded⟩ := (DataSource.getRowsBy_loads answers inForm isThere isColumn
      found notNull written keyed).succeeds still
    obtain ⟨others, lastToo, isFoundToo, loadedToo⟩ := (DataSource.getRowsBy_loads answers inForm
      isThere isColumn found notNullToo writtenToo keyed).succeeds still
    have same := loaded.sameRows loadedToo
    refine ⟨rows, others, last, lastToo, isFound, isFoundToo, ?_, fun _ _ => same⟩
    exact iff_of_true same fun impossible => by cases impossible
  | true =>
    obtain ⟨rows, last, isFound, shown⟩ := (DataSource.getRowsBy_showsUnder shaped answers inForm kept
      isCached isThere isColumn found notNull written keyed (buckets position value)).succeeds still
    obtain ⟨others, lastToo, isFoundToo, shownToo⟩ := (DataSource.getRowsBy_showsUnder shaped answers
      inForm kept isCached isThere isColumn found notNullToo writtenToo keyed
      (buckets position other)).succeeds still
    have sameRows_iff := shown.sameRows_iff ((inForm.content shaped).distinct keyed) shownToo
    refine ⟨rows, others, last, lastToo, isFound, isFoundToo, ?_, ?_⟩
    · rw [sameRows_iff]
      simp only [shows_iff isCached, goesBy_iff isCached isBound, goesBy_iff isCached isBoundToo,
        and_imp, true_implies]
    · intro rightly rightlyToo
      refine sameRows_iff.mpr fun key _ _ => ?_
      have named := TableCache.answering_perm fun keys bucket =>
        rightly keys ⟨cache, isCached, bucket⟩
      have namedToo := TableCache.answering_perm fun keys bucket =>
        rightlyToo keys ⟨cache, isCached, bucket⟩
      rw [isBound] at named
      rw [isBoundToo] at namedToo
      exact named.mem_iff.trans namedToo.mem_iff.symm

theorem get_alike (keyed : table.hasPrimaryKey = true) {keys others : Keys}
    (alike : table.BoundAlike dialect keys others) :
    ∃ row other last lastToo,
      DataSource.get backend name keys (stage.source, stage.world) = (.ok row, last) ∧
      DataSource.get backend name others (stage.source, stage.world) = (.ok other, lastToo) ∧
      (SameRows row.toList other.toList ↔
        (stage.Shows contents table keys ∨ stage.Shows contents table others → keys = others)) := by
  obtain rfl := ready.sameDialect
  obtain ⟨cache, isCached, kept, _⟩ := ready.cached
  have isThere : stage.source.database.requireTable name = .ok table := by
    rw [DataSource.database, ready.sameDatabase]
    exact isTable
  have still : DataSource.Still (contents · = contents stage.world) stage.source
      (stage.source, stage.world) := .refl rfl
  obtain ⟨row, last, isFound, shown⟩ := (DataSource.get_showsUnder shaped answers inForm kept
    isCached isThere keyed alike.whole (alike.writesKeys shaped)).succeeds still
  obtain ⟨other, lastToo, isFoundToo, shownToo⟩ := (DataSource.get_showsUnder shaped answers inForm kept
    isCached isThere keyed alike.wholeToo (alike.symm.writesKeys shaped)).succeeds still
  refine ⟨row, other, last, lastToo, isFound, isFoundToo, ?_⟩
  rw [shown.sameRows_iff ((inForm.content shaped).distinct keyed) shownToo, shows_iff isCached,
    shows_iff isCached]
  simp only [List.mem_singleton]
  constructor
  · rintro same (⟨notNull, known⟩ | ⟨notNull, known⟩)
    · exact (same keys notNull known).mp rfl
    · exact ((same others notNull known).mpr rfl).symm
  · intro same key notNull known
    constructor
    · rintro rfl
      exact same (.inl ⟨notNull, known⟩)
    · rintro rfl
      exact (same (.inr ⟨notNull, known⟩)).symm

end

/-- After any run, two values that are bound alike are looked up without a failure, and show the
same rows if and only if the look-ups go by the same keys, of those that show a row. They do if no
event of the run strands the bucket of one of the values. Rows that are asked for by keys that are
bound alike are the same if and only if the keys are, unless neither shows a row. -/
theorem lookups_alike_iff {draft : DatabaseDraft} (built : draft.build = .ok database) {engine : Engine}
    {source : DataSource} (opened : DataSource.ofDatabase database engine = .ok source) {name : String}
    (isTable : database.requireTable name = .ok table)
    (answers : backend.MatchesForms contents source.dialect table) {world : World}
    {events : List SessionEvent} (owned : ∀ event ∈ events, event.Owned database)
    (inForm : ∀ done, done <+: events →
      table.InForm source.dialect (contents (run backend { source, world } done).world table.id)) :
    let last := run backend { source, world } events
    (∀ columnName position column value other bound, table.columnIndex? columnName = some position →
      table.columns[position]? = some column → value ≠ .null → other ≠ .null →
      source.dialect.write column value = .ok bound → source.dialect.write column other = .ok bound →
        ∃ rows others after afterToo,
          DataSource.getRowsBy backend name columnName value (last.source, last.world) =
            (.ok rows, after) ∧
          DataSource.getRowsBy backend name columnName other (last.source, last.world) =
            (.ok others, afterToo) ∧
          (SameRows rows others ↔ (table.hasPrimaryKey = true →
            ∀ key, last.Shows contents table key →
              (last.GoesBy contents table position value key ↔
                last.GoesBy contents table position other key))) ∧
          (Throughout backend (fun stage event =>
              ¬ stage.Strands backend contents table position value event) { source, world } events →
            Throughout backend (fun stage event =>
              ¬ stage.Strands backend contents table position other event) { source, world } events →
              SameRows rows others)) ∧
    (table.hasPrimaryKey = true → ∀ keys others, table.BoundAlike source.dialect keys others →
      ∃ row other after afterToo,
        DataSource.get backend name keys (last.source, last.world) = (.ok row, after) ∧
        DataSource.get backend name others (last.source, last.world) = (.ok other, afterToo) ∧
        (SameRows row.toList other.toList ↔
          (last.Shows contents table keys ∨ last.Shows contents table others → keys = others))) := by
  intro last
  have placed := DatabaseDraft.build_placed built
  have isThere := Database.mem_of_requireTable isTable
  have found := placed.owns isThere
  obtain ⟨_, _, _, shaped⟩ := (DatabaseDraft.accepted_of_build built).table found
  have readyAtFirst : Ready database source.dialect table { source, world } :=
    ready_of_opened opened found world
  have ready : last.Ready database source.dialect table :=
    run_ready shaped placed isThere answers owned inForm readyAtFirst
  have inFormThen := inForm events (List.prefix_refl events)
  have rightly (position : Nat) (value : Value)
      (unstranded : Throughout backend (fun stage event =>
        ¬ stage.Strands backend contents table position value event) { source, world } events) :
      last.NamesRightly contents table position value := by
    have rightlyAtFirst : NamesRightly contents table position value { source, world } :=
      namesRightly_of_opened opened found position value world
    exact (namesRightly_throughout_iff shaped placed isThere answers owned inForm readyAtFirst
      rightlyAtFirst).mpr unstranded events (List.prefix_refl events)
  constructor
  · intro columnName position column value other bound isColumn onTable notNull notNullToo written
      writtenToo
    obtain ⟨rows, others, after, afterToo, isFound, isFoundToo, either, same⟩ :=
      getRowsBy_alike shaped isTable answers inFormThen ready isColumn onTable notNull notNullToo
        written writtenToo
    refine ⟨rows, others, after, afterToo, isFound, isFoundToo, either, ?_⟩
    intro unstranded unstrandedToo
    exact same (rightly position value unstranded) (rightly position other unstrandedToo)
  · intro keyed keys others alike
    exact get_alike shaped isTable answers inFormThen ready keyed alike

end Stage

/-- Passes of a gatehouse, as they are declared. -/
def passesDraft : DatabaseDraft :=
  { name := "gatehouse"
    tables :=
      [{ name := "passes"
         columns :=
           [{ name := "token", host := .uuid, primaryKey := true }, { name := "holder", host := .uuid }]
         indices := [{ name := "ix_holder", columns := ["holder"] }] }] }

/-- A column of the passes, as it is built. -/
def passColumn (position : Nat) (name : String) : Column :=
  { table := 0, position, name, declared := [], nullable := false, autoIncrement := false
    primaryKey := decide (position = 0), property := name, host := .uuid, defaultValue := none
    resolved := [.named .mariaDb "uuid", (ColumnType.named .mySql "binary").withLength 16,
      .named .sqlite "text"] }

/-- The table of the passes, as it is built. -/
def passes : Table :=
  { id := 0, name := "passes", model := "passes"
    columns := [passColumn 0 "token", passColumn 1 "holder"], primaryKeys := [0]
    indices := [{ name := "pk_passes", table := 0, columns := [0], kind := .primaryKey },
      { name := "ix_holder", table := 0, columns := [1], kind := .plain }]
    useCache := true }

/-- The database that the draft declares. -/
def passesDatabase : Database :=
  { name := "gatehouse", modelType := "gatehouse", tables := [passes], relations := []
    settings := CacheSettings.withDefaults {} }

def passToken : Uuid := ⟨List.replicate 15 0 ++ [1], rfl⟩

def passHolder : Uuid := ⟨List.replicate 15 0 ++ [2], rfl⟩

/-- The pass as it is stored: identifiers are bound as their texts. -/
def storedPass : List Value := [.text passToken.text, .text passHolder.text]

def gatehouse : Backend EngineRows := passesDatabase.engine .sqlite

/-- Before the pass is issued. -/
def beforeIssue : Stage EngineRows :=
  { source := { dialect := .sqlite, cache := .new passesDatabase }
    world :=
      { committed := fun _ => []
        coming := [fun position => if position = 0 then [storedPass] else []] } }

/-- The pass is issued to its holder. -/
def issuePass : List SessionEvent :=
  [.begin,
    .insert (.steady ⟨⟨0, 2, by decide⟩, 0⟩) passes
      [("token", .uuid passToken), ("holder", .uuid passHolder)],
    .commit]

/-- The passes of the holder are looked up by the text of the identifier. -/
def lookForHolder : SessionEvent := .getRowsBy "passes" "holder" (.text passHolder.text)

private theorem gatehouse_matchesForms :
    gatehouse.MatchesForms EngineRows.committed .sqlite passes :=
  Database.engine_matchesForms ⟨by decide, by decide⟩ .sqlite (List.mem_singleton_self _) (by decide)

private theorem passes_inForm {raws : List (List Value)} (either : raws = [] ∨ raws = [storedPass]) :
    passes.InForm .sqlite raws := by
  rcases either with rfl | rfl
  · exact ⟨nofun, fun _ => List.nodup_nil⟩
  · refine ⟨fun raw isRaw => ?_, fun _ => List.nodup_singleton _⟩
    obtain rfl := List.mem_singleton.mp isRaw
    refine ⟨[.uuid passToken, .uuid passHolder], by decide +kernel, rfl, rfl, ?_⟩
    intro position column found
    match position, found with
    | 0, rfl | 1, rfl => rfl

private theorem run_inForm {events : List SessionEvent}
    (either : ∀ count ≤ events.length,
      (Stage.run gatehouse beforeIssue (events.take count)).world.committed 0 = [] ∨
        (Stage.run gatehouse beforeIssue (events.take count)).world.committed 0 = [storedPass]) :
    ∀ done, done <+: events →
      passes.InForm .sqlite ((Stage.run gatehouse beforeIssue done).world.committed 0) := by
  intro done short
  rw [List.prefix_iff_eq_take.mp short]
  exact passes_inForm (either done.length short.length_le)

namespace Stage

section

variable {World : Type} {backend : Backend World} {contents : World → Store} {table : Table}
  {position : Nat} {value : Value} {stage : Stage World} {event : SessionEvent}

private theorem not_strands_of_noBucket
    (noBucket : (stage.source.cache.table? table.id).all (fun cache =>
      cache.indices.all fun index => (index.get? value).isNone) = true) :
    ¬ stage.Strands backend contents table position value event := by
  rintro ⟨keys, ⟨cache, isCached, index, isIndex, _, bucket⟩, _⟩
  rw [isCached] at noBucket
  have nothing := List.all_eq_true.mp noBucket index isIndex
  rw [bucket] at nothing
  cases nothing

private theorem not_strands_of_same
    (sameDialect : (stage.perform backend event).source.dialect = stage.source.dialect)
    (same : contents (stage.perform backend event).world table.id = contents stage.world table.id) :
    ¬ stage.Strands backend contents table position value event := by
  rintro ⟨keys, _, named, _, misnamed⟩
  apply misnamed
  unfold Names DataSource.Named
  rw [sameDialect, same]
  exact named

end

/-- The pass is issued before its holder is looked for. -/
def issuedFirst : List SessionEvent := issuePass ++ [lookForHolder]

private theorem issuedFirst_owned : ∀ event ∈ issuedFirst, event.Owned passesDatabase := by
  simp only [issuedFirst, issuePass, lookForHolder, List.cons_append, List.nil_append,
    List.forall_mem_cons, List.not_mem_nil, false_implies, implies_true]
  exact ⟨trivial, rfl, trivial, trivial, trivial⟩

/-- There is no bucket before the last event, which leaves what is stored. -/
private theorem issuedFirst_unstranded {value : Value}
    (isThere : value = .uuid passHolder ∨ value = .text passHolder.text) :
    Throughout gatehouse (fun stage event =>
      ¬ stage.Strands gatehouse EngineRows.committed passes 1 value event) beforeIssue issuedFirst := by
  rcases isThere with rfl | rfl
  all_goals
    refine ⟨not_strands_of_noBucket ?_, not_strands_of_noBucket ?_, not_strands_of_noBucket ?_,
      not_strands_of_same ?_ ?_, trivial⟩
    all_goals decide +kernel

/-- The look-ups of the holder after a run that strands no bucket. -/
theorem lookups_alike_iff_issuedFirst :
    let last := run gatehouse beforeIssue issuedFirst
    passesDraft.build = .ok passesDatabase ∧
      DataSource.ofDatabase passesDatabase .sqlite = .ok beforeIssue.source ∧
      passesDatabase.requireTable "passes" = .ok passes ∧
      gatehouse.MatchesForms EngineRows.committed .sqlite passes ∧
      (∀ event ∈ issuedFirst, event.Owned passesDatabase) ∧
      (∀ done, done <+: issuedFirst →
        passes.InForm .sqlite ((run gatehouse beforeIssue done).world.committed 0)) ∧
      ∃ rows others after afterToo,
        DataSource.getRowsBy gatehouse "passes" "holder" (.uuid passHolder) (last.source, last.world) =
          (.ok rows, after) ∧
        DataSource.getRowsBy gatehouse "passes" "holder" (.text passHolder.text)
          (last.source, last.world) = (.ok others, afterToo) ∧
        SameRows rows others := by
  intro last
  have built : passesDraft.build = .ok passesDatabase := rfl
  have opened : DataSource.ofDatabase passesDatabase .sqlite = .ok beforeIssue.source := rfl
  have isTable : passesDatabase.requireTable "passes" = .ok passes := rfl
  have inForm : ∀ done, done <+: issuedFirst →
      passes.InForm .sqlite ((run gatehouse beforeIssue done).world.committed 0) :=
    run_inForm (by decide +kernel)
  have alike := lookups_alike_iff built opened isTable gatehouse_matchesForms issuedFirst_owned inForm
  obtain ⟨rows, others, after, afterToo, isFound, isFoundToo, _, same⟩ := alike.1 "holder" 1
    (passColumn 1 "holder") (.uuid passHolder) (.text passHolder.text) (.text passHolder.text) rfl rfl
    nofun nofun rfl rfl
  exact ⟨built, opened, isTable, gatehouse_matchesForms, issuedFirst_owned, inForm, rows, others, after,
    afterToo, isFound, isFoundToo, same (issuedFirst_unstranded (.inl rfl))
      (issuedFirst_unstranded (.inr rfl))⟩

end Stage

/-- The holder is looked for before the pass is issued. The look-up finds nothing, and leaves a
bucket that the commit does not take out: it takes out that of the identifier. So by its text the
holder has no passes, though both are bound alike. And a pass is not found by the text of its token. -/
theorem lookedForFirst_not_alike :
    let events := lookForHolder :: issuePass
    let last := Stage.run gatehouse beforeIssue events
    let byHolder (holder : Value) :=
      (DataSource.getRowsBy gatehouse "passes" "holder" holder (last.source, last.world)).1.toOption
    let byToken (token : Value) :=
      (DataSource.get gatehouse "passes" ⟨[token]⟩ (last.source, last.world)).1.toOption
    passesDraft.build = .ok passesDatabase ∧
      DataSource.ofDatabase passesDatabase .sqlite = .ok beforeIssue.source ∧
      gatehouse.MatchesForms EngineRows.committed .sqlite passes ∧
      (∀ done, done <+: events →
        passes.InForm .sqlite ((Stage.run gatehouse beforeIssue done).world.committed 0)) ∧
      (∀ holder : Uuid, Dialect.sqlite.write (passColumn 1 "holder") (.uuid holder) =
        Dialect.sqlite.write (passColumn 1 "holder") (.text holder.text)) ∧
      (byHolder (.uuid passHolder)).map (·.map Row.values) =
        some [[.uuid passToken, .uuid passHolder]] ∧
      (byHolder (.text passHolder.text)).map (·.map Row.values) = some [] ∧
      (byToken (.uuid passToken)).map (·.map Row.values) =
        some (some [.uuid passToken, .uuid passHolder]) ∧
      (byToken (.text passToken.text)).map (·.map Row.values) = some none := by
  intro events last byHolder byToken
  refine ⟨rfl, rfl, gatehouse_matchesForms, run_inForm (by decide +kernel), fun _ => rfl, ?_, ?_, ?_, ?_⟩
  all_goals decide +kernel

end RelationalAccess
