import RelationalAccess.Proofs.Cache.Cleanups
import RelationalAccess.Proofs.Cache.Tables

/-!
Runs of the caches of a database, and cleanups in them. Whatever was done before, the
counters of the tables are true and no two rows were stored at the same time, and so every
cleanup evicts what is too old and then as few rows as it can.
-/

namespace RelationalAccess

namespace TableCache

/-- Rows were stored before now, each at its own time. -/
structure Dated (cache : TableCache) : Prop where
  past : ∀ entry ∈ cache.rows.list, entry.2.storedAt < cache.clock
  apart : (cache.rows.list.map fun entry => entry.2.storedAt).Nodup

/-- What was stored since an earlier time was stored after it, at times of its own. -/
structure Ages (origin cache : TableCache) : Prop where
  clock : origin.clock ≤ cache.clock
  rows : ∀ entry ∈ cache.rows.list, entry ∈ origin.rows.list ∨ origin.clock ≤ entry.2.storedAt
  dated : origin.Dated → cache.Dated

namespace Ages

theorem trans {first second third : TableCache} (earlier : first.Ages second)
    (later : second.Ages third) : first.Ages third where
  clock := Nat.le_trans earlier.clock later.clock
  rows entry membership := by
    rcases later.rows entry membership with old | new
    · exact earlier.rows entry old
    · exact .inr (Nat.le_trans earlier.clock new)
  dated before := later.dated (earlier.dated before)

/-- Nothing is stored where rows only go. -/
theorem of_sublist {origin cache : TableCache} (clock : origin.clock ≤ cache.clock)
    (sublist : cache.rows.list.Sublist origin.rows.list) : origin.Ages cache where
  clock := clock
  rows _ membership := .inl (sublist.subset membership)
  dated before :=
    { past := fun entry membership =>
        Nat.lt_of_lt_of_le (before.past entry (sublist.subset membership)) clock
      apart := (sublist.map _).nodup before.apart }

theorem replaceRow {cache : TableCache} (enabled : cache.enabled = true) (row : Row) :
    cache.Ages (cache.replaceRow row) := by
  rw [replaceRow_of_enabled enabled]
  have kept : (cache.rows.erase row.keys).list.Sublist cache.rows.list := List.filter_sublist
  refine ⟨Nat.le_succ _, fun entry membership => ?_, fun before => ⟨fun entry membership => ?_, ?_⟩⟩
  · rcases List.mem_cons.mp membership with rfl | old
    · exact .inr (Nat.le_refl _)
    · exact .inl (kept.subset old)
  · rcases List.mem_cons.mp membership with rfl | old
    · exact Nat.lt_succ_self _
    · exact Nat.lt_succ_of_lt (before.past entry (kept.subset old))
  · refine List.nodup_cons.mpr ⟨fun again => ?_, (kept.map _).nodup before.apart⟩
    obtain ⟨entry, old, same⟩ := List.mem_map.mp again
    have isPast := before.past entry (kept.subset old)
    exact absurd same (Nat.ne_of_lt isPast)

end Ages

theorem Adjusts.ages {cache other : TableCache} (adjusts : cache.Adjusts other) :
    cache.Ages other := by
  cases adjusts with
  | aside _ rows _ _ clock => exact .of_sublist clock (by rw [rows])
  | storeRow row enabled => exact .replaceRow enabled row
  | takeRow found =>
    rw [removeRow_of_found found]
    exact .of_sublist (Nat.le_refl _) List.filter_sublist
  | index => exact .of_sublist (Nat.le_refl _) (List.Sublist.refl _)
  | clear => exact .of_sublist (Nat.le_refl _) (List.nil_sublist _)

theorem Adjusted.ages {origin cache : TableCache} (adjusted : origin.Adjusted cache) :
    origin.Ages cache := by
  induction adjusted with
  | refl => exact .of_sublist (Nat.le_refl _) (List.Sublist.refl _)
  | tail _ adjusts inductionHypothesis => exact inductionHypothesis.trans adjusts.ages

end TableCache

namespace DatabaseCache

/-- The counters of the tables are true, and rows were stored before now, no two at once. -/
structure Sound (cache : DatabaseCache) : Prop where
  counted : cache.Counted
  past : ∀ row ∈ cache.held, row.storedAt < cache.clock
  apart : cache.StoredApart

/-- Where nothing is held there are no times. -/
theorem Sound.of_nothing {cache : DatabaseCache} (counted : cache.Counted)
    (nothing : ∀ table ∈ cache.tables, table.rows.list = []) : cache.Sound where
  counted := counted
  past row isHeld := by
    rw [held_eq_nil nothing] at isHeld
    cases isHeld
  apart := by
    rw [StoredApart, held_eq_nil nothing]
    exact List.nodup_nil

theorem sound_new (database : Database) : (DatabaseCache.new database).Sound := by
  apply Sound.of_nothing
  · intro table membership
    obtain ⟨definition, _, rfl⟩ := List.mem_map.mp membership
    exact TableCache.counted_new definition database.settings
  · intro table membership
    obtain ⟨definition, _, rfl⟩ := List.mem_map.mp membership
    rfl

/-- Times stay apart where some are exchanged for others of them and for later ones. -/
private theorem nodup_exchange {early here other late : List Nat} {now : Nat}
    (apart : (early ++ (here ++ late)).Nodup) (past : ∀ time ∈ early ++ (here ++ late), time < now)
    (otherApart : other.Nodup) (fresh : ∀ time ∈ other, time ∈ here ∨ now ≤ time) :
    (early ++ (other ++ late)).Nodup := by
  rw [List.nodup_append, List.nodup_append] at apart ⊢
  obtain ⟨earlyApart, ⟨_, lateApart, hereLate⟩, earlyRest⟩ := apart
  have notIn : ∀ time ∈ other, ∀ old, old < now → (time ∈ here → time ≠ old) → time ≠ old := by
    intro time isOther old isPast differ
    rcases fresh time isOther with isHere | isNew
    · exact differ isHere
    · exact (Nat.ne_of_lt (Nat.lt_of_lt_of_le isPast isNew)).symm
  refine ⟨earlyApart, ⟨otherApart, lateApart, fun time isOther old isLate => ?_⟩,
    fun old isEarly time membership => ?_⟩
  · exact notIn time isOther old (past old (by simp [isLate])) fun isHere => hereLate time isHere old isLate
  · rcases List.mem_append.mp membership with isOther | isLate
    · refine (notIn time isOther old (past old (by simp [isEarly])) fun isHere => ?_).symm
      exact (earlyRest old isEarly time (List.mem_append_left _ isHere)).symm
    · exact earlyRest old isEarly time (List.mem_append_right _ isLate)

/-- The cache of a table stands somewhere among the others, and is the one that is replaced. -/
private theorem table?_split {cache : DatabaseCache} {position : Nat} {table : TableCache}
    (found : cache.table? position = some table) :
    ∃ before stored after, cache.tables = before ++ stored :: after ∧
      table = { stored with clock := cache.clock } ∧
      ∀ other, (cache.setTable position other).tables = before ++ other :: after := by
  obtain ⟨stored, isStored, rfl⟩ := Option.map_eq_some_iff.mp found
  obtain ⟨inside, isThere⟩ := List.getElem?_eq_some_iff.mp isStored
  refine ⟨cache.tables.take position, stored, cache.tables.drop (position + 1), ?_, rfl,
    fun other => List.set_eq_take_cons_drop other inside⟩
  rw [← List.set_eq_take_cons_drop stored inside, ← isThere, List.set_getElem_self]

private theorem Counted.setTable {cache : DatabaseCache} (counted : cache.Counted) {position : Nat}
    {table other : TableCache} (found : cache.table? position = some table)
    (adjusted : table.Adjusted other) : (cache.setTable position other).Counted := by
  obtain ⟨before, stored, after, split, rfl, replaced⟩ := table?_split found
  rw [Counted, split] at counted
  rw [Counted, replaced]
  exact forall_mem_exchange counted fun here =>
    TableCache.Adjusted.counted adjusted (here.of_same rfl rfl rfl rfl)

private theorem storedAt_heldAt (table : TableCache) (position : Nat) :
    (table.heldAt position).map HeldRow.storedAt =
      table.rows.list.map fun entry => entry.2.storedAt := by
  rw [TableCache.heldAt, List.map_map]
  rfl

/-- The times of the rows of all tables are kept apart when one table changes. -/
theorem Sound.setTable {cache : DatabaseCache} (sound : cache.Sound) {position : Nat}
    {table other : TableCache} (found : cache.table? position = some table)
    (adjusted : table.Adjusted other) : (cache.setTable position other).Sound := by
  obtain ⟨before, stored, after, split, isTable, replaced⟩ := table?_split found
  have ages := TableCache.Adjusted.ages adjusted
  let times (table : TableCache) : List Nat := table.rows.list.map fun entry => entry.2.storedAt
  let early := (TableCache.heldFrom 0 before).map HeldRow.storedAt
  let late := (TableCache.heldFrom (0 + before.length + 1) after).map HeldRow.storedAt
  have timesBefore : cache.held.map HeldRow.storedAt = early ++ (times stored ++ late) := by
    rw [held, split, TableCache.heldFrom_split, List.map_append, List.map_append, storedAt_heldAt]
  have timesAfter : (cache.setTable position other).held.map HeldRow.storedAt =
      early ++ (times other ++ late) := by
    rw [held, replaced, TableCache.heldFrom_split, List.map_append, List.map_append, storedAt_heldAt]
  have past : ∀ time ∈ early ++ (times stored ++ late), time < cache.clock := by
    rw [← timesBefore]
    exact List.forall_mem_map.mpr sound.past
  have apart : (early ++ (times stored ++ late)).Nodup := timesBefore ▸ sound.apart
  have dated : other.Dated := by
    refine ages.dated ?_
    rw [isTable]
    refine ⟨fun entry membership => past _ ?_, ?_⟩
    · exact List.mem_append_right _ (List.mem_append_left _ (List.mem_map_of_mem membership))
    · exact (List.nodup_append.mp (List.nodup_append.mp apart).2.1).1
  have fresh : ∀ time ∈ times other, time ∈ times stored ∨ cache.clock ≤ time := by
    refine List.forall_mem_map.mpr fun entry membership => ?_
    rw [isTable] at ages
    exact (ages.rows entry membership).imp_left fun old => List.mem_map_of_mem old
  have clock : cache.clock ≤ other.clock := by
    rw [isTable] at ages
    exact ages.clock
  refine ⟨sound.counted.setTable found adjusted, ?_, ?_⟩
  · have all : ∀ time ∈ early ++ (times other ++ late), time < other.clock := by
      intro time membership
      rcases List.mem_append.mp membership with isEarly | isRest
      · exact Nat.lt_of_lt_of_le (past time (by simp [isEarly])) clock
      · rcases List.mem_append.mp isRest with isOther | isLate
        · obtain ⟨entry, isThere, rfl⟩ := List.mem_map.mp isOther
          exact dated.past entry isThere
        · exact Nat.lt_of_lt_of_le (past time (by simp [isLate])) clock
    rw [← timesAfter] at all
    exact List.forall_mem_map.mp all
  · rw [StoredApart, timesAfter]
    exact nodup_exchange apart past dated.apart fresh

end DatabaseCache

/-- What can be done to the caches of a database. -/
inductive DatabaseOperation where
  /-- An operation of the cache of one table. -/
  | onTable (position : Nat) (operation : CacheOperation)
  | cleanUpAt (now : Nat)
  | clear
  | stopCleanup
  /-- Time passes. -/
  | wait (time : Nat)

namespace DatabaseCache

variable {World : Type} (sources : Nat → RowSource World)

/-- The caches and the world after an operation, with a source for every table. -/
def operate (state : DatabaseCache × World) : DatabaseOperation → DatabaseCache × World
  | .onTable position operation =>
    match state.1.table? position with
    | none => state
    | some table =>
      let (table, world) := (sources position).operate (table, state.2) operation
      (state.1.setTable position table, world)
  | .cleanUpAt now => ((state.1.cleanUpAt now).2, state.2)
  | .clear => (state.1.clear, state.2)
  | .stopCleanup => (state.1.stopCleanup, state.2)
  | .wait time => ({ state.1 with clock := state.1.clock + time }, state.2)

def operateAll (state : DatabaseCache × World) (operations : List DatabaseOperation) :
    DatabaseCache × World :=
  operations.foldl (operate sources) state

variable {sources}

private theorem Sound.cleanUpAt {cache : DatabaseCache} (sound : cache.Sound) (now : Nat) :
    (cache.cleanUpAt now).2.Sound := by
  obtain ⟨counted, clock, gone, kept, cleansUp⟩ := cleansUp sound.counted sound.apart now
  have whole := cleansUp.rest
  have fewer : kept.Sublist (gone ++ kept) := List.sublist_append_right gone kept
  refine ⟨counted, fun row isHeld => ?_, ?_⟩
  · have isWhole := whole.subset (fewer.subset (cleansUp.left.subset isHeld))
    rw [clock]
    exact sound.past row (List.mem_of_mem_filter isWhole)
  · have wholeApart := (whole.map HeldRow.storedAt).nodup_iff.mpr
      ((List.filter_sublist.map HeldRow.storedAt).nodup sound.apart)
    exact (cleansUp.left.map HeldRow.storedAt).nodup_iff.mpr ((fewer.map _).nodup wholeApart)

theorem Sound.operate (detached : ∀ position, (sources position).Detached)
    {state : DatabaseCache × World} (sound : state.1.Sound) (operation : DatabaseOperation) :
    (DatabaseCache.operate sources state operation).1.Sound := by
  cases operation with
  | onTable position operation =>
    unfold DatabaseCache.operate
    dsimp only
    split
    · exact sound
    · next table found =>
      have counted : table.Counted := by
        obtain ⟨stored, isStored, rfl⟩ := Option.map_eq_some_iff.mp found
        have here := sound.counted stored (List.mem_of_getElem? isStored)
        exact here.of_same rfl rfl rfl rfl
      have isCounted : (table, state.2).1.Counted := counted
      exact sound.setTable found ((detached position).adjusted isCounted operation)
  | cleanUpAt now => exact sound.cleanUpAt now
  | clear =>
    apply Sound.of_nothing
    · intro table membership
      obtain ⟨whole, isWhole, rfl⟩ := List.mem_map.mp membership
      exact (TableCache.Adjusts.clear whole).counted (sound.counted whole isWhole)
    · intro table membership
      obtain ⟨whole, _, rfl⟩ := List.mem_map.mp membership
      rfl
  | stopCleanup => exact ⟨sound.counted, sound.past, sound.apart⟩
  | wait time =>
    refine ⟨sound.counted, fun row isHeld => ?_, sound.apart⟩
    exact Nat.lt_of_lt_of_le (sound.past row isHeld) (Nat.le_add_right _ _)

theorem Sound.operateAll (detached : ∀ position, (sources position).Detached)
    {state : DatabaseCache × World} (sound : state.1.Sound) (operations : List DatabaseOperation) :
    (DatabaseCache.operateAll sources state operations).1.Sound := by
  induction operations generalizing state with
  | nil => exact sound
  | cons operation operations inductionHypothesis =>
    exact inductionHypothesis (sound.operate detached operation)

/-- After any operations, a cleanup at any time evicts the rows that are too old and then
the fewest of the others, in the order of the policy, without which the limits are kept. -/
theorem cleansUp_throughout (detached : ∀ position, (sources position).Detached)
    (database : Database) (world : World) (operations : List DatabaseOperation) (now : Nat) :
    let cache := (operateAll sources (DatabaseCache.new database, world) operations).1
    ∃ gone kept, cache.CleansUp now gone kept := by
  intro cache
  have sound : cache.Sound := Sound.operateAll detached (sound_new database) operations
  exact (cleansUp sound.counted sound.apart now).2.2

end DatabaseCache

/-- Two tables of items that may hold two rows together and 400 octets, and no row for longer than
a second. The largest go first. -/
def boundedDatabase : Database :=
  { name := "bounded", modelType := "Bounded", tables := [groupedItems, groupedItems], relations := []
    settings := { limits := [⟨.rows, 2⟩, ⟨.bytes, 400⟩, ⟨.seconds, 1⟩], eviction := .largestFirst } }

/-- An item is cached, more than a second passes, and then two more items of either table
are cached. -/
def cachedItems : List DatabaseOperation :=
  [.onTable 0 (.getRow ⟨[.int 1]⟩), .wait 1000000000,
    .onTable 1 (.getRowsByKeys [⟨[.int 1]⟩, ⟨[.int 2]⟩]),
    .onTable 0 (.getRowsByKeys [⟨[.int 2]⟩, ⟨[.int 3]⟩])]

/-- The cleanup after the items were cached: of five one is too old. Of the others, which are of one
size, one more than has to go for their size goes for their number, and the two that were cached
last are kept. -/
theorem cleansUp_throughout_cachedItems :
    let sources (_ : Nat) := unreliableRows [groupedItem 1 7, groupedItem 2 7, groupedItem 3 8]
    let cache := (DatabaseCache.operateAll sources (DatabaseCache.new boundedDatabase, [])
      cachedItems).1
    let called (row : HeldRow) := (row.table, row.keys)
    (∀ position, (sources position).Detached) ∧ cache.totalRows = 5 ∧ cache.totalBytes = 560 ∧
      (cache.held.filter (HeldRow.isAged boundedDatabase.settings cache.clock)).map called =
        [(0, ⟨[.int 1]⟩)] ∧
      ∃ gone kept, cache.CleansUp cache.clock gone kept ∧
        gone.map called = [(1, ⟨[.int 1]⟩), (1, ⟨[.int 2]⟩)] ∧
        kept.map called = [(0, ⟨[.int 2]⟩), (0, ⟨[.int 3]⟩)] := by
  intro sources cache called
  have detached (position : Nat) : (sources position).Detached := unreliableRows_detached _
  obtain ⟨gone, kept, cleansUp⟩ := DatabaseCache.cleansUp_throughout detached boundedDatabase []
    cachedItems cache.clock
  let young := cache.held.filter fun row => !HeldRow.isAged boundedDatabase.settings cache.clock row
  have ordered : young.reverse.Pairwise fun first later =>
      later.size < first.size ∨ first.size = later.size ∧ first.storedAt < later.storedAt := by
    decide +kernel
  have whole : gone ++ kept = young.reverse :=
    cleansUp.append_eq (List.reverse_perm young) ordered
  have fits : HeldRow.Fit boundedDatabase.settings (young.reverse.drop 2) := by
    have rows : (young.reverse.drop 2).length = 2 := by decide +kernel
    have bytes : ((young.reverse.drop 2).map HeldRow.size).sum = 224 := by decide +kernel
    rw [HeldRow.Fit, rows, bytes, CacheSettings.Allows]
    simp [boundedDatabase, Limit.Allows, Limit.counted]
  have notMore : gone.length ≤ 2 := cleansUp.length_gone_le (whole ▸ fits)
  have notFewer : kept.length ≤ 2 := by
    rw [← cleansUp.left.length_eq, ← DatabaseCache.totalRows_eq]
    exact cleansUp.allowed ⟨.rows, 2⟩ List.mem_cons_self
  have all : gone.length + kept.length = 4 := by
    rw [← List.length_append, whole]
    decide +kernel
  have two : gone.length = 2 := by omega
  have isGone : gone = young.reverse.take 2 := by rw [← whole, ← two, List.take_left]
  have isKept : kept = young.reverse.drop 2 := by rw [← whole, ← two, List.drop_left]
  refine ⟨detached, by decide +kernel, by decide +kernel, by decide +kernel, gone, kept, cleansUp,
    ?_, ?_⟩
  · rw [isGone]
    decide +kernel
  · rw [isKept]
    decide +kernel

end RelationalAccess
