import RelationalAccess.Proofs.Cache.Rows
import RelationalAccess.Proofs.Cache.Source

/-!
Loads in flight while transactions commit. A load reads the rows of a table at
any moment after it has begun and stores what it read at any moment after that.
The rows change at once when a transaction commits, the cache is told of the
changes one by one, and loads may begin, read and end in between. No cached row
is stale when the cache has been told of everything.
-/

namespace RelationalAccess

/-- A change of one row: none before for an insert, none after for a delete. -/
structure RowChange where
  before : Option Row
  after : Option Row

namespace RowChange

/-- The keys of the images of a change. -/
def keys (change : RowChange) : List Keys :=
  (change.before.map Row.keys).toList ++ (change.after.map Row.keys).toList

/-- The rows of a table after some changes. -/
def exchangeAll (table : Table) (rows : List (List Value)) (changes : List RowChange) :
    List (List Value) :=
  changes.foldl (fun rows change => table.exchange change.before change.after rows) rows

/-- The images of every one of some changes are true where those before it have been made. -/
def AllTrue (table : Table) : List (List Value) → List RowChange → Prop
  | _, [] => True
  | rows, change :: changes =>
    table.TrueImages rows change.before change.after ∧
      AllTrue table (table.exchange change.before change.after rows) changes

end RowChange

/-- A load in flight: the generation of the cache when it began, and the rows it has
read, if it has. -/
structure LoadInFlight where
  generation : Nat
  found : Option (List Row) := none

/-- The committed rows of a table, its cache, the loads in flight, and the committed
changes that the cache has not been told of. -/
structure SharedTable where
  rows : List (List Value)
  cache : TableCache
  loads : List LoadInFlight := []
  waiting : List RowChange := []

namespace SharedTable

/-- What can happen next. -/
inductive Step (table : Table) : SharedTable → SharedTable → Prop where
  | begin (state : SharedTable) :
    Step table state { state with loads := state.loads ++ [{ generation := state.cache.generation }] }
  /-- A load reads any of the rows, in any order. -/
  | read {state : SharedTable} {first last : List LoadInFlight} {generation : Nat}
      (loads : state.loads = first ++ { generation } :: last) (found : List Row)
      (current : ∀ row ∈ found, row.table = table ∧ row.values ∈ state.rows) :
    Step table state { state with loads := first ++ { generation, found := some found } :: last }
  | finish {state : SharedTable} {first last : List LoadInFlight} {generation : Nat}
      {found : List Row}
      (loads : state.loads = first ++ { generation, found := some found } :: last) :
    Step table state
      { state with cache := (state.cache.storeRead generation found).2, loads := first ++ last }
  | fail {state : SharedTable} {first last : List LoadInFlight} {load : LoadInFlight}
      (loads : state.loads = first ++ load :: last) :
    Step table state { state with loads := first ++ last }
  /-- A transaction commits, when the cache has been told of those before. -/
  | commit {state : SharedTable} (settled : state.waiting = []) (changes : List RowChange)
      (allTrue : RowChange.AllTrue table state.rows changes) :
    Step table state
      { state with rows := RowChange.exchangeAll table state.rows changes, waiting := changes }
  /-- The cache is told of a committed change. -/
  | apply {state : SharedTable} {change : RowChange} {others : List RowChange}
      (waiting : state.waiting = change :: others) :
    Step table state
      { state with
        cache := (state.cache.applyChange change.before change.after).2
        waiting := others }
  | evictBefore (state : SharedTable) (cutoff : Nat) :
    Step table state { state with cache := (state.cache.evictBefore cutoff).2 }
  | removeRow (state : SharedTable) (keys : Keys) :
    Step table state { state with cache := state.cache.removeRow keys }
  | clear (state : SharedTable) : Step table state { state with cache := state.cache.clear }
  | invalidate (state : SharedTable) (column : Nat) (value : Value) :
    Step table state { state with cache := (state.cache.invalidate column value).2 }

/-- What can be reached from rows with distinct keys and the empty cache of their table. -/
inductive Reachable (table : Table) (settings : CacheSettings) (threshold : Float) :
    SharedTable → Prop where
  | start {rows : List (List Value)} (distinct : table.DistinctKeys rows)
      (enabled : (TableCache.new table settings).enabled = true) :
    Reachable table settings threshold
      { rows, cache := (TableCache.new table settings).withThreshold threshold }
  | step {state next : SharedTable} (reachable : Reachable table settings threshold state)
      (step : Step table state next) : Reachable table settings threshold next

/-- A row is current, or a change that the cache has not been told of has its keys. -/
def CurrentOrWaiting (table : Table) (state : SharedTable) (row : Row) : Prop :=
  row.table = table ∧
    (row.values ∈ state.rows ∨ ∃ change ∈ state.waiting, row.keys ∈ change.keys)

/-- What holds of every state: the rows are those before the waiting changes with
these made, and what is cached or may yet be stored is current or waits for a change. -/
structure Consistent (table : Table) (state : SharedTable) : Prop where
  enabled : state.cache.enabled = true
  keyed : state.cache.RowsKeyed
  applied : ∃ rows, table.DistinctKeys rows ∧ RowChange.AllTrue table rows state.waiting ∧
    state.rows = RowChange.exchangeAll table rows state.waiting
  cached : ∀ keys row, state.cache.peek? keys = some row → state.CurrentOrWaiting table row
  begun : ∀ load ∈ state.loads, load.generation ≤ state.cache.generation
  loading : ∀ load ∈ state.loads, load.generation = state.cache.generation →
    ∀ found, load.found = some found → ∀ row ∈ found, state.CurrentOrWaiting table row

private theorem mem_exchange {table : Table} {rows : List (List Value)} {change : RowChange}
    {row : Row} (sameTable : row.table = table) (membership : row.values ∈ rows)
    (apart : row.keys ∉ change.keys) :
    row.values ∈ table.exchange change.before change.after rows := by
  refine Table.mem_exchange membership fun same => ?_
  refine apart (List.mem_append_left _ (Option.mem_toList.mpr ?_))
  rw [← same, Row.keys, sameTable]

/-- A row is still there after some changes, unless one of them has its keys. -/
private theorem mem_exchangeAll {table : Table} {row : Row} (sameTable : row.table = table)
    {rows : List (List Value)} {changes : List RowChange} (membership : row.values ∈ rows) :
    row.values ∈ RowChange.exchangeAll table rows changes ∨
      ∃ change ∈ changes, row.keys ∈ change.keys := by
  induction changes generalizing rows with
  | nil => exact .inl membership
  | cons change changes inductionHypothesis =>
    by_cases touched : row.keys ∈ change.keys
    · exact .inr ⟨change, List.mem_cons_self, touched⟩
    · rcases inductionHypothesis (mem_exchange sameTable membership touched) with kept | later
      · exact .inl kept
      · obtain ⟨other, found, touches⟩ := later
        exact .inr ⟨other, List.mem_cons_of_mem _ found, touches⟩

namespace Consistent

variable {table : Table} {state : SharedTable}

/-- A cache that has lost rows or has a higher generation is as consistent. -/
theorem forget (consistent : Consistent table state) {cache : TableCache}
    (enabled : cache.enabled = state.cache.enabled)
    (generation : state.cache.generation ≤ cache.generation)
    (rows : ∀ keys row, cache.peek? keys = some row → state.cache.peek? keys = some row) :
    Consistent table { state with cache } where
  enabled := enabled.trans consistent.enabled
  keyed keys row found := consistent.keyed keys row (rows keys row found)
  applied := consistent.applied
  cached keys row found := consistent.cached keys row (rows keys row found)
  begun load membership := Nat.le_trans (consistent.begun load membership) generation
  loading load membership same := by
    have begun := consistent.begun load membership
    have same' : load.generation = cache.generation := same
    exact consistent.loading load membership (by omega)

theorem evictBefore (consistent : Consistent table state) (cutoff : Nat) :
    Consistent table { state with cache := (state.cache.evictBefore cutoff).2 } := by
  have same := state.cache.removeRows_sameButRows (state.cache.staleKeys cutoff)
  refine consistent.forget same.enabled (Nat.le_of_eq same.generation.symm) fun keys row found => ?_
  have kept : ((state.cache.staleKeys cutoff).foldl TableCache.removeRow state.cache).peek? keys =
      some row := found
  rw [TableCache.peek?_removeRows] at kept
  split at kept
  · cases kept
  · exact kept

theorem removeRow (consistent : Consistent table state) (removed : Keys) :
    Consistent table { state with cache := state.cache.removeRow removed } := by
  have same := state.cache.removeRow_sameButRows removed
  refine consistent.forget same.enabled (Nat.le_of_eq same.generation.symm) fun keys row found => ?_
  rw [TableCache.peek?_removeRow] at found
  split at found
  · cases found
  · exact found

theorem clear (consistent : Consistent table state) :
    Consistent table { state with cache := state.cache.clear } :=
  consistent.forget rfl (Nat.le_refl _) fun keys row found => by cases found

theorem invalidate (consistent : Consistent table state) (column : Nat) (value : Value) :
    Consistent table { state with cache := (state.cache.invalidate column value).2 } := by
  unfold TableCache.invalidate
  split
  · exact consistent
  · exact consistent.forget rfl (Nat.le_succ _) fun keys row found => found

/-- The loads can be exchanged for others that are as consistent. -/
theorem loads (consistent : Consistent table state) {loads : List LoadInFlight}
    (members : ∀ load ∈ loads, load ∈ state.loads ∨ load.generation ≤ state.cache.generation ∧
      ∀ found, load.found = some found → ∀ row ∈ found, row.table = table ∧ row.values ∈ state.rows) :
    Consistent table { state with loads } where
  enabled := consistent.enabled
  keyed := consistent.keyed
  applied := consistent.applied
  cached := consistent.cached
  begun load membership := by
    rcases members load membership with old | ⟨begun, _⟩
    · exact consistent.begun load old
    · exact begun
  loading load membership same found hasFound row read := by
    rcases members load membership with old | ⟨_, current⟩
    · exact consistent.loading load old same found hasFound row read
    · obtain ⟨sameTable, stored⟩ := current found hasFound row read
      exact ⟨sameTable, .inl stored⟩

theorem begin (consistent : Consistent table state) :
    Consistent table
      { state with loads := state.loads ++ [{ generation := state.cache.generation }] } := by
  refine consistent.loads fun load membership => ?_
  rcases List.mem_append.mp membership with earlier | new
  · exact .inl earlier
  · rw [List.mem_singleton.mp new]
    exact .inr ⟨Nat.le_refl _, fun found hasFound => by cases hasFound⟩

section

variable {first last : List LoadInFlight} {load : LoadInFlight}

theorem read (consistent : Consistent table state) {generation : Nat}
    (loads : state.loads = first ++ { generation } :: last) {found : List Row}
    (current : ∀ row ∈ found, row.table = table ∧ row.values ∈ state.rows) :
    Consistent table
      { state with loads := first ++ { generation, found := some found } :: last } := by
  have begun := consistent.begun { generation } (by simp [loads])
  refine consistent.loads fun load membership => ?_
  rcases List.mem_append.mp membership with earlier | later
  · exact .inl (by simp [loads, earlier])
  · rcases List.mem_cons.mp later with new | after
    · subst new
      refine .inr ⟨begun, fun same isSame => ?_⟩
      cases isSame
      exact current
    · exact .inl (by simp [loads, after])

theorem fail (consistent : Consistent table state) (loads : state.loads = first ++ load :: last) :
    Consistent table { state with loads := first ++ last } := by
  refine consistent.loads fun other membership => .inl ?_
  rw [loads]
  rcases List.mem_append.mp membership with earlier | later
  · exact List.mem_append_left _ earlier
  · exact List.mem_append_right _ (List.mem_cons_of_mem _ later)

/-- What a load stores is as current as what is cached: if the generation is still the
one from before the load, every change since has yet to be applied. -/
theorem store (consistent : Consistent table state) (membership : load ∈ state.loads)
    {found : List Row} (hasFound : load.found = some found) :
    Consistent table { state with cache := (state.cache.storeRead load.generation found).2 } := by
  have same := state.cache.storeRead_sameButRows load.generation found
  have generation : ∀ other ∈ state.loads,
      other.generation = (state.cache.storeRead load.generation found).2.generation →
        other.generation = state.cache.generation := fun _ _ equal => equal.trans same.generation
  refine ⟨same.enabled.trans consistent.enabled, consistent.keyed.storeRead _ _, consistent.applied,
    fun keys row cached => ?_, fun other member => ?_, fun other member equal => ?_⟩
  · simp only [TableCache.storeRead] at cached
    split at cached
    · next still =>
      rw [TableCache.peek?_insertRows consistent.enabled, Option.or_eq_some_iff] at cached
      rcases cached with before | ⟨_, stored⟩
      · exact consistent.cached keys row before
      · exact consistent.loading load membership still.symm found hasFound row
          (List.mem_of_find?_eq_some stored)
    · exact consistent.cached keys row cached
  · show other.generation ≤ (state.cache.storeRead load.generation found).2.generation
    rw [same.generation]
    exact consistent.begun other member
  · exact consistent.loading other member (generation other member equal)

end

theorem commit (consistent : Consistent table state) (settled : state.waiting = [])
    {changes : List RowChange} (allTrue : RowChange.AllTrue table state.rows changes) :
    Consistent table
      { state with
        rows := RowChange.exchangeAll table state.rows changes
        waiting := changes } := by
  have carried : ∀ row, state.CurrentOrWaiting table row →
      CurrentOrWaiting table
        { state with
          rows := RowChange.exchangeAll table state.rows changes
          waiting := changes } row := by
    rintro row ⟨sameTable, current | ⟨change, waits, _⟩⟩
    · exact ⟨sameTable, mem_exchangeAll sameTable current⟩
    · rw [settled] at waits
      cases waits
  obtain ⟨rows, distinct, _, isRows⟩ := consistent.applied
  rw [settled] at isRows
  exact ⟨consistent.enabled, consistent.keyed, ⟨state.rows, isRows ▸ distinct, allTrue, rfl⟩,
    fun keys row cached => carried row (consistent.cached keys row cached), consistent.begun,
    fun load membership same found hasFound row read =>
      carried row (consistent.loading load membership same found hasFound row read)⟩

/-- When the cache has been told of a change, what it has under the keys of the change
is current or waits for a later one, and no load that began before stores anything. -/
theorem apply (consistent : Consistent table state) {change : RowChange} {others : List RowChange}
    (waiting : state.waiting = change :: others) :
    Consistent table
      { state with
        cache := (state.cache.applyChange change.before change.after).2
        waiting := others } := by
  obtain ⟨rows, distinct, allTrue, isRows⟩ := consistent.applied
  rw [waiting] at allTrue isRows
  obtain ⟨images, othersTrue⟩ := allTrue
  have generation := state.cache.applyChange_generation change.before change.after
  refine ⟨(state.cache.applyChange_enabled _ _).trans consistent.enabled,
    consistent.keyed.applyChange _ _, ⟨_, distinct.exchange images, othersTrue, isRows⟩,
    fun keys row cached => ?_, fun load membership => ?_, fun load membership same => ?_⟩
  · rw [TableCache.peek?_applyChange consistent.enabled] at cached
    split at cached
    · obtain ⟨sameTable, _⟩ := images.unused row cached
      have brought : row.values ∈ table.exchange change.before change.after rows := by
        simp [Table.exchange, cached]
      refine ⟨sameTable, ?_⟩
      show row.values ∈ state.rows ∨ _
      rw [isRows]
      exact mem_exchangeAll sameTable brought
    · next notAfter =>
      split at cached
      · cases cached
      · next notBefore =>
        obtain ⟨sameTable, current | ⟨other, waits, touches⟩⟩ := consistent.cached keys row cached
        · exact ⟨sameTable, .inl current⟩
        · rw [consistent.keyed keys row cached] at touches
          rw [waiting] at waits
          rcases List.mem_cons.mp waits with same | later
          · subst same
            rcases List.mem_append.mp touches with inBefore | inAfter
            · exact absurd (Option.mem_toList.mp inBefore) notBefore
            · exact absurd (Option.mem_toList.mp inAfter) notAfter
          · refine ⟨sameTable, .inr ⟨other, later, ?_⟩⟩
            rwa [consistent.keyed keys row cached]
  · show load.generation ≤ (state.cache.applyChange change.before change.after).2.generation
    rw [generation]
    exact Nat.le_succ_of_le (consistent.begun load membership)
  · have begun := consistent.begun load membership
    have same' : load.generation = (state.cache.applyChange change.before change.after).2.generation :=
      same
    omega

end Consistent

theorem Consistent.step {table : Table} {state next : SharedTable}
    (consistent : Consistent table state) (step : Step table state next) :
    Consistent table next := by
  cases step with
  | begin => exact consistent.begin
  | read loads found current => exact consistent.read loads current
  | finish loads =>
    have stored := consistent.store (by rw [loads]; exact List.mem_append_right _ List.mem_cons_self) rfl
    exact stored.fail loads
  | fail loads => exact consistent.fail loads
  | commit settled changes allTrue => exact consistent.commit settled allTrue
  | apply waiting => exact consistent.apply waiting
  | evictBefore cutoff => exact consistent.evictBefore cutoff
  | removeRow keys => exact consistent.removeRow keys
  | clear => exact consistent.clear
  | invalidate column value => exact consistent.invalidate column value

theorem Reachable.consistent {table : Table} {settings : CacheSettings} {threshold : Float}
    {state : SharedTable} (reachable : Reachable table settings threshold state) :
    Consistent table state := by
  induction reachable with
  | start distinct enabled =>
    exact ⟨enabled, fun keys row found => (by cases found), ⟨_, distinct, trivial, rfl⟩,
      fun keys row found => (by cases found), fun load membership => (by cases membership),
      fun load membership => (by cases membership)⟩
  | step _ step inductionHypothesis => exact inductionHypothesis.step step

/-- When the cache has been told of every committed change, each cached row is the row
that the table has under its keys. -/
theorem cached_is_current {table : Table} {settings : CacheSettings} {threshold : Float}
    {state : SharedTable} (reachable : Reachable table settings threshold state)
    (settled : state.waiting = []) {keys : Keys} {row : Row}
    (cached : state.cache.peek? keys = some row) :
    row.table = table ∧
      state.rows.find? (fun values => table.keysOf values = keys) = some row.values := by
  have consistent := reachable.consistent
  obtain ⟨rows, distinct, _, isRows⟩ := consistent.applied
  rw [settled] at isRows
  obtain ⟨sameTable, current | ⟨change, waits, _⟩⟩ := consistent.cached keys row cached
  · refine ⟨sameTable, ?_⟩
    have named : table.keysOf row.values = keys := by
      rw [← sameTable]
      exact consistent.keyed keys row cached
    rw [← List.head?_filter, ← named]
    rw [(isRows ▸ distinct : table.DistinctKeys state.rows).filter_keysOf current]
    rfl
  · rw [settled] at waits
    cases waits

/-- A load reads an item before a change of it commits, and stores it before the cache is
told of the change. -/
private theorem reachable_changedItem :
    ∃ state, Reachable groupedItems {} 0.5 state ∧ state.waiting = [] ∧
      state.cache.peek? ⟨[.int 1]⟩ = some (groupedItem 1 8) := by
  have started : Reachable groupedItems {} 0.5 _ :=
    .start (by simp [Table.DistinctKeys] : groupedItems.DistinctKeys [[.int 1, .int 7]]) rfl
  have begun := started.step (.begin _)
  have read := begun.step (.read (rfl : _ = [] ++ _ :: []) [groupedItem 1 7] (by
    intro row membership
    rw [List.mem_singleton.mp membership]
    exact ⟨rfl, List.mem_singleton_self _⟩))
  have committed := read.step (.commit rfl [⟨groupedItem 1 7, groupedItem 1 8⟩] ⟨⟨by
    rintro old ⟨⟩
    exact ⟨rfl, List.mem_singleton_self _⟩, by
    rintro new ⟨⟩
    exact ⟨rfl, by decide +kernel⟩⟩, trivial⟩)
  have finished := committed.step (.finish (rfl : _ = [] ++ _ :: []))
  exact ⟨_, finished.step (.apply rfl), rfl, rfl⟩

theorem cached_is_current_changedItem :
    ∃ state, Reachable groupedItems {} 0.5 state ∧ state.waiting = [] ∧
      state.cache.peek? ⟨[.int 1]⟩ = some (groupedItem 1 8) ∧
      state.rows.find? (fun values => groupedItems.keysOf values = ⟨[.int 1]⟩) =
        some [.int 1, .int 8] := by
  obtain ⟨state, reachable, settled, cached⟩ := reachable_changedItem
  exact ⟨state, reachable, settled, cached, (cached_is_current reachable settled cached).2⟩

end SharedTable

end RelationalAccess
