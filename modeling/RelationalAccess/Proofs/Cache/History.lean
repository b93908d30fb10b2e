import RelationalAccess.Proofs.Cache.IndexCoherence
import RelationalAccess.Proofs.Throughout

/-!
Histories of a cache and of the rows behind it: reads, evictions and committed
changes of single rows, in any order. The buckets of the cache are exact throughout
a history if and only if no change in it strands one.
-/

namespace RelationalAccess

/-- What holds the rows of a table: a source that answers from them, and committed
changes of one row. -/
structure Backing (table : Table) (World : Type) where
  source : RowSource World
  rows : World → List (List Value)
  honest : source.Honest table rows
  commit : Option Row → Option Row → World → World
  rows_commit : ∀ before after world,
    rows (commit before after world) = table.exchange before after (rows world)

/-- What happens to a cache and the rows behind it. -/
inductive CacheEvent where
  | getRow (keys : Keys)
  | getRowsByKeys (keys : List Keys)
  | getRows (column : Nat) (value : Value)
  | evictBefore (cutoff : Nat)
  | trim
  | removeRow (keys : Keys)
  | clear
  /-- A committed change of one row, which the cache is told of. -/
  | change (before after : Option Row)

namespace Backing

variable {table : Table} {World : Type} (backing : Backing table World)

def step (state : TableCache × World) : CacheEvent → TableCache × World
  | .getRow keys => (TableCache.getRow backing.source keys state).2
  | .getRowsByKeys keys => (TableCache.getRowsByKeys backing.source keys state).2
  | .getRows column value => (TableCache.getRows backing.source column value state).2
  | .evictBefore cutoff => ((state.1.evictBefore cutoff).2, state.2)
  | .trim => (state.1.trim, state.2)
  | .removeRow keys => (state.1.removeRow keys, state.2)
  | .clear => (state.1.clear, state.2)
  | .change before after =>
    ((state.1.applyChange before after).2, backing.commit before after state.2)

def run (state : TableCache × World) (events : List CacheEvent) : TableCache × World :=
  events.foldl backing.step state

/-- The empty cache of a table under some settings, and the world. -/
def start (_ : Backing table World) (settings : CacheSettings) (threshold : Float)
    (world : World) : TableCache × World :=
  ((TableCache.new table settings).withThreshold threshold, world)

/-- The buckets of the cache are exact. -/
def Exact (state : TableCache × World) : Prop := state.1.BucketsExact (backing.rows state.2)

/-- Something holds of every event of a history and of the state it happens in. -/
def Throughout (holds : TableCache × World → CacheEvent → Prop) :
    TableCache × World → List CacheEvent → Prop :=
  RelationalAccess.Throughout backing.step holds

/-- The images of a change are true. -/
def IsTrue (state : TableCache × World) : CacheEvent → Prop
  | .change before after => table.TrueImages (backing.rows state.2) before after
  | _ => True

/-- A change strands a bucket. -/
def Strands (_ : Backing table World) (state : TableCache × World) : CacheEvent → Prop
  | .change before after => state.1.Strands before after
  | _ => False

private def Tracked (state : TableCache × World) : Prop :=
  TableCache.Tracks table state.1 (backing.rows state.2)

private theorem start_tracked (settings : CacheSettings) (threshold : Float) {world : World}
    (distinct : table.DistinctKeys (backing.rows world)) :
    backing.Tracked (backing.start settings threshold world) := by
  have fresh := TableCache.indices_new table settings
  refine ⟨rfl, ?_, ⟨fun index membership => (fresh index membership).1,
    fun index membership => (fresh index membership).2 .null, ?_⟩, ?_, distinct⟩
  · intro keys row found
    cases found
  · refine List.pairwise_of_forall_mem_list fun _ _ later membership _ => ?_
    exact (fresh later membership).2
  · intro column value keys bucket
    cases TableCache.not_hasBucket_new table settings column value keys bucket

/-- After an event the cache still tracks the rows, if the buckets are exact where the
event is a change. -/
private theorem step_tracked {state : TableCache × World} (tracked : backing.Tracked state)
    {event : CacheEvent} (isTrue : backing.IsTrue state event)
    (exact : ∀ before after, event = .change before after → backing.Exact (backing.step state event)) :
    backing.Tracked (backing.step state event) := by
  have read {α : Type} {read : Loading World α} (upholds : backing.source.Upholds read) :
      Keeps backing.Tracked read :=
    TableCache.tracks_kept backing.honest upholds
  cases event with
  | getRow keys => exact (read (TableCache.getRow_upholds _ keys)).final tracked
  | getRowsByKeys keys => exact (read (TableCache.getRowsByKeys_upholds _ keys)).final tracked
  | getRows column value => exact (read (TableCache.getRows_upholds _ column value)).final tracked
  | evictBefore cutoff =>
    exact tracked.within (state.1.evictBefore_within cutoff) (tracked.keyed.removeRows _)
  | trim => exact tracked.within state.1.trim_within tracked.keyed
  | removeRow keys => exact tracked.within (state.1.removeRow_within keys) (tracked.keyed.removeRow keys)
  | clear => exact tracked.within state.1.clear_within fun keys row found => by cases found
  | change before after =>
    refine ⟨(TableCache.applyChange_table _ _ _).trans tracked.sameTable,
      tracked.keyed.applyChange before after,
      (TableCache.applyChange_within _ before after).sound tracked.sound, exact _ _ rfl, ?_⟩
    show table.DistinctKeys (backing.rows (backing.commit before after state.2))
    rw [backing.rows_commit]
    exact tracked.distinct.exchange isTrue

/-- An event keeps the buckets exact if and only if it strands none. -/
private theorem exact_step_iff {state : TableCache × World} (tracked : backing.Tracked state)
    {event : CacheEvent} (isTrue : backing.IsTrue state event) :
    backing.Exact (backing.step state event) ↔ ¬ backing.Strands state event := by
  cases event with
  | change before after =>
    have either := TableCache.exact_applyChange_iff tracked isTrue
    rw [← backing.rows_commit] at either
    exact either
  | _ =>
    refine iff_of_true (backing.step_tracked tracked isTrue fun _ _ isChange => ?_).exact id
    cases isChange

/-- The buckets of the cache are exact throughout a history if and only if no change in
it strands one. -/
theorem exact_throughout_iff (settings : CacheSettings) (threshold : Float) (world : World)
    (distinct : table.DistinctKeys (backing.rows world)) (events : List CacheEvent)
    (isTrue : backing.Throughout backing.IsTrue (backing.start settings threshold world) events) :
    (∀ done, done <+: events →
        backing.Exact (backing.run (backing.start settings threshold world) done)) ↔
      backing.Throughout (fun state event => ¬ backing.Strands state event)
        (backing.start settings threshold world) events := by
  have tracked := backing.start_tracked settings threshold distinct
  refine forall_prefix_iff ?_ ?_ tracked tracked.exact isTrue
  · intro state event trackedNow _ isTrueNow
    exact backing.exact_step_iff trackedNow isTrueNow
  · intro state event trackedNow _ isTrueNow exactThen
    exact backing.step_tracked trackedNow isTrueNow fun _ _ _ => exactThen

end Backing

/-- Rows held in memory. -/
def Backing.inMemory (table : Table) : Backing table (List (List Value)) where
  source :=
    { rowsByKeys := fun keys (cache, rows) =>
        let found := rows.filter fun row => keys.contains (table.keysOf row)
        (.ok (found.map fun values => { identity := 0, table, values }), cache, rows)
      keysByValue := fun column value (cache, rows) =>
        (.ok (table.keysWith rows column value), cache, rows)
      rowsByValue := fun column value (cache, rows) =>
        let found := rows.filter fun row => row.getD column .null = value
        (.ok (found.map fun values => { identity := 0, table, values }), cache, rows) }
  rows := id
  honest := by
    have loaded (stored : List (List Value)) :
        table.Loaded (stored.map fun values => { identity := 0, table, values }) stored :=
      ⟨by simp, by simp [Function.comp_def]⟩
    exact ⟨fun keys cache rows => ⟨_, rows, rfl, rfl, loaded _⟩,
      fun column value cache rows => ⟨_, rows, rfl, rfl, .refl _⟩,
      fun column value cache rows => ⟨_, rows, rfl, rfl, loaded _⟩⟩
  commit := table.exchange
  rows_commit _ _ _ := rfl

/-- Three items of a group are looked up, and then one of them gets another key. -/
def rekeyedItem : List CacheEvent :=
  [.change none (groupedItem 1 7), .change none (groupedItem 5 7), .change none (groupedItem 6 7),
    .getRows 1 (.int 7), .change (groupedItem 1 7) (groupedItem 2 7)]

private theorem rekeyedItem_isTrue :
    let backing := Backing.inMemory groupedItems
    backing.Throughout backing.IsTrue (backing.start {} 0.5 []) rekeyedItem := by
  refine ⟨.inserted rfl ?_, .inserted rfl ?_, .inserted rfl ?_, trivial, ⟨?_, ?_⟩, trivial⟩
  · decide +kernel
  · decide +kernel
  · decide +kernel
  · rintro old ⟨⟩
    exact ⟨rfl, by decide +kernel⟩
  · rintro new ⟨⟩
    exact ⟨rfl, by decide +kernel⟩

/-- The bucket of the group keeps the old key of the item that has got another. -/
theorem rekeyedItem_not_exact :
    let backing := Backing.inMemory groupedItems
    backing.Throughout backing.IsTrue (backing.start {} 0.5 []) rekeyedItem ∧
      ¬ backing.Exact (backing.run (backing.start {} 0.5 []) rekeyedItem) := by
  refine ⟨rekeyedItem_isTrue, fun exact => ?_⟩
  have same := exact 1 (.int 7) [⟨[.int 1]⟩, ⟨[.int 5]⟩, ⟨[.int 6]⟩] (by decide +kernel)
  revert same
  decide +kernel

/-- The equivalence at the history of the item that gets another key, where both sides fail. -/
theorem exact_throughout_iff_rekeyedItem :
    let backing := Backing.inMemory groupedItems
    groupedItems.DistinctKeys (backing.rows []) ∧
      backing.Throughout backing.IsTrue (backing.start {} 0.5 []) rekeyedItem ∧
      ((∀ done, done <+: rekeyedItem →
          backing.Exact (backing.run (backing.start {} 0.5 []) done)) ↔
        backing.Throughout (fun state event => ¬ backing.Strands state event)
          (backing.start {} 0.5 []) rekeyedItem) :=
  ⟨List.nodup_nil, rekeyedItem_isTrue,
    (Backing.inMemory groupedItems).exact_throughout_iff {} 0.5 [] List.nodup_nil rekeyedItem
      rekeyedItem_isTrue⟩

end RelationalAccess
