import Mathlib.Data.List.Count
import Mathlib.Data.List.Nodup
import RelationalAccess.Proofs.Cache.Rows
import RelationalAccess.Proofs.Lists
import RelationalAccess.Proofs.Schema.Shape
import RelationalAccess.Proofs.Subscriptions.Deliveries

/-!
What the subscribers of a table's columns are told of the change of one row. A subscriber of a
column is told of each value of the column that the change affects, once for every index by
which the column is looked up, and of nothing else. So it is told once of each exactly where
no affected column that someone has subscribed to is looked up by two indices.
-/

namespace RelationalAccess

/-- A pair of the one who is told and of what it is told. -/
abbrev Delivery := Subscription × IndexChange

namespace Subscriptions

variable {alive : Nat → Bool} {subscriptions : Subscriptions}

/-- Pruning leaves those who are alive. -/
theorem live_prune (alive : Nat → Bool) (subscriptions : Subscriptions) (event other : String) :
    (subscriptions.prune alive event).live alive other = subscriptions.live alive other := by
  rw [live, listed_prune]
  by_cases same : other = event
  · rw [if_pos same, same, live, List.filter_filter]
    simp
  · rw [if_neg same]
    rfl

end Subscriptions

namespace Announcement

variable {alive : Nat → Bool} {succeeds : Subscription → IndexChange → Bool}

/-- A handler that takes down what its subscriber is told, and succeeds or fails. -/
def takeDown (succeeds : Subscription → IndexChange → Bool) (change : IndexChange)
    (subscription : Subscription) : StateM (Subscriptions × List Delivery) Bool :=
  fun (subscriptions, deliveries) =>
    (succeeds subscription change, subscriptions, deliveries ++ [(subscription, change)])

/-- Announcements dispatched one after another to handlers that take down what they are told. -/
def deliver (alive : Nat → Bool) (succeeds : Subscription → IndexChange → Bool) :
    List Announcement → StateM (Subscriptions × List Delivery) Unit
  | [] => return ()
  | first :: others => do
    let _ ← Subscriptions.dispatch alive first.change.column (takeDown succeeds first.change)
    deliver alive succeeds others

/-- All that is taken down of some announcements. -/
def deliveries (alive : Nat → Bool) (succeeds : Subscription → IndexChange → Bool)
    (subscriptions : Subscriptions) (announcements : List Announcement) : List Delivery :=
  (deliver alive succeeds announcements (subscriptions, [])).2.2

private theorem afterCalls_takeDown (change : IndexChange) (called : List Subscription)
    (subscriptions : Subscriptions) (taken : List Delivery) :
    Subscriptions.afterCalls (takeDown succeeds change) (subscriptions, taken) called =
      (subscriptions, taken ++ called.map (·, change)) := by
  induction called generalizing taken with
  | nil => simp [Subscriptions.afterCalls]
  | cons subscription others inductionHypothesis =>
    have rest := inductionHypothesis (taken ++ [(subscription, change)])
    rw [List.append_assoc] at rest
    exact rest

private theorem deliver_eq {subscriptions left : Subscriptions} (taken : List Delivery)
    (announcements : List Announcement)
    (same : ∀ event, left.live alive event = subscriptions.live alive event) :
    (deliver alive succeeds announcements (left, taken)).2.2 =
      taken ++ announcements.flatMap fun announcement =>
        (subscriptions.live alive announcement.change.column).map (·, announcement.change) := by
  induction announcements generalizing left taken with
  | nil =>
    rw [List.flatMap_nil, List.append_nil]
    rfl
  | cons first others inductionHypothesis =>
    obtain ⟨outcomes, last, calls, dispatched⟩ := Subscriptions.dispatch_calls alive
      first.change.column (takeDown succeeds first.change) left taken
    have after := calls.last_eq
    rw [afterCalls_takeDown, same] at after
    have step : deliver alive succeeds (first :: others) (left, taken) =
        deliver alive succeeds others last := by
      show deliver alive succeeds others (Subscriptions.dispatch alive first.change.column
        (takeDown succeeds first.change) (left, taken)).2 = _
      rw [dispatched]
    rw [step, after, inductionHypothesis, List.append_assoc, List.flatMap_cons]
    intro event
    rw [Subscriptions.live_prune, same]

/-- Each announcement reaches those who live with a subscription to its column, in turn. -/
theorem deliveries_eq (alive : Nat → Bool) (succeeds : Subscription → IndexChange → Bool)
    (subscriptions : Subscriptions) (announcements : List Announcement) :
    deliveries alive succeeds subscriptions announcements =
      announcements.flatMap fun announcement =>
        (subscriptions.live alive announcement.change.column).map (·, announcement.change) :=
  deliver_eq [] announcements fun _ => rfl

end Announcement

/-- A change of one row affects a value of a column: the row had the value and has it no longer,
or has it now. Nothing is looked up by null. -/
def Affects (before after : Option Row) (column : Nat) (value : Value) : Prop :=
  value ≠ .null ∧ before.bind (·.at? column) ≠ after.bind (·.at? column) ∧
    (before.bind (·.at? column) = some value ∨ after.bind (·.at? column) = some value)

namespace TableCache

theorem mem_touchedValues {before after : Option Row} {column : Nat} {value : Value} :
    value ∈ touchedValues before after column ↔ Affects before after column value := by
  have present : value.isNull = false ↔ value ≠ .null := by
    rw [← Bool.not_eq_true, Value.isNull_iff]
  unfold touchedValues Affects
  dsimp only
  by_cases same : before.bind (·.at? column) = after.bind (·.at? column)
  · simp [same]
  · simp [same, present, and_comm, and_or_left]

theorem nodup_touchedValues (before after : Option Row) (column : Nat) :
    (touchedValues before after column).Nodup := by
  unfold touchedValues
  dsimp only
  by_cases same : before.bind (·.at? column) = after.bind (·.at? column)
  · rw [if_pos same]
    exact List.nodup_nil
  · rw [if_neg same]
    apply List.Nodup.filter
    cases old : before.bind (·.at? column) with
    | none => cases after.bind (·.at? column) <;> simp
    | some first =>
      cases new : after.bind (·.at? column) with
      | none => simp
      | some second =>
        rw [old, new] at same
        simpa using same

section

variable (alive : Nat → Bool) (cache : TableCache)

/-- What is told of one value of a column, to each who lives with a subscription to the column. -/
def toldOf (column : Nat) (value : Value) : List Delivery :=
  match cache.table.columns[column]? with
  | none => []
  | some definition =>
    (cache.subscriptions.live alive definition.name).map
      (·, { table := cache.table.name, column := definition.name, value })

/-- What a change tells of one column. -/
def toldOfColumn (before after : Option Row) (column : Nat) : List Delivery :=
  (touchedValues before after column).flatMap (cache.toldOf alive column)

/-- All that the subscribers of a table are told of a change, where their handlers take it down. -/
def told (succeeds : Subscription → IndexChange → Bool) (before after : Option Row) :
    List Delivery :=
  Announcement.deliveries alive succeeds cache.subscriptions (cache.applyChange before after).1

/-- A change is told column by column, as often as a column is looked up by an index. -/
theorem told_eq (succeeds : Subscription → IndexChange → Bool) (before after : Option Row) :
    cache.told alive succeeds before after =
      cache.table.lookupColumns.flatMap (cache.toldOfColumn alive before after) := by
  have announced (touched : Nat × Value) :
      ((((cache.applyChange before after).2.announce touched.1 touched.2).toList.flatMap
        fun announcement => (cache.subscriptions.live alive announcement.change.column).map
          (·, announcement.change))) = cache.toldOf alive touched.1 touched.2 := by
    rw [announce, applyChange_table, toldOf]
    cases cache.table.columns[touched.1]? with
    | none => rfl
    | some definition => simp
  have announcements : (cache.applyChange before after).1 =
      (touched cache.table before after).filterMap fun touched =>
        (cache.applyChange before after).2.announce touched.1 touched.2 := rfl
  rw [told, Announcement.deliveries_eq, announcements, List.filterMap_eq_flatMap_toList,
    List.flatMap_assoc]
  simp only [announced, touched, List.flatMap_assoc, List.flatMap_map]
  rfl

variable {alive} {cache} {succeeds : Subscription → IndexChange → Bool} {before after : Option Row}

/-- Told of a column are those who live with a subscription to it, of each value that is affected. -/
theorem mem_toldOfColumn {column : Nat} {subscription : Subscription} {change : IndexChange} :
    (subscription, change) ∈ cache.toldOfColumn alive before after column ↔
      ∃ definition, cache.table.columns[column]? = some definition ∧
        subscription ∈ cache.subscriptions.live alive definition.name ∧
        Affects before after column change.value ∧
        change = { table := cache.table.name, column := definition.name, value := change.value } := by
  rw [toldOfColumn, List.mem_flatMap]
  constructor
  · rintro ⟨value, isTouched, isTold⟩
    unfold toldOf at isTold
    split at isTold
    · cases isTold
    · next definition found =>
      obtain ⟨_, isLive, same⟩ := List.mem_map.mp isTold
      obtain ⟨rfl, rfl⟩ := Prod.mk.inj same
      exact ⟨definition, found, isLive, mem_touchedValues.mp isTouched, rfl⟩
  · rintro ⟨definition, found, isLive, affects, isOf⟩
    refine ⟨change.value, mem_touchedValues.mpr affects, ?_⟩
    rw [toldOf, found]
    apply List.mem_map.mpr
    exact ⟨subscription, isLive, congrArg _ isOf.symm⟩

/-- No one is told of one value of a column twice by one index. -/
theorem nodup_toldOfColumn (distinct : ∀ event, (cache.subscriptions.live alive event).Nodup)
    (column : Nat) : (cache.toldOfColumn alive before after column).Nodup := by
  rw [toldOfColumn, List.nodup_flatMap]
  constructor
  · intro value _
    unfold toldOf
    split
    · exact List.nodup_nil
    · next definition found =>
      apply (distinct definition.name).map
      intro first second same
      exact (Prod.mk.inj same).1
  · apply (nodup_touchedValues before after column).imp
    intro first second differ delivery ofFirst ofSecond
    unfold toldOf at ofFirst ofSecond
    split at ofFirst
    · cases ofFirst
    · next definition found =>
      rw [found] at ofSecond
      obtain ⟨_, _, rfl⟩ := List.mem_map.mp ofFirst
      obtain ⟨_, _, same⟩ := List.mem_map.mp ofSecond
      exact differ (congrArg (·.2.value) same).symm

/-- Who lives with a subscription to a column is told of a value that a change affects as many
times as there are indices by which the column is looked up. -/
theorem count_told (distinct : ∀ event, (cache.subscriptions.live alive event).Nodup)
    (names : (cache.table.columns.map (·.name)).Nodup) {column : Nat} {definition : Column}
    (found : cache.table.columns[column]? = some definition) {subscription : Subscription}
    (isLive : subscription ∈ cache.subscriptions.live alive definition.name) {value : Value}
    (affects : Affects before after column value) :
    (cache.told alive succeeds before after).count
        (subscription, { table := cache.table.name, column := definition.name, value }) =
      cache.table.lookupColumns.count column := by
  rw [told_eq]
  apply count_flatMap_of_alone
  · apply List.count_eq_one_of_mem (nodup_toldOfColumn distinct column)
    exact mem_toldOfColumn.mpr ⟨definition, found, isLive, affects, rfl⟩
  · intro other apart
    apply List.count_eq_zero_of_not_mem
    intro isTold
    obtain ⟨otherDefinition, foundOther, _, _, same⟩ := mem_toldOfColumn.mp isTold
    have sameName : definition.name = otherDefinition.name := congrArg IndexChange.column same
    apply apart
    have inside : other < (cache.table.columns.map (·.name)).length := by
      simpa using (List.getElem?_eq_some_iff.mp foundOther).1
    refine (List.getElem?_inj inside names).mp ?_
    rw [List.getElem?_map, List.getElem?_map, found, foundOther, Option.map_some, Option.map_some,
      sameName]

end

/-- The subscribers of each column by which rows are looked up are told of the values that a
change affects, once of each, and of nothing else. -/
structure TellsOnce (alive : Nat → Bool) (succeeds : Subscription → IndexChange → Bool)
    (cache : TableCache) (before after : Option Row) : Prop where
  once : ∀ column ∈ cache.table.lookupColumns, ∀ definition,
    cache.table.columns[column]? = some definition →
      ∀ subscription ∈ cache.subscriptions.live alive definition.name,
        ∀ value, Affects before after column value →
          (cache.told alive succeeds before after).count
            (subscription, { table := cache.table.name, column := definition.name, value }) = 1
  nothingElse : ∀ subscription change,
    (subscription, change) ∈ cache.told alive succeeds before after →
      ∃ column ∈ cache.table.lookupColumns, ∃ definition,
        cache.table.columns[column]? = some definition ∧
        subscription ∈ cache.subscriptions.live alive definition.name ∧
        Affects before after column change.value ∧
        change = { table := cache.table.name, column := definition.name, value := change.value }

/-- The subscribers of a table of a built database are told of a change as they should be if and
only if no column of which they are told is looked up by two indices or more. -/
theorem tellsOnce_iff {draft : DatabaseDraft} {database : Database}
    (built : draft.build = .ok database) {cache : TableCache} (isTable : cache.table ∈ database.tables)
    {history : History} (runs : Subscriptions.Runs ({}, []) (cache.subscriptions, history))
    (succeeds : Subscription → IndexChange → Bool) (before after : Option Row) :
    cache.TellsOnce history.alive succeeds before after ↔
      ∀ column ∈ cache.table.lookupColumns, ∀ definition,
        cache.table.columns[column]? = some definition →
          cache.subscriptions.live history.alive definition.name ≠ [] →
            (∃ value, Affects before after column value) →
              cache.table.lookupColumns.count column = 1 := by
  obtain ⟨place, shaped⟩ := DatabaseDraft.shaped_of_mem built isTable
  have distinct : ∀ event, (cache.subscriptions.live history.alive event).Nodup := by
    intro event
    rw [(runs.follows .empty).live]
    exact History.nodup_standing event history
  constructor
  · intro tells column isLookup definition found someone affected
    obtain ⟨subscription, isLive⟩ := List.exists_mem_of_ne_nil _ someone
    obtain ⟨value, affects⟩ := affected
    rw [← tells.once column isLookup definition found subscription isLive value affects]
    exact (count_told distinct shaped.columnNames found isLive affects).symm
  · intro alone
    constructor
    · intro column isLookup definition found subscription isLive value affects
      rw [count_told distinct shaped.columnNames found isLive affects]
      exact alone column isLookup definition found (List.ne_nil_of_mem isLive) ⟨value, affects⟩
    · intro subscription change isTold
      rw [told_eq] at isTold
      obtain ⟨column, isLookup, isTold⟩ := List.mem_flatMap.mp isTold
      exact ⟨column, isLookup, mem_toldOfColumn.mp isTold⟩

end TableCache

/-- Items sorted into groups that are looked up by two indices, and into prices by one. -/
def pricedItemsDraft : TableDraft where
  name := "items"
  columns :=
    [{ name := "id", host := .int64, primaryKey := true }, { name := "grp", host := .int64 },
     { name := "price", host := .int64 }]
  indices :=
    [{ name := "ix_grp", columns := ["grp"] }, { name := "ux_grp", columns := ["grp"], unique := true },
     { name := "ix_price", columns := ["price"] }]

def pricedItems : Table := (pricedItemsDraft.table 0).resolve

def pricedApp : Database where
  name := "app"
  modelType := "app"
  tables := [pricedItems]
  relations := []
  settings := CacheSettings.withDefaults {}

def pricedItem (identity : Nat) (group price : Int64) : Row where
  identity := identity
  table := pricedItems
  values := [.int 1, .int group, .int price]

/-- One subscriber notes what it is told of groups and of prices. -/
def noting : Subscription := ⟨some ⟨0, 7⟩, "note"⟩

def notingHistory : History :=
  [.subscribes "price" noting, .subscribes "grp" noting, .arrives ⟨0, 7⟩]

def notedItems : TableCache :=
  { TableCache.new pricedItems {} with
    subscriptions := ⟨[("price", [noting]), ("grp", [noting])]⟩ }

namespace TableCache

theorem notedItems_runs : Subscriptions.Runs ({}, []) (notedItems.subscriptions, notingHistory) := by
  have arrived := (Subscriptions.Runs.stays ({}, [])).arrives ⟨0, 7⟩ (by simp) (by simp [History.living])
  have noted := arrived.subscribes "grp" noting (by simp [History.Callable, History.living, noting])
  exact noted.subscribes "price" noting (by simp [History.Callable, History.living, noting])

/-- An item of group 7 that comes is told of twice to the subscriber of the groups. -/
theorem newItem_not_tellsOnce :
    ({ name := "app", tables := [pricedItemsDraft] } : DatabaseDraft).build = .ok pricedApp ∧
      Subscriptions.Runs ({}, []) (notedItems.subscriptions, notingHistory) ∧
      (notedItems.told notingHistory.alive (fun _ _ => true) none (some (pricedItem 0 7 5))).count
        (noting, { table := "items", column := "grp", value := .int 7 }) = 2 ∧
      ¬ notedItems.TellsOnce notingHistory.alive (fun _ _ => true) none (some (pricedItem 0 7 5)) := by
  have twice : (notedItems.told notingHistory.alive (fun _ _ => true) none
      (some (pricedItem 0 7 5))).count
        (noting, { table := "items", column := "grp", value := .int 7 }) = 2 := by decide
  refine ⟨rfl, notedItems_runs, twice, fun tells => ?_⟩
  have once := tells.once 1 (by decide) _ rfl noting (by decide) (.int 7) ⟨nofun, nofun, .inr rfl⟩
  exact absurd (once.symm.trans twice) (by decide)

/-- A new price is told as it should be, as the item keeps its group; a new item is not. -/
theorem tellsOnce_iff_pricedItems :
    ({ name := "app", tables := [pricedItemsDraft] } : DatabaseDraft).build = .ok pricedApp ∧
      notedItems.table ∈ pricedApp.tables ∧
      Subscriptions.Runs ({}, []) (notedItems.subscriptions, notingHistory) ∧
      notedItems.TellsOnce notingHistory.alive (fun _ _ => true) (some (pricedItem 0 7 5))
        (some (pricedItem 1 7 6)) ∧
      ¬ notedItems.TellsOnce notingHistory.alive (fun _ _ => true) none (some (pricedItem 0 7 5)) := by
  have built : ({ name := "app", tables := [pricedItemsDraft] } : DatabaseDraft).build =
      .ok pricedApp := rfl
  have isTable : notedItems.table ∈ pricedApp.tables := List.mem_singleton.mpr rfl
  refine ⟨built, isTable, notedItems_runs, ?_, fun tells => ?_⟩
  · apply (tellsOnce_iff built isTable notedItems_runs _ _ _).mpr
    intro column isLookup definition found _ affected
    have places : column = 1 ∨ column = 2 := by
      have isOne : column ∈ [1, 1, 2] := isLookup
      simpa using isOne
    rcases places with rfl | rfl
    · obtain ⟨value, _, differ, _⟩ := affected
      exact absurd rfl differ
    · rfl
  · have alone := (tellsOnce_iff built isTable notedItems_runs _ _ _).mp tells 1 (by decide) _ rfl
      (by decide) ⟨.int 7, nofun, nofun, .inr rfl⟩
    exact absurd alone (by decide)

end TableCache

end RelationalAccess
