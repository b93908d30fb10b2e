import Mathlib.Data.List.Nodup
import RelationalAccess.Proofs.Cache.Loading

/-!
Sources that answer from the rows that the world holds of a table: with every
row asked for, in any order, and without a hand on the cache.
-/

namespace RelationalAccess

/-- The keys of the rows that have a value in a column. -/
def Table.keysWith (table : Table) (rows : List (List Value)) (column : Nat) (value : Value) :
    List Keys :=
  (rows.filter fun row => row.getD column .null = value).map table.keysOf

/-- Rows of a table that have the values of some stored rows, in any order. -/
structure Table.Loaded (table : Table) (loaded : List Row) (stored : List (List Value)) : Prop where
  table : ∀ row ∈ loaded, row.table = table
  values : (loaded.map Row.values).Perm stored

namespace Table

/-- Loaded rows have the keys of the stored ones. -/
theorem Loaded.keys {table : Table} {loaded : List Row} {stored : List (List Value)}
    (holds : table.Loaded loaded stored) : (loaded.map Row.keys).Perm (stored.map table.keysOf) := by
  have named : loaded.map Row.keys = (loaded.map Row.values).map table.keysOf := by
    rw [List.map_map]
    refine List.map_congr_left fun row membership => ?_
    rw [Row.keys, holds.table row membership]
    rfl
  rw [named]
  exact holds.values.map _

/-- A table has a row: the row is of the table, and its values are stored. -/
structure Has (table : Table) (rows : List (List Value)) (row : Row) : Prop where
  sameTable : row.table = table
  stored : row.values ∈ rows

theorem Has.keys {table : Table} {rows : List (List Value)} {row : Row} (has : table.Has rows row) :
    row.keys = table.keysOf row.values := by
  rw [Row.keys, has.sameTable]

theorem Loaded.mem {table : Table} {loaded : List Row} {stored : List (List Value)}
    (holds : table.Loaded loaded stored) {row : Row} (membership : row ∈ loaded) :
    row.values ∈ stored :=
  holds.values.mem_iff.mp (List.mem_map_of_mem membership)

theorem Loaded.has {table : Table} {loaded : List Row} {rows : List (List Value)}
    {wanted : List Value → Bool} (holds : table.Loaded loaded (rows.filter wanted)) {row : Row}
    (membership : row ∈ loaded) : table.Has rows row :=
  ⟨holds.table row membership, (List.mem_filter.mp (holds.mem membership)).1⟩

end Table

/-- A source that never fails, leaves the cache alone, and answers from the rows that
the world holds, which it leaves alone as well. -/
structure RowSource.Honest {World : Type} (source : RowSource World) (table : Table)
    (rows : World → List (List Value)) : Prop where
  rowsByKeys : ∀ keys cache world, ∃ loaded world',
    source.rowsByKeys keys (cache, world) = (.ok loaded, cache, world') ∧ rows world' = rows world ∧
      table.Loaded loaded ((rows world).filter fun row => keys.contains (table.keysOf row))
  keysByValue : ∀ column value cache world, ∃ keys world',
    source.keysByValue column value (cache, world) = (.ok keys, cache, world') ∧
      rows world' = rows world ∧ keys.Perm (table.keysWith (rows world) column value)
  rowsByValue : ∀ column value cache world, ∃ loaded world',
    source.rowsByValue column value (cache, world) = (.ok loaded, cache, world') ∧
      rows world' = rows world ∧
      table.Loaded loaded ((rows world).filter fun row => row.getD column .null = value)

namespace RowSource.Honest

variable {World : Type} {source : RowSource World} {table : Table}
  {rows : World → List (List Value)} (condition : TableCache → List (List Value) → Prop)

theorem rowsByKeys_leads (honest : source.Honest table rows) (keys : List Keys) :
    Leads (fun state => condition state.1 (rows state.2)) (source.rowsByKeys keys)
      (fun loaded state => condition state.1 (rows state.2) ∧
        table.Loaded loaded ((rows state.2).filter fun row => keys.contains (table.keysOf row)))
      Never := by
  rintro ⟨cache, world⟩ holds
  obtain ⟨loaded, world', answered, same, answer⟩ := honest.rowsByKeys keys cache world
  rw [answered]
  exact ⟨same ▸ holds, same ▸ answer⟩

theorem keysByValue_leads (honest : source.Honest table rows) (column : Nat) (value : Value) :
    Leads (fun state => condition state.1 (rows state.2)) (source.keysByValue column value)
      (fun keys state => condition state.1 (rows state.2) ∧
        keys.Perm (table.keysWith (rows state.2) column value))
      Never := by
  rintro ⟨cache, world⟩ holds
  obtain ⟨keys, world', answered, same, answer⟩ := honest.keysByValue column value cache world
  rw [answered]
  exact ⟨same ▸ holds, same ▸ answer⟩

theorem rowsByValue_leads (honest : source.Honest table rows) (column : Nat) (value : Value) :
    Leads (fun state => condition state.1 (rows state.2)) (source.rowsByValue column value)
      (fun loaded state => condition state.1 (rows state.2) ∧
        table.Loaded loaded ((rows state.2).filter fun row => row.getD column .null = value))
      Never := by
  rintro ⟨cache, world⟩ holds
  obtain ⟨loaded, world', answered, same, answer⟩ := honest.rowsByValue column value cache world
  rw [answered]
  exact ⟨same ▸ holds, same ▸ answer⟩

end RowSource.Honest

/-- The rows that a change of one leaves alone: those with other keys than the row
before it. -/
def Table.untouched (table : Table) (before : Option Row) (rows : List (List Value)) :
    List (List Value) :=
  rows.filter fun row => some (table.keysOf row) ≠ before.map Row.keys

/-- The rows of a table after a change of one. -/
def Table.exchange (table : Table) (before after : Option Row) (rows : List (List Value)) :
    List (List Value) :=
  table.untouched before rows ++ (after.map Row.values).toList

/-- The images of a change of one row are true: the row before it is there, and no
other row has the keys of the row after it. -/
structure Table.TrueImages (table : Table) (rows : List (List Value)) (before after : Option Row) :
    Prop where
  stored : ∀ old, before = some old → old.table = table ∧ old.values ∈ rows
  unused : ∀ new, after = some new → new.table = table ∧
    ∀ row ∈ rows, table.keysOf row = new.keys → some (table.keysOf row) = before.map Row.keys

/-- No two rows have the same keys. -/
def Table.DistinctKeys (table : Table) (rows : List (List Value)) : Prop :=
  (rows.map table.keysOf).Nodup

namespace Table

variable {table : Table} {rows : List (List Value)} {before after : Option Row}

theorem mem_exchange {values : List Value} (membership : values ∈ rows)
    (apart : some (table.keysOf values) ≠ before.map Row.keys) :
    values ∈ table.exchange before after rows :=
  List.mem_append_left _ (List.mem_filter.mpr ⟨membership, decide_eq_true apart⟩)

theorem TrueImages.inserted {new : Row} (sameTable : new.table = table)
    (unused : ∀ row ∈ rows, table.keysOf row ≠ new.keys) :
    table.TrueImages rows none (some new) where
  stored _ isOld := by cases isOld
  unused other isNew := by
    cases isNew
    exact ⟨sameTable, fun row membership same => absurd same (unused row membership)⟩

theorem DistinctKeys.exchange (distinct : table.DistinctKeys rows)
    (images : table.TrueImages rows before after) :
    table.DistinctKeys (table.exchange before after rows) := by
  rw [DistinctKeys, Table.exchange, List.map_append, List.nodup_append]
  refine ⟨distinct.sublist (List.filter_sublist.map _), ?_, ?_⟩
  · cases after <;> simp
  · intro keys kept other brought same
    subst same
    obtain ⟨row, membership, rowKeys⟩ := List.mem_map.mp kept
    obtain ⟨stored, differs⟩ := List.mem_filter.mp membership
    obtain ⟨values, isAfter, newKeys⟩ := List.mem_map.mp brought
    rw [Option.mem_toList, Option.map_eq_some_iff] at isAfter
    obtain ⟨new, isNew, newValues⟩ := isAfter
    obtain ⟨sameTable, unused⟩ := images.unused new isNew
    have sameKeys : table.keysOf row = new.keys := by
      rw [rowKeys, ← newKeys, ← newValues, Row.keys, sameTable]
    exact of_decide_eq_true differs (unused row stored sameKeys)

/-- Of rows with distinct keys no two have the same. -/
theorem DistinctKeys.eq_of_keysOf (distinct : table.DistinctKeys rows) {first second : List Value}
    (isFirst : first ∈ rows) (isSecond : second ∈ rows)
    (same : table.keysOf first = table.keysOf second) : first = second :=
  List.inj_on_of_nodup_map distinct isFirst isSecond same

/-- Of rows with distinct keys one alone has the keys of a row among them. -/
theorem DistinctKeys.filter_keysOf (distinct : table.DistinctKeys rows) {values : List Value}
    (membership : values ∈ rows) :
    (rows.filter fun row => table.keysOf row = table.keysOf values) = [values] := by
  induction rows with
  | nil => cases membership
  | cons first others inductionHypothesis =>
    obtain ⟨fresh, rest⟩ := List.nodup_cons.mp distinct
    rcases List.mem_cons.mp membership with same | later
    · subst same
      have noneElse : (others.filter fun row => table.keysOf row = table.keysOf values) = [] := by
        refine List.filter_eq_nil_iff.mpr fun row found same => ?_
        exact fresh (List.mem_map.mpr ⟨row, found, of_decide_eq_true same⟩)
      rw [List.filter_cons_of_pos (by simp), noneElse]
    · have differ : table.keysOf first ≠ table.keysOf values := fun same =>
        fresh (List.mem_map.mpr ⟨values, later, same.symm⟩)
      rw [List.filter_cons_of_neg (by simpa using differ)]
      exact inductionHypothesis rest later

/-- Of rows with distinct keys, those that are loaded have distinct keys. -/
theorem DistinctKeys.nodup_loaded (distinct : table.DistinctKeys rows)
    {wanted : List Value → Bool} {loaded : List Row}
    (isLoaded : table.Loaded loaded (rows.filter wanted)) : (loaded.map Row.keys).Nodup :=
  isLoaded.keys.nodup_iff.mpr (distinct.sublist (List.filter_sublist.map _))

/-- Rows that the table has, by the keys of those that have a value in a column, are just
the ones with the value. -/
theorem DistinctKeys.loaded (distinct : table.DistinctKeys rows) {found : List Row} {column : Nat}
    {value : Value} (has : ∀ row ∈ found, table.Has rows row)
    (named : (found.map Row.keys).Perm (table.keysWith rows column value)) :
    table.Loaded found (rows.filter fun row => row.getD column .null = value) where
  table row membership := (has row membership).sameTable
  values := by
    have within : (rows.filter fun row => row.getD column .null = value).Sublist rows :=
      List.filter_sublist
    have keys : (found.map Row.values).map table.keysOf = found.map Row.keys := by
      rw [List.map_map]
      exact List.map_congr_left fun row membership => (has row membership).keys.symm
    have keysDistinct : (table.keysWith rows column value).Nodup := distinct.sublist (within.map _)
    have foundDistinct : (found.map Row.values).Nodup := by
      refine List.Nodup.of_map table.keysOf ?_
      rw [keys]
      exact named.nodup_iff.mpr keysDistinct
    refine (List.perm_ext_iff_of_nodup foundDistinct (List.Nodup.of_map _ keysDistinct)).mpr ?_
    intro values
    constructor
    · intro isFound
      obtain ⟨row, membership, rfl⟩ := List.mem_map.mp isFound
      have isNamed : row.keys ∈ table.keysWith rows column value :=
        named.mem_iff.mp (List.mem_map_of_mem membership)
      obtain ⟨other, matching, sameKeys⟩ := List.mem_map.mp isNamed
      have here := has row membership
      rw [here.keys] at sameKeys
      exact distinct.eq_of_keysOf (within.mem matching) here.stored sameKeys ▸ matching
    · intro matching
      have isNamed : table.keysOf values ∈ found.map Row.keys :=
        named.mem_iff.mpr (List.mem_map_of_mem matching)
      obtain ⟨row, membership, sameKeys⟩ := List.mem_map.mp isNamed
      have here := has row membership
      rw [here.keys] at sameKeys
      rw [← distinct.eq_of_keysOf here.stored (within.mem matching) sameKeys]
      exact List.mem_map_of_mem membership

theorem TrueImages.perm (images : table.TrueImages rows before after)
    (distinct : table.DistinctKeys rows) :
    rows.Perm (table.untouched before rows ++ (before.map Row.values).toList) := by
  cases before with
  | none =>
    have all : table.untouched none rows = rows := List.filter_eq_self.mpr (by simp)
    simp [all]
  | some old =>
    obtain ⟨sameTable, membership⟩ := images.stored old rfl
    have alone : (rows.filter fun row => !decide (some (table.keysOf row) ≠ some old.keys)) =
        [old.values] := by
      rw [← distinct.filter_keysOf membership]
      refine List.filter_congr fun row _ => ?_
      rw [Row.keys, sameTable]
      simp
    have split := (List.filter_append_perm
      (fun row => decide (some (table.keysOf row) ≠ some old.keys)) rows).symm
    rw [alone] at split
    exact split

theorem keysWith_append (first second : List (List Value)) (column : Nat) (value : Value) :
    table.keysWith (first ++ second) column value =
      table.keysWith first column value ++ table.keysWith second column value := by
  rw [keysWith, List.filter_append, List.map_append]
  rfl

theorem keysWith_perm {first second : List (List Value)} (same : first.Perm second) (column : Nat)
    (value : Value) :
    (table.keysWith first column value).Perm (table.keysWith second column value) :=
  (same.filter _).map _

/-- A value that is not null stands in the column of a row if the row has the column. -/
theorem getD_eq_iff {row : Row} {column : Nat} {value : Value} (notNull : value ≠ .null) :
    row.values.getD column .null = value ↔ row.at? column = some value := by
  rw [Row.at?, List.getD_eq_getElem?_getD]
  cases row.values[column]? with
  | none => simpa using Ne.symm notNull
  | some present => simp

/-- The keys of one image of a change, where it has a value in a column. -/
theorem keysWith_image {image : Option Row} (sameTable : ∀ row, image = some row → row.table = table)
    (column : Nat) {value : Value} (notNull : value ≠ .null) :
    table.keysWith (image.map Row.values).toList column value =
      (if image.bind (·.at? column) = some value then image.map Row.keys else none).toList := by
  cases image with
  | none => simp [keysWith]
  | some row =>
    have named : row.keys = table.keysOf row.values := by rw [Row.keys, sameTable row rfl]
    have found : row.values.getD column .null = value ↔ row.at? column = some value :=
      getD_eq_iff notNull
    show table.keysWith [row.values] column value =
      (if row.at? column = some value then some row.keys else none).toList
    by_cases here : row.at? column = some value
    · have holds : decide (row.values.getD column .null = value) = true :=
        decide_eq_true (found.mpr here)
      simp only [keysWith, List.filter_cons, holds, here, named]
      rfl
    · have fails : decide (row.values.getD column .null = value) = false :=
        decide_eq_false fun same => here (found.mp same)
      simp only [keysWith, List.filter_cons, fails, here]
      rfl

end Table

/-- Items with a key, in groups by which they are looked up. -/
def groupedItems : Table where
  id := 0
  name := "items"
  model := "items"
  columns :=
    [{ table := 0, position := 0, name := "id", declared := [], nullable := false,
       autoIncrement := false, primaryKey := true, property := "id", host := .int64,
       defaultValue := none },
     { table := 0, position := 1, name := "grp", declared := [], nullable := false,
       autoIncrement := false, primaryKey := false, property := "grp", host := .int64,
       defaultValue := none }]
  primaryKeys := [0]
  indices :=
    [{ name := "pk_items", table := 0, columns := [0], kind := .primaryKey },
     { name := "ix_grp", table := 0, columns := [1], kind := .plain }]
  useCache := true

/-- An item of a group. -/
def groupedItem (key group : Int64) : Row :=
  { identity := 0, table := groupedItems, values := [.int key, .int group] }

end RelationalAccess
