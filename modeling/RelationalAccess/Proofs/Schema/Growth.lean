import RelationalAccess.Proofs.Lists
import RelationalAccess.Schema.Build

/-!
Linking and resolving only add to tables: marks and types to columns, parts to indices, and
indices behind those there are. What a table says of its columns, and an index of the columns
it is on, stays as it was.
-/

namespace RelationalAccess

/-- A column without what linking and resolving add to it. -/
def Column.bare (column : Column) : Column := { column with foreignKey := false, resolved := [] }

/-- An index on the same columns as before, and a primary key only if it was one. -/
structure Index.Grown (old new : Index) : Prop where
  table : new.table = old.table
  columns : new.columns = old.columns
  key : new.kind = .primaryKey ↔ old.kind = .primaryKey

/-- An index that may stand behind those of a table. -/
structure Table.Admits (owner : Table) (index : Index) : Prop where
  table : index.table = owner.id
  columns : ∀ column ∈ index.columns, column < owner.columns.length
  kind : index.kind ≠ .primaryKey

/-- A table to which nothing but marks, types, parts and indices has been added. -/
structure Table.Grown (old new : Table) : Prop where
  id : new.id = old.id
  name : new.name = old.name
  model : new.model = old.model
  primaryKeys : new.primaryKeys = old.primaryKeys
  columns : new.columns.map Column.bare = old.columns.map Column.bare
  kept : ∀ (position : Nat) (index : Index), old.indices[position]? = some index →
    ∃ grown, new.indices[position]? = some grown ∧ index.Grown grown
  added : ∀ (position : Nat) (index : Index), new.indices[position]? = some index →
    old.indices.length ≤ position → old.Admits index

namespace Index.Grown

variable {old middle new : Index}

theorem refl (index : Index) : index.Grown index := ⟨rfl, rfl, Iff.rfl⟩

theorem trans (first : old.Grown middle) (second : middle.Grown new) : old.Grown new where
  table := second.table.trans first.table
  columns := second.columns.trans first.columns
  key := second.key.trans first.key

end Index.Grown

namespace Table

variable {old middle new table : Table}

theorem Grown.length (grown : old.Grown new) : new.columns.length = old.columns.length := by
  simpa using congrArg List.length grown.columns

/-- A column of a table that has grown, as it was before. -/
theorem Grown.column (grown : old.Grown new) {position : Nat} {column : Column}
    (found : new.columns[position]? = some column) :
    ∃ before, old.columns[position]? = some before ∧ column.bare = before.bare := by
  have same := congrArg (·[position]?) grown.columns
  simp only [List.getElem?_map, found, Option.map_some] at same
  obtain ⟨before, wasThere, isBare⟩ := Option.map_eq_some_iff.mp same.symm
  exact ⟨before, wasThere, isBare.symm⟩

/-- An index of a table that has grown stood there before, or is one that may stand behind. -/
theorem Grown.index (grown : old.Grown new) {position : Nat} {index : Index}
    (found : new.indices[position]? = some index) :
    (∃ before, old.indices[position]? = some before ∧ before.Grown index) ∨
      (old.indices.length ≤ position ∧ old.Admits index) := by
  rcases Nat.lt_or_ge position old.indices.length with inside | behind
  · left
    have wasThere := List.getElem?_eq_getElem inside
    obtain ⟨after, isThere, isGrown⟩ := grown.kept _ _ wasThere
    obtain rfl := Option.some.inj (isThere.symm.trans found)
    exact ⟨_, wasThere, isGrown⟩
  · exact Or.inr ⟨behind, grown.added _ _ found behind⟩

theorem Grown.refl (table : Table) : table.Grown table where
  id := rfl
  name := rfl
  model := rfl
  primaryKeys := rfl
  columns := rfl
  kept _ index found := ⟨index, found, .refl index⟩
  added position _ found behind := by
    rw [List.getElem?_eq_none behind] at found
    cases found

theorem Admits.of_grown {index : Index} (grown : old.Grown new) (admits : new.Admits index) :
    old.Admits index where
  table := admits.table.trans grown.id
  columns column membership := grown.length ▸ admits.columns column membership
  kind := admits.kind

theorem Grown.trans (first : old.Grown middle) (second : middle.Grown new) : old.Grown new where
  id := second.id.trans first.id
  name := second.name.trans first.name
  model := second.model.trans first.model
  primaryKeys := second.primaryKeys.trans first.primaryKeys
  columns := second.columns.trans first.columns
  kept position index found := by
    obtain ⟨between, foundBetween, grownOnce⟩ := first.kept position index found
    obtain ⟨after, foundAfter, grownTwice⟩ := second.kept position between foundBetween
    exact ⟨after, foundAfter, grownOnce.trans grownTwice⟩
  added position index found behind := by
    rcases second.index found with ⟨between, foundBetween, isGrown⟩ | ⟨_, admits⟩
    · have admits := first.added position between foundBetween behind
      exact
        { table := isGrown.table.trans admits.table
          columns := isGrown.columns ▸ admits.columns
          kind := fun isKey => admits.kind (isGrown.key.mp isKey) }
    · exact admits.of_grown first

/-- An index changed where it stands. -/
theorem Grown.modifyIndex (table : Table) (position : Nat) {change : Index → Index}
    (keeps : ∀ index : Index, index.Grown (change index)) :
    table.Grown { table with indices := table.indices.modify position change } where
  id := rfl
  name := rfl
  model := rfl
  primaryKeys := rfl
  columns := rfl
  kept place index found := by
    rw [List.getElem?_modify, found]
    by_cases here : position = place
    · exact ⟨change index, by simp [here], keeps index⟩
    · exact ⟨index, by simp [here], .refl index⟩
  added place _ found behind := by
    rw [List.getElem?_eq_none (by simpa using behind)] at found
    cases found

/-- An index put behind the others. -/
theorem Grown.appendIndex {index : Index} (admits : table.Admits index) :
    table.Grown { table with indices := table.indices ++ [index] } where
  id := rfl
  name := rfl
  model := rfl
  primaryKeys := rfl
  columns := rfl
  kept position old found := by
    have inside := (List.getElem?_eq_some_iff.mp found).1
    exact ⟨old, by rw [List.getElem?_append_left inside, found], .refl old⟩
  added position new found behind := by
    rw [List.getElem?_append_right behind] at found
    obtain rfl := List.mem_singleton.mp (List.mem_of_getElem? found)
    exact admits

/-- Columns changed where they stand, in what linking and resolving add. -/
theorem Grown.withColumns (table : Table) {columns : List Column}
    (same : columns.map Column.bare = table.columns.map Column.bare) :
    table.Grown { table with columns } where
  id := rfl
  name := rfl
  model := rfl
  primaryKeys := rfl
  columns := same
  kept _ index found := ⟨index, found, .refl index⟩
  added position _ found behind := by
    rw [List.getElem?_eq_none behind] at found
    cases found

theorem Grown.addPart (table : Table) (index relation : Nat) (side : Side) :
    table.Grown (table.addPart index relation side) :=
  .modifyIndex table index fun _ => ⟨rfl, rfl, Iff.rfl⟩

theorem Grown.markForeignKey (table : Table) (column : Nat) :
    table.Grown (table.markForeignKey column) := by
  refine .withColumns table (map_modify_of_same (fun found => ?_) table.columns column)
  rfl

theorem Grown.resolve (table : Table) : table.Grown table.resolve := by
  refine .withColumns table ?_
  rw [List.map_map]
  rfl

theorem Grown.indexFor {column : Nat} (inside : column < table.columns.length) {kind : IndexKind}
    (notKey : kind ≠ .primaryKey) (name : String) :
    table.Grown (table.indexFor column kind name).1 := by
  unfold Table.indexFor
  split
  · refine .modifyIndex table _ fun index => ?_
    split
    · next promoted => exact ⟨rfl, rfl, by simp [promoted.2]⟩
    · exact .refl index
  · exact .appendIndex ⟨rfl, by simpa using inside, notKey⟩

/-- A column keeps the position that its name stands for. -/
theorem Grown.columnIndex? (grown : old.Grown new) (name : String) :
    new.columnIndex? name = old.columnIndex? name := by
  have named (given : List Column) (key : Column → String) (keyBare : ∀ column, key column.bare = key column) :
      given.findIdx? (key · == name) = (given.map Column.bare).findIdx? (key · == name) := by
    rw [List.findIdx?_map]
    congr 1
    funext column
    simp [keyBare]
  rw [Table.columnIndex?, Table.columnIndex?,
    named new.columns (·.name) fun _ => rfl, named new.columns (·.property) fun _ => rfl,
    named old.columns (·.name) fun _ => rfl, named old.columns (·.property) fun _ => rfl,
    grown.columns]

/-- Tables that have each grown at their place. -/
structure AllGrown (old new : List Table) : Prop where
  length : new.length = old.length
  each : ∀ (position : Nat) (table : Table), old[position]? = some table →
    ∃ grown, new[position]? = some grown ∧ table.Grown grown

namespace AllGrown

variable {before between after tables : List Table}

theorem refl (tables : List Table) : AllGrown tables tables :=
  ⟨rfl, fun _ table found => ⟨table, found, .refl table⟩⟩

theorem trans (first : AllGrown before between) (second : AllGrown between after) :
    AllGrown before after where
  length := second.length.trans first.length
  each position table found := by
    obtain ⟨once, foundOnce, grownOnce⟩ := first.each position table found
    obtain ⟨twice, foundTwice, grownTwice⟩ := second.each position once foundOnce
    exact ⟨twice, foundTwice, grownOnce.trans grownTwice⟩

/-- A table as it was before it grew. -/
theorem origin (grown : AllGrown before after) {position : Nat} {table : Table}
    (found : after[position]? = some table) :
    ∃ old, before[position]? = some old ∧ old.Grown table := by
  have inside := (List.getElem?_eq_some_iff.mp found).1
  have wasThere := List.getElem?_eq_getElem (grown.length ▸ inside : position < before.length)
  obtain ⟨now, foundNow, isGrown⟩ := grown.each _ _ wasThere
  obtain rfl := Option.some.inj (foundNow.symm.trans found)
  exact ⟨_, wasThere, isGrown⟩

theorem modify (position : Nat) {change : Table → Table}
    (keeps : ∀ table, tables[position]? = some table → table.Grown (change table)) :
    AllGrown tables (tables.modify position change) where
  length := List.length_modify ..
  each place table found := by
    rw [List.getElem?_modify, found]
    by_cases here : position = place
    · exact ⟨change table, by simp [here], keeps table (here ▸ found)⟩
    · exact ⟨table, by simp [here], .refl table⟩

theorem map (change : Table → Table) (keeps : ∀ table : Table, table.Grown (change table)) :
    AllGrown tables (tables.map change) where
  length := List.length_map ..
  each _ table found := ⟨change table, by rw [List.getElem?_map, found]; rfl, keeps table⟩

/-- What stays of every table as it grows stays of all of them. -/
theorem map_eq {γ : Type} {kept : Table → γ}
    (keeps : ∀ {old new : Table}, old.Grown new → kept new = kept old)
    (grown : AllGrown before after) : after.map kept = before.map kept := by
  refine List.ext_getElem? fun position => ?_
  rw [List.getElem?_map, List.getElem?_map]
  cases found : before[position]? with
  | none =>
    have outside := List.getElem?_eq_none_iff.mp found
    rw [List.getElem?_eq_none (grown.length ▸ outside)]
  | some table =>
    obtain ⟨now, isThere, isGrown⟩ := grown.each position table found
    rw [isThere]
    exact congrArg some (keeps isGrown)

/-- The names of the tables stay. -/
theorem names (grown : AllGrown before after) : after.map (·.name) = before.map (·.name) :=
  grown.map_eq Grown.name

end AllGrown

end Table

end RelationalAccess
