import RelationalAccess.Proofs.Schema.Shape

/-!
In a built database every table and every column knows its own place, and the
key columns of a table are among its columns.
-/

namespace RelationalAccess

/-- A table knows its place and those of its columns, and its keys are among them. -/
structure Table.Placed (position : Nat) (table : Table) : Prop where
  id : table.id = position
  columns : ∀ (index : Nat) (column : Column), table.columns[index]? = some column → column.position = index
  keys : ∀ key ∈ table.primaryKeys, key < table.columns.length

/-- No two columns of a table have one place. -/
theorem Table.Placed.positions_nodup {position : Nat} {table : Table} (placed : table.Placed position) :
    (table.columns.map (·.position)).Nodup := by
  have places : table.columns.map (·.position) = List.range table.columns.length := by
    refine List.ext_getElem (by simp) fun index inside _ => ?_
    rw [List.length_map] at inside
    rw [List.getElem_map, List.getElem_range]
    exact placed.columns index _ (List.getElem?_eq_getElem inside)
  rw [places]
  exact List.nodup_range

/-- Every one of some tables knows its place. -/
def Table.AllPlaced (tables : List Table) : Prop :=
  ∀ (position : Nat) (table : Table), tables[position]? = some table → table.Placed position

/-- A table of a database is the one at its own place. -/
theorem Table.AllPlaced.owns {tables : List Table} (placed : Table.AllPlaced tables) {table : Table}
    (membership : table ∈ tables) : tables[table.id]? = some table := by
  obtain ⟨position, found⟩ := List.mem_iff_getElem?.mp membership
  rw [(placed position table found).id]
  exact found

/-- What is found by a name is a table of the database. -/
theorem Database.mem_of_requireTable {database : Database} {name : String} {table : Table}
    (found : database.requireTable name = .ok table) : table ∈ database.tables := by
  unfold requireTable at found
  split at found
  · next here =>
    cases found
    rw [Option.orElse_eq_orElse, Option.orElse_eq_or] at here
    rcases Option.or_eq_some_iff.mp here with byName | ⟨_, byModel⟩
    · exact List.mem_of_find?_eq_some byName
    · exact List.mem_of_find?_eq_some byModel
  · cases found

/-- A table in shape knows its places. -/
theorem Table.Shaped.placed {position : Nat} {table : Table} (shaped : table.Shaped position) :
    table.Placed position where
  id := shaped.id
  columns place column found := (shaped.columns place column found).2
  keys key membership := by
    obtain ⟨_, found, _⟩ := (shaped.keys key).mp membership
    exact (List.getElem?_eq_some_iff.mp found).1

/-- The tables and columns of a built database know their places. -/
theorem DatabaseDraft.build_placed {draft : DatabaseDraft} {database : Database}
    (built : draft.build = .ok database) : Table.AllPlaced database.tables := by
  intro position table found
  obtain ⟨_, _, _, shaped⟩ := (accepted_of_build built).table found
  exact shaped.placed

end RelationalAccess
