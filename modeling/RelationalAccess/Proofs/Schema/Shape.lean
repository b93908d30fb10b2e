import RelationalAccess.Proofs.Schema.Joins

/-!
The shape of the tables of a built database: the columns at their places under distinct
names, the key columns in ascending order at the head of the indices, and every index on
columns that exist. A draft without faults has this shape, and no linking takes it away.
-/

namespace RelationalAccess

/-- A table at its place: its columns, its keys and the columns of its indices. -/
structure Table.Shaped (position : Nat) (table : Table) : Prop where
  id : table.id = position
  columns : ∀ (place : Nat) (column : Column), table.columns[place]? = some column →
    column.table = position ∧ column.position = place
  columnNames : (table.columns.map (·.name)).Nodup
  keysAscend : table.primaryKeys.Pairwise (· < ·)
  keys : ∀ key, key ∈ table.primaryKeys ↔
    ∃ column, table.columns[key]? = some column ∧ column.primaryKey = true
  keysNotNull : ∀ (column : Column), column ∈ table.columns → column.primaryKey = true →
    column.nullable = false
  keyIndex : table.primaryKeys ≠ [] →
    ∃ index, table.indices[0]? = some index ∧ index.kind = .primaryKey ∧
      index.columns = table.primaryKeys
  keyIndexAlone : ∀ (place : Nat) (index : Index), table.indices[place]? = some index →
    index.kind = .primaryKey → place = 0 ∧ table.primaryKeys ≠ []
  indexColumns : ∀ (index : Index), index ∈ table.indices → index.table = position ∧
    ∀ column ∈ index.columns, column < table.columns.length

/-- A column is what a draft declares. -/
structure ColumnDraft.Describes (draft : ColumnDraft) (column : Column) : Prop where
  name : column.name = draft.name
  property : column.property = draft.propertyName
  host : column.host = draft.host
  nullable : column.nullable = draft.nullable
  primaryKey : column.primaryKey = draft.primaryKey
  /-- The declared types are those that the declarations are read as, in order. -/
  declared : List.Forall₂
    (fun declaration type => ColumnType.parse declaration.1 declaration.2 = .ok type)
    draft.declarations column.declared

/-- A table has the name and the columns that a draft declares. -/
structure TableDraft.Describes (draft : TableDraft) (table : Table) : Prop where
  name : table.name = draft.name
  columnCount : table.columns.length = draft.columns.length
  columns : ∀ (place : Nat) (column : Column), table.columns[place]? = some column →
    ∃ declared : ColumnDraft, draft.columns[place]? = some declared ∧ declared.Describes column

namespace ColumnDraft

/-- Declarations without a fault are all read. -/
theorem declared_of_typeFaults {draft : ColumnDraft} {table model : String}
    (faultless : draft.typeFaults table model = []) :
    List.Forall₂ (fun declaration type => ColumnType.parse declaration.1 declaration.2 = .ok type)
      draft.declarations draft.declaredTypes := by
  unfold typeFaults at faultless
  unfold declaredTypes
  generalize draft.declarations = declarations at faultless ⊢
  induction declarations with
  | nil => exact .nil
  | cons declaration others inductionHypothesis =>
    obtain ⟨engine, text⟩ := declaration
    rw [List.filterMap_cons] at faultless ⊢
    cases isRead : ColumnType.parse engine text with
    | error fault => simp [isRead] at faultless
    | ok type =>
      simp only [isRead, Except.toOption] at faultless ⊢
      exact .cons isRead (inductionHypothesis faultless)

theorem notNull_of_bodyFaults {draft : ColumnDraft} {table model : String}
    (faultless : draft.bodyFaults table model = []) (isKey : draft.primaryKey = true) :
    draft.nullable = false := by
  have keyFaults := (List.append_eq_nil_iff.mp faultless).2
  simpa [isKey] using keyFaults

end ColumnDraft

namespace TableDraft

/-- Columns are without a fault where each is, under a name of its own that was not seen before. -/
theorem columnFaults_eq_nil_iff {table model : String} {seen : List String}
    {columns : List ColumnDraft} :
    columnFaults table model seen columns = [] ↔
      (columns.map (·.name)).Nodup ∧ ∀ column ∈ columns, Draft.isIdentifier column.name = true ∧
        column.name ∉ seen ∧ column.bodyFaults table model = [] := by
  induction columns generalizing seen with
  | nil => simp [columnFaults]
  | cons column others inductionHypothesis =>
    have identifier : (if Draft.isIdentifier column.name then ([] : List SchemaFault)
        else [.invalidColumnName table column.name]) = [] ↔ Draft.isIdentifier column.name = true := by
      split <;> simp_all
    rw [columnFaults, List.append_eq_nil_iff, identifier, List.map_cons, List.nodup_cons,
      List.forall_mem_cons]
    by_cases wasSeen : column.name ∈ seen
    · simp [wasSeen]
    · rw [if_neg (by simpa using wasSeen), List.append_eq_nil_iff, inductionHypothesis]
      -- a later column is not named as this one, or as one seen before
      have apart : (∀ other ∈ others, Draft.isIdentifier other.name = true ∧
          other.name ∉ column.name :: seen ∧ other.bodyFaults table model = []) ↔
          column.name ∉ others.map (·.name) ∧ ∀ other ∈ others, Draft.isIdentifier other.name = true ∧
            other.name ∉ seen ∧ other.bodyFaults table model = [] := by
        simp only [List.mem_cons, not_or, List.mem_map, not_exists, not_and]
        grind
      rw [apart]
      tauto

variable {draft : TableDraft}

theorem mem_keyPositions {key : Nat} :
    key ∈ draft.keyPositions ↔
      ∃ column, draft.columns[key]? = some column ∧ column.primaryKey = true := by
  simp [keyPositions, List.mem_zipIdx_iff_getElem?]

theorem keyPositions_ascend (draft : TableDraft) : draft.keyPositions.Pairwise (· < ·) := by
  have within : draft.keyPositions.Sublist (draft.columns.zipIdx.map Prod.snd) :=
    List.filter_sublist.map _
  rw [List.zipIdx_map_snd] at within
  exact List.Pairwise.sublist within List.pairwise_lt_range'

theorem mem_keyIndex {id : Nat} {index : Index} (membership : index ∈ draft.keyIndex id) :
    draft.keyPositions ≠ [] ∧ draft.keyIndex id = [index] ∧ index.kind = .primaryKey ∧
      index.table = id ∧ index.columns = draft.keyPositions := by
  unfold keyIndex at membership ⊢
  split at membership
  · cases membership
  · next hasKey =>
    rw [if_neg hasKey]
    obtain rfl := List.mem_singleton.mp membership
    exact ⟨by simpa using hasKey, rfl, rfl, rfl, rfl⟩

theorem index_kind (id : Nat) (index : IndexDraft) : (draft.index id index).kind ≠ .primaryKey := by
  unfold TableDraft.index
  dsimp only
  split <;> decide

/-- A draft without faults stands for a table in shape. -/
theorem table_shaped {position : Nat} (faultless : draft.faults = []) :
    (draft.table position).Shaped position := by
  obtain ⟨front, _⟩ := List.append_eq_nil_iff.mp faultless
  obtain ⟨distinct, each⟩ := columnFaults_eq_nil_iff.mp (List.append_eq_nil_iff.mp front).2
  have column? (place : Nat) (column : Column)
      (found : (draft.table position).columns[place]? = some column) :
      ∃ declared, draft.columns[place]? = some declared ∧ declared.column position place = column := by
    rw [TableDraft.table, List.getElem?_mapIdx] at found
    exact Option.map_eq_some_iff.mp found
  refine
    { id := rfl
      columns := fun place column found => ?_
      columnNames := ?_
      keysAscend := draft.keyPositions_ascend
      keys := fun key => ?_
      keysNotNull := fun column membership isKey => ?_
      keyIndex := fun hasKey => ?_
      keyIndexAlone := fun place index found isKey => ?_
      indexColumns := fun index membership => ?_ }
  · obtain ⟨declared, _, rfl⟩ := column? place column found
    exact ⟨rfl, rfl⟩
  · have same : (draft.table position).columns.map (·.name) = draft.columns.map (·.name) := by
      refine List.ext_getElem? fun place => ?_
      rw [TableDraft.table, List.getElem?_map, List.getElem?_mapIdx, List.getElem?_map, Option.map_map]
      rfl
    exact same ▸ distinct
  · refine mem_keyPositions.trans ⟨fun ⟨declared, found, isKey⟩ => ?_, fun ⟨column, found, isKey⟩ => ?_⟩
    · exact ⟨_, by rw [TableDraft.table, List.getElem?_mapIdx, found]; rfl, isKey⟩
    · obtain ⟨declared, wasThere, rfl⟩ := column? key column found
      exact ⟨declared, wasThere, isKey⟩
  · obtain ⟨place, found⟩ := List.mem_iff_getElem?.mp membership
    obtain ⟨declared, wasThere, rfl⟩ := column? place column found
    exact declared.notNull_of_bodyFaults (each declared (List.mem_of_getElem? wasThere)).2.2 isKey
  · obtain ⟨index, atFront⟩ : ∃ index, index ∈ draft.keyIndex position := by
      have hasKey : draft.keyPositions ≠ [] := hasKey
      rw [keyIndex, if_neg (by simpa using hasKey)]
      exact ⟨_, List.mem_singleton.mpr rfl⟩
    obtain ⟨_, alone, kind, _, onKey⟩ := mem_keyIndex atFront
    exact ⟨index, by simp [TableDraft.table, alone], kind, onKey⟩
  · have notDeclared : index ∉ draft.indices.map (draft.index position) := by
      intro declared
      obtain ⟨indexDraft, _, rfl⟩ := List.mem_map.mp declared
      exact index_kind position indexDraft isKey
    have isFront := (List.mem_append.mp (List.mem_of_getElem? found)).resolve_right notDeclared
    obtain ⟨hasKey, alone, _⟩ := mem_keyIndex isFront
    refine ⟨?_, hasKey⟩
    by_contra behind
    have : index ∈ draft.indices.map (draft.index position) := by
      simp only [TableDraft.table, alone] at found
      obtain ⟨before, rfl⟩ := Nat.exists_eq_succ_of_ne_zero behind
      exact List.mem_of_getElem? (by simpa using found)
    exact notDeclared this
  · rcases List.mem_append.mp membership with isFront | declared
    · obtain ⟨_, _, _, owner, onKey⟩ := mem_keyIndex isFront
      refine ⟨owner, fun column onIndex => ?_⟩
      obtain ⟨_, found, _⟩ := mem_keyPositions.mp (onKey ▸ onIndex)
      simpa [TableDraft.table] using (List.getElem?_eq_some_iff.mp found).1
    · obtain ⟨indexDraft, _, rfl⟩ := List.mem_map.mp declared
      refine ⟨rfl, fun column onIndex => ?_⟩
      obtain ⟨name, _, found⟩ := List.mem_filterMap.mp onIndex
      simpa [TableDraft.table] using (List.findIdx?_eq_some_iff_getElem.mp found).1

theorem table_describes {position : Nat} (faultless : draft.faults = []) :
    draft.Describes (draft.table position) where
  name := rfl
  columnCount := by simp [TableDraft.table]
  columns place column found := by
    rw [TableDraft.table, List.getElem?_mapIdx] at found
    obtain ⟨declared, wasThere, rfl⟩ := Option.map_eq_some_iff.mp found
    obtain ⟨front, _⟩ := List.append_eq_nil_iff.mp faultless
    have body := ((columnFaults_eq_nil_iff.mp (List.append_eq_nil_iff.mp front).2).2 declared
      (List.mem_of_getElem? wasThere)).2.2
    exact ⟨declared, wasThere, rfl, rfl, rfl, rfl, rfl,
      declared.declared_of_typeFaults (List.append_eq_nil_iff.mp body).1⟩

end TableDraft

namespace Table

variable {old new : Table} {position : Nat}

theorem Shaped.of_grown (grown : old.Grown new) (shaped : old.Shaped position) :
    new.Shaped position where
  id := grown.id.trans shaped.id
  columns place column found := by
    obtain ⟨before, wasThere, same⟩ := grown.column found
    obtain ⟨owner, at_⟩ := shaped.columns place before wasThere
    exact ⟨(congrArg Column.table same).trans owner, (congrArg Column.position same).trans at_⟩
  columnNames := by
    have same := congrArg (List.map Column.name) grown.columns
    rw [List.map_map, List.map_map] at same
    exact (show new.columns.map (·.name) = old.columns.map (·.name) from same) ▸ shaped.columnNames
  keysAscend := grown.primaryKeys ▸ shaped.keysAscend
  keys key := by
    rw [grown.primaryKeys, shaped.keys]
    have same := congrArg (·[key]?.map Column.primaryKey) grown.columns
    simp only [List.getElem?_map, Option.map_map] at same
    have same : new.columns[key]?.map Column.primaryKey = old.columns[key]?.map Column.primaryKey :=
      same
    rw [← Option.map_eq_some_iff, ← Option.map_eq_some_iff, same]
  keysNotNull column membership isKey := by
    obtain ⟨place, found⟩ := List.mem_iff_getElem?.mp membership
    obtain ⟨before, wasThere, same⟩ := grown.column found
    have wasKey : before.primaryKey = true := (congrArg Column.primaryKey same).symm.trans isKey
    exact (congrArg Column.nullable same).trans
      (shaped.keysNotNull before (List.mem_of_getElem? wasThere) wasKey)
  keyIndex hasKey := by
    obtain ⟨index, atFront, kind, onKey⟩ := shaped.keyIndex (grown.primaryKeys ▸ hasKey)
    obtain ⟨now, isThere, isGrown⟩ := grown.kept 0 index atFront
    exact ⟨now, isThere, isGrown.key.mpr kind, by rw [isGrown.columns, onKey, grown.primaryKeys]⟩
  keyIndexAlone place index found isKey := by
    rcases grown.index found with ⟨before, wasThere, isGrown⟩ | ⟨_, admits⟩
    · exact grown.primaryKeys ▸ shaped.keyIndexAlone place before wasThere (isGrown.key.mp isKey)
    · exact absurd isKey admits.kind
  indexColumns index membership := by
    obtain ⟨place, found⟩ := List.mem_iff_getElem?.mp membership
    rw [grown.length]
    rcases grown.index found with ⟨before, wasThere, isGrown⟩ | ⟨_, admits⟩
    · rw [isGrown.table, isGrown.columns]
      exact shaped.indexColumns before (List.mem_of_getElem? wasThere)
    · exact ⟨admits.table.trans shaped.id, admits.columns⟩

theorem Shaped.keyIndexed {table : Table} (shaped : table.Shaped position) : table.KeyIndexed := by
  intro hasKey
  obtain ⟨index, atFront, _, onKey⟩ := shaped.keyIndex hasKey
  exact ⟨index, atFront, onKey⟩

end Table

theorem TableDraft.Describes.of_grown {draft : TableDraft} {old new : Table} (grown : old.Grown new)
    (describes : draft.Describes old) : draft.Describes new where
  name := grown.name.trans describes.name
  columnCount := grown.length.trans describes.columnCount
  columns place column found := by
    obtain ⟨before, wasThere, same⟩ := grown.column found
    obtain ⟨declared, isDeclared, describesIt⟩ := describes.columns place before wasThere
    exact ⟨declared, isDeclared,
      { name := (congrArg Column.name same).trans describesIt.name
        property := (congrArg Column.property same).trans describesIt.property
        host := (congrArg Column.host same).trans describesIt.host
        nullable := (congrArg Column.nullable same).trans describesIt.nullable
        primaryKey := (congrArg Column.primaryKey same).trans describesIt.primaryKey
        declared := (congrArg Column.declared same) ▸ describesIt.declared }⟩

namespace DatabaseDraft

/-- Tables are without a fault where each is, under a name of its own that was not seen before. -/
theorem tableFaults_eq_nil_iff {database : String} {seen : List String} {tables : List TableDraft} :
    tableFaults database seen tables = [] ↔
      (tables.map (·.name)).Nodup ∧ ∀ table ∈ tables, table.name ∉ seen ∧ table.faults = [] := by
  induction tables generalizing seen with
  | nil => simp [tableFaults]
  | cons table others inductionHypothesis =>
    rw [tableFaults, List.map_cons, List.nodup_cons, List.forall_mem_cons]
    by_cases wasSeen : table.name ∈ seen
    · simp [wasSeen]
    · rw [if_neg (by simpa using wasSeen), List.append_eq_nil_iff, inductionHypothesis]
      have apart : (∀ other ∈ others, other.name ∉ table.name :: seen ∧ other.faults = []) ↔
          table.name ∉ others.map (·.name) ∧
            ∀ other ∈ others, other.name ∉ seen ∧ other.faults = [] := by
        simp only [List.mem_cons, not_or, List.mem_map, not_exists, not_and]
        grind
      rw [apart]
      tauto

variable {draft : DatabaseDraft} {database : Database}

theorem declaredTables_getElem? (draft : DatabaseDraft) (position : Nat) :
    draft.declaredTables[position]? = draft.tables[position]?.map (·.table position) :=
  List.getElem?_mapIdx

theorem map_name_declaredTables (draft : DatabaseDraft) :
    draft.declaredTables.map (·.name) = draft.tables.map (·.name) := by
  refine List.ext_getElem? fun place => ?_
  rw [List.getElem?_map, declaredTables_getElem?, List.getElem?_map, Option.map_map]
  rfl

/-- A declared table is what a draft without a fault stands for. -/
theorem origin_of_declared (faultless : draft.faults = []) {position : Nat} {table : Table}
    (found : draft.declaredTables[position]? = some table) :
    ∃ tableDraft : TableDraft, draft.tables[position]? = some tableDraft ∧
      tableDraft.faults = [] ∧ tableDraft.table position = table := by
  rw [declaredTables_getElem?] at found
  obtain ⟨tableDraft, isDrafted, same⟩ := Option.map_eq_some_iff.mp found
  exact ⟨tableDraft, isDrafted,
    ((tableFaults_eq_nil_iff.mp faultless).2 tableDraft (List.mem_of_getElem? isDrafted)).2, same⟩

theorem indexed_of_declared (faultless : draft.faults = []) :
    ∀ table ∈ draft.declaredTables, table.KeyIndexed := by
  intro table membership
  obtain ⟨position, found⟩ := List.mem_iff_getElem?.mp membership
  obtain ⟨tableDraft, _, faultless, rfl⟩ := origin_of_declared faultless found
  exact (TableDraft.table_shaped faultless).keyIndexed

/-- The tables and relations of a draft once all foreign keys are linked. -/
def linked (draft : DatabaseDraft) : Linking.Progress :=
  Linking.linkAll draft.declaredTables draft.tables

/-- What a draft is built to, and the faults it then does not have. -/
structure Accepted (draft : DatabaseDraft) (database : Database) : Prop where
  drafts : draft.faults = []
  links : draft.linked.faults = []
  types : ∀ table ∈ draft.linked.tables, table.resolutionFaults = []
  settings : draft.settings.fault? = none
  result : database =
    { name := draft.name
      modelType := draft.modelType.getD draft.name
      tables := draft.linked.tables.map Table.resolve
      relations := draft.linked.relations
      settings := draft.settings.withDefaults }

theorem accepted_of_build (built : draft.build = .ok database) : draft.Accepted database := by
  unfold build at built
  split at built
  · next drafts =>
    dsimp only at built
    split at built
    · next further =>
      obtain ⟨links, types⟩ := List.append_eq_nil_iff.mp (List.isEmpty_iff.mp further)
      split at built
      · cases built
      · next settings =>
        exact ⟨List.isEmpty_iff.mp drafts, links, List.flatMap_eq_nil_iff.mp types, settings,
          (Except.ok.inj built).symm⟩
    · cases built
  · cases built

theorem Accepted.declared (accepted : draft.Accepted database) {position : Nat} {table : Table}
    (found : draft.declaredTables[position]? = some table) :
    ∃ tableDraft : TableDraft, draft.tables[position]? = some tableDraft ∧
      tableDraft.faults = [] ∧ tableDraft.table position = table :=
  origin_of_declared accepted.drafts found

theorem Accepted.indexed (accepted : draft.Accepted database) :
    ∀ table ∈ draft.declaredTables, table.KeyIndexed :=
  indexed_of_declared accepted.drafts

/-- No relation goes through an index that is only declared. -/
theorem Accepted.unlinked (accepted : draft.Accepted database) (place index : Nat) :
    Linking.partsAt draft.declaredTables place index = [] := by
  rw [Linking.partsAt]
  cases found : draft.declaredTables[place]? with
  | none => rfl
  | some table =>
    obtain ⟨tableDraft, _, faultless, rfl⟩ := accepted.declared found
    rw [Option.map_some, Option.getD_some, Table.partsAt]
    cases isThere : (tableDraft.table place).indices[index]? with
    | none => rfl
    | some onTable =>
      rcases List.mem_append.mp (List.mem_of_getElem? isThere) with isFront | declared
      · unfold TableDraft.keyIndex at isFront
        split at isFront
        · cases isFront
        · obtain rfl := List.mem_singleton.mp isFront
          rfl
      · obtain ⟨indexDraft, _, rfl⟩ := List.mem_map.mp declared
        rfl

/-- The foreign keys of an accepted draft have all been linked. -/
theorem Accepted.sound (accepted : draft.Accepted database) :
    Linking.Sound draft.declaredTables (Linking.foreignKeys draft.tables) draft.linked :=
  Linking.linkAll_sound accepted.indexed accepted.unlinked _ accepted.links

/-- The tables of a built database have grown from those that were declared. -/
theorem Accepted.grown (accepted : draft.Accepted database) :
    Table.AllGrown draft.declaredTables database.tables := by
  rw [accepted.result]
  exact accepted.sound.grown.trans (.map _ .resolve)

/-- Every table of a built database comes from the draft at its place and is in shape. -/
theorem Accepted.table (accepted : draft.Accepted database) {position : Nat} {table : Table}
    (found : database.tables[position]? = some table) :
    ∃ tableDraft : TableDraft, draft.tables[position]? = some tableDraft ∧
      tableDraft.Describes table ∧ table.Shaped position := by
  obtain ⟨old, wasThere, isGrown⟩ := accepted.grown.origin found
  obtain ⟨tableDraft, isDrafted, faultless, rfl⟩ := accepted.declared wasThere
  exact ⟨tableDraft, isDrafted, (TableDraft.table_describes faultless).of_grown isGrown,
    (TableDraft.table_shaped faultless).of_grown isGrown⟩

/-- Every table of a built database is in shape at some place. -/
theorem shaped_of_mem (built : draft.build = .ok database) {table : Table}
    (isTable : table ∈ database.tables) : ∃ place, table.Shaped place := by
  obtain ⟨place, isPlaced⟩ := List.mem_iff_getElem?.mp isTable
  obtain ⟨_, _, _, shaped⟩ := (accepted_of_build built).table isPlaced
  exact ⟨place, shaped⟩

end DatabaseDraft

end RelationalAccess
