import RelationalAccess.Proofs.Schema.Placement
import RelationalAccess.Proofs.Sql.Conversion
import RelationalAccess.Proofs.Sql.Created

/-!
What creates a whole database: every table with its clauses, and behind them the indices that
stand by themselves.
-/

namespace RelationalAccess

namespace Creating

open Creation Declaration
variable {dialect : Dialect} {database : Database} {table : Table}

/-- A statement without parameters that is read as a creation. -/
def Creates (dialect : Dialect) (statement : Statement) (creation : Creation) : Prop :=
  statement.parameters = [] ∧ ofText? dialect statement.text = some creation

theorem creates_of_text {pieces : List Piece} {text : List Char} {creation : Creation}
    (unbound : Piece.boundValues pieces = [])
    (same : pieces.flatMap (Piece.chars dialect) = text)
    (isRead : Creation.statement dialect text = some (creation, [])) :
    Creates dialect (.assemble dialect pieces) creation := by
  rw [Creates, Piece.assemble_unbound unbound, same]
  exact ⟨rfl, Reader.run?_of_read (by rwa [String.toList_ofList])⟩

theorem creates_table (name : String) {groups : List (List Piece)} {clauses : List Clause}
    (each : List.Forall₂ (Declaring (clause dialect) dialect) groups clauses) :
    Creates dialect (.assemble dialect ([.words "CREATE TABLE IF NOT EXISTS ", .name name,
      .words " (\n  "] ++ Piece.separated ",\n  " groups ++ [.words "\n)"]))
        (.table name clauses) := by
  have unbound : groups.flatMap Piece.boundValues = [] :=
    List.flatMap_eq_nil_iff.mpr fun group isGroup =>
      have ⟨_, _, declaring⟩ := counterpart_right each isGroup
      declaring.unbound
  have areRead : List.Forall₂ (TakesBack (clause dialect))
      (groups.map (·.flatMap (Piece.chars dialect))) clauses :=
    List.forall₂_map_left_iff.mpr (each.imp fun _ _ declaring => declaring.takesBack)
  refine creates_of_text ?_ ?_ (statement_table name areRead)
  · simp [Piece.boundValues_separated, unbound]
  · have opens : "CREATE TABLE IF NOT EXISTS ".toList =
        spelled [] ["CREATE", "TABLE", "IF", "NOT", "EXISTS"] ++ [' '] := rfl
    rw [List.flatMap_append, List.flatMap_append, Piece.chars_separated]
    simp [Piece.chars, opens, tableText]

theorem creates_index (index : Index) :
    Creates dialect (.assemble dialect (indexPieces table index))
      (.index (decide (index.kind = .unique)) index.name table.name
        ((table.columnsAt index.columns).map (·.name))) := by
  refine creates_of_text ?_ ?_ (statement_standalone _ index.name table.name _)
  · simp [indexPieces, Piece.boundValues_columnList]
  · have opens : ("CREATE " ++ (if index.kind = .unique then "UNIQUE " else "") ++
        "INDEX IF NOT EXISTS ").toList =
          spelled [] (standaloneWords (decide (index.kind = .unique))) ++ [' '] := by
      by_cases isUnique : index.kind = .unique
      · simp only [isUnique]
        rfl
      · simp only [isUnique]
        rfl
    have onto : " ON ".toList = spelled [' '] ["ON"] ++ [' '] := rfl
    rw [indexPieces, List.flatMap_append, Piece.chars_columnList]
    generalize (table.columnsAt index.columns).map (·.name) = list
    simp only [List.flatMap_cons, List.flatMap_nil, Piece.chars, opens, onto]
    simp [standaloneText, indexText]

/-! ### The clauses of a table -/

/-- What clauses of a table declare, of each kind. -/
structure Tell (table : String) (clauses : List Clause) (columns : List DeclaredColumn)
    (keys : List (String × List String)) (indices : List DeclaredIndex)
    (references : List DeclaredReference) : Prop where
  columns : clauses.filterMap (·.column? table) = columns
  keys : clauses.flatMap (·.keys table) = keys
  indices : clauses.filterMap (·.index? table) = indices
  references : clauses.filterMap (·.reference? table) = references

theorem Tell.append {name : String} {clauses others : List Clause}
    {columns otherColumns : List DeclaredColumn} {keys otherKeys : List (String × List String)}
    {indices otherIndices : List DeclaredIndex}
    {references otherReferences : List DeclaredReference}
    (tell : Tell name clauses columns keys indices references)
    (othersTell : Tell name others otherColumns otherKeys otherIndices otherReferences) :
    Tell name (clauses ++ others) (columns ++ otherColumns) (keys ++ otherKeys)
      (indices ++ otherIndices) (references ++ otherReferences) where
  columns := by rw [List.filterMap_append, tell.columns, othersTell.columns]
  keys := by rw [List.flatMap_append, tell.keys, othersTell.keys]
  indices := by rw [List.filterMap_append, tell.indices, othersTell.indices]
  references := by rw [List.filterMap_append, tell.references, othersTell.references]

theorem tell_nil (name : String) : Tell name [] [] [] [] [] := ⟨rfl, rfl, rfl, rfl⟩

/-- Groups of pieces are read as clauses, which declare parts of a table. -/
def Groups (dialect : Dialect) (name : String) (groups : List (List Piece))
    (columns : List DeclaredColumn) (keys : List (String × List String))
    (indices : List DeclaredIndex) (references : List DeclaredReference) : Prop :=
  ∃ clauses, List.Forall₂ (Declaring (clause dialect) dialect) groups clauses ∧
    Tell name clauses columns keys indices references

theorem Groups.append {name : String} {groups others : List (List Piece)}
    {columns otherColumns : List DeclaredColumn} {keys otherKeys : List (String × List String)}
    {indices otherIndices : List DeclaredIndex}
    {references otherReferences : List DeclaredReference}
    (here : Groups dialect name groups columns keys indices references)
    (there : Groups dialect name others otherColumns otherKeys otherIndices otherReferences) :
    Groups dialect name (groups ++ others) (columns ++ otherColumns) (keys ++ otherKeys)
      (indices ++ otherIndices) (references ++ otherReferences) := by
  obtain ⟨clauses, areRead, tell⟩ := here
  obtain ⟨otherClauses, othersAreRead, othersTell⟩ := there
  exact ⟨clauses ++ otherClauses, List.rel_append areRead othersAreRead, tell.append othersTell⟩

theorem groups_nil (dialect : Dialect) (name : String) : Groups dialect name [] [] [] [] [] :=
  ⟨[], .nil, tell_nil name⟩

theorem groups_columns {columns : List Column}
    (each : ∀ column ∈ columns, ColumnDeclared dialect table column) :
    ∃ groups declared, columns.mapM (Creating.column dialect table) = .ok groups ∧
      List.Forall₂ (DeclaresColumn dialect table) columns declared ∧
      Groups dialect table.name groups declared (columns.flatMap (inlineKeys dialect table)) []
        [] := by
  simp only [mapM_eq_ok_iff]
  induction columns with
  | nil => exact ⟨[], [], .nil, .nil, groups_nil dialect table.name⟩
  | cons column others inductionHypothesis =>
    obtain ⟨now, later⟩ := List.forall_mem_cons.mp each
    obtain ⟨pieces, type, marks, isColumn, declaring, declares, keys⟩ := now
    obtain ⟨groups, declared, areColumns, areDeclared, areRead⟩ := inductionHypothesis later
    have first : Groups dialect table.name [pieces]
        [{ table := table.name, name := column.name, type, marks }]
        (inlineKeys dialect table column) [] [] :=
      ⟨[.column column.name type marks], .cons declaring .nil,
        ⟨rfl, keys ▸ List.flatMap_singleton _ _, rfl, rfl⟩⟩
    exact ⟨pieces :: groups, _ :: declared, .cons isColumn areColumns, .cons declares areDeclared,
      first.append areRead⟩

/-- The key that a table declares by a clause. -/
def clauseKeys (dialect : Dialect) (table : Table) : List (String × List String) :=
  if table.hasPrimaryKey && !(decide (dialect = .sqlite) && (numberedKey? table).isSome) then
    [declaredKey table]
  else []

theorem groups_keyClause (dialect : Dialect) (table : Table) :
    Groups dialect table.name (keyClause dialect table) [] (clauseKeys dialect table) [] [] := by
  unfold keyClause clauseKeys
  split
  · exact ⟨_, .cons (declaring_keys table.primaryKeys) .nil, ⟨rfl, rfl, rfl, rfl⟩⟩
  · exact groups_nil dialect table.name

/-- The indices that a table declares by clauses. -/
def clauseIndices (dialect : Dialect) (table : Table) : List DeclaredIndex :=
  if dialect = .sqlite then [] else (ownIndices table).map (declaredIndex table)

theorem groups_indexClauses (dialect : Dialect) (table : Table) :
    Groups dialect table.name (indexClauses dialect table) [] [] (clauseIndices dialect table)
      [] := by
  by_cases isSqlite : dialect = .sqlite
  · subst isSqlite
    exact groups_nil .sqlite table.name
  · have isClause : indexClauses dialect table = (ownIndices table).map fun index =>
        [.words (if index.kind = .unique then "UNIQUE KEY " else "KEY "), .name index.name,
          .words " "] ++ columnList table index.columns := by
      cases dialect <;> first | rfl | exact absurd rfl isSqlite
    rw [isClause, clauseIndices, if_neg isSqlite]
    induction ownIndices table with
    | nil => exact groups_nil dialect table.name
    | cons index others inductionHypothesis =>
      have first : Groups dialect table.name _ [] [] [declaredIndex table index] [] :=
        ⟨_, .cons (declaring_index index) .nil, ⟨rfl, rfl, rfl, rfl⟩⟩
      exact first.append inductionHypothesis

/-- The clause for a foreign key of a table. -/
def constraintClause? (database : Database) (table : Table) (relation : Relation) :
    Option (List Piece) := do
  let referred ← database.tables[relation.candidateKey.table]?
  return [.words "CONSTRAINT ", .name relation.constraint, .words " FOREIGN KEY "] ++
    indexColumns table relation.foreignKey.index ++
    [.words " REFERENCES ", .name referred.name, .words " "] ++
    indexColumns referred relation.candidateKey.index

theorem constraintClauses_eq (database : Database) (table : Table) :
    constraintClauses database table =
      (database.relations.filter (·.foreignKey.table == table.id)).filterMap
        (constraintClause? database table) := rfl

theorem indexColumns_of_partOn {part : RelationPart} {column : Column}
    (partOn : database.PartOn part table column) :
    ∃ position, indexColumns table part.index = columnList table [position] ∧
      table.columnsAt [position] = [column] := by
  obtain ⟨_, index, position, isIndex, alone, isColumn⟩ := partOn
  refine ⟨position, ?_, List.filterMap_cons_some isColumn⟩
  rw [indexColumns, isIndex, Option.map_some, alone]
  rfl

theorem reference_declared (dialect : Dialect) {relation : Relation} {column key : Column}
    {referred : Table}
    (referring : database.PartOn relation.foreignKey table column)
    (refersTo : database.PartOn relation.candidateKey referred key) :
    ∃ pieces, constraintClause? database table relation = some pieces ∧
      Declaring (clause dialect) dialect pieces
        (.foreignKey relation.constraint [column.name] referred.name [key.name]) := by
  obtain ⟨position, isList, isColumn⟩ := indexColumns_of_partOn referring
  obtain ⟨keyPosition, isKeyList, isKey⟩ := indexColumns_of_partOn refersTo
  have declaring : Declaring (clause dialect) dialect _ _ :=
    declaring_reference relation.constraint table referred [position] [keyPosition]
  rw [isColumn, isKey] at declaring
  refine ⟨_, ?_, declaring⟩
  rw [constraintClause?, refersTo.1, ← isList, ← isKeyList]
  rfl

/-- Both sides of a relation go through indices on just one column. -/
def Joined (database : Database) (table : Table) (relation : Relation) : Prop :=
  ∃ column referred key, database.PartOn relation.foreignKey table column ∧
    database.PartOn relation.candidateKey referred key

theorem groups_constraints (dialect : Dialect) {relations : List Relation}
    (each : ∀ relation ∈ relations, Joined database table relation) :
    ∃ declared, List.Forall₂ (DeclaresReference database) relations declared ∧
      Groups dialect table.name (relations.filterMap (constraintClause? database table)) [] [] []
        declared := by
  induction relations with
  | nil => exact ⟨[], .nil, groups_nil dialect table.name⟩
  | cons relation others inductionHypothesis =>
    obtain ⟨now, later⟩ := List.forall_mem_cons.mp each
    obtain ⟨column, referred, key, referring, refersTo⟩ := now
    obtain ⟨declared, areDeclared, areRead⟩ := inductionHypothesis later
    obtain ⟨pieces, isClause, declaring⟩ := reference_declared dialect referring refersTo
    have first : Groups dialect table.name [pieces] [] [] []
        [{ table := table.name, constraint := relation.constraint, columns := [column.name]
           referred := referred.name, referredColumns := [key.name] }] :=
      ⟨_, .cons declaring .nil, ⟨rfl, rfl, rfl, rfl⟩⟩
    rw [List.filterMap_cons_some isClause]
    exact ⟨_ :: declared,
      .cons ⟨table, column, referred, key, referring, refersTo, rfl⟩ areDeclared,
      first.append areRead⟩

/-! ### Tables -/

/-- A table declares its key once, by its column or by a clause. -/
theorem keys_once (dialect : Dialect) {position : Nat} (placed : table.Placed position) :
    table.columns.flatMap (inlineKeys dialect table) ++ clauseKeys dialect table =
      ([table].filter (·.hasPrimaryKey)).map declaredKey := by
  by_cases inline : ∃ column ∈ table.columns, table.NumbersKey dialect column
  · obtain ⟨column, membership, numbers⟩ := inline
    obtain ⟨place, found⟩ := List.mem_iff_getElem?.mp membership
    obtain ⟨isSqlite, alone, auto⟩ := numbers
    have isPlace := placed.columns place column found
    have isNumbered : numberedKey? table = some place :=
      numberedKey?_eq_some_iff.mpr ⟨isPlace ▸ alone, column, found, auto⟩
    have noClause : clauseKeys dialect table = [] := by
      simp [clauseKeys, isSqlite, isNumbered]
    have isInline : table.columns.flatMap (inlineKeys dialect table) =
        inlineKeys dialect table column := by
      refine flatMap_eq_of_alone found fun index other isThere apart => if_neg fun numbersToo => ?_
      have same : other.position = column.position := by
        simpa [numbersToo.2.1] using alone
      rw [placed.columns index other isThere, isPlace] at same
      exact apart same
    have isKey : declaredKey table = (table.name, [column.name]) := by
      rw [declaredKey, Table.keyColumns, alone, isPlace, Table.columnsAt,
        List.filterMap_cons_some found]
      rfl
    have hasKey : table.hasPrimaryKey = true := by simp [Table.hasPrimaryKey, alone]
    rw [noClause, isInline, inlineKeys, if_pos ⟨isSqlite, alone, auto⟩]
    simp [hasKey, isKey]
  · have noInline : table.columns.flatMap (inlineKeys dialect table) = [] :=
      List.flatMap_eq_nil_iff.mpr fun column membership =>
        if_neg fun numbers => inline ⟨column, membership, numbers⟩
    have noNumbered : (decide (dialect = .sqlite) && (numberedKey? table).isSome) = false := by
      by_contra both
      simp only [Bool.not_eq_false, Bool.and_eq_true, decide_eq_true_eq, Option.isSome_iff_exists]
        at both
      obtain ⟨isSqlite, place, isNumbered⟩ := both
      obtain ⟨alone, column, found, auto⟩ := numberedKey?_eq_some_iff.mp isNumbered
      have isPlace := placed.columns place column found
      exact inline ⟨column, List.mem_of_getElem? found, isSqlite, isPlace ▸ alone, auto⟩
    rw [noInline, clauseKeys, noNumbered]
    by_cases hasKey : table.hasPrimaryKey = true <;> simp [hasKey]

/-- A creation declares a table, with those of its indices that the dialect takes there. -/
structure DeclaresTable (dialect : Dialect) (database : Database) (table : Table)
    (creation : Creation) : Prop where
  columns : List.Forall₂ (DeclaresColumn dialect table) table.columns creation.columns
  keys : creation.keys = ([table].filter (·.hasPrimaryKey)).map declaredKey
  indices : creation.indices = clauseIndices dialect table
  references : List.Forall₂ (DeclaresReference database)
    (database.relations.filter (·.foreignKey.table == table.id)) creation.references

theorem table_declared {position : Nat} (placed : table.Placed position)
    (columns : ∀ column ∈ table.columns, ColumnDeclared dialect table column)
    (relations : ∀ relation ∈ database.relations, relation.foreignKey.table = table.id →
      Joined database table relation) :
    ∃ statement creation, Creating.table dialect database table = .ok statement ∧
      Creates dialect statement creation ∧ DeclaresTable dialect database table creation := by
  obtain ⟨groups, declared, areColumns, areDeclared, columnGroups⟩ := groups_columns columns
  have joined : ∀ relation ∈ database.relations.filter (·.foreignKey.table == table.id),
      Joined database table relation := fun relation isOwn =>
    have ⟨membership, owned⟩ := List.mem_filter.mp isOwn
    relations relation membership (beq_iff_eq.mp owned)
  obtain ⟨references, areReferences, referenceGroups⟩ := groups_constraints dialect joined
  have all := ((columnGroups.append (groups_keyClause dialect table)).append
    (groups_indexClauses dialect table)).append referenceGroups
  rw [← constraintClauses_eq] at all
  obtain ⟨clauses, areRead, tell⟩ := all
  have creates := creates_table table.name areRead
  refine ⟨_, .table table.name clauses, ?_, creates, ?_⟩
  · rw [Creating.table, tablePieces, areColumns]
    rfl
  · have keys := keys_once dialect placed
    exact
      { columns := by simpa [Creation.columns, tell.columns] using areDeclared
        keys := by simpa [Creation.keys, tell.keys] using keys
        indices := by simp [Creation.indices, tell.indices]
        references := by simpa [Creation.references, tell.references] using areReferences }

/-! ### Indices by themselves -/

/-- An index that stands by itself. -/
def createdIndex (table : Table) (index : Index) : Creation :=
  .index (decide (index.kind = .unique)) index.name table.name
    ((table.columnsAt index.columns).map (·.name))

/-- The indices of a table that are created by themselves. -/
def standaloneIndices (dialect : Dialect) (table : Table) : List Creation :=
  if dialect = .sqlite then (ownIndices table).map (createdIndex table) else []

theorem creates_standalone (dialect : Dialect) (table : Table) :
    List.Forall₂ (Creates dialect) (table.indices.filterMap (index? dialect table))
      (standaloneIndices dialect table) := by
  by_cases isSqlite : dialect = .sqlite
  · subst isSqlite
    rw [standaloneIndices, if_pos rfl, ownIndices]
    induction table.indices with
    | nil => exact .nil
    | cons index others inductionHypothesis =>
      by_cases isKey : index.kind = .primaryKey
      · rw [List.filterMap_cons_none (by rw [index?, if_pos isKey]),
          List.filter_cons_of_neg (by simpa using isKey)]
        exact inductionHypothesis
      · rw [List.filterMap_cons_some (by rw [index?, if_neg isKey]),
          List.filter_cons_of_pos (by simpa using isKey)]
        exact .cons (creates_index index) inductionHypothesis
  · have none : ∀ index ∈ table.indices, index? dialect table index = none := fun index _ => by
      cases dialect <;> first | rfl | exact absurd rfl isSqlite
    rw [standaloneIndices, if_neg isSqlite, List.filterMap_eq_nil_iff.mpr none]
    exact .nil

/-- What declares nothing of an index by itself declares nothing of those of a table. -/
theorem flatMap_standaloneIndices {view : Creation → List α}
    (nothing : ∀ unique name owner columns, view (.index unique name owner columns) = [])
    (tables : List Table) :
    (tables.flatMap (standaloneIndices dialect)).flatMap view = [] := by
  refine List.flatMap_eq_nil_iff.mpr fun creation isCreation => ?_
  obtain ⟨table, _, standalone⟩ := List.mem_flatMap.mp isCreation
  rw [standaloneIndices] at standalone
  split at standalone
  · obtain ⟨index, _, rfl⟩ := List.mem_map.mp standalone
    exact nothing _ _ _ _
  · cases standalone

/-- Every index other than that of a key is declared once, by a clause or by itself. -/
theorem indices_once (dialect : Dialect) (tables : List Table) :
    tables.flatMap (clauseIndices dialect) ++
      (tables.flatMap (standaloneIndices dialect)).flatMap Creation.indices =
        tables.flatMap fun table => (ownIndices table).map (declaredIndex table) := by
  rw [List.flatMap_assoc]
  by_cases isSqlite : dialect = .sqlite
  · have byClauses : tables.flatMap (clauseIndices dialect) = [] :=
      List.flatMap_eq_nil_iff.mpr fun _ _ => if_pos isSqlite
    have byThemselves (table : Table) : (standaloneIndices dialect table).flatMap Creation.indices =
        (ownIndices table).map (declaredIndex table) := by
      rw [standaloneIndices, if_pos isSqlite, List.flatMap_map]
      exact List.flatMap_pure_eq_map _ _
    rw [byClauses, List.nil_append]
    exact congrArg (List.flatMap · tables) (funext byThemselves)
  · have byClauses (table : Table) : clauseIndices dialect table =
        (ownIndices table).map (declaredIndex table) := if_neg isSqlite
    have byThemselves : tables.flatMap (fun table =>
        (standaloneIndices dialect table).flatMap Creation.indices) = [] :=
      List.flatMap_eq_nil_iff.mpr fun table _ => by
        rw [standaloneIndices, if_neg isSqlite]
        rfl
    rw [byThemselves, List.append_nil]
    exact congrArg (List.flatMap · tables) (funext byClauses)

/-! ### Databases -/

/-- Tables and the indices that stand by themselves declare a database. -/
theorem declare_of_tables {creations : List Creation} (placed : Table.AllPlaced database.tables)
    (owned : ∀ relation ∈ database.relations,
      ∃ table, database.tables[relation.foreignKey.table]? = some table)
    (each : List.Forall₂ (DeclaresTable dialect database) database.tables creations) :
    Declare dialect database
      (creations ++ database.tables.flatMap (standaloneIndices dialect)) where
  columns := by
    rw [List.flatMap_append, flatMap_standaloneIndices (fun _ _ _ _ => rfl), List.append_nil]
    refine List.rel_flatMap each fun table creation declares => ?_
    exact List.forall₂_map_left_iff.mpr declares.columns
  keys := by
    rw [List.flatMap_append, flatMap_standaloneIndices (fun _ _ _ _ => rfl), List.append_nil,
      flatMap_eq_of_each each fun _ _ declares => declares.keys, ← List.map_flatMap,
      ← List.filter_flatMap, List.flatMap_singleton']
  indices := by
    rw [List.flatMap_append, flatMap_eq_of_each each fun _ _ declares => declares.indices]
    exact indices_once dialect database.tables
  references := by
    have distinct : (database.tables.map (·.id)).Nodup := by
      have places : database.tables.map (·.id) = List.range database.tables.length := by
        refine List.ext_getElem (by simp) fun place inside _ => ?_
        rw [List.getElem_map, List.getElem_range]
        exact (placed place _ (List.getElem?_eq_getElem _)).id
      exact places ▸ List.nodup_range
    have all : database.relations.filter
        (fun relation => decide (relation.foreignKey.table ∈ database.tables.map (·.id))) =
          database.relations := by
      refine List.filter_eq_self.mpr fun relation membership => decide_eq_true ?_
      obtain ⟨table, found⟩ := owned relation membership
      exact List.mem_map.mpr ⟨table, List.mem_of_getElem? found, (placed _ _ found).id⟩
    have partition := perm_flatMap_filter (·.foreignKey.table) database.relations distinct
    rw [all, List.flatMap_map] at partition
    refine ⟨_, partition, ?_⟩
    rw [List.flatMap_append, flatMap_standaloneIndices (fun _ _ _ _ => rfl), List.append_nil]
    exact List.rel_flatMap each fun table creation declares => declares.references

theorem partOn_of_through {part : RelationPart} {name : String}
    (through : Linking.Through database.tables part name) :
    ∃ table column, database.PartOn part table column := by
  obtain ⟨table, position, index, isTable, isColumn, isIndex, alone⟩ := through
  have found := List.getElem?_eq_getElem (Table.lt_of_columnIndex? isColumn)
  exact ⟨table, _, isTable, index, position, isIndex, alone, found⟩

/-- Where every table is created by a statement that declares it, so is the database. -/
theorem database_created (placed : Table.AllPlaced database.tables)
    (owned : ∀ relation ∈ database.relations,
      ∃ table, database.tables[relation.foreignKey.table]? = some table)
    (tables : ∀ table ∈ database.tables, ∃ created : Statement × Creation,
      Creating.table dialect database table = .ok created.1 ∧ Creates dialect created.1 created.2 ∧
        DeclaresTable dialect database table created.2) :
    ∃ statements creations, Creating.database dialect database = .ok statements ∧
      List.Forall₂ (Creates dialect) statements creations ∧
      Declare dialect database creations := by
  obtain ⟨created, each⟩ := exists_counterparts tables
  have statements : database.tables.mapM (Creating.table dialect database) =
      .ok (created.map Prod.fst) :=
    mapM_eq_ok_iff.mpr (List.forall₂_map_right_iff.mpr (each.imp fun _ _ holds => holds.1))
  have areRead : ∀ pair ∈ created, Creates dialect pair.1 pair.2 := fun pair isPair =>
    have ⟨_, _, holds⟩ := counterpart_left each isPair
    holds.2.1
  have isCreated : Creating.database dialect database = .ok (created.map Prod.fst ++
      database.tables.flatMap fun table => table.indices.filterMap (index? dialect table)) := by
    rw [Creating.database, statements]
    rfl
  refine ⟨_, created.map Prod.snd ++ database.tables.flatMap (standaloneIndices dialect),
    isCreated, List.rel_append ?_ ?_, declare_of_tables placed owned ?_⟩
  · rw [List.forall₂_map_left_iff, List.forall₂_map_right_iff]
    exact List.forall₂_same.mpr areRead
  · have same : List.Forall₂ Eq database.tables database.tables :=
      List.forall₂_same.mpr fun _ _ => rfl
    exact List.rel_flatMap same fun table _ same => same ▸ creates_standalone dialect table
  · exact List.forall₂_map_right_iff.mpr (each.imp fun _ _ holds => holds.2.2)

end Creating

namespace DatabaseDraft

open Creating

variable {draft : DatabaseDraft} {database : Database}

/-- The columns of a built database have types that can be declared. -/
theorem Accepted.columnDeclared (accepted : draft.Accepted database) (dialect : Dialect)
    {position place : Nat} {table : Table} {column : Column}
    (isTable : database.tables[position]? = some table)
    (isColumn : table.columns[place]? = some column) : ColumnDeclared dialect table column := by
  obtain ⟨declared, _, describes, shaped⟩ := accepted.table isTable
  obtain ⟨columnDraft, _, described⟩ := describes.columns place column isColumn
  obtain ⟨type, typed, resolved, isEngine⟩ := accepted.typed (List.mem_of_getElem? isTable)
    (List.mem_of_getElem? isColumn) dialect.engine_isConcrete
  have declarable : type.Declarable := by
    refine ColumnType.Declarable.ofResolve? (fun declaredType isDeclared => ?_) resolved
    obtain ⟨_, _, isRead⟩ := counterpart_left described.declared isDeclared
    exact .ofParse isRead
  have isPlace := (shaped.columns place column isColumn).2
  exact column_declared (isPlace ▸ isColumn) typed isEngine declarable

/-- Both sides of a relation are found, the one that refers on the table with its number. -/
theorem Accepted.joined (accepted : draft.Accepted database) {relation : Relation}
    (isRelation : relation ∈ database.relations) :
    ∃ table, database.tables[relation.foreignKey.table]? = some table ∧
      Joined database table relation := by
  obtain ⟨_, _, joins⟩ := counterpart_left accepted.joins isRelation
  obtain ⟨referring, column, partOn⟩ := partOn_of_through joins.foreignKey
  obtain ⟨referred, key, refersTo⟩ := partOn_of_through joins.candidateKey
  exact ⟨referring, partOn.1, column, referred, key, partOn, refersTo⟩

/-- The statements that create a built database declare all of it. -/
theorem build_created (built : draft.build = .ok database) (dialect : Dialect) :
    ∃ statements creations, Creating.database dialect database = .ok statements ∧
      List.Forall₂ (Creates dialect) statements creations ∧
      Creation.Declare dialect database creations := by
  have accepted := accepted_of_build built
  have placed := build_placed built
  refine database_created placed (fun relation isRelation => ?_) fun table membership => ?_
  · obtain ⟨table, isTable, _⟩ := accepted.joined isRelation
    exact ⟨table, isTable⟩
  · obtain ⟨position, isTable⟩ := List.mem_iff_getElem?.mp membership
    have columns : ∀ column ∈ table.columns, ColumnDeclared dialect table column := by
      intro column onTable
      obtain ⟨place, isColumn⟩ := List.mem_iff_getElem?.mp onTable
      exact accepted.columnDeclared dialect isTable isColumn
    have relations : ∀ relation ∈ database.relations, relation.foreignKey.table = table.id →
        Joined database table relation := by
      intro relation isRelation owned
      obtain ⟨referring, isReferring, joined⟩ := accepted.joined isRelation
      rw [owned, placed.owns membership] at isReferring
      exact Option.some.inj isReferring ▸ joined
    obtain ⟨statement, creation, created⟩ :=
      table_declared (placed position table isTable) columns relations
    exact ⟨(statement, creation), created⟩

theorem build_created_catalogue :
    ∃ database, catalogueDraft.build = .ok database ∧ database.relations.length = 3 ∧
      ∃ statements creations, Creating.database .sqlite database = .ok statements ∧
        List.Forall₂ (Creating.Creates .sqlite) statements creations ∧
        Creation.Declare .sqlite database creations := by
  refine ⟨_, rfl, rfl, ?_⟩
  exact @build_created catalogueDraft _ rfl .sqlite

end DatabaseDraft

end RelationalAccess
