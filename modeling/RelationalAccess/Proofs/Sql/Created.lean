import RelationalAccess.Proofs.Schema.Coherence
import RelationalAccess.Proofs.Sql.CreationText
import RelationalAccess.Proofs.Sql.Parameters
import RelationalAccess.Sql.Creating

/-!
The statements that create a database declare all of it, each part once: the columns with their
types, the keys, the indices and the relations, wherever the dialect takes them.
-/

namespace RelationalAccess

namespace Creation

/-- A column as it is declared. -/
structure DeclaredColumn where
  table : String
  name : String
  type : ColumnType
  marks : List Mark

/-- An index as it is declared, within a table or by itself. -/
structure DeclaredIndex where
  table : String
  name : String
  unique : Bool
  columns : List String

/-- A foreign key as it is declared. -/
structure DeclaredReference where
  table : String
  constraint : String
  columns : List String
  referred : String
  referredColumns : List String

namespace Clause

def column? (table : String) : Clause → Option DeclaredColumn
  | column name type marks => some { table, name, type, marks }
  | _ => none

/-- The primary keys that a clause declares: by itself, or as a mark of a column. -/
def keys (table : String) : Clause → List (String × List String)
  | primaryKey columns => [(table, columns)]
  | column name _ marks => (marks.filter (· = .primaryKey)).map fun _ => (table, [name])
  | _ => []

def index? (table : String) : Clause → Option DeclaredIndex
  | index unique name columns => some { table, name, unique, columns }
  | _ => none

def reference? (table : String) : Clause → Option DeclaredReference
  | foreignKey constraint columns referred referredColumns =>
    some { table, constraint, columns, referred, referredColumns }
  | _ => none

end Clause

/-- The columns that are declared, in order. -/
def columns : Creation → List DeclaredColumn
  | table name clauses => clauses.filterMap (·.column? name)
  | index _ _ _ _ => []

/-- The primary keys that are declared, with their tables. -/
def keys : Creation → List (String × List String)
  | table name clauses => clauses.flatMap (·.keys name)
  | index _ _ _ _ => []

def indices : Creation → List DeclaredIndex
  | table name clauses => clauses.filterMap (·.index? name)
  | index unique name owner columns => [{ table := owner, name, unique, columns }]

def references : Creation → List DeclaredReference
  | table name clauses => clauses.filterMap (·.reference? name)
  | index _ _ _ _ => []

end Creation

/-- A column by which the engine numbers rows, and which SQLite takes as the primary key within
its own definition. -/
def Table.NumbersKey (dialect : Dialect) (table : Table) (column : Column) : Prop :=
  dialect = .sqlite ∧ table.primaryKeys = [column.position] ∧ column.autoIncrement = true

instance (dialect : Dialect) (table : Table) (column : Column) :
    Decidable (table.NumbersKey dialect column) :=
  inferInstanceAs (Decidable (_ ∧ _ ∧ _))

/-- A part of a relation goes through an index on just one column of a table. -/
def Database.PartOn (database : Database) (part : RelationPart) (table : Table) (column : Column) :
    Prop :=
  database.tables[part.table]? = some table ∧ ∃ index position,
    table.indices[part.index]? = some index ∧ index.columns = [position] ∧
      table.columns[position]? = some column

namespace Creation

/-- A column is declared by its name with its resolved type, and as not null exactly if it is
not nullable; one that numbers the rows of SQLite is declared as such a key. -/
structure DeclaresColumn (dialect : Dialect) (table : Table) (column : Column)
    (declared : DeclaredColumn) : Prop where
  owner : declared.table = table.name
  name : declared.name = column.name
  numbered : table.NumbersKey dialect column →
    declared.type = .named .sqlite "integer" ∧ declared.marks = [.primaryKey, .numbered]
  ordinary : ¬ table.NumbersKey dialect column →
    column.type? dialect.engine = some declared.type ∧
      (.notNull ∈ declared.marks ↔ column.nullable = false)

/-- A relation is declared as a foreign key of the table that refers, naming both columns. -/
def DeclaresReference (database : Database) (relation : Relation) (declared : DeclaredReference) :
    Prop :=
  ∃ referring column referred key,
    database.PartOn relation.foreignKey referring column ∧
    database.PartOn relation.candidateKey referred key ∧
    declared =
      { table := referring.name, constraint := relation.constraint, columns := [column.name]
        referred := referred.name, referredColumns := [key.name] }

/-- An index of a table as it is to be declared. -/
def declaredIndex (table : Table) (index : Index) : DeclaredIndex :=
  { table := table.name, name := index.name, unique := decide (index.kind = .unique)
    columns := (table.columnsAt index.columns).map (·.name) }

/-- The key of a table as it is to be declared. -/
def declaredKey (table : Table) : String × List String :=
  (table.name, table.keyColumns.map (·.name))

/-- Creations declare a database: every column, every primary key, every other index and every
relation, each exactly once. -/
structure Declare (dialect : Dialect) (database : Database) (creations : List Creation) : Prop where
  columns : List.Forall₂ (fun place => DeclaresColumn dialect place.1 place.2)
    (database.tables.flatMap fun table => table.columns.map (table, ·)) (creations.flatMap columns)
  keys : creations.flatMap keys = (database.tables.filter (·.hasPrimaryKey)).map declaredKey
  indices : creations.flatMap indices = database.tables.flatMap fun table =>
    (table.indices.filter (·.kind ≠ .primaryKey)).map (declaredIndex table)
  references : ∃ relations : List Relation, relations.Perm database.relations ∧
    List.Forall₂ (DeclaresReference database) relations (creations.flatMap references)

end Creation

/-! ### The text of pieces -/

namespace Piece

variable {dialect : Dialect}

/-- The characters of a piece that binds nothing. -/
def chars (dialect : Dialect) : Piece → List Char
  | .words said => said.toList
  | .name called => (dialect.quote called).toList
  | .bound _ => []

theorem assemble_unbound {pieces : List Piece} (unbound : boundValues pieces = []) :
    Statement.assemble dialect pieces =
      { text := String.ofList (pieces.flatMap (chars dialect)), parameters := [] } := by
  unfold Statement.assemble
  induction pieces with
  | nil => rfl
  | cons piece rest inductionHypothesis =>
    cases piece with
    | words said =>
      rw [Statement.assembleFrom, inductionHypothesis unbound]
      simp [chars]
    | name called =>
      rw [Statement.assembleFrom, inductionHypothesis unbound]
      simp [chars]
    | bound value => cases unbound

theorem chars_separated (separator : String) (groups : List (List Piece)) :
    (separated separator groups).flatMap (chars dialect) =
      separator.toList.intercalate (groups.map (·.flatMap (chars dialect))) := by
  fun_induction separated separator groups with
  | case1 => rfl
  | case2 only => simp
  | case3 first others several inductionHypothesis =>
    obtain ⟨second, further, rfl⟩ := List.exists_cons_of_ne_nil several
    rw [List.flatMap_append, List.flatMap_cons, inductionHypothesis]
    simp [chars, List.intercalate]

theorem chars_columnList (table : Table) (positions : List Nat) :
    (Creating.columnList table positions).flatMap (chars dialect) =
      Creation.namesText dialect ((table.columnsAt positions).map (·.name)) := by
  rw [Creating.columnList, columnNames, names, List.cons_append, List.flatMap_cons,
    List.flatMap_append, chars_separated, List.map_map]
  simp [chars, Creation.namesText, Function.comp_def]

theorem boundValues_columnList (table : Table) (positions : List Nat) :
    boundValues (Creating.columnList table positions) = [] := by
  simp [Creating.columnList, columnNames]

end Piece

/-! ### Clauses -/

namespace Creating

open Creation Declaration

variable {dialect : Dialect} {table : Table}

/-- Pieces without parameters whose text a reader takes back as a value. -/
structure Declaring (item : Reader α) (dialect : Dialect) (pieces : List Piece) (value : α) :
    Prop where
  unbound : Piece.boundValues pieces = []
  takesBack : TakesBack item (pieces.flatMap (Piece.chars dialect)) value

theorem declaring_keys (positions : List Nat) :
    Declaring (clause dialect) dialect (.words "PRIMARY KEY " :: columnList table positions)
      (.primaryKey ((table.columnsAt positions).map (·.name))) where
  unbound := Piece.boundValues_columnList table positions
  takesBack := by
    rw [List.flatMap_cons, Piece.chars_columnList]
    exact takesBack_primaryKey _

theorem declaring_index (index : Index) :
    Declaring (clause dialect) dialect
      ([.words (if index.kind = .unique then "UNIQUE KEY " else "KEY "), .name index.name,
        .words " "] ++ columnList table index.columns)
      (.index (decide (index.kind = .unique)) index.name
        ((table.columnsAt index.columns).map (·.name))) where
  unbound := by simp [Piece.boundValues_columnList]
  takesBack := by
    have isRead : TakesBack (clause dialect) _ _ :=
      takesBack_index (decide (index.kind = .unique)) index.name
        ((table.columnsAt index.columns).map (·.name))
    rw [List.flatMap_append, Piece.chars_columnList]
    generalize (table.columnsAt index.columns).map (·.name) = list at *
    have begins (words : List Char) : words ++ [' '] ++ ((dialect.quote index.name).toList ++
        ([' '] ++ [])) ++ namesText dialect list = words ++ indexText dialect index.name list := by
      simp [indexText]
    by_cases isUnique : index.kind = .unique
    · rw [if_pos isUnique]
      rw [decide_eq_true isUnique, ← begins] at isRead
      rw [decide_eq_true isUnique]
      exact isRead
    · rw [if_neg isUnique]
      rw [decide_eq_false isUnique, ← begins] at isRead
      rw [decide_eq_false isUnique]
      exact isRead

theorem declaring_reference (constraint : String) (referring referred : Table)
    (columns keys : List Nat) :
    Declaring (clause dialect) dialect
      ([.words "CONSTRAINT ", .name constraint, .words " FOREIGN KEY "] ++
        columnList referring columns ++ [.words " REFERENCES ", .name referred.name, .words " "] ++
          columnList referred keys)
      (.foreignKey constraint ((referring.columnsAt columns).map (·.name)) referred.name
        ((referred.columnsAt keys).map (·.name))) where
  unbound := by simp [Piece.boundValues_columnList]
  takesBack := by
    have isRead : TakesBack (clause dialect) _ _ :=
      takesBack_foreignKey constraint ((referring.columnsAt columns).map (·.name)) referred.name
        ((referred.columnsAt keys).map (·.name))
    rw [List.flatMap_append, List.flatMap_append, List.flatMap_append, Piece.chars_columnList,
      Piece.chars_columnList]
    generalize (referring.columnsAt columns).map (·.name) = list at *
    generalize (referred.columnsAt keys).map (·.name) = keyList at *
    have same (constrains named references onto : List Char) :
        constrains ++ [' '] ++ (named ++ (spelled [' '] ["FOREIGN", "KEY"] ++ [' '] ++ [])) ++
          namesText dialect list ++ (references ++ [' '] ++ (onto ++ ([' '] ++ []))) ++
            namesText dialect keyList =
        constrains ++ ' ' :: (named ++ (spelled [' '] ["FOREIGN", "KEY"] ++
          ' ' :: (namesText dialect list ++ (references ++ ' ' :: (onto ++
            ' ' :: namesText dialect keyList))))) := by
      simp
    rw [foreignKeyText, indexText, ← same] at isRead
    exact isRead

/-- A name, a type and what is said of the column declare the column. -/
theorem declaring_typed {type : ColumnType} (name : String) (declarable : type.Declarable)
    (forDialect : type.engine = dialect.engine) {said : String} {list : List String}
    {marks : List Mark} (isSaid : said.toList = marksText list)
    (areRemarks : ∀ word ∈ list, isRemark word = true) (areMarks : marks? list = some marks) :
    Declaring (clause dialect) dialect [.name name, .words (" " ++ type.ddl ++ said)]
      (.column name type marks) where
  unbound := rfl
  takesBack := by
    have isRead := takesBack_column name declarable forDialect areRemarks areMarks
    have same : [Piece.name name, .words (" " ++ type.ddl ++ said)].flatMap (Piece.chars dialect) =
        (dialect.quote name).toList ++ ' ' :: (type.ddl.toList ++ marksText list) := by
      simp [Piece.chars, isSaid]
    rwa [same]

theorem numberedKey?_eq_some_iff {place : Nat} :
    numberedKey? table = some place ↔ table.primaryKeys = [place] ∧
      ∃ column, table.columns[place]? = some column ∧ column.autoIncrement = true := by
  unfold numberedKey?
  split
  · next only isOnly =>
    rw [isOnly, List.singleton_inj, Option.ite_none_right_eq_some, Option.any_eq_true,
      Option.some_inj]
    constructor
    · rintro ⟨numbers, rfl⟩
      exact ⟨rfl, numbers⟩
    · rintro ⟨rfl, numbers⟩
      exact ⟨numbers, rfl⟩
  · next several => exact ⟨nofun, fun ⟨alone, _⟩ => (several _ alone).elim⟩

/-- What the key of a table leaves to the definition of a column. -/
def inlineKeys (dialect : Dialect) (table : Table) (column : Column) :
    List (String × List String) :=
  if table.NumbersKey dialect column then [(table.name, [column.name])] else []

theorem typeText_eq {column : Column} {type : ColumnType}
    (typed : column.type? dialect.engine = some type) : typeText dialect column = .ok type.ddl := by
  simp [typeText, Column.requireType, typed]

/-- What MySQL and MariaDB are told of a column behind its type. -/
def saidMySql (nullable autoIncrement : Bool) : List String :=
  (if nullable then ["NULL"] else ["NOT", "NULL"]) ++
    if autoIncrement then ["AUTO_INCREMENT"] else []

def marksMySql (nullable autoIncrement : Bool) : List Mark :=
  (if nullable then .null else .notNull) :: if autoIncrement then [.numbered] else []

/-- What numbers no rows in SQLite is declared by its own type. -/
theorem declaresColumn_ordinary {column : Column} {type : ColumnType}
    (ordinary : ¬ table.NumbersKey dialect column)
    (typed : column.type? dialect.engine = some type) {marks : List Mark}
    (notNull : .notNull ∈ marks ↔ column.nullable = false) :
    DeclaresColumn dialect table column
      { table := table.name, name := column.name, type, marks } where
  owner := rfl
  name := rfl
  numbered numbers := absurd numbers ordinary
  ordinary _ := ⟨typed, notNull⟩

theorem keys_ordinary {column : Column} {type : ColumnType} {marks : List Mark}
    (ordinary : ¬ table.NumbersKey dialect column) (noKey : .primaryKey ∉ marks) :
    (Clause.column column.name type marks).keys table.name = inlineKeys dialect table column := by
  have noKeys : marks.filter (· = .primaryKey) = [] :=
    List.filter_eq_nil_iff.mpr fun mark isMark => by
      simpa using fun same : mark = .primaryKey => noKey (same ▸ isMark)
  rw [inlineKeys, if_neg ordinary, Clause.keys, noKeys]
  rfl

/-- The definition of a column is read as one that declares it. -/
def ColumnDeclared (dialect : Dialect) (table : Table) (column : Column) : Prop :=
  ∃ pieces type marks, Creating.column dialect table column = .ok pieces ∧
    Declaring (clause dialect) dialect pieces (.column column.name type marks) ∧
    DeclaresColumn dialect table column
      { table := table.name, name := column.name, type, marks } ∧
    (Clause.column column.name type marks).keys table.name = inlineKeys dialect table column

theorem declared_columnMySql {column : Column} {type : ColumnType} (other : dialect ≠ .sqlite)
    (typed : column.type? dialect.engine = some type) (forDialect : type.engine = dialect.engine)
    (declarable : type.Declarable) : ColumnDeclared dialect table column := by
  have isColumn : Creating.column dialect table column = columnMySql dialect column := by
    cases dialect <;> first | rfl | exact absurd rfl other
  have ordinary : ¬ table.NumbersKey dialect column := fun numbers => other numbers.1
  have isSaid : ((if column.nullable then " NULL" else " NOT NULL") ++
      (if column.autoIncrement then " AUTO_INCREMENT" else "")).toList =
        marksText (saidMySql column.nullable column.autoIncrement) := by
    cases column.nullable <;> cases column.autoIncrement <;> rfl
  have areRemarks : ∀ word ∈ saidMySql column.nullable column.autoIncrement,
      isRemark word = true := by
    cases column.nullable <;> cases column.autoIncrement <;> decide
  have areMarks : marks? (saidMySql column.nullable column.autoIncrement) =
      some (marksMySql column.nullable column.autoIncrement) := by
    cases column.nullable <;> cases column.autoIncrement <;> rfl
  have declaring := declaring_typed column.name declarable forDialect isSaid areRemarks areMarks
  rw [← String.append_assoc] at declaring
  refine ⟨_, type, _, ?_, declaring, declaresColumn_ordinary ordinary typed ?_,
    keys_ordinary ordinary ?_⟩
  · rw [isColumn, columnMySql, typeText_eq typed]
    rfl
  · cases column.nullable <;> cases column.autoIncrement <;> decide
  · cases column.nullable <;> cases column.autoIncrement <;> decide

/-- What SQLite is told of a column behind its type. -/
def saidSqlite (nullable : Bool) : List String := if nullable then [] else ["NOT", "NULL"]

def marksSqlite (nullable : Bool) : List Mark := if nullable then [] else [.notNull]

theorem declared_columnSqlite {column : Column} {type : ColumnType}
    (found : table.columns[column.position]? = some column)
    (typed : column.type? .sqlite = some type) (forSqlite : type.engine = Dialect.sqlite.engine)
    (declarable : type.Declarable) : ColumnDeclared .sqlite table column := by
  by_cases numbers : table.NumbersKey .sqlite column
  · have key : ColumnType.Declarable (.named .sqlite "integer") :=
      .ofNamed .sqlite "integer" (by decide) (by decide)
    have isSaid : " PRIMARY KEY AUTOINCREMENT".toList =
        marksText ["PRIMARY", "KEY", "AUTOINCREMENT"] := rfl
    have declaring : Declaring (clause .sqlite) .sqlite _ _ :=
      declaring_typed column.name key rfl isSaid (by decide) rfl
    have isNumbered : numberedKey? table = some column.position :=
      numberedKey?_eq_some_iff.mpr ⟨numbers.2.1, column, found, numbers.2.2⟩
    refine ⟨_, .named .sqlite "integer", [.primaryKey, .numbered], ?_, declaring,
      ⟨rfl, rfl, fun _ => ⟨rfl, rfl⟩, fun ordinary => absurd numbers ordinary⟩, ?_⟩
    · rw [Creating.column, columnSqlite, if_pos isNumbered]
      rfl
    · rw [inlineKeys, if_pos numbers]
      rfl
  · have isSaid : (if column.nullable then "" else " NOT NULL").toList =
        marksText (saidSqlite column.nullable) := by
      cases column.nullable <;> rfl
    have areRemarks : ∀ word ∈ saidSqlite column.nullable, isRemark word = true := by
      cases column.nullable <;> decide
    have areMarks : marks? (saidSqlite column.nullable) = some (marksSqlite column.nullable) := by
      cases column.nullable <;> rfl
    have declaring : Declaring (clause .sqlite) .sqlite _ _ :=
      declaring_typed column.name declarable forSqlite isSaid areRemarks areMarks
    have notNumbered : numberedKey? table ≠ some column.position := by
      intro isNumbered
      obtain ⟨alone, other, isOther, auto⟩ := numberedKey?_eq_some_iff.mp isNumbered
      obtain rfl := Option.some.inj (found.symm.trans isOther)
      exact numbers ⟨rfl, alone, auto⟩
    refine ⟨_, type, _, ?_, declaring, declaresColumn_ordinary numbers typed ?_,
      keys_ordinary numbers ?_⟩
    · rw [Creating.column, columnSqlite, if_neg notNumbered, typeText_eq typed]
      rfl
    · cases column.nullable <;> decide
    · cases column.nullable <;> decide

theorem column_declared {column : Column} {type : ColumnType}
    (found : table.columns[column.position]? = some column)
    (typed : column.type? dialect.engine = some type) (forDialect : type.engine = dialect.engine)
    (declarable : type.Declarable) : ColumnDeclared dialect table column := by
  by_cases isSqlite : dialect = .sqlite
  · subst isSqlite
    exact declared_columnSqlite found typed forDialect declarable
  · exact declared_columnMySql isSqlite typed forDialect declarable

end Creating

end RelationalAccess
