import RelationalAccess.Proofs.Sql.Creation

/-!
The texts of clauses, tables and indices are read back as what they create.
-/

namespace RelationalAccess.Creation

open Declaration

variable {dialect : Dialect} {rest : List Char}

/-! ### Clauses -/

theorem wordless_namesText (dialect : Dialect) (list : List String) (rest : List Char) :
    Wordless (' ' :: (namesText dialect list ++ rest)) :=
  ⟨startsApart_cons.mpr (by decide), startsApart_cons.mpr (by decide)⟩

theorem nameMark_not_isNameChar (dialect : Dialect) : isNameChar dialect.nameMark = false := by
  cases dialect <;> rfl

theorem wordless_quote (dialect : Dialect) (name : String) (rest : List Char) :
    Wordless (' ' :: ((dialect.quote name).toList ++ rest)) := by
  refine ⟨startsApart_cons.mpr (by decide), ?_⟩
  rw [skipSpace_space, skipSpace_quote]
  exact startsApart_quote (nameMark_not_isNameChar dialect) name rest

/-- A primary key as a clause of a table. -/
def primaryKeyText (dialect : Dialect) (list : List String) : List Char :=
  spelled [] ["PRIMARY", "KEY"] ++ ' ' :: namesText dialect list

theorem takesBack_primaryKey (list : List String) :
    TakesBack (clause dialect) (primaryKeyText dialect list) (.primaryKey list) where
  apart rest := startsApart_cons.mpr rfl
  read rest _ := by
    have begins := words_spelled [] "PRIMARY" ["KEY"] (by decide) (List.forall_mem_nil _)
      (wordless_namesText dialect list rest)
    rw [primaryKeyText, List.append_assoc, clause]
    refine (Reader.bind_of_read begins).trans ?_
    rw [clauseBehind_primaryKey]
    exact Reader.bind_of_read (names_space dialect list rest)

/-- A name and the columns that it stands for. -/
def indexText (dialect : Dialect) (name : String) (list : List String) : List Char :=
  ' ' :: ((dialect.quote name).toList ++ ' ' :: namesText dialect list)

theorem indexText_append (name : String) (list : List String) :
    indexText dialect name list ++ rest =
      ' ' :: ((dialect.quote name).toList ++ ' ' :: (namesText dialect list ++ rest)) := by
  rw [indexText, List.cons_append, List.append_assoc, List.cons_append]

theorem takesBack_index (unique : Bool) (name : String) (list : List String) :
    TakesBack (clause dialect)
      (spelled [] (indexWords unique) ++ indexText dialect name list)
      (.index unique name list) where
  apart rest := by cases unique <;> exact startsApart_cons.mpr rfl
  read rest _ := by
    have isName := quoted_space name
      (unquoted_space dialect (namesText dialect list ++ rest))
    have areNames := names_space dialect list rest
    have apart := wordless_quote dialect name (' ' :: (namesText dialect list ++ rest))
    rw [List.append_assoc, indexText_append, clause]
    generalize ' ' :: ((dialect.quote name).toList ++ ' ' :: (namesText dialect list ++ rest)) =
      body at *
    have begins : words (spelled [] (indexWords unique) ++ body) =
        some (indexWords unique, body) := by
      cases unique with
      | true => exact words_spelled [] "UNIQUE" ["KEY"] (by decide) (List.forall_mem_nil _) apart
      | false => exact words_spelled [] "KEY" [] (by decide) (List.forall_mem_nil _) apart
    refine (Reader.bind_of_read begins).trans ?_
    rw [clauseBehind_index]
    exact (Reader.bind_of_read isName).trans (Reader.bind_of_read areNames)

/-- A foreign key as a clause of a table. -/
def foreignKeyText (dialect : Dialect) (constraint : String) (columns : List String)
    (table : String) (referred : List String) : List Char :=
  spelled [] ["CONSTRAINT"] ++ ' ' :: ((dialect.quote constraint).toList ++
    (spelled [' '] ["FOREIGN", "KEY"] ++ ' ' :: (namesText dialect columns ++
      (spelled [' '] ["REFERENCES"] ++ indexText dialect table referred))))

theorem takesBack_foreignKey (constraint : String) (columns : List String) (table : String)
    (referred : List String) :
    TakesBack (clause dialect) (foreignKeyText dialect constraint columns table referred)
      (.foreignKey constraint columns table referred) where
  apart rest := startsApart_cons.mpr rfl
  read rest _ := by
    simp only [foreignKeyText, List.append_assoc, List.cons_append, indexText_append]
    have areReferred := names_space dialect referred rest
    have isTable := quoted_space table
      (unquoted_space dialect (namesText dialect referred ++ rest))
    have references := saying_spelled [' '] "REFERENCES" [] (by decide) isSpace_blank
      (wordless_quote dialect table (' ' :: (namesText dialect referred ++ rest)))
    generalize ' ' :: ((dialect.quote table).toList ++
      ' ' :: (namesText dialect referred ++ rest)) = ontoTable at *
    have areColumns := names_space dialect columns (spelled [' '] ["REFERENCES"] ++ ontoTable)
    have foreign := saying_spelled [' '] "FOREIGN" ["KEY"] (by decide) isSpace_blank
      (wordless_namesText dialect columns (spelled [' '] ["REFERENCES"] ++ ontoTable))
    generalize ' ' :: (namesText dialect columns ++ (spelled [' '] ["REFERENCES"] ++ ontoTable)) =
      ofColumns at *
    have isConstraint := quoted_space constraint
      (unquoted_space dialect (spelled [] ["FOREIGN", "KEY"] ++ ofColumns))
    have begins := words_spelled [] "CONSTRAINT" [] (by decide) (List.forall_mem_nil _)
      (wordless_quote dialect constraint (spelled [' '] ["FOREIGN", "KEY"] ++ ofColumns))
    rw [clause]
    refine (Reader.bind_of_read begins).trans ?_
    rw [clauseBehind_foreignKey]
    refine (Reader.bind_of_read isConstraint).trans ?_
    refine (Reader.bind_of_read foreign).trans ?_
    refine (Reader.bind_of_read areColumns).trans ?_
    refine (Reader.bind_of_read references).trans ?_
    refine (Reader.bind_of_read isTable).trans ?_
    exact Reader.bind_of_read areReferred

/-- Whether a word cannot be read as the one for types without a sign. -/
def isRemark (word : String) : Bool :=
  isWord word && !word.toList.head?.any (·.toLower == 'u')

theorem startsApart_of_isRemark {word : String} (isRemark : isRemark word = true) :
    StartsApart (·.toLower == 'u') word.toList := by
  intro char first
  have apart := (Bool.and_eq_true_iff.mp isRemark).2
  rw [Option.mem_def.mp first] at apart
  simpa using apart

/-- What is said of a column, behind its type. -/
def marksText (list : List String) : List Char := list.flatMap (' ' :: ·.toList)

theorem marksText_cons (first : String) (others : List String) :
    marksText (first :: others) = spelled [' '] (first :: others) := by
  rw [spelled, List.map_cons, intercalate_cons, List.flatMap_map]
  rfl

theorem words_marksText {list : List String} (areRemarks : ∀ word ∈ list, isRemark word = true)
    (ends : EndsItem rest) : words (marksText list ++ rest) = some (list, rest) := by
  have areWords (word : String) (listed : word ∈ list) : isWord word = true :=
    (Bool.and_eq_true_iff.mp (areRemarks word listed)).1
  have wordless := wordless_of_endsItem ends
  cases list with
  | nil => exact words_none wordless.2
  | cons first others =>
    rw [marksText_cons]
    exact words_spelled [' '] first others areWords isSpace_blank wordless

/-- What is said of a column does not belong to its type. -/
theorem endsType_marksText {list : List String} (areRemarks : ∀ word ∈ list, isRemark word = true)
    (ends : EndsItem rest) : EndsType (marksText list ++ rest) := by
  cases list with
  | nil =>
    obtain ⟨apart, _⟩ := wordless_of_endsItem ends
    obtain ⟨further, comes | comes⟩ := ends
    · exact ⟨apart, comes ▸ startsApart_cons.mpr rfl, comes ▸ startsApart_cons.mpr rfl⟩
    · exact ⟨apart, comes ▸ startsApart_cons.mpr rfl, comes ▸ startsApart_cons.mpr rfl⟩
  | cons first others =>
    have isRemark := areRemarks first List.mem_cons_self
    obtain ⟨present, chars⟩ := Bool.and_eq_true_iff.mp (Bool.and_eq_true_iff.mp isRemark).1
    have begins : marksText (first :: others) ++ rest =
        ' ' :: (first.toList ++ (marksText others ++ rest)) := by
      rw [marksText, List.flatMap_cons, List.cons_append, List.cons_append, List.append_assoc]
      rfl
    have sign := startsApart_of_isRemark isRemark
    cases word : first.toList with
    | nil => simp [word] at present
    | cons char more =>
      have isName : isNameChar char = true :=
        List.all_eq_true.mp chars char (word ▸ List.mem_cons_self)
      have skipped : skipSpace (marksText (first :: others) ++ rest) =
          char :: (more ++ (marksText others ++ rest)) := by
        rw [begins, word, skipSpace_space]
        exact skipSpace_cons (not_isSpace_of_isNameChar isName)
      refine ⟨begins ▸ startsApart_cons.mpr rfl, ?_, ?_⟩
      · rw [skipped, startsApart_cons]
        by_contra isOpen
        obtain rfl : char = '(' := by simpa using isOpen
        revert isName
        decide
      · have sign : StartsApart (·.toLower == 'u') (char :: more) := word ▸ sign
        rw [skipped]
        exact fun next isFirst => sign next isFirst

theorem takesBack_column {type : ColumnType} (name : String) (declarable : type.Declarable)
    (forDialect : type.engine = dialect.engine) {list : List String} {marks : List Mark}
    (areRemarks : ∀ word ∈ list, isRemark word = true) (areMarks : marks? list = some marks) :
    TakesBack (clause dialect)
      ((dialect.quote name).toList ++ ' ' :: (type.ddl.toList ++ marksText list))
      (.column name type marks) where
  apart rest := by
    rw [List.append_assoc]
    exact startsApart_quote (nameMark_not_isSpace dialect) name _
  read rest ends := by
    rw [List.append_assoc, List.cons_append, List.append_assoc]
    have isType := declarable.readType_ddl (endsType_marksText areRemarks ends)
    have isType : typed dialect (' ' :: (type.ddl.toList ++ (marksText list ++ rest))) =
        some (type, marksText list ++ rest) := by
      rw [typed, skipSpace_space, skipSpace_of_apart (ColumnType.startsApart_of_readType isType),
        ← forDialect, isType]
    have areWords := words_marksText areRemarks ends
    generalize type.ddl.toList ++ (marksText list ++ rest) = ofType at *
    have begins := startsApart_quote (nameMark_not_isSpace dialect) name (' ' :: ofType)
    have noWords := words_none (skipSpace_of_apart begins ▸
      startsApart_quote (nameMark_not_isNameChar dialect) name (' ' :: ofType))
    have isName : quoted dialect ((dialect.quote name).toList ++ ' ' :: ofType) =
        some (name, ' ' :: ofType) :=
      quoted_quote name (unquoted_space dialect ofType)
    refine (Reader.bind_of_read noWords).trans ?_
    refine (Reader.bind_of_read isName).trans ?_
    refine (Reader.bind_of_read isType).trans ?_
    refine (Reader.bind_of_read areWords).trans ?_
    rw [areMarks]
    rfl

/-! ### Statements -/

theorem clause_closing (dialect : Dialect) (rest : List Char) :
    clause dialect (')' :: rest) = none := by
  have noWords : words (')' :: rest) = some ([], ')' :: rest) :=
    words_none (startsApart_cons.mpr (by decide))
  exact (Reader.bind_of_read noWords).trans (Reader.bind_of_none (quoted_closing dialect rest))

/-- The creation of a table with its clauses. -/
def tableText (dialect : Dialect) (name : String) (clauses : List (List Char)) : List Char :=
  spelled [] ["CREATE", "TABLE", "IF", "NOT", "EXISTS"] ++ ' ' :: ((dialect.quote name).toList ++
    ' ' :: '(' :: (['\n', ' ', ' '] ++
      ([',', '\n', ' ', ' '].intercalate clauses ++ ['\n', ')'])))

theorem statement_table (name : String) {texts : List (List Char)} {clauses : List Clause}
    (each : List.Forall₂ (TakesBack (clause dialect)) texts clauses) :
    statement dialect (tableText dialect name texts) = some (.table name clauses, []) := by
  have isList : listed (clause dialect) (' ' :: '(' :: (['\n', ' ', ' '] ++
      ([',', '\n', ' ', ' '].intercalate texts ++ ['\n', ')']))) = some (clauses, []) :=
    listed_written ['\n', ' ', ' '] ['\n', ' ', ' '] ['\n'] []
      isSpace_blank (List.all_eq_true.mp rfl) (List.all_eq_true.mp rfl) (List.all_eq_true.mp rfl)
      each (clause_closing dialect)
  have isName := quoted_space name (unquoted_space dialect ('(' :: (['\n', ' ', ' '] ++
    ([',', '\n', ' ', ' '].intercalate texts ++ ['\n', ')']))))
  rw [tableText]
  generalize ' ' :: '(' :: (['\n', ' ', ' '] ++
    ([',', '\n', ' ', ' '].intercalate texts ++ ['\n', ')'])) = body at *
  have begins := words_spelled [] "CREATE" ["TABLE", "IF", "NOT", "EXISTS"] (by decide)
    (List.forall_mem_nil _) (wordless_quote dialect name body)
  rw [statement]
  refine (Reader.bind_of_read begins).trans ?_
  rw [statementBehind_table]
  refine (Reader.bind_of_read isName).trans ?_
  exact Reader.bind_of_read isList

theorem indexFrom_written (dialect : Dialect) (unique : Bool) (name table : String)
    (columns : List String) :
    indexFrom dialect unique (' ' :: ((dialect.quote name).toList ++
      (spelled [' '] ["ON"] ++ indexText dialect table columns))) =
        some (.index unique name table columns, []) := by
  have areColumns := names_space dialect columns []
  have isTable := quoted_space table
    (unquoted_space dialect (namesText dialect columns ++ []))
  have onTable := saying_spelled [' '] "ON" [] (by decide) isSpace_blank
    (wordless_quote dialect table (' ' :: (namesText dialect columns ++ [])))
  rw [List.append_nil] at areColumns isTable onTable
  have isName : quoted dialect (' ' :: ((dialect.quote name).toList ++
      (spelled [' '] ["ON"] ++ indexText dialect table columns))) =
        some (name, spelled [' '] ["ON"] ++ indexText dialect table columns) :=
    quoted_space name (unquoted_space dialect _)
  refine (Reader.bind_of_read isName).trans ?_
  refine (Reader.bind_of_read onTable).trans ?_
  refine (Reader.bind_of_read isTable).trans ?_
  exact Reader.bind_of_read areColumns

/-- The creation of an index by itself. -/
def standaloneText (dialect : Dialect) (unique : Bool) (name table : String)
    (columns : List String) : List Char :=
  spelled [] (standaloneWords unique) ++ ' ' :: ((dialect.quote name).toList ++
    (spelled [' '] ["ON"] ++ indexText dialect table columns))

theorem statement_standalone (unique : Bool) (name table : String) (columns : List String) :
    statement dialect (standaloneText dialect unique name table columns) =
      some (.index unique name table columns, []) := by
  have apart := wordless_quote dialect name
    (spelled [' '] ["ON"] ++ indexText dialect table columns)
  have isRead := indexFrom_written dialect unique name table columns
  rw [standaloneText]
  generalize ' ' :: ((dialect.quote name).toList ++
    (spelled [' '] ["ON"] ++ indexText dialect table columns)) = body at *
  have begins : words (spelled [] (standaloneWords unique) ++ body) =
      some (standaloneWords unique, body) := by
    cases unique with
    | true =>
      exact words_spelled [] "CREATE" ["UNIQUE", "INDEX", "IF", "NOT", "EXISTS"] (by decide)
        (List.forall_mem_nil _) apart
    | false =>
      exact words_spelled [] "CREATE" ["INDEX", "IF", "NOT", "EXISTS"] (by decide)
        (List.forall_mem_nil _) apart
  rw [statement]
  refine (Reader.bind_of_read begins).trans ?_
  rw [statementBehind_index]
  exact isRead

end RelationalAccess.Creation
