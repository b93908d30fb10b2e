import RelationalAccess.Proofs.Schema.TypeTexts
import RelationalAccess.Sql.Dialect

/-!
How an engine reads the statements that create tables and indices. White space stands between
words and around signs as it likes; types are read as they are declared.
-/

namespace RelationalAccess

/-- What is said of a column behind its type. -/
inductive Creation.Mark where
  | null
  | notNull
  | numbered
  | primaryKey
  deriving DecidableEq

/-- A clause of a table. -/
inductive Creation.Clause where
  | column (name : String) (type : ColumnType) (marks : List Mark)
  | primaryKey (columns : List String)
  | index (unique : Bool) (name : String) (columns : List String)
  | foreignKey (constraint : String) (columns : List String) (table : String)
    (referred : List String)
  deriving DecidableEq

/-- What a statement creates. -/
inductive Creation where
  | table (name : String) (clauses : List Creation.Clause)
  | index (unique : Bool) (name table : String) (columns : List String)
  deriving DecidableEq

namespace Creation

open Declaration

/-- The words that come next, at most as many as the bound. -/
def wordsWithin : Nat → List Char → List String × List Char
  | 0, text => ([], text)
  | bound + 1, text =>
    let word := (skipSpace text).takeWhile isNameChar
    if word.isEmpty then ([], text)
    else
      let (others, left) := wordsWithin bound ((skipSpace text).dropWhile isNameChar)
      (String.ofList word :: others, left)

/-- Reads all words that come next, with white space before each. -/
def words : Reader (List String) := fun text => some (wordsWithin text.length text)

/-- Reads exactly the given words. -/
def saying (expected : List String) : Reader Unit := do
  if (← words) = expected then return () else failure

/-- Reads a sign after white space. -/
def sign (expected : Char) : Reader Unit := fun text => Reader.exactly expected (skipSpace text)

/-- Reads a quoted name after white space. -/
def quoted (dialect : Dialect) : Reader String := fun text =>
  match skipSpace text with
  | [] => none
  | char :: rest =>
    if char = dialect.nameMark then
      (Quoted.body dialect.nameMark rest).map fun (name, left) => (String.ofList name, left)
    else none

/-- Reads the items of a list after white space, or none. -/
def items (item : Reader α) : Reader (List α) := fun text =>
  readItems item (skipSpace text) <|> some ([], text)

/-- Reads a list in parentheses. -/
def listed (item : Reader α) : Reader (List α) := do
  sign '('
  let values ← items item
  sign ')'
  return values

def names (dialect : Dialect) : Reader (List String) := listed (quoted dialect)

/-- What words say of a column. -/
def marks? : List String → Option (List Mark)
  | [] => some []
  | "NOT" :: "NULL" :: rest => (marks? rest).map (.notNull :: ·)
  | "NULL" :: rest => (marks? rest).map (.null :: ·)
  | "AUTO_INCREMENT" :: rest => (marks? rest).map (.numbered :: ·)
  | "AUTOINCREMENT" :: rest => (marks? rest).map (.numbered :: ·)
  | "PRIMARY" :: "KEY" :: rest => (marks? rest).map (.primaryKey :: ·)
  | _ => none

/-- Reads a type after white space. -/
def typed (dialect : Dialect) : Reader ColumnType := fun text =>
  readType dialect.engine (skipSpace text)

/-- Reads a column: its name, its type and what is said of it. -/
def column (dialect : Dialect) : Reader Clause := do
  let name ← quoted dialect
  let type ← typed dialect
  match marks? (← words) with
  | some marks => return .column name type marks
  | none => failure

/-- Reads a clause of a table behind the words that it begins with; a column has none. -/
def clauseBehind (dialect : Dialect) : List String → Reader Clause
  | [] => column dialect
  | ["PRIMARY", "KEY"] => return .primaryKey (← names dialect)
  | ["UNIQUE", "KEY"] => return .index true (← quoted dialect) (← names dialect)
  | ["KEY"] => return .index false (← quoted dialect) (← names dialect)
  | ["CONSTRAINT"] => do
    let constraint ← quoted dialect
    saying ["FOREIGN", "KEY"]
    let columns ← names dialect
    saying ["REFERENCES"]
    return .foreignKey constraint columns (← quoted dialect) (← names dialect)
  | _ => failure

theorem clauseBehind_primaryKey (dialect : Dialect) :
    clauseBehind dialect ["PRIMARY", "KEY"] = do return .primaryKey (← names dialect) := rfl

/-- The words that an index begins with as a clause of a table. -/
def indexWords (unique : Bool) : List String := if unique then ["UNIQUE", "KEY"] else ["KEY"]

theorem clauseBehind_index (dialect : Dialect) (unique : Bool) :
    clauseBehind dialect (indexWords unique) = do
      return .index unique (← quoted dialect) (← names dialect) := by
  cases unique <;> rfl

theorem clauseBehind_foreignKey (dialect : Dialect) :
    clauseBehind dialect ["CONSTRAINT"] = do
      let constraint ← quoted dialect
      saying ["FOREIGN", "KEY"]
      let columns ← names dialect
      saying ["REFERENCES"]
      return .foreignKey constraint columns (← quoted dialect) (← names dialect) := rfl

/-- Reads a clause of a table. -/
def clause (dialect : Dialect) : Reader Clause := do clauseBehind dialect (← words)

/-- Reads an index that stands by itself, from its name on. -/
def indexFrom (dialect : Dialect) (unique : Bool) : Reader Creation := do
  let name ← quoted dialect
  saying ["ON"]
  return .index unique name (← quoted dialect) (← names dialect)

/-- Reads a statement behind the words that it begins with. -/
def statementBehind (dialect : Dialect) : List String → Reader Creation
  | ["CREATE", "TABLE", "IF", "NOT", "EXISTS"] =>
    return .table (← quoted dialect) (← listed (clause dialect))
  | ["CREATE", "INDEX", "IF", "NOT", "EXISTS"] => indexFrom dialect false
  | ["CREATE", "UNIQUE", "INDEX", "IF", "NOT", "EXISTS"] => indexFrom dialect true
  | _ => failure

theorem statementBehind_table (dialect : Dialect) :
    statementBehind dialect ["CREATE", "TABLE", "IF", "NOT", "EXISTS"] = do
      return .table (← quoted dialect) (← listed (clause dialect)) := rfl

/-- The words that the creation of an index by itself begins with. -/
def standaloneWords (unique : Bool) : List String :=
  if unique then ["CREATE", "UNIQUE", "INDEX", "IF", "NOT", "EXISTS"]
  else ["CREATE", "INDEX", "IF", "NOT", "EXISTS"]

theorem statementBehind_index (dialect : Dialect) (unique : Bool) :
    statementBehind dialect (standaloneWords unique) = indexFrom dialect unique := by
  cases unique <;> rfl

/-- Reads a statement. -/
def statement (dialect : Dialect) : Reader Creation := do statementBehind dialect (← words)

/-- What a text creates. -/
def ofText? (dialect : Dialect) (text : String) : Option Creation := (statement dialect).run? text

/-! ### Words and signs -/

variable {dialect : Dialect} {gap rest : List Char}

theorem isSpace_blank : ∀ char ∈ [' '], isSpace char = true := List.forall_mem_singleton.mpr rfl

/-- No word comes next. -/
def Wordless (rest : List Char) : Prop :=
  StartsApart isNameChar rest ∧ StartsApart isNameChar (skipSpace rest)

theorem wordless_of_endsItem (ends : EndsItem rest) : Wordless rest := by
  refine ⟨ends.apart isNameChar (by decide) (by decide) fun char space => ?_, ?_⟩
  · by_contra isName
    rw [not_isSpace_of_isNameChar (by simpa using isName)] at space
    cases space
  · obtain ⟨further, comes | comes⟩ := ends
    · exact comes ▸ startsApart_cons.mpr (by decide)
    · exact comes ▸ startsApart_cons.mpr (by decide)

theorem wordsWithin_none (apart : StartsApart isNameChar (skipSpace rest)) (bound : Nat) :
    wordsWithin bound rest = ([], rest) := by
  cases bound with
  | zero => rfl
  | succ bound =>
    have noWord : (skipSpace rest).takeWhile isNameChar = [] :=
      takeWhile_of_apart apart
    rw [wordsWithin, noWord]
    rfl

/-- Whether a text is a word. -/
def isWord (text : String) : Bool := !text.toList.isEmpty && text.toList.all isNameChar

theorem wordsWithin_word {word : String} (isWord : isWord word = true)
    (spaces : ∀ char ∈ gap, isSpace char = true) (ended : StartsApart isNameChar rest)
    (bound : Nat) :
    wordsWithin (bound + 1) (gap ++ (word.toList ++ rest)) =
      (word :: (wordsWithin bound rest).1, (wordsWithin bound rest).2) := by
  obtain ⟨present, chars⟩ := Bool.and_eq_true_iff.mp isWord
  have chars : ∀ char ∈ word.toList, isNameChar char = true := List.all_eq_true.mp chars
  have present : word.toList.isEmpty = false := by simpa using present
  have begins : StartsApart isSpace (word.toList ++ rest) := by
    cases begin : word.toList with
    | nil => simp [begin] at present
    | cons first others =>
      exact startsApart_cons.mpr
        (not_isSpace_of_isNameChar (chars first (begin ▸ List.mem_cons_self)))
  rw [wordsWithin, skipSpace_append spaces, skipSpace_of_apart begins,
    takeWhile_append_apart chars ended, dropWhile_append_apart chars ended, present,
    String.ofList_toList]
  rfl

/-- Words with a space between any two, after white space. -/
def spelled (gap : List Char) (list : List String) : List Char :=
  gap ++ [' '].intercalate (list.map String.toList)

theorem spelled_cons (gap : List Char) (first second : String) (others : List String) :
    spelled gap (first :: second :: others) =
      gap ++ (first.toList ++ spelled [' '] (second :: others)) := by
  simp [spelled, List.intercalate]

theorem wordsWithin_spelled {first : String} {others : List String}
    (areWords : ∀ word ∈ first :: others, isWord word = true)
    (spaces : ∀ char ∈ gap, isSpace char = true) (ended : Wordless rest) {bound : Nat}
    (enough : others.length < bound) :
    wordsWithin bound (spelled gap (first :: others) ++ rest) = (first :: others, rest) := by
  obtain ⟨bound, rfl⟩ := Nat.exists_eq_succ_of_ne_zero (Nat.ne_zero_of_lt enough)
  induction others generalizing first gap bound with
  | nil =>
    have alone : spelled gap [first] = gap ++ first.toList := by simp [spelled, List.intercalate]
    have isFirst := areWords first List.mem_cons_self
    rw [alone, List.append_assoc, wordsWithin_word isFirst spaces ended.1, wordsWithin_none ended.2]
  | cons second others inductionHypothesis =>
    obtain ⟨isFirst, areOthers⟩ := List.forall_mem_cons.mp areWords
    rw [spelled_cons, List.append_assoc, List.append_assoc]
    have apart : StartsApart isNameChar (spelled [' '] (second :: others) ++ rest) :=
      startsApart_cons.mpr (by decide)
    obtain ⟨bound, rfl⟩ := Nat.exists_eq_succ_of_ne_zero
      (Nat.ne_zero_of_lt (Nat.lt_of_succ_lt_succ enough))
    rw [wordsWithin_word isFirst spaces apart,
      inductionHypothesis areOthers (by simp [isSpace]) bound (Nat.lt_of_succ_lt_succ enough)]

theorem length_lt_spelled (gap : List Char) {first : String} {others : List String}
    (areWords : ∀ word ∈ first :: others, isWord word = true) :
    others.length < (spelled gap (first :: others)).length := by
  have present {word : String} (isWord : isWord word = true) : 0 < word.toList.length := by
    obtain ⟨present, _⟩ := Bool.and_eq_true_iff.mp isWord
    exact List.length_pos_iff.mpr (by simpa using present)
  induction others generalizing first gap with
  | nil =>
    have positive := present (areWords first List.mem_cons_self)
    simp only [spelled, List.map_cons, List.map_nil, List.intercalate_singleton, List.length_append,
      List.length_nil]
    omega
  | cons second others inductionHypothesis =>
    obtain ⟨isFirst, areOthers⟩ := List.forall_mem_cons.mp areWords
    have positive := present isFirst
    have further := inductionHypothesis [' '] areOthers
    rw [spelled_cons, List.length_append, List.length_append, List.length_cons]
    omega

theorem words_spelled (gap : List Char) (first : String) (others : List String)
    (areWords : ∀ word ∈ first :: others, isWord word = true)
    (spaces : ∀ char ∈ gap, isSpace char = true) (ended : Wordless rest) :
    words (spelled gap (first :: others) ++ rest) = some (first :: others, rest) := by
  refine congrArg some (wordsWithin_spelled areWords spaces ended ?_)
  have length := length_lt_spelled gap areWords
  rw [List.length_append]
  omega

theorem words_none (apart : StartsApart isNameChar (skipSpace rest)) :
    words rest = some ([], rest) :=
  congrArg some (wordsWithin_none apart _)

theorem saying_spelled (gap : List Char) (first : String) (others : List String)
    (areWords : ∀ word ∈ first :: others, isWord word = true)
    (spaces : ∀ char ∈ gap, isSpace char = true) (ended : Wordless rest) :
    saying (first :: others) (spelled gap (first :: others) ++ rest) = some ((), rest) := by
  have areRead := words_spelled gap first others areWords spaces ended
  rw [saying, Reader.bind_of_read areRead, if_pos rfl]
  rfl

theorem sign_append {expected : Char} (noSpace : isSpace expected = false)
    (spaces : ∀ char ∈ gap, isSpace char = true) :
    sign expected (gap ++ expected :: rest) = some ((), rest) := by
  rw [sign, skipSpace_append spaces, skipSpace_cons noSpace, Reader.exactly, if_pos rfl]

theorem nameMark_not_isSpace (dialect : Dialect) : isSpace dialect.nameMark = false := by
  cases dialect <;> rfl

theorem startsApart_quote {kind : Char → Bool} (apart : kind dialect.nameMark = false)
    (name : String) (rest : List Char) :
    StartsApart kind ((dialect.quote name).toList ++ rest) := by
  rw [Dialect.quote, Quoted.encloseText, String.toList_ofList, Quoted.enclose]
  exact startsApart_cons.mpr apart

theorem skipSpace_quote (name : String) (rest : List Char) :
    skipSpace ((dialect.quote name).toList ++ rest) = (dialect.quote name).toList ++ rest :=
  skipSpace_of_apart (startsApart_quote (nameMark_not_isSpace dialect) name rest)

theorem quoted_quote (name : String) (ended : StartsApart (· == dialect.nameMark) rest) :
    quoted dialect ((dialect.quote name).toList ++ rest) = some (name, rest) := by
  have opened : (dialect.quote name).toList ++ rest = dialect.nameMark ::
      (Quoted.doubled dialect.nameMark name.toList ++ dialect.nameMark :: rest) := by
    rw [Dialect.quote, Quoted.encloseText, String.toList_ofList, Quoted.enclose, List.cons_append,
      List.cons_append, List.append_assoc]
    rfl
  rw [quoted, skipSpace_quote, opened]
  simp [Quoted.body_doubled name.toList ended]

theorem quoted_space (name : String) (ended : StartsApart (· == dialect.nameMark) rest) :
    quoted dialect (' ' :: ((dialect.quote name).toList ++ rest)) = some (name, rest) := by
  rw [quoted, skipSpace_space, ← quoted]
  exact quoted_quote name ended

theorem unquoted_space (dialect : Dialect) (rest : List Char) :
    StartsApart (· == dialect.nameMark) (' ' :: rest) :=
  startsApart_cons.mpr (by cases dialect <;> rfl)

/-- A list in parentheses is read, with any white space around its parts. -/
theorem listed_written {item : Reader α} {texts : List (List Char)} {values : List α}
    (before inner behind rest : List Char) (spaces : ∀ char ∈ gap, isSpace char = true)
    (spacesBefore : ∀ char ∈ before, isSpace char = true)
    (spacesInside : ∀ char ∈ inner, isSpace char = true)
    (spacesBehind : ∀ char ∈ behind, isSpace char = true)
    (each : List.Forall₂ (TakesBack item) texts values)
    (noItem : ∀ rest, item (')' :: rest) = none) :
    listed item (gap ++ '(' :: (before ++ ((',' :: inner).intercalate texts ++
      (behind ++ ')' :: rest)))) = some (values, rest) := by
  have ends : EndsList (behind ++ ')' :: rest) :=
    ⟨rest, (skipSpace_append spacesBehind).trans (skipSpace_cons rfl)⟩
  rw [listed, Reader.bind_of_read (sign_append rfl spaces)]
  cases each with
  | nil =>
    have blank : ∀ char ∈ before ++ behind, isSpace char = true :=
      List.forall_mem_append.mpr ⟨spacesBefore, spacesBehind⟩
    have noItems : readItems item (skipSpace (before ++ (behind ++ ')' :: rest))) = none := by
      rw [skipSpace_append spacesBefore, skipSpace_append spacesBehind, skipSpace_cons rfl,
        readItems, noItem]
      rfl
    have isEmpty : items item (before ++ (behind ++ ')' :: rest)) =
        some ([], before ++ (behind ++ ')' :: rest)) := by
      rw [items, noItems]
      rfl
    have closed : sign ')' (before ++ (behind ++ ')' :: rest)) = some ((), rest) :=
      List.append_assoc before behind _ ▸ sign_append rfl blank
    exact (Reader.bind_of_read isEmpty).trans (Reader.bind_of_read closed)
  | @cons text value others further now later =>
    have begins : StartsApart isSpace ((',' :: inner).intercalate (text :: others) ++
        (behind ++ ')' :: rest)) := by
      rw [intercalate_cons, List.append_assoc]
      exact now.apart _
    have list := readItems_separated (List.cons_ne_nil text others) spacesInside
      (.cons now later) ends
    have isList : items item
        (before ++ ((',' :: inner).intercalate (text :: others) ++ (behind ++ ')' :: rest))) =
          some (value :: further, behind ++ ')' :: rest) := by
      rw [items, skipSpace_append spacesBefore, skipSpace_of_apart begins, list]
      rfl
    exact (Reader.bind_of_read isList).trans (Reader.bind_of_read (sign_append rfl spacesBehind))

theorem takesBack_quote (name : String) :
    TakesBack (quoted dialect) (dialect.quote name).toList name where
  apart rest := startsApart_quote (nameMark_not_isSpace dialect) name rest
  read rest ends := by
    have apart := ends.apart (· == dialect.nameMark) (by cases dialect <;> rfl)
      (by cases dialect <;> rfl) (by cases dialect <;> exact isSpace_forall rfl rfl rfl rfl)
    exact quoted_quote name apart

/-- Names with commas between them, in parentheses. -/
def namesText (dialect : Dialect) (list : List String) : List Char :=
  '(' :: ([',', ' '].intercalate (list.map fun name => (dialect.quote name).toList) ++ [')'])

theorem quoted_closing (dialect : Dialect) (rest : List Char) :
    quoted dialect (')' :: rest) = none := by
  cases dialect <;> rfl

theorem names_space (dialect : Dialect) (list : List String) (rest : List Char) :
    names dialect (' ' :: (namesText dialect list ++ rest)) = some (list, rest) := by
  have each : List.Forall₂ (TakesBack (quoted dialect))
      (list.map fun name => (dialect.quote name).toList) list :=
    List.forall₂_map_left_iff.mpr (List.forall₂_same.mpr fun name _ => takesBack_quote name)
  have read := listed_written [] [' '] [] rest isSpace_blank (List.forall_mem_nil _) isSpace_blank
    (List.forall_mem_nil _) each (quoted_closing dialect)
  rw [namesText, List.cons_append, List.append_assoc]
  exact read

end Creation

end RelationalAccess
