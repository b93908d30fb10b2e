import RelationalAccess.Sql.Changing
import RelationalAccess.Sql.Selecting

/-!
Statements as they are written: a text that grows at its end, and parameters that take their numbers
as they are bound. A mark is handed out when its value is bound and is put into the text only
later, so text and parameters grow apart on the way.
-/

namespace RelationalAccess

/-- A part of the writing of a statement. A statement that is refused is dropped with whatever
was written of it. -/
abbrev Writing := StateT Statement (Except Error)

namespace Writing

/-- Puts a text at the end of the statement. -/
def push (text : String) : Writing Unit :=
  modify fun statement => { statement with text := statement.text ++ text }

def pushIf (asked : Bool) (text : String) : Writing Unit := if asked then push text else pure ()

section

variable (dialect : Dialect) (table : Table)

/-- Adds a parameter behind those that there are. Its mark is handed out, for a text that may be
put down whenever it is ready. -/
def bindValue (value : Value) : Writing String := do
  let statement ← get
  let name := Statement.parameterName statement.parameters.length
  set { statement with parameters := statement.parameters ++ [(name, value)] }
  return dialect.parameter name

/-- Binds the written form of a value for a column. -/
def bindOperand (column : Column) (value : Value) : Writing String := do
  bindValue dialect (← liftM (dialect.write column value))

/-- A comparison without its negation. A membership binds all its values before it is put down. -/
def comparisonBody (column : Column) (comparison : Comparison) : Writing Unit :=
  let operator := comparison.operator
  let name := dialect.quote column.name
  match operator with
  | .isIn | .isNotIn =>
    if comparison.operands.isEmpty then push (if operator = .isIn then "1=0" else "1=1")
    else do
      let marks ← comparison.operands.mapM (bindOperand dialect column)
      push (name ++ " " ++ operator.sql ++ " (" ++ ", ".intercalate marks ++ ")")
  | .isNull | .isNotNull => push (name ++ " " ++ operator.sql)
  | _ => do
    let mark ← bindOperand dialect column (comparison.operands.headD .null)
    let escape := if operator = .like then " " ++ dialect.likeEscape else ""
    push (name ++ " " ++ operator.sql ++ " " ++ mark ++ escape)

def comparison (comparison : Comparison) : Writing Unit :=
  match table.columns[comparison.column]? with
  | none => throw (.unknownColumn table.name (Error.number comparison.column))
  | some column => do
    pushIf comparison.negated "NOT ("
    comparisonBody dialect column comparison
    pushIf comparison.negated ")"

mutual

def condition : Condition → Writing Unit
  | .comparison test => comparison dialect table test
  | .literal holds => push (if holds then "1=1" else "1=0")
  | .group connective negated members => do
    pushIf negated "NOT "
    if members.isEmpty then push (if connective = .and then "1=1" else "1=0")
    else do
      let wrapped := negated || decide (1 < members.length)
      pushIf wrapped "("
      conditions connective false members
      pushIf wrapped ")"

/-- The members of a group, with the connective before each that stands behind another. -/
def conditions (connective : Connective) (behind : Bool) : List Condition → Writing Unit
  | [] => pure ()
  | first :: others => do
    pushIf behind (Condition.joiner connective)
    condition first
    conditions connective true others

end

def filter (filter : Filter) : Writing Unit := condition dialect table filter.toCondition

/-- The quoted names of columns, with commas between them. -/
def columnList (columns : List Column) : String :=
  ", ".intercalate (columns.map fun column => dialect.quote column.name)

/-- What a query returns, as it stands in the text. -/
def returned (query : Query) : Except Error String :=
  match query.projection with
  | .count => .ok "COUNT(*)"
  | .all => .ok (columnList dialect query.table.columns)
  | .keys =>
    if query.table.hasPrimaryKey then
      .ok (columnList dialect (query.table.columnsAt query.table.primaryKeys))
    else .error (.noKeyToSelect query.table.name)

def whereClause (query : Query) : Writing Unit :=
  match query.filter with
  | none => pure ()
  | some given =>
    if given.isEmpty then pure ()
    else do
      push " WHERE "
      filter dialect query.table given

def orderTerm (query : Query) (term : Nat × Bool) : String :=
  columnList dialect (query.table.columnsAt [term.1]) ++ if term.2 then " DESC" else ""

def orderClause (query : Query) : Writing Unit :=
  if query.order.isEmpty ∨ query.projection = .count then pure ()
  else push (" ORDER BY " ++ ", ".intercalate (query.order.map (orderTerm dialect query)))

def pageClause (query : Query) : Writing Unit :=
  if query.projection = .count then pure ()
  else
    match dialect.page? query.limit query.offset with
    | none => pure ()
    | some clause => do
      push " "
      push clause

def query (query : Query) : Writing Unit := do
  let columns ← liftM (returned dialect query)
  push ("SELECT " ++ columns ++ " FROM " ++ dialect.quote query.table.name)
  whereClause dialect query
  orderClause dialect query
  pageClause dialect query

/-- Binds the values of a row one after the other, past the nulls that the engine numbers. The
names of their columns and the marks are gathered for the text. -/
def bindRow : List (Column × Value) → Writing (List String × List String)
  | [] => return ([], [])
  | (column, value) :: rest =>
    if column.autoIncrement && value.isNull then bindRow rest
    else do
      let mark ← bindOperand dialect column value
      let (names, marks) ← bindRow rest
      return (dialect.quote column.name :: names, mark :: marks)

/-- An insertion. It is put down as one text, after all its values are bound. -/
def insertion (values : List Value) : Writing Unit := do
  let (names, marks) ← bindRow dialect (table.columns.zip values)
  if names.isEmpty then push ("INSERT INTO " ++ dialect.quote table.name ++ " DEFAULT VALUES")
  else
    push ("INSERT INTO " ++ dialect.quote table.name ++ " (" ++ ", ".intercalate names ++
      ") VALUES (" ++ ", ".intercalate marks ++ ")")

def assignment (change : Nat × Value) : Writing String :=
  match table.columns[change.1]? with
  | none => throw (.unknownColumn table.name (Error.number change.1))
  | some column => do
    let mark ← bindOperand dialect column change.2
    return dialect.quote column.name ++ " = " ++ mark

/-- An update. Its assignments are put down as one text, after all their values are bound. -/
def update (keys : Keys) (changes : List (Nat × Value)) : Writing Unit :=
  if changes.isEmpty then throw (.nothingToUpdate table.name keys)
  else do
    let assignments ← changes.mapM (assignment dialect table)
    push ("UPDATE " ++ dialect.quote table.name ++ " SET " ++ ", ".intercalate assignments ++
      " WHERE ")
    filter dialect table (← liftM (Statement.rowFilter table keys))

def deletion (keys : Keys) : Writing Unit := do
  push ("DELETE FROM " ++ dialect.quote table.name ++ " WHERE ")
  filter dialect table (← liftM (Statement.rowFilter table keys))

end

/-- The statement that is written from an empty one. -/
def run (act : Writing Unit) : Except Error Statement := do return (← act { text := "" }).2

end Writing

end RelationalAccess
