import RelationalAccess.Sql.Dialect

/-!
Statements: their text, and the values bound to its parameters. A statement is
put together from pieces; its parameters are numbered in the order in which
they stand.
-/

namespace RelationalAccess

/-- The text of a statement with its parameters, each with its name. -/
structure Statement where
  text : String
  parameters : List (String × Value) := []
  deriving DecidableEq

/-- A piece of a statement. -/
inductive Piece where
  /-- Text that stands as it is. -/
  | words (text : String)
  /-- A name, which the dialect quotes. -/
  | name (name : String)
  /-- A bound value, for which the mark of a parameter stands. -/
  | bound (value : Value)
  deriving DecidableEq

namespace Piece

/-- Groups of pieces with words between them. -/
def separated (separator : String) : List (List Piece) → List Piece
  | [] => []
  | [only] => only
  | first :: others => first ++ .words separator :: separated separator others

/-- Names with commas between them. -/
def names (names : List String) : List Piece := separated ", " (names.map fun name => [.name name])

/-- The names of the columns at some positions of a table. -/
def columnNames (table : Table) (positions : List Nat) : List Piece :=
  names ((table.columnsAt positions).map (·.name))

end Piece

namespace Statement

/-- The name of the parameter of a number. -/
def parameterName (number : Nat) : String := "p" ++ Error.number number

/-- The statement that pieces make up, its parameters being numbered from `first`. -/
def assembleFrom (dialect : Dialect) (first : Nat) : List Piece → Statement
  | [] => { text := "" }
  | .words text :: rest =>
    let further := assembleFrom dialect first rest
    { further with text := text ++ further.text }
  | .name name :: rest =>
    let further := assembleFrom dialect first rest
    { further with text := dialect.quote name ++ further.text }
  | .bound value :: rest =>
    let further := assembleFrom dialect (first + 1) rest
    { text := dialect.parameter (parameterName first) ++ further.text
      parameters := (parameterName first, value) :: further.parameters }

/-- The statement that pieces make up. -/
def assemble (dialect : Dialect) (pieces : List Piece) : Statement := assembleFrom dialect 0 pieces

end Statement

end RelationalAccess
