import RelationalAccess.Query.Condition
import RelationalAccess.Sql.Conversion
import RelationalAccess.Sql.Statement

/-!
Conditions as pieces of a statement. A group stands in parentheses where it is
negated or has more than one member. An empty group and a membership in the
empty list are written as comparisons of constants, for engines refuse them.
-/

namespace RelationalAccess

/-- A truth value as a comparison of constants. -/
def Piece.truth (holds : Bool) : Piece := .words (if holds then "1=1" else "1=0")

namespace Comparison

/-- The bound form of the operands. -/
def written (dialect : Dialect) (column : Column) (operands : List Value) : Except Error (List Piece) :=
  operands.mapM fun operand => do return .bound (← dialect.write column operand)

/-- A comparison without its negation. -/
def body (dialect : Dialect) (column : Column) (comparison : Comparison) : Except Error (List Piece) :=
  let operator := comparison.operator
  match operator with
  | .isIn | .isNotIn =>
    if comparison.operands.isEmpty then .ok [.truth (decide (operator = .isNotIn))]
    else do
      let operands ← written dialect column comparison.operands
      return .name column.name :: .words (" " ++ operator.sql ++ " (") ::
        (Piece.separated ", " (operands.map ([·])) ++ [.words ")"])
  | .isNull | .isNotNull => .ok [.name column.name, .words (" " ++ operator.sql)]
  | _ => do
    let operand ← dialect.write column (comparison.operands.headD .null)
    let tail := if operator = .like then [.words (" " ++ dialect.likeEscape)] else []
    return .name column.name :: .words (" " ++ operator.sql ++ " ") :: .bound operand :: tail

/-- A comparison, in parentheses behind a NOT where it is negated. -/
def pieces (dialect : Dialect) (table : Table) (comparison : Comparison) :
    Except Error (List Piece) :=
  match table.columns[comparison.column]? with
  | none => .error (.unknownColumn table.name (Error.number comparison.column))
  | some column => do
    let body ← comparison.body dialect column
    return if comparison.negated then .words "NOT (" :: body ++ [.words ")"] else body

end Comparison

namespace Condition

def joiner : Connective → String
  | .and => " AND "
  | .or => " OR "

/-- A group from the pieces of its members. -/
def enclose (connective : Connective) (negated : Bool) (members : List (List Piece)) : List Piece :=
  let negation : List Piece := if negated then [.words "NOT "] else []
  if members.isEmpty then negation ++ [.truth (decide (connective = .and))]
  else
    let joined := Piece.separated (joiner connective) members
    if negated ∨ 1 < members.length then negation ++ .words "(" :: joined ++ [.words ")"]
    else joined

mutual

/-- A condition on the rows of a table. -/
def pieces (dialect : Dialect) (table : Table) : Condition → Except Error (List Piece)
  | .comparison test => test.pieces dialect table
  | .literal holds => .ok [.truth holds]
  | .group connective negated members => do
    return enclose connective negated (← piecesOfAll dialect table members)

/-- Several conditions on the rows of a table. -/
def piecesOfAll (dialect : Dialect) (table : Table) : List Condition → Except Error (List (List Piece))
  | [] => .ok []
  | first :: others => do
    let pieces ← pieces dialect table first
    return pieces :: (← piecesOfAll dialect table others)

end

end Condition

namespace Filter

def pieces (dialect : Dialect) (table : Table) (filter : Filter) : Except Error (List Piece) :=
  filter.toCondition.pieces dialect table

/-- The text of a filter by itself. -/
def render (dialect : Dialect) (table : Table) (filter : Filter) : Except Error Statement := do
  return .assemble dialect (← filter.pieces dialect table)

end Filter

end RelationalAccess
