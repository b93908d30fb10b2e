import RelationalAccess.Keys
import RelationalAccess.Query.Predicate
import RelationalAccess.Schema.Table

/-!
Conditions on the rows of a table: comparisons of a column with constants,
joined by AND and OR in groups that may be negated. Columns are named by position.
-/

namespace RelationalAccess

/-- How a column is compared with its operands. -/
inductive Operator where
  | equal
  | notEqual
  | greater
  | greaterOrEqual
  | less
  | lessOrEqual
  | like
  | isIn
  | isNotIn
  | isNull
  | isNotNull
  deriving DecidableEq

namespace Operator

/-- The operator as it stands in a statement. -/
def sql : Operator → String
  | equal => "="
  | notEqual => "<>"
  | greater => ">"
  | greaterOrEqual => ">="
  | less => "<"
  | lessOrEqual => "<="
  | like => "LIKE"
  | isIn => "IN"
  | isNotIn => "NOT IN"
  | isNull => "IS NULL"
  | isNotNull => "IS NOT NULL"

def name : Operator → String
  | equal => "Equal"
  | notEqual => "NotEqual"
  | greater => "GreaterThan"
  | greaterOrEqual => "GreaterThanOrEqual"
  | less => "LessThan"
  | lessOrEqual => "LessThanOrEqual"
  | like => "Like"
  | isIn => "In"
  | isNotIn => "NotIn"
  | isNull => "IsNull"
  | isNotNull => "IsNotNull"

def all : List Operator :=
  [equal, notEqual, greater, greaterOrEqual, less, lessOrEqual, like, isIn, isNotIn, isNull,
    isNotNull]

end Operator

/-- A comparison of a column. Tests for null have no operands, memberships any
number, all others one. -/
structure Comparison where
  /-- The position of the column in its table. -/
  column : Nat
  operator : Operator
  operands : List Value
  negated : Bool := false
  deriving DecidableEq

/-- A condition on a row. -/
inductive Condition where
  | comparison (comparison : Comparison)
  | literal (holds : Bool)
  | group (connective : Connective) (negated : Bool) (members : List Condition)

/-- A group of conditions that a statement filters its rows by. -/
structure Filter where
  connective : Connective := .and
  negated : Bool := false
  members : List Condition := []

namespace Condition

mutual

/-- The comparisons anywhere within a condition. -/
def comparisonCount : Condition → Nat
  | comparison _ => 1
  | literal _ => 0
  | group _ _ members => comparisonCounts members

/-- The comparisons anywhere within several conditions. -/
def comparisonCounts : List Condition → Nat
  | [] => 0
  | first :: others => first.comparisonCount + comparisonCounts others

end

/-- A comparison of a column with one value; one with null has no operand. -/
def compare (column : Nat) (operator : Operator) (value : Value) : Condition :=
  .comparison { column, operator, operands := if value.isNull then [] else [value] }

end Condition

namespace Filter

def isEmpty (filter : Filter) : Bool := filter.members.isEmpty

def toCondition (filter : Filter) : Condition :=
  .group filter.connective filter.negated filter.members

def comparisonCount (filter : Filter) : Nat := Condition.comparisonCounts filter.members

/-- The condition that columns have given values. -/
def equalities (columns : List Nat) (values : List Value) : List Condition :=
  (columns.zip values).map fun (column, value) =>
    .comparison { column, operator := .equal, operands := [value] }

/-- The rows whose columns have given values. -/
def ofValues (columns : List Nat) (values : List Value) : Filter :=
  { members := equalities columns values }

/-- The rows with one of some primary keys. -/
def ofKeys (table : Table) (keys : List Keys) : Filter :=
  { connective := .or
    members := keys.map fun key => .group .and false (equalities table.primaryKeys key.values) }

end Filter

end RelationalAccess
