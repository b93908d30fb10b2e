import RelationalAccess.Proofs.Query.Truth
import RelationalAccess.Query.Lowering

/-!
What predicates say of a row. A predicate is read as it stands: NOT, AND and OR
are those of SQL, a comparison is read from whichever side its constant stands
on, and only a test of a boolean column that may be null against a flag looks at
the NOTs right above it. Nothing here is taken from the lowering but the names of
operands and of matches.
-/

namespace RelationalAccess

namespace Predicate

/-- The column or the constant that a predicate stands for, if it stands for a value. -/
def operand? (table : Table) : Predicate → Option Lowering.Operand
  | .field name => (table.columnIndex? name).map .column
  | .unwrap inner => inner.operand? table
  | .constant value => some (.value value)
  | _ => none

/-- The values that a predicate lists, seen through any views of them. -/
def elements? : Predicate → Option (List Value)
  | .list values => some values
  | .span inner => inner.elements?
  | _ => none

/-- The position of the column that a predicate stands for. -/
def fieldIndex? (table : Table) (predicate : Predicate) : Option Nat :=
  match predicate.operand? table with
  | some (.column position) => some position
  | _ => none

end Predicate

/-- A comparison of a boolean column that may be null with a flag. -/
structure FlagTest where
  column : Nat
  /-- Whether it asks for equality or for inequality. -/
  equal : Bool
  flag : Bool

namespace FlagTest

def opposite (test : FlagTest) : FlagTest := { test with equal := !test.equal }

/-- The test under a NOT, where there is one. -/
def turnIf (negated : Bool) (test : FlagTest) : FlagTest :=
  if negated then test.opposite else test

@[simp] theorem opposite_opposite (test : FlagTest) : test.opposite.opposite = test := by
  simp [opposite]

/-- What a test says of a row. A null differs from both flags. -/
def truth (relations : Relations) (row : List Value) (test : FlagTest) : Truth :=
  let value := row.getD test.column .null
  if test.equal then .equal relations value (.bool test.flag)
  else if value.isNull then .holds
  else .notEqual relations value (.bool test.flag)

/-- The test of a column, if it is boolean and may be null. -/
def ofColumn? (table : Table) (position : Nat) (equal flag : Bool) : Option FlagTest :=
  if (table.columns[position]?.any fun column => decide (column.host = .bool) && column.nullable) then
    some { column := position, equal, flag }
  else none

/-- The test that the comparison of a column with a constant is, if it is one. -/
def ofComparison? (table : Table) (position : Nat) (comparator : Comparator) (value : Value) :
    Option FlagTest :=
  match comparator, value with
  | .eq, .bool flag => ofColumn? table position true flag
  | .ne, .bool flag => ofColumn? table position false flag
  | _, _ => none

/-- The test that the comparison of two operands is, if it is one. -/
def ofOperands? (table : Table) (comparator : Comparator) :
    Option Lowering.Operand → Option Lowering.Operand → Option FlagTest
  | some (.column position), some (.value value) => ofComparison? table position comparator value
  | some (.value value), some (.column position) => ofComparison? table position comparator value
  | _, _ => none

end FlagTest

namespace Pattern

/-- A text as a pattern that stands for nothing but the text. -/
def literally : List Char → List Char
  | [] => []
  | char :: rest =>
    if char ∈ ['\\', '%', '_'] then '\\' :: char :: literally rest else char :: literally rest

/-- The pattern of the texts that have a given one in the asked place. -/
def asking (kind : Lowering.Match) (text : String) : String :=
  let literal := String.ofList (literally text.toList)
  match kind with
  | .anywhere => "%" ++ literal ++ "%"
  | .atStart => literal ++ "%"
  | .atEnd => "%" ++ literal

end Pattern

namespace Predicate

/-- The test that a predicate is, any NOTs on it being counted. A boolean field
asks whether it is true. -/
def flagTest? (table : Table) : Predicate → Option FlagTest
  | .not inner => (inner.flagTest? table).map FlagTest.opposite
  | .compare comparator left right =>
    FlagTest.ofOperands? table comparator (left.operand? table) (right.operand? table)
  | .field name =>
    ((field name).fieldIndex? table).bind (FlagTest.ofComparison? table · .eq (.bool true))
  | .unwrap inner =>
    (inner.fieldIndex? table).bind (FlagTest.ofComparison? table · .eq (.bool true))
  | _ => none

section

variable (relations : Relations) (row : List Value)

/-- What the comparison of a column with a constant says of a row. The order of
values is not asked for against null. -/
def columnTruth? (position : Nat) (comparator : Comparator) (constant : Value) : Option Truth :=
  let value := row.getD position .null
  match comparator, constant.isNull with
  | .eq, true => some (.ofBool value.isNull)
  | .ne, true => some (.ofBool (!value.isNull))
  | .eq, false => some (.equal relations value constant)
  | .ne, false => some (.notEqual relations value constant)
  | .gt, false => some (.relate relations.greater value constant)
  | .ge, false => some (.relate relations.greaterOrEqual value constant)
  | .lt, false => some (.relate relations.less value constant)
  | .le, false => some (.relate relations.lessOrEqual value constant)
  | _, true => none

/-- What the comparison of a constant with a column says of a row. A constant is
less than a value where the value is greater than the constant, and so on. -/
def constantFirstTruth? (constant : Value) (comparator : Comparator) (position : Nat) :
    Option Truth :=
  let value := row.getD position .null
  match comparator, constant.isNull with
  | .eq, true => some (.ofBool value.isNull)
  | .ne, true => some (.ofBool (!value.isNull))
  | .eq, false => some (.equal relations value constant)
  | .ne, false => some (.notEqual relations value constant)
  | .gt, false => some (.relate relations.less value constant)
  | .ge, false => some (.relate relations.lessOrEqual value constant)
  | .lt, false => some (.relate relations.greater value constant)
  | .le, false => some (.relate relations.greaterOrEqual value constant)
  | _, true => none

/-- What the comparison of two constants says. -/
def constantTruth? (comparator : Comparator) (left right : Value) : Option Truth :=
  match comparator with
  | .eq => some (.ofBool (decide (left = right)))
  | .ne => some (.ofBool (decide (left ≠ right)))
  | _ => none

/-- What a comparison says of a row. -/
def comparisonTruth? (comparator : Comparator) :
    Option Lowering.Operand → Option Lowering.Operand → Option Truth
  | some (.column position), some (.value value) =>
    columnTruth? relations row position comparator value
  | some (.value value), some (.column position) =>
    constantFirstTruth? relations row value comparator position
  | some (.value left), some (.value right) => constantTruth? comparator left right
  | _, _ => none

/-- What the membership of an item in a list says of a row. -/
def membershipTruth? (values : List Value) : Option Lowering.Operand → Option Truth
  | some (.value item) => some (.ofBool (decide (item ∈ values)))
  | some (.column position) =>
    if values.isEmpty then some .fails else some (.isIn relations (row.getD position .null) values)
  | none => none

/-- What the match of a field with a text says of a row. -/
def matchTruth? (kind : Lowering.Match) (position : Option Nat) :
    Option Lowering.Operand → Option Truth
  | some (.value (.text text)) =>
    position.map fun position =>
      .relate relations.like (row.getD position .null) (.text (Pattern.asking kind text))
  | _ => none

/-- What a call says of a row. -/
def callTruth? (table : Table) (target : Predicate) (method : String) :
    List Predicate → Option Truth
  | [argument] =>
    if method = "contains" then
      match target.elements? with
      | some values => membershipTruth? relations row values (argument.operand? table)
      | none =>
        matchTruth? relations row .anywhere (target.fieldIndex? table) (argument.operand? table)
    else if method = "starts_with" then
      matchTruth? relations row .atStart (target.fieldIndex? table) (argument.operand? table)
    else if method = "ends_with" then
      matchTruth? relations row .atEnd (target.fieldIndex? table) (argument.operand? table)
    else none
  | _ => none

/-- What a boolean field says of a row: that it is true. -/
def fieldTruth? (table : Table) (position : Nat) : Option Truth :=
  if (table.columns[position]?.any (·.host = .bool)) then
    columnTruth? relations row position .eq (.bool true)
  else none

/-- What a predicate without NOT, AND and OR says of a row, if it says anything. -/
def leafTruth? (table : Table) : Predicate → Option Truth
  | .compare comparator left right =>
    comparisonTruth? relations row comparator (left.operand? table) (right.operand? table)
  | .call target method arguments => callTruth? relations row table target method arguments
  | .constant (.bool flag) => some (.ofBool flag)
  | .field name => ((field name).fieldIndex? table).bind (fieldTruth? relations row table)
  | .unwrap inner => (inner.fieldIndex? table).bind (fieldTruth? relations row table)
  | _ => none

/-- What a predicate says of a row, if it says anything. -/
def truth? (table : Table) : Predicate → Option Truth
  | .not inner =>
    match (not inner).flagTest? table with
    | some test => some (test.truth relations row)
    | none => (inner.truth? table).map Truth.not
  | .join connective left right => do
    return Truth.join connective (← left.truth? table) (← right.truth? table)
  | other =>
    match other.flagTest? table with
    | some test => some (test.truth relations row)
    | none => other.leafTruth? relations row table

end

end Predicate

end RelationalAccess
