import RelationalAccess.Error
import RelationalAccess.Query.Condition

/-!
Predicates lowered into conditions. A NOT is not written down where it stands:
it is carried to the next comparison or group below it, which takes it up. So
the negation of a conjunction is a negated group, and the negation of a
membership is a membership in the complement. A conjunction within a conjunction
joins its group, and likewise for disjunctions.
-/

namespace RelationalAccess

namespace Lowering

/-- What a comparison is made between. -/
inductive Operand where
  | column (position : Nat)
  | value (value : Value)

def column (table : Table) (name : String) : Except Error Nat :=
  match table.columnIndex? name with
  | some position => .ok position
  | none => .error (.unknownColumn table.name name)

/-- A field, behind any unwrapping, or a constant. -/
def operand (table : Table) : Predicate → Except Error Operand
  | .field name => do return .column (← column table name)
  | .unwrap inner => operand table inner
  | .constant value => .ok (.value value)
  | other => .error (.predicate (.notAnOperand other))

/-- A field, and nothing but a field. -/
def columnOf (table : Table) (predicate : Predicate) : Except Error Nat := do
  match ← operand table predicate with
  | .column position => return position
  | .value value => .error (.predicate (.constantForField value))

/-- The operator of a comparison with a constant, for one that is null and for
one that is not. -/
def operator? (comparator : Comparator) (againstNull : Bool) : Option Operator :=
  match comparator, againstNull with
  | .eq, true => some .isNull
  | .ne, true => some .isNotNull
  | .eq, false => some .equal
  | .ne, false => some .notEqual
  | .gt, false => some .greater
  | .ge, false => some .greaterOrEqual
  | .lt, false => some .less
  | .le, false => some .lessOrEqual
  | _, true => none

/-- Whether a comparison, negated or not, tests for equality or for inequality. -/
def equality? (comparator : Comparator) (negated : Bool) : Option Bool :=
  match comparator with
  | .eq => some !negated
  | .ne => some negated
  | _ => none

/-- A boolean column that equals a constant or differs from it. Where the column
may be null, a null differs from both constants. -/
def booleanCondition (position : Nat) (column : Column) (equal flag : Bool) : Condition :=
  if equal then .compare position .equal (.bool flag)
  else if column.nullable then
    .group .or false [.compare position .isNull .null, .compare position .notEqual (.bool flag)]
  else .compare position .notEqual (.bool flag)

/-- The comparison of a column with a constant. -/
def compareColumn (table : Table) (position : Nat) (comparator : Comparator) (negated : Bool)
    (value : Value) : Except Error Condition :=
  match table.columns[position]? with
  | none => .error (.unknownColumn table.name (Error.number position))
  | some column =>
    match value, equality? comparator negated, decide (column.host = .bool) with
    | .bool flag, some equal, true => .ok (booleanCondition position column equal flag)
    | value, _, _ =>
      match operator? comparator value.isNull with
      | none => .error (.predicate (.orderedAgainstNull column.name))
      | some operator =>
        .ok (.comparison
          { column := position, operator, operands := if value.isNull then [] else [value], negated })

/-- A comparison of constants, which only equality and inequality decide. -/
def compareValues (comparator : Comparator) (negated : Bool) (left right : Value) :
    Except Error Condition :=
  match equality? comparator negated with
  | some equal => .ok (.literal (decide (left = right) == equal))
  | none => .error (.predicate (.unfoldable left comparator right))

/-- A comparison of two operands, the column being put on the left. -/
def comparison (table : Table) (comparator : Comparator) (negated : Bool) (left right : Predicate) :
    Except Error Condition := do
  match ← operand table left, ← operand table right with
  | .column position, .value value => compareColumn table position comparator negated value
  | .value value, .column position => compareColumn table position comparator.flipped negated value
  | .value left, .value right => compareValues comparator negated left right
  | .column _, .column _ => .error (.predicate .betweenColumns)

/-- Whether an item is in a list. Nothing is in the empty list. -/
def membership (table : Table) (negated : Bool) (values : List Value) (item : Predicate) :
    Except Error Condition := do
  match ← operand table item with
  | .value value => return .literal (values.contains value != negated)
  | .column position =>
    if values.isEmpty then return .literal negated
    else
      return .comparison
        { column := position, operator := if negated then .isNotIn else .isIn, operands := values }

/-- A text with a backslash before every character that a pattern would not take
for itself. -/
def escapePattern (text : List Char) : List Char :=
  text.flatMap fun char =>
    if char = '\\' ∨ char = '%' ∨ char = '_' then ['\\', char] else [char]

/-- The part of a text that a pattern describes. -/
inductive Match where
  | anywhere
  | atStart
  | atEnd
  deriving DecidableEq

/-- The pattern of the texts that contain, start with or end with a given one. -/
def pattern (kind : Match) (text : String) : String :=
  let escaped := escapePattern text.toList
  String.ofList <| match kind with
    | .anywhere => '%' :: escaped ++ ['%']
    | .atStart => escaped ++ ['%']
    | .atEnd => '%' :: escaped

/-- The comparison of a field with a pattern. -/
def patternMatch (table : Table) (negated : Bool) (kind : Match) (target argument : Predicate) :
    Except Error Condition := do
  let position ← columnOf table target
  match ← operand table argument with
  | .value (.text text) =>
    return .comparison
      { column := position, operator := .like, operands := [.text (pattern kind text)], negated }
  | _ =>
    let name := match table.columns[position]? with
      | some column => column.name
      | none => Error.number position
    .error (.predicate (.patternNotText name))

/-- A call: a membership in a list, or a match of a field. -/
def call (table : Table) (negated : Bool) (target : Predicate) (method : String)
    (arguments : List Predicate) : Except Error Condition :=
  match arguments with
  | [argument] =>
    if method = "contains" then
      match target.listed? with
      | some values => membership table negated values argument
      | none => patternMatch table negated .anywhere target argument
    else if method = "starts_with" then patternMatch table negated .atStart target argument
    else if method = "ends_with" then patternMatch table negated .atEnd target argument
    else .error (.predicate (.unknownMethod method 1))
  | _ => .error (.predicate (.unknownMethod method arguments.length))

/-- A field that stands for a predicate: it must be boolean, and holds where it is true. -/
def bareField (table : Table) (negated : Bool) (predicate : Predicate) : Except Error Condition := do
  let position ← columnOf table predicate
  match table.columns[position]? with
  | none => .error (.unknownColumn table.name (Error.number position))
  | some column =>
    if column.host = .bool then compareColumn table position .eq negated (.bool true)
    else .error (.predicate (.notBoolean column.name))

/-- A predicate that is neither a NOT nor a junction. -/
def leaf (table : Table) (negated : Bool) : Predicate → Except Error Condition
  | .compare comparator left right => comparison table comparator negated left right
  | .call target method arguments => call table negated target method arguments
  | .constant (.bool flag) => .ok (.literal (flag != negated))
  | .field name => bareField table negated (.field name)
  | .unwrap inner => bareField table negated (.unwrap inner)
  | other => .error (.predicate (.notAPredicate other))

/-- The conditions that a predicate adds to an enclosing group of the given
connective, the NOTs above it taken together as `negated`. -/
def lower (table : Table) (enclosing : Connective) (negated : Bool) :
    Predicate → Except Error (List Condition)
  | .not inner => lower table enclosing (!negated) inner
  | .join connective left right =>
    if negated = false ∧ enclosing = connective then do
      let first ← lower table enclosing false left
      let second ← lower table enclosing false right
      return first ++ second
    else do
      let first ← lower table connective false left
      let second ← lower table connective false right
      return [.group connective negated (first ++ second)]
  | other => do return [← leaf table negated other]

end Lowering

/-- The filter that a predicate stands for. -/
def Predicate.lower (table : Table) (predicate : Predicate) : Except Error Filter := do
  return { members := ← Lowering.lower table .and false predicate }

/-- The columns that rows are ordered by, and whether each is descending. -/
def OrderTerm.lowerAll (table : Table) (terms : List OrderTerm) :
    Except Error (List (Nat × Bool)) :=
  terms.mapM fun term =>
    match term.key.member? with
    | some name => do return (← Lowering.column table name, term.descending)
    | none => .error (.predicate (.notAnOrder term.key))

end RelationalAccess
