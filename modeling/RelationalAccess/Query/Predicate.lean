import RelationalAccess.Value.Text

/-!
Predicates over the fields of a table, as a host program builds them, and the
terms by which rows are ordered.
-/

namespace RelationalAccess

/-- How two operands are compared. -/
inductive Comparator where
  | eq
  | ne
  | gt
  | ge
  | lt
  | le
  deriving DecidableEq

namespace Comparator

def inspect : Comparator → String
  | eq => "Eq"
  | ne => "Ne"
  | gt => "Gt"
  | ge => "Ge"
  | lt => "Lt"
  | le => "Le"

def all : List Comparator := [eq, ne, gt, ge, lt, le]

/-- The comparison that says the same with its operands exchanged. -/
def flipped : Comparator → Comparator
  | gt => lt
  | ge => le
  | lt => gt
  | le => ge
  | same => same

end Comparator

/-- How predicates are joined. -/
inductive Connective where
  | and
  | or
  deriving DecidableEq

def Connective.inspect : Connective → String
  | and => "And"
  | or => "Or"

/-- A predicate, or a part of one. -/
inductive Predicate where
  /-- A column by its name or by the name of its property. -/
  | field (name : String)
  | constant (value : Value)
  | list (values : List Value)
  /-- A view of a list, which stands for the list. -/
  | span (inner : Predicate)
  /-- The value of a field that may be null. -/
  | unwrap (inner : Predicate)
  | compare (comparator : Comparator) (left right : Predicate)
  | join (connective : Connective) (left right : Predicate)
  | not (inner : Predicate)
  | call (target : Predicate) (method : String) (arguments : List Predicate)

namespace Predicate

def inspectBinary (name left right : String) : String :=
  "Binary \x7b op: " ++ name ++ ", left: " ++ left ++ ", right: " ++ right ++ " \x7d"

mutual

/-- The text of a predicate that shows how it is built. -/
def inspect : Predicate → String
  | field name => Value.tagged "Field" (Inspected.text name)
  | constant value => Value.tagged "Constant" value.inspect
  | list values => Value.tagged "List" (Inspected.list (values.map Value.inspect))
  | span inner => Value.tagged "Span" inner.inspect
  | unwrap inner => Value.tagged "Unwrap" inner.inspect
  | compare comparator left right => inspectBinary comparator.inspect left.inspect right.inspect
  | join connective left right => inspectBinary connective.inspect left.inspect right.inspect
  | not inner => Value.tagged "Not" inner.inspect
  | call target method arguments =>
    "Call \x7b target: " ++ target.inspect ++ ", method: " ++ Inspected.text method ++
      ", args: " ++ Inspected.list (inspectAll arguments) ++ " \x7d"

/-- The texts of several predicates. -/
def inspectAll : List Predicate → List String
  | [] => []
  | first :: others => first.inspect :: inspectAll others

end

/-- The name of the field that a predicate is, behind any unwrapping. -/
def member? : Predicate → Option String
  | field name => some name
  | unwrap inner => inner.member?
  | _ => none

/-- The values of the list that a predicate is, behind any view. -/
def listed? : Predicate → Option (List Value)
  | list values => some values
  | span inner => inner.listed?
  | _ => none

end Predicate

/-- One term by which rows are ordered. -/
structure OrderTerm where
  key : Predicate
  descending : Bool

end RelationalAccess
