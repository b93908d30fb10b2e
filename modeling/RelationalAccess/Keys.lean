import RelationalAccess.Value.Text

/-!
Primary keys: the values of a row's key columns in key order, by which the row
is found.
-/

namespace RelationalAccess

/-- The key values of a row, in the order of the key columns. -/
structure Keys where
  values : List Value
  deriving DecidableEq

namespace Keys

def length (keys : Keys) : Nat := keys.values.length

/-- Keys with a null among them identify no stored row. -/
def hasNull (keys : Keys) : Bool := keys.values.any Value.isNull

/-- The values in parentheses. -/
def display (keys : Keys) : String :=
  "(" ++ String.intercalate ", " (keys.values.map Value.display) ++ ")"

end Keys

end RelationalAccess
