import RelationalAccess.Number.Numeral
import RelationalAccess.Schema.Engine
import RelationalAccess.Text.Quoted

/-!
The column types of engines, such as `decimal(10,2) unsigned`, with the two
texts of a type: as it is declared, and as it stands in a `CREATE TABLE`.
-/

namespace RelationalAccess

/-- A column type, as declared or resolved for one engine. -/
structure ColumnType where
  engine : Engine
  /-- The name without arguments, in lower case. -/
  name : String
  length : Option Nat := none
  decimals : Option Nat := none
  unsigned : Bool := false
  /-- The labels of an `enum` or `set`. -/
  labels : List String := []
  deriving DecidableEq

namespace ColumnType

/-- A type with its name in lower case and without arguments. -/
def named (engine : Engine) (name : String) : ColumnType :=
  { engine, name := String.ofList (name.toList.map Char.toLower) }

def withLength (type : ColumnType) (length : Nat) : ColumnType := { type with length := some length }

def forEngine (type : ColumnType) (engine : Engine) : ColumnType := { type with engine }

/-- The arguments of a type in parentheses: its labels, or else its length with
its decimals; none without a length. -/
def argumentsText (type : ColumnType) : String :=
  if type.labels.isEmpty then
    match type.length, type.decimals with
    | none, _ => ""
    | some length, none => "(" ++ String.ofList (Numeral.decimal length) ++ ")"
    | some length, some decimals =>
      "(" ++ String.ofList (Numeral.decimal length) ++ "," ++
        String.ofList (Numeral.decimal decimals) ++ ")"
  else "(" ++ String.intercalate "," (type.labels.map (Quoted.encloseText '\x27')) ++ ")"

/-- The type as it is declared. -/
def display (type : ColumnType) : String :=
  type.name ++ type.argumentsText ++ (if type.unsigned then " unsigned" else "")

/-- The type as it stands in a `CREATE TABLE`: labels keep their case, all else
is in upper case. -/
def ddl (type : ColumnType) : String :=
  String.ofList (type.name.toList.map Char.toUpper) ++ type.argumentsText ++
    (if type.unsigned then " UNSIGNED" else "")

end ColumnType

end RelationalAccess
