import RelationalAccess.Error.Kind
import RelationalAccess.Query.Predicate
import RelationalAccess.Schema.Declaration
import RelationalAccess.Schema.HostType
import RelationalAccess.Settings

/-!
The faults that can be found in settings, in a schema, in a column value and in
a predicate, each with what it is about and with its wording.
-/

namespace RelationalAccess

def SettingsFault.message : SettingsFault → String
  | zeroLimit kind => "cache limit " ++ kind.name ++ " must be greater than zero"
  | zeroIndexKeys => "index cache MaxRows must be greater than zero"

/-- What is wrong with the declaration of a schema. -/
inductive SchemaFault where
  | duplicateTable (database table : String)
  | invalidTableName (table : String)
  | invalidColumnName (table column : String)
  | duplicateColumn (table column : String)
  | unreadableType (table column model declaration : String) (fault : DeclarationFault)
  | nullableKey (table column : String)
  | unknownIndexColumn (index table column : String)
  | unknownReferencedTable (constraint table column referenced : String)
  | unknownReferencingColumn (constraint table column : String)
  | unknownReferencedColumn (constraint table column : String)
  | unresolvableType (engine : Engine) (table column model property : String) (host : HostType)

namespace SchemaFault

def columnText (table column : String) : String := "column '" ++ table ++ "." ++ column ++ "'"

def message : SchemaFault → String
  | duplicateTable database table =>
    "database '" ++ database ++ "' declares table '" ++ table ++ "' more than once"
  | invalidTableName table =>
    "table '" ++ table ++ "' has an invalid identifier '" ++ table ++ "'"
  | invalidColumnName table column =>
    columnText table column ++ " has an invalid identifier '" ++ column ++ "'"
  | duplicateColumn table column => columnText table column ++ " is declared more than once"
  | unreadableType table column model declaration fault =>
    columnText table column ++ " (model '" ++ model ++ "'): invalid column type '" ++ declaration ++
      "': " ++ fault.message
  | nullableKey table column =>
    columnText table column ++ " is a primary key and cannot be nullable"
  | unknownIndexColumn index table column =>
    "index '" ++ index ++ "' on table '" ++ table ++ "' references unknown column '" ++ column ++ "'"
  | unknownReferencedTable constraint table column referenced =>
    "foreign key '" ++ constraint ++ "' on '" ++ table ++ "." ++ column ++
      "' references unknown table '" ++ referenced ++ "'"
  | unknownReferencingColumn constraint table column =>
    "foreign key '" ++ constraint ++ "' uses unknown column '" ++ table ++ "." ++ column ++ "'"
  | unknownReferencedColumn constraint table column =>
    "foreign key '" ++ constraint ++ "' references unknown column '" ++ table ++ "." ++ column ++ "'"
  | unresolvableType engine table column model property host =>
    "cannot resolve a " ++ engine.name ++ " type for " ++ columnText table column ++ " (model '" ++
      model ++ "', property '" ++ property ++ "', host type " ++ host.display ++ ")"

end SchemaFault

/-- Why a column cannot hold a value. -/
inductive ConversionFault where
  | mismatch (column : String) (host : HostType) (kindName : String)
  | notALabel (text column : String)
  | outOfRange (number : Int) (column : String) (host : HostType)
  | unexpectedNull (column : String)
  | unreadable (column : String)

namespace ConversionFault

def kind : ConversionFault → ErrorKind
  | unexpectedNull _ => .unexpectedNull
  | _ => .invalidType

def message : ConversionFault → String
  | mismatch column host kindName =>
    "column '" ++ column ++ "' (" ++ host.display ++ ") cannot hold a " ++ kindName ++ " value"
  | notALabel text column =>
    "'" ++ text ++ "' is not a label of enum column '" ++ column ++ "'"
  | outOfRange number column host =>
    String.ofList (Numeral.integer number) ++ " does not fit column '" ++ column ++ "' (" ++
      host.display ++ ")"
  | unexpectedNull column =>
    "column '" ++ column ++ "' is not nullable but the backend returned NULL"
  | unreadable column => "column '" ++ column ++ "' holds an unreadable value"

end ConversionFault

/-- Why a predicate or an order has no form in SQL. -/
inductive PredicateFault where
  | notAPredicate (predicate : Predicate)
  | notBoolean (column : String)
  | unfoldable (left : Value) (comparator : Comparator) (right : Value)
  | betweenColumns
  | orderedAgainstNull (column : String)
  | unknownMethod (method : String) (arguments : Nat)
  | patternNotText (column : String)
  | notAnOperand (predicate : Predicate)
  | constantForField (value : Value)
  | notAnOrder (key : Predicate)

namespace PredicateFault

def kind : PredicateFault → ErrorKind
  | orderedAgainstNull _ => .invalidArgument
  | _ => .notImplemented

def message : PredicateFault → String
  | notAPredicate predicate => "cannot translate " ++ predicate.inspect ++ " to a predicate"
  | notBoolean column => "non-boolean column '" ++ column ++ "' used as a predicate"
  | unfoldable left comparator right =>
    "cannot fold constant comparison " ++ left.inspect ++ " " ++ comparator.inspect ++ " " ++
      right.inspect
  | betweenColumns => "column-to-column comparisons are not supported"
  | orderedAgainstNull column => "column '" ++ column ++ "' cannot be ordered against null"
  | unknownMethod method arguments =>
    "method '" ++ method ++ "' with " ++ String.ofList (Numeral.decimal arguments) ++
      " argument(s) cannot be translated to SQL"
  | patternNotText column => "string match on '" ++ column ++ "' needs a constant string argument"
  | notAnOperand predicate => "unsupported operand " ++ predicate.inspect
  | constantForField value => "expected a field, found constant " ++ value.display
  | notAnOrder key => "cannot order by " ++ key.inspect ++ "; only field accesses are supported"

end PredicateFault

end RelationalAccess
