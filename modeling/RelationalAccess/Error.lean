import RelationalAccess.Error.Fault
import RelationalAccess.Keys

/-!
Errors: each constructor is a cause, with the kind of failure it counts as and
the text that reports it.
-/

namespace RelationalAccess

/-- Where a transaction stands. -/
inductive TransactionState where
  | active
  | committed
  | rolledBack
  /-- Ended without a commit: dropped, or its commit failed. -/
  | closed
  deriving DecidableEq

def TransactionState.display : TransactionState → String
  | active => "open"
  | committed => "committed"
  | rolledBack => "rolled back"
  | closed => "closed"

/-- Why an operation failed. -/
inductive Error where
  /-- A failure reported from outside, with its own wording. -/
  | reported (kind : ErrorKind) (text : String)
  | unreadableSettings
  | settings (fault : SettingsFault)
  | declaration (text : String) (fault : DeclarationFault)
  | schema (fault : SchemaFault)
  | conversion (fault : ConversionFault)
  | predicate (fault : PredicateFault)
  /-- A table was asked for by a name that neither a table nor a model has. -/
  | unknownTable (database name : String)
  /-- A column was asked for that the table lacks. -/
  | missingColumn (table column : String)
  /-- A column was named, to be set or compared, that the table lacks. -/
  | unknownColumn (table column : String)
  | untypedColumn (column property : String) (engine : Engine)
  | noDialect
  | rowWidth (table : String) (found expected : Nat)
  | noKeyToSelect (table : String)
  | unusableKeys (keys : Keys) (table : String)
  | nothingToUpdate (table : String) (keys : Keys)
  | badCount (table : String) (found : Option Value)
  | missingRelation (table relation : String)
  | missingCache (table : String)
  | notActive (operation : String) (transaction : Nat) (state : TransactionState)
  | foreignTable (table database : String)
  | alreadyStored (keys : Keys) (table : String)
  | neverStored (table : String)
  | missingValue (table column : String)
  | missingGeneratedKey (table column : String)
  | noRowToUpdate (table : String) (keys : Keys)
  /-- Failures that are independent of each other. -/
  | several (causes : List Error)

namespace Error

def kind : Error → ErrorKind
  | reported kind _ => kind
  | unreadableSettings => .parse
  | settings _ => .invalidArgument
  | declaration _ _ => .parse
  | schema _ => .invalidModel
  | conversion fault => fault.kind
  | predicate fault => fault.kind
  | unknownTable _ _ => .notFound
  | missingColumn _ _ => .notFound
  | unknownColumn _ _ => .invalidArgument
  | untypedColumn _ _ _ => .invalidModel
  | noDialect => .invalidArgument
  | rowWidth _ _ _ => .invalidArgument
  | noKeyToSelect _ => .invalidArgument
  | unusableKeys _ _ => .invalidArgument
  | nothingToUpdate _ _ => .invalidArgument
  | badCount _ _ => .backend
  | missingRelation _ _ => .notFound
  | missingCache _ => .notFound
  | notActive _ _ _ => .invalidState
  | foreignTable _ _ => .invalidArgument
  | alreadyStored _ _ => .invalidArgument
  | neverStored _ => .invalidArgument
  | missingValue _ _ => .invalidArgument
  | missingGeneratedKey _ _ => .backend
  | noRowToUpdate _ _ => .notFound
  | several _ => .aggregation

def number (number : Nat) : String := String.ofList (Numeral.decimal number)

def columnMissing (table column : String) : String :=
  "table '" ++ table ++ "' has no column '" ++ column ++ "'"

/-- What an error says, without its kind and without its causes. -/
def context : Error → String
  | reported _ text => text
  | unreadableSettings => "settings cannot be read"
  | settings fault => fault.message
  | declaration text fault => "invalid column type '" ++ text ++ "': " ++ fault.message
  | schema fault => fault.message
  | conversion fault => fault.message
  | predicate fault => fault.message
  | unknownTable database name =>
    "database '" ++ database ++ "' has no table or model '" ++ name ++ "'"
  | missingColumn table column => columnMissing table column
  | unknownColumn table column => columnMissing table column
  | untypedColumn column property engine =>
    "column '" ++ column ++ "' (property '" ++ property ++ "') has no type for " ++ engine.name
  | noDialect => "no SQL dialect for the Default backend"
  | rowWidth table found expected =>
    "row for table '" ++ table ++ "' has " ++ number found ++ " values, expected " ++
      number expected
  | noKeyToSelect table => "table '" ++ table ++ "' has no primary key to select"
  | unusableKeys keys table =>
    "keys " ++ keys.display ++ " do not identify a row of '" ++ table ++ "'"
  | nothingToUpdate table keys =>
    "update of '" ++ table ++ "' " ++ keys.display ++ " has no changed columns"
  | badCount table found =>
    "COUNT(*) on '" ++ table ++ "' returned " ++
      match found with
      | none => "None"
      | some value => Value.tagged "Some" value.inspect
  | missingRelation table relation =>
    "table '" ++ table ++ "' has no relation '" ++ relation ++ "'"
  | missingCache table => "no cache for table '" ++ table ++ "'"
  | notActive operation transaction state =>
    "cannot " ++ operation ++ " in transaction " ++ number transaction ++ ": it is " ++ state.display
  | foreignTable table database =>
    "table '" ++ table ++ "' does not belong to database '" ++ database ++ "'"
  | alreadyStored keys table =>
    "row " ++ keys.display ++ " of '" ++ table ++ "' is already stored; update it instead"
  | neverStored table => "row of '" ++ table ++ "' has not been stored; insert it instead"
  | missingValue table column =>
    SchemaFault.columnText table column ++ " is not nullable and has no value"
  | missingGeneratedKey table column =>
    "backend reported no generated key for '" ++ table ++ "." ++ column ++ "'"
  | noRowToUpdate table keys =>
    "no row of '" ++ table ++ "' with keys " ++ keys.display ++ " to update"
  | several causes => number causes.length ++ " errors occurred"

def causes : Error → List Error
  | several causes => causes
  | _ => []

/-- One error for several failures; a single failure stays as it is. -/
def aggregate : List Error → Error
  | [only] => only
  | errors => several errors

mutual

/-- The whole text of an error: kind, context, and a line for each cause. -/
def display (error : Error) : String :=
  error.kind.name ++ ": " ++ error.context ++
    match error with
    | several causes => displayAll causes
    | _ => ""

/-- A line for each of several causes. -/
def displayAll : List Error → String
  | [] => ""
  | first :: others => "\n  - " ++ first.display ++ displayAll others

end

end Error

/-- The column type that a declaration for an engine states. -/
def ColumnType.ofText (engine : Engine) (text : String) : Except Error ColumnType :=
  (ColumnType.parse engine text).mapError (.declaration text)

end RelationalAccess
