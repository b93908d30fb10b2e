import RelationalAccess.Network.Reading
import RelationalAccess.Sql.Dialect

/-!
Values on their way between the host program and an engine: what a column
accepts from the host, what is bound for it in a statement, and what a value
read from the engine becomes.
-/

namespace RelationalAccess

namespace Column

def mismatch (column : Column) (value : Value) : ConversionFault :=
  .mismatch column.name column.host value.kindName

/-- A text that must be one of a column's labels. -/
def checkLabel (column : Column) (labels : List String) (text : String) :
    Except ConversionFault Value :=
  if labels.contains text then .ok (.text text) else .error (.notALabel text column.name)

/-- An integer that must lie in a range of `2 ^ bits` numbers around zero. -/
def checkRange (column : Column) (bits : Nat) (number : Int64) : Except ConversionFault Value :=
  if -Int.pow 2 (bits - 1) ≤ number.toInt ∧ number.toInt < Int.pow 2 (bits - 1) then
    .ok (.int number)
  else .error (.outOfRange number.toInt column.name column.host)

/-- What a column takes for a value that the host program puts into it. Integers
widen to doubles; any other value must be of the column's own kind or null. -/
def accept (column : Column) (value : Value) : Except ConversionFault Value :=
  match column.host, value with
  | _, .null => .ok .null
  | .other _, value => .ok value
  | .bool, .bool flag => .ok (.bool flag)
  | .int16, .int number => column.checkRange 16 number
  | .int32, .int number => column.checkRange 32 number
  | .int64, .int number => .ok (.int number)
  | .float32, .float number | .float64, .float number => .ok (.float number)
  | .float32, .int number | .float64, .int number => .ok (.float (Binary64.ofInt number.toInt))
  | .string, .text text => .ok (.text text)
  | .bytes, .bytes octets => .ok (.bytes octets)
  | .uuid, .uuid uuid => .ok (.uuid uuid)
  | .dateTime, .dateTime moment => .ok (.dateTime moment)
  | .date, .date date => .ok (.date date)
  | .address, .address address => .ok (.address address)
  | .labelled labels, .text text => column.checkLabel labels text
  | _, value => .error (column.mismatch value)

/-- A value that could be read from its stored form, or else the fault that it cannot. -/
def readable (column : Column) (value : Option Value) : Except ConversionFault Value :=
  match value with
  | some value => .ok value
  | none => .error (.unreadable column.name)

/-- The host value of what an engine returned for a column. -/
def toHost (column : Column) (raw : Value) : Except ConversionFault Value :=
  match column.host, raw with
  | _, .null => if column.nullable then .ok .null else .error (.unexpectedNull column.name)
  | .bool, .bool flag => .ok (.bool flag)
  | .bool, .int number => .ok (.bool (number != 0))
  | .bool, .bytes [octet] => .ok (.bool (octet != 0))
  | .int16, .int number | .int32, .int number | .int64, .int number => .ok (.int number)
  | .int16, .bool flag | .int32, .bool flag | .int64, .bool flag =>
    .ok (.int (if flag then 1 else 0))
  | .float32, .float number | .float64, .float number => .ok (.float number)
  | .float32, .int number | .float64, .int number => .ok (.float (Binary64.ofInt number.toInt))
  | .string, .text text => .ok (.text text)
  | .bytes, .bytes octets => .ok (.bytes octets)
  | .uuid, .uuid uuid => .ok (.uuid uuid)
  | .uuid, .bytes octets => column.readable ((Uuid.ofOctets? octets).map .uuid)
  | .uuid, .text text => column.readable ((Uuid.ofText? text).map .uuid)
  | .dateTime, .dateTime moment => .ok (.dateTime moment)
  | .dateTime, .text text => column.readable ((Moment.ofText? text).map .dateTime)
  | .date, .date date => .ok (.date date)
  | .date, .text text => column.readable ((Date.ofText? text).map .date)
  | .address, .address address => .ok (.address address)
  | .address, .text text => column.readable ((Address.ofText? text).map .address)
  | .labelled labels, .text text => column.checkLabel labels text
  | .other _, raw => .ok raw
  | _, raw => .error (column.mismatch raw)

/-- A text for a column of labels must be one of them. -/
def checkWritten (column : Column) (value : Value) : Except ConversionFault Unit :=
  match column.host, value with
  | .labelled labels, .text text =>
    if labels.contains text then .ok () else .error (.notALabel text column.name)
  | _, _ => .ok ()

end Column

namespace Dialect

/-- The types that hold an identifier as its octets. -/
def octetTypes : List String := ["binary", "varbinary", "blob"]

/-- The types of MySQL that hold an identifier as its text. -/
def textTypes : List String := ["char", "varchar", "text"]

/-- What MySQL and MariaDB are given for a value of a column of the given type. -/
def writeMySql (type : ColumnType) : Value → Value
  | .uuid uuid =>
    if type.name ∈ octetTypes then .bytes uuid.octets
    else if type.name ∈ textTypes then .text uuid.text
    else .uuid uuid
  | .address address =>
    if type.name = "inet4" ∨ type.name = "inet6" then .address address else .text address.text
  | .dateTime moment =>
    if type.name = "datetime" ∨ type.name = "timestamp" then .dateTime moment
    else .text moment.storedText
  | value => value

/-- What SQLite is given for a value: it has no types for truth, time and
addresses, and holds identifiers as octets only in columns declared so. -/
def writeSqlite (column : Column) : Value → Except Error Value
  | .bool flag => .ok (.int (if flag then 1 else 0))
  | .uuid uuid => do
    let type ← column.requireType .sqlite
    return if type.name ∈ octetTypes then .bytes uuid.octets else .text uuid.text
  | .dateTime moment => .ok (.text moment.storedText)
  | .date date => .ok (.text date.text)
  | .address address => .ok (.text address.text)
  | value => .ok value

/-- What is bound for a value of a column. -/
def write (dialect : Dialect) (column : Column) (value : Value) : Except Error Value := do
  (column.checkWritten value).mapError .conversion
  match dialect with
  | sqlite => writeSqlite column value
  | mySql => return writeMySql (← column.requireType .mySql) value
  | mariaDb => return writeMySql (← column.requireType .mariaDb) value

/-- The host value of what was read for a column, the same in all dialects. -/
def read (_dialect : Dialect) (column : Column) (raw : Value) : Except Error Value :=
  (column.toHost raw).mapError .conversion

end Dialect

end RelationalAccess
