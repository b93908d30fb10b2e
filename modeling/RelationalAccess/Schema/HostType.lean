/-!
The types that the columns of a table have on the side of the host program.
-/

namespace RelationalAccess

/-- The host type of a column. -/
inductive HostType where
  | bool
  | int16
  | int32
  | int64
  | float32
  | float64
  | string
  | bytes
  | uuid
  | dateTime
  | date
  | address
  /-- One of a list of labels, stored as text. -/
  | labelled (labels : List String)
  /-- A type about which nothing is known here; its column needs a declared type. -/
  | other (name : String)
  deriving DecidableEq

/-- The host types that are known by their name alone. -/
def HostType.plain : List HostType :=
  [bool, int16, int32, int64, float32, float64, string, bytes, uuid, dateTime, date, address]

def HostType.display : HostType → String
  | bool => "Bool"
  | int16 => "Int16"
  | int32 => "Int32"
  | int64 => "Int64"
  | float32 => "Float32"
  | float64 => "Float64"
  | string => "String"
  | bytes => "Bytes"
  | uuid => "Uuid"
  | dateTime => "DateTime"
  | date => "Date"
  | address => "IpAddr"
  | labelled labels => "enum[" ++ String.intercalate "|" labels ++ "]"
  | other name => name

end RelationalAccess
