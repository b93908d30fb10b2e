import RelationalAccess.Number.Binary64
import RelationalAccess.Calendar.Moment
import RelationalAccess.Network.Address
import RelationalAccess.Uuid

/-!
Column values: what a host program puts into a column, what a statement binds,
and what an engine returns.
-/

namespace RelationalAccess

/-- The value of one column. Values of different kinds are never equal, and
doubles are equal if their bits are. -/
inductive Value where
  | null
  | bool (value : Bool)
  | int (value : Int64)
  | float (value : Binary64)
  | text (value : String)
  | bytes (value : List UInt8)
  | uuid (value : Uuid)
  | dateTime (value : Moment)
  | date (value : Date)
  | address (value : Address)
  deriving DecidableEq

instance : Inhabited Value := ⟨.null⟩

namespace Value

def isNull : Value → Bool
  | .null => true
  | _ => false

def asBool? : Value → Option Bool
  | .bool value => some value
  | _ => none

def asInt? : Value → Option Int64
  | .int value => some value
  | _ => none

/-- Integers are also read as doubles. -/
def asFloat? : Value → Option Binary64
  | .float value => some value
  | .int value => some (Binary64.ofInt value.toInt)
  | _ => none

def asText? : Value → Option String
  | .text value => some value
  | _ => none

def asUuid? : Value → Option Uuid
  | .uuid value => some value
  | _ => none

/-- The name of the kind of a value. -/
def kindName : Value → String
  | .null => "null"
  | .bool _ => "bool"
  | .int _ => "int"
  | .float _ => "float"
  | .text _ => "text"
  | .bytes _ => "bytes"
  | .uuid _ => "uuid"
  | .dateTime _ => "datetime"
  | .date _ => "date"
  | .address _ => "ipaddr"

/-- The octets of memory that every value is counted with. -/
def inlineSize : Nat := 32

/-- The octets of memory a value is counted with; text and octet strings are
counted with their content. -/
def size : Value → Nat
  | .text value => inlineSize + value.utf8ByteSize
  | .bytes value => inlineSize + value.length
  | _ => inlineSize

@[simp] theorem isNull_iff (value : Value) : value.isNull = true ↔ value = .null := by
  cases value <;> simp [isNull]

end Value

end RelationalAccess
