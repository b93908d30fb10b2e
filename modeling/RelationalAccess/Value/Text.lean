import RelationalAccess.Number.Written
import RelationalAccess.Text.Inspected
import RelationalAccess.Value

/-!
The two texts of a value: one to read in a message, one that also shows its kind.
-/

namespace RelationalAccess.Value

/-- In messages doubles are written by place, and whole ones without a point. -/
def displaySpelling : Binary64.Spelling := { byPlace := none, wholeMark := false }

/-- With their kind, doubles below a ten-thousandth and from `10 ^ 16` up have a
power of ten, and whole ones keep a point. -/
def inspectSpelling : Binary64.Spelling := { byPlace := some (-4, 16), wholeMark := true }

/-- The text of a value in messages. -/
def display : Value → String
  | .null => "NULL"
  | .bool value => if value then "true" else "false"
  | .int value => String.ofList (Numeral.integer value.toInt)
  | .float value => String.ofList (value.spell displaySpelling)
  | .text value => "'" ++ value ++ "'"
  | .bytes value => "<" ++ String.ofList (Numeral.decimal value.length) ++ " bytes>"
  | .uuid value => value.text
  | .dateTime value => value.offsetText
  | .date value => value.text
  | .address value => value.text

/-- A named kind with its content in parentheses. -/
def tagged (name content : String) : String := name ++ "(" ++ content ++ ")"

/-- The text of a value together with its kind. -/
def inspect : Value → String
  | .null => "Null"
  | .bool value => tagged "Bool" (if value then "true" else "false")
  | .int value => tagged "Int" (String.ofList (Numeral.integer value.toInt))
  | .float value => tagged "Float" (String.ofList (value.spell inspectSpelling))
  | .text value => tagged "Text" (Inspected.text value)
  | .bytes value =>
    tagged "Bytes"
      (Inspected.list (value.map fun octet => String.ofList (Numeral.decimal octet.toNat)))
  | .uuid value => tagged "Uuid" value.text
  | .dateTime value => tagged "DateTime" value.zuluText
  | .date value => tagged "Date" value.text
  | .address value => tagged "IpAddr" value.text

end RelationalAccess.Value
