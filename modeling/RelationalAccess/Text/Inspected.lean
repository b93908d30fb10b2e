import RelationalAccess.Number.Numeral
import RelationalAccess.Text.Unprintable

/-!
Text between double quotes with the escapes by which it can be told apart from
what stands around it.
-/

namespace RelationalAccess.Inspected

/-- One character within double quotes. -/
def escape (char : Char) : List Char :=
  if char = '\x00' then ['\\', '0']
  else if char = '\t' then ['\\', 't']
  else if char = '\r' then ['\\', 'r']
  else if char = '\n' then ['\\', 'n']
  else if char = '\x22' then ['\\', '\x22']
  else if char = '\\' then ['\\', '\\']
  else if Unprintable.isUnprintable char then
    ['\\', 'u', '\x7b'] ++ Numeral.hexadecimal char.toNat ++ ['\x7d']
  else [char]

/-- The text with its escapes, between double quotes. -/
def text (content : String) : String :=
  String.ofList ('\x22' :: content.toList.flatMap escape ++ ['\x22'])

/-- Items with a comma and a space between them, in square brackets. -/
def list (items : List String) : String :=
  "[" ++ String.intercalate ", " items ++ "]"

end RelationalAccess.Inspected
