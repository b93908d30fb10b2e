/-!
Numerals: the digits of a natural number in base ten and base sixteen, with
leading zeros where a field has a fixed width, and the number a run of digits
stands for.
-/

namespace RelationalAccess.Numeral

/-- The decimal digits of a number, without leading zeros. -/
def decimal (number : Nat) : List Char := Nat.toDigits 10 number

/-- Fills a text up on the left. -/
def padLeft (filler : Char) (width : Nat) (text : List Char) : List Char :=
  List.replicate (width - text.length) filler ++ text

/-- Decimal digits with zeros in front up to the width. -/
def decimalPadded (width number : Nat) : List Char := padLeft '0' width (decimal number)

/-- Lower-case digits in base sixteen, without leading zeros. -/
def hexadecimal (number : Nat) : List Char := Nat.toDigits 16 number

/-- Lower-case digits in base sixteen with zeros in front up to the width. -/
def hexadecimalPadded (width number : Nat) : List Char := padLeft '0' width (hexadecimal number)

/-- The value of one digit in base ten. -/
def digit? (char : Char) : Option Nat :=
  if char.isDigit then some (char.toNat - '0'.toNat) else none

/-- The value of one digit in base sixteen, of either case. -/
def hexDigit? (char : Char) : Option Nat :=
  if char.isDigit then some (char.toNat - '0'.toNat)
  else if 'a' ≤ char ∧ char ≤ 'f' then some (char.toNat - 'a'.toNat + 10)
  else if 'A' ≤ char ∧ char ≤ 'F' then some (char.toNat - 'A'.toNat + 10)
  else none

/-- The number that a run of digits stands for, the first digit being the greatest. -/
def value (base : Nat) (digits : List Nat) : Nat :=
  digits.foldl (fun total digit => base * total + digit) 0

/-- The number written by a non-empty run of decimal digits. -/
def ofDecimal? (chars : List Char) : Option Nat :=
  match chars with
  | [] => none
  | _ => (chars.mapM digit?).map (value 10)

/-- An integer with a minus sign where it is negative. -/
def integer (number : Int) : List Char :=
  if number < 0 then '-' :: decimal number.natAbs else decimal number.natAbs

@[simp] theorem value_nil (base : Nat) : value base [] = 0 := rfl

theorem value_append_one (base : Nat) (digits : List Nat) (last : Nat) :
    value base (digits ++ [last]) = base * value base digits + last := by
  simp [value, List.foldl_append]

end RelationalAccess.Numeral
