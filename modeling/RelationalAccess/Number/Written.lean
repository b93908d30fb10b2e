import RelationalAccess.Number.Binary64
import RelationalAccess.Number.Shortest

/-!
Doubles as text. The digits are the shortest that read back; a `Spelling` says
where they are written out by place and where with a power of ten.
-/

namespace RelationalAccess.Binary64

/-- How the digits of a double are set down. -/
structure Spelling where
  /-- Numbers whose first digit has a power of ten from the first bound up to
  the second are written by place, others with `e`; without bounds all are
  written by place. -/
  byPlace : Option (Int × Int)
  /-- Whole numbers written by place keep a `.0`. -/
  wholeMark : Bool

/-- Digits without the zeros at their end, and how many zeros that were. -/
def stripZeros (digits : List Char) : List Char × Nat :=
  let stripped := (digits.reverse.dropWhile (· == '0')).reverse
  (stripped, digits.length - stripped.length)

/-- Digits set by place: the point stands after `point` digits, which may be
outside the digits on either side. -/
def byPlace (wholeMark : Bool) (digits : List Char) (point : Int) : List Char :=
  let whole := if wholeMark then ['.', '0'] else []
  if point ≤ 0 then ['0', '.'] ++ List.replicate (-point).toNat '0' ++ digits
  else if Int.ofNat digits.length ≤ point then
    digits ++ List.replicate (point.toNat - digits.length) '0' ++ whole
  else digits.take point.toNat ++ ['.'] ++ digits.drop point.toNat

/-- Digits with one of them before the point and the power of ten after `e`. -/
def byPower (digits : List Char) (power : Int) : List Char :=
  let mantissa := match digits with
    | [] => []
    | [only] => [only]
    | first :: others => first :: '.' :: others
  mantissa ++ ['e'] ++ Numeral.integer power

/-- The text of a finite magnitude. -/
def spellFinite (spelling : Spelling) (significand : Nat) (exponent : Int) : List Char :=
  if significand = 0 then byPlace spelling.wholeMark ['0'] 1
  else
    let decimal := Shortest.shortest significand exponent
    let (digits, zeros) := stripZeros (Numeral.decimal decimal.digits)
    let point := Int.ofNat (digits.length + zeros) + decimal.exponent
    match spelling.byPlace with
    | none => byPlace spelling.wholeMark digits point
    | some (low, high) =>
      if low ≤ point - 1 ∧ point - 1 < high then byPlace spelling.wholeMark digits point
      else byPower digits (point - 1)

/-- The text of a double; a not-a-number has no sign. -/
def spell (spelling : Spelling) (number : Binary64) : List Char :=
  let sign := if number.isNegative then ['-'] else []
  match number.magnitude with
  | .notANumber => ['N', 'a', 'N']
  | .infinite => sign ++ ['i', 'n', 'f']
  | .finite significand exponent => sign ++ spellFinite spelling significand exponent

end RelationalAccess.Binary64
