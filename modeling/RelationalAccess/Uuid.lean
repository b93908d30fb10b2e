import RelationalAccess.Text.Reader

/-!
Universally unique identifiers: sixteen octets, written as thirty-two digits in
base sixteen.
-/

namespace RelationalAccess

/-- Sixteen octets that name something uniquely. -/
structure Uuid where
  octets : List UInt8
  length_octets : octets.length = 16
  deriving DecidableEq

namespace Uuid

def ofOctets? (octets : List UInt8) : Option Uuid :=
  if length_octets : octets.length = 16 then some ⟨octets, length_octets⟩ else none

def digits (octets : List UInt8) : List Char :=
  octets.flatMap fun octet => Numeral.hexadecimalPadded 2 octet.toNat

/-- The digits in groups of 8, 4, 4, 4 and 12, with hyphens between them. -/
def text (uuid : Uuid) : String :=
  let part (first count : Nat) := digits ((uuid.octets.drop first).take count)
  String.ofList (part 0 4 ++ '-' :: part 4 2 ++ '-' :: part 6 2 ++ '-' :: part 8 2 ++
    '-' :: part 10 6)

/-- The octets that pairs of digits give. -/
def octetsOfDigits? : List Char → Option (List UInt8)
  | [] => some []
  | [_] => none
  | high :: low :: rest => do
    let high ← Numeral.hexDigit? high
    let low ← Numeral.hexDigit? low
    return UInt8.ofNat (16 * high + low) :: (← octetsOfDigits? rest)

/-- Thirty-two digits without hyphens. -/
def ofPlain? (text : List Char) : Option Uuid := do
  ofOctets? (← octetsOfDigits? text)

/-- Thirty-two digits with hyphens after the eighth, twelfth, sixteenth and twentieth. -/
def ofHyphenated? (text : List Char) : Option Uuid :=
  if text[8]? = some '-' ∧ text[13]? = some '-' ∧ text[18]? = some '-' ∧ text[23]? = some '-' then
    ofPlain? (text.take 8 ++ (text.drop 9).take 4 ++ (text.drop 14).take 4 ++
      (text.drop 19).take 4 ++ text.drop 24)
  else none

/-- The mark of an identifier used as a resource name, which a text may write with
capitals. -/
def resourceMark : List Char := ['u', 'r', 'n', ':', 'u', 'u', 'i', 'd', ':']

/-- The identifier a text gives: plain, hyphenated, or hyphenated within braces
or behind the mark of a resource name. -/
def ofText? (text : String) : Option Uuid :=
  let chars := text.toList
  match chars.length with
  | 32 => ofPlain? chars
  | 36 => ofHyphenated? chars
  | 38 =>
    if chars.head? = some '\x7b' ∧ chars.getLast? = some '\x7d' then
      ofHyphenated? ((chars.drop 1).take 36)
    else none
  | 45 =>
    if (chars.take 9).map Char.toLower = resourceMark then ofHyphenated? (chars.drop 9) else none
  | _ => none

/-- The version an identifier states. -/
def version (uuid : Uuid) : Nat := (uuid.octets.getD 6 0).toNat / 16

/-- Sets the version and the variant of sixteen octets. -/
def stamp (version : UInt8) (octets : List UInt8) : List UInt8 :=
  octets.mapIdx fun position octet =>
    if position = 6 then octet % 16 + 16 * version
    else if position = 8 then octet % 64 + 128
    else octet

/-- The octets of a number, the greatest first. -/
def octetsOf (count number : Nat) : List UInt8 :=
  (List.range count).map fun position =>
    UInt8.ofNat (number / Nat.pow 256 (count - 1 - position))

theorem length_octetsOf (count number : Nat) : (octetsOf count number).length = count := by
  simp [octetsOf]

/-- A random identifier, of version 4. -/
def random (entropy : Nat) : Uuid :=
  ⟨stamp 4 (octetsOf 16 entropy), by simp [stamp, length_octetsOf]⟩

/-- An identifier that starts with a time in milliseconds, of version 7. -/
def timed (milliseconds entropy : Nat) : Uuid :=
  ⟨stamp 7 (octetsOf 6 milliseconds ++ octetsOf 10 entropy), by simp [stamp, length_octetsOf]⟩

end Uuid

end RelationalAccess
