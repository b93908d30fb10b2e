import RelationalAccess.Network.Address
import RelationalAccess.Text.Reader

/-!
Reading network addresses. Octets are decimal without leading zeros. Groups are
one to four digits in base sixteen; a pair of colons stands for at least one
zero group, and the last two groups may be written as four octets.
-/

namespace RelationalAccess.Address

/-- Reads one octet of one to three digits, without a leading zero. -/
def readOctet : Reader UInt8 := fun text =>
  let run := text.takeWhile Char.isDigit
  match Numeral.ofDecimal? run with
  | none => none
  | some number =>
    if 3 < run.length ∨ 255 < number ∨ (1 < run.length ∧ run.head? = some '0') then none
    else some (UInt8.ofNat number, text.drop run.length)

/-- Reads four octets with points between them. -/
def readOctets : Reader (Vector UInt8 4) := do
  let first ← readOctet
  Reader.exactly '.'
  let second ← readOctet
  Reader.exactly '.'
  let third ← readOctet
  Reader.exactly '.'
  let fourth ← readOctet
  return #v[first, second, third, fourth]

/-- Reads one group of one to four digits. -/
def readGroup : Reader UInt16 := fun text =>
  let run := text.takeWhile fun char => (Numeral.hexDigit? char).isSome
  if run.isEmpty ∨ 4 < run.length then none
  else
    some (UInt16.ofNat (Numeral.value 16 (run.filterMap Numeral.hexDigit?)), text.drop run.length)

/-- Reads what follows a colon, or what stands at the very start. -/
def afterColon (start : Bool) (reader : Reader α) : Reader α := do
  if start then reader
  else
    Reader.exactly ':'
    reader

/-- Four octets as two groups. -/
def pairOfOctets (octets : Vector UInt8 4) : List UInt16 :=
  [UInt16.ofNat (256 * octets[0].toNat + octets[1].toNat),
    UInt16.ofNat (256 * octets[2].toNat + octets[3].toNat)]

/-- Groups read so far, whether they end in four octets, and the text left. -/
structure GroupRun where
  groups : List UInt16
  endsInOctets : Bool
  rest : List Char

/-- Reads up to `room` further groups; four octets may stand for the last two
that fit and end the run. -/
def readGroups : (room : Nat) → (start : Bool) → List Char → GroupRun
  | 0, _, text => ⟨[], false, text⟩
  | room + 1, start, text =>
    let octets := if room = 0 then none else afterColon start readOctets text
    match octets with
    | some (octets, rest) => ⟨pairOfOctets octets, true, rest⟩
    | none =>
      match afterColon start readGroup text with
      | none => ⟨[], false, text⟩
      | some (group, rest) =>
        let further := readGroups room false rest
        { further with groups := group :: further.groups }

def groups? (groups : List UInt16) : Option (Vector UInt16 8) :=
  if size : groups.toArray.size = 8 then some ⟨groups.toArray, size⟩ else none

/-- Reads eight groups, or fewer with a pair of colons for the zeros left out. -/
def readGrouped : Reader (Vector UInt16 8) := fun text =>
  let front := readGroups 8 true text
  if front.groups.length = 8 then (groups? front.groups).map (·, front.rest)
  else if front.endsInOctets then none
  else
    match front.rest with
    | ':' :: ':' :: rest =>
      let back := readGroups (7 - front.groups.length) true rest
      let zeros := List.replicate (8 - front.groups.length - back.groups.length) 0
      (groups? (front.groups ++ zeros ++ back.groups)).map (·, back.rest)
    | _ => none

/-- The address that a whole text gives. -/
def ofText? (text : String) : Option Address :=
  (do return Address.v4 (← readOctets.run? text)) <|>
    (do return Address.v6 (← readGrouped.run? text))

end RelationalAccess.Address
