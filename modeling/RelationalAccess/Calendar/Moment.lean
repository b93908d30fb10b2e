import RelationalAccess.Calendar.Date

/-!
Moments of universal time: seconds from 1970-01-01 00:00:00 with nanoseconds.
A leap second is the last second of a minute with a thousand million
nanoseconds or more. Moments are written in three ways and read in two.
-/

namespace RelationalAccess

/-- A moment of universal time. -/
structure Moment where
  seconds : Int
  nanoseconds : Nat
  nanoseconds_lt : nanoseconds < 2000000000
  deriving DecidableEq

namespace Moment

/-- Only the last second of a minute may be a leap second. -/
def of? (seconds : Int) (nanoseconds : Nat) : Option Moment :=
  if bound : nanoseconds < 2000000000 then
    if nanoseconds < 1000000000 ∨ seconds % 60 = 59 then some ⟨seconds, nanoseconds, bound⟩ else none
  else none

/-- The moment a calendar day and a time of day give. -/
def ofFields? (date : Date) (hour minute second nanoseconds : Nat) : Option Moment :=
  if hour < 24 ∧ minute < 60 ∧ second ≤ 60 then
    let (wholeSecond, leap) := if second = 60 then (59, 1000000000) else (second, 0)
    of? (date.toDays * 86400 + Int.ofNat (hour * 3600 + minute * 60 + wholeSecond))
      (nanoseconds + leap)
  else none

/-- A moment taken apart; `second` is 60 in a leap second. -/
structure Fields where
  year : Int
  month : Nat
  day : Nat
  hour : Nat
  minute : Nat
  second : Nat
  nanosecond : Nat

def fields (moment : Moment) : Fields :=
  let (year, month, day) := Calendar.civilFromDays (moment.seconds / 86400)
  let secondOfDay := (moment.seconds % 86400).toNat
  { year, month, day
    hour := secondOfDay / 3600
    minute := secondOfDay / 60 % 60
    second := secondOfDay % 60 + moment.nanoseconds / 1000000000
    nanosecond := moment.nanoseconds % 1000000000 }

def Fields.dayText (fields : Fields) : List Char :=
  Calendar.civilText fields.year fields.month fields.day

def Fields.timeText (fields : Fields) : List Char :=
  Numeral.decimalPadded 2 fields.hour ++ ':' :: Numeral.decimalPadded 2 fields.minute ++
    ':' :: Numeral.decimalPadded 2 fields.second

/-- A fraction of a second in three, six or nine digits, the fewest that lose
nothing; none for a whole second. -/
def fractionText (nanosecond : Nat) : List Char :=
  if nanosecond = 0 then []
  else if nanosecond % 1000000 = 0 then '.' :: Numeral.decimalPadded 3 (nanosecond / 1000000)
  else if nanosecond % 1000 = 0 then '.' :: Numeral.decimalPadded 6 (nanosecond / 1000)
  else '.' :: Numeral.decimalPadded 9 nanosecond

/-- Day and time with `T` between them and the given mark of the zone behind. -/
def zonedText (zone : List Char) (moment : Moment) : String :=
  let fields := moment.fields
  String.ofList (fields.dayText ++ 'T' :: fields.timeText ++ fractionText fields.nanosecond ++ zone)

/-- The text with the offset of universal time. -/
def offsetText (moment : Moment) : String := zonedText ['+', '0', '0', ':', '0', '0'] moment

/-- The text with the letter for universal time. -/
def zuluText (moment : Moment) : String := zonedText ['Z'] moment

/-- The text of a stored moment, cut to microseconds. All years of four digits
give texts of one length, which sort as the moments do. -/
def storedText (moment : Moment) : String :=
  let fields := moment.fields
  String.ofList (fields.dayText ++ ' ' :: fields.timeText ++
    '.' :: Numeral.decimalPadded 6 (fields.nanosecond / 1000))

/-- Reads the digits of a fraction of a second; those after the ninth are dropped. -/
def readFraction : Reader Nat := do
  let digits ← Reader.digits 1 9
  Reader.skipDigits
  return Numeral.value 10 digits * Nat.pow 10 (9 - digits.length)

/-- Reads a fraction after a point, or nothing. -/
def readOptionalFraction : Reader Nat := do
  if ← Reader.optionally '.' then readFraction else return 0

/-- Reads a stored moment: day, white space, time, and perhaps a fraction. -/
def readStored : Reader Moment := do
  let date ← Date.read
  Reader.blanks
  let hour ← Calendar.readField
  Reader.exactly ':'
  let minute ← Calendar.readField
  Reader.exactly ':'
  let second ← Calendar.readField
  let nanoseconds ← readOptionalFraction
  (ofFields? date hour minute second nanoseconds : Option Moment)

/-- Reads the zone of a moment, in seconds east: a `Z`, or a sign with hours
and minutes. -/
def readZone : Reader Int := fun text =>
  let offset : Reader Nat := do
    let hours ← Reader.number 2 2
    Reader.exactly ':'
    let minutes ← Reader.number 2 2
    if hours < 24 ∧ minutes < 60 then return hours * 3600 + minutes * 60 else failure
  match text with
  | char :: rest =>
    if char = 'Z' ∨ char = 'z' then some (0, rest)
    else if char = '+' then (offset rest).map fun (seconds, left) => (Int.ofNat seconds, left)
    else if char = '-' ∨ char = '\u2212' then
      (offset rest).map fun (seconds, left) => (-Int.ofNat seconds, left)
    else none
  | [] => none

/-- Reads the mark between day and time. -/
def readDayMark : Reader Unit := fun text =>
  match text with
  | char :: rest => if char = 'T' ∨ char = 't' ∨ char = ' ' then some ((), rest) else none
  | [] => none

/-- Reads a moment with fields of fixed width and its zone, as on the wire. -/
def readZoned : Reader Moment := do
  let year ← Reader.number 4 4
  Reader.exactly '-'
  let month ← Reader.number 2 2
  Reader.exactly '-'
  let day ← Reader.number 2 2
  readDayMark
  let hour ← Reader.number 2 2
  Reader.exactly ':'
  let minute ← Reader.number 2 2
  Reader.exactly ':'
  let second ← Reader.number 2 2
  let nanoseconds ← readOptionalFraction
  let east ← readZone
  let date ← (Date.of? (Int.ofNat year) month day : Option Date)
  let here ← (ofFields? date hour minute second nanoseconds : Option Moment)
  return { here with seconds := here.seconds - east }

/-- The moment that a whole text gives, as it is stored or with a zone. -/
def ofText? (text : String) : Option Moment := readStored.run? text <|> readZoned.run? text

end Moment

end RelationalAccess
